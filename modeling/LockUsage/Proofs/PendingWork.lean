import LockUsage.Solver.Worklist
import Mathlib.Data.List.Perm.Basic

/-! The account of pending work. Whatever is asked of a worklist, an item comes out of it as often
as it was accepted, less one time if it is still pending, and no item is pending twice. The queue
holds the items in the order in which they were accepted last, and so decides what comes next. -/

namespace LockUsage

inductive WorkRequest (α : Type) where
  | push (item : α)
  | pop

/-- A worklist, the items that it accepted and those that were popped, in the order in which that
happened. -/
structure WorkLedger (α : Type) where
  work : Worklist α
  accepted : List α
  popped : List α

namespace WorkLedger

variable {α : Type} [DecidableEq α]

def serve (l : WorkLedger α) : WorkRequest α → WorkLedger α
  | .push item =>
    let (work, isNew) := l.work.push item
    { l with work, accepted := if isNew then l.accepted ++ [item] else l.accepted }
  | .pop =>
    match l.work.pop? with
    | some (item, work) => { l with work, popped := l.popped ++ [item] }
    | none => l

/-- The ledger after some requests to a worklist that was empty. -/
def after (order : SelectionOrder) (requests : List (WorkRequest α)) : WorkLedger α :=
  requests.foldl serve ⟨.empty order, [], []⟩

/-- How many items were accepted since an item was accepted last. -/
def age (accepted : List α) (item : α) : Nat := accepted.reverse.idxOf item

theorem age_append_self (accepted : List α) (item : α) : age (accepted ++ [item]) item = 0 := by
  simp [age]

theorem age_append_of_ne {item other : α} (h : other ≠ item) (accepted : List α) :
    age (accepted ++ [item]) other = age accepted other + 1 := by
  simp [age, List.idxOf_cons_ne _ h.symm]

/-- The accounts are right, and of two items in the queue the one behind was accepted later. -/
structure Sound (order : SelectionOrder) (l : WorkLedger α) : Prop where
  order_eq : l.work.order = order
  perm : (l.popped ++ l.work.queue).Perm l.accepted
  pairwise : l.work.queue.Pairwise fun older newer => age l.accepted newer < age l.accepted older
  fifo : order = .fifo → l.popped ++ l.work.queue = l.accepted

section Requests

variable {order : SelectionOrder} {l : WorkLedger α} {item : α} {work : Worklist α}

theorem serve_push_of_mem (h : item ∈ l.work.queue) : l.serve (.push item) = l := by
  simp [serve, Worklist.push_of_mem h]

theorem serve_push_of_not_mem (h : item ∉ l.work.queue) : l.serve (.push item) =
    ⟨l.work.add item fun hin => h (Worklist.mem_queued.mp hin), l.accepted ++ [item],
      l.popped⟩ := by
  simp [serve, Worklist.push_of_not_mem h]

theorem serve_pop_of_none (h : l.work.pop? = none) : l.serve .pop = l := by simp [serve, h]

theorem serve_pop_of_some (h : l.work.pop? = some (item, work)) :
    l.serve .pop = ⟨work, l.accepted, l.popped ++ [item]⟩ := by simp [serve, h]

theorem sound_empty (order : SelectionOrder) :
    (⟨.empty order, [], []⟩ : WorkLedger α).Sound order :=
  ⟨rfl, .nil, .nil, fun _ => rfl⟩

theorem Sound.serve_push (h : l.Sound order) (item : α) : (l.serve (.push item)).Sound order := by
  by_cases hin : item ∈ l.work.queue
  · rwa [serve_push_of_mem hin]
  · have hne {other : α} (hother : other ∈ l.work.queue) : other ≠ item := fun he =>
      hin (he ▸ hother)
    rw [serve_push_of_not_mem hin]
    refine ⟨h.order_eq, ?_, List.pairwise_append.mpr ⟨?_, List.pairwise_singleton _ _, ?_⟩,
      fun ho => ?_⟩
    · have hperm := h.perm.append_right [item]
      rwa [List.append_assoc] at hperm
    · refine h.pairwise.imp_of_mem fun holder hnewer hage => ?_
      rw [age_append_of_ne (hne holder), age_append_of_ne (hne hnewer)]
      omega
    · intro older holder newer hnewer
      obtain rfl := List.mem_singleton.mp hnewer
      rw [age_append_self, age_append_of_ne (hne holder)]
      omega
    · have heq := congrArg (· ++ [item]) (h.fifo ho)
      rwa [List.append_assoc] at heq

theorem Sound.take?_of_pop? (h : l.Sound order) (hpop : l.work.pop? = some (item, work)) :
    order.take? l.work.queue = some (item, work.queue) :=
  h.order_eq ▸ (Worklist.take?_of_pop? hpop).1

theorem Sound.serve_pop (h : l.Sound order) : (l.serve .pop).Sound order := by
  cases hpop : l.work.pop? with
  | none => rwa [serve_pop_of_none hpop]
  | some next =>
    obtain ⟨item, work⟩ := next
    have htake := h.take?_of_pop? hpop
    rw [serve_pop_of_some hpop]
    refine ⟨(Worklist.take?_of_pop? hpop).2.trans h.order_eq, ?_, ?_, ?_⟩
    · rw [List.append_assoc]
      exact ((Worklist.perm_of_pop? hpop).symm.append_left l.popped).trans h.perm
    · exact h.pairwise.sublist (SelectionOrder.sublist_of_take? htake)
    · rintro rfl
      have hqueue := SelectionOrder.eq_of_fifo_take? htake
      rw [List.append_assoc, List.singleton_append, ← hqueue]
      exact h.fifo rfl

theorem sound_after (order : SelectionOrder) (requests : List (WorkRequest α)) :
    (after order requests).Sound order := by
  refine List.foldlRecOn requests serve (sound_empty order) fun l hl request _ => ?_
  cases request with
  | push item => exact hl.serve_push item
  | pop => exact hl.serve_pop

theorem Sound.age_lt_of_fifo (h : l.Sound .fifo) (hpop : l.work.pop? = some (item, work)) :
    ∀ other ∈ work.queue, age l.accepted other < age l.accepted item := by
  have hpairwise := h.pairwise
  rw [SelectionOrder.eq_of_fifo_take? (h.take?_of_pop? hpop)] at hpairwise
  exact (List.pairwise_cons.mp hpairwise).1

theorem Sound.lt_age_of_lifo (h : l.Sound .lifo) (hpop : l.work.pop? = some (item, work)) :
    ∀ other ∈ work.queue, age l.accepted item < age l.accepted other := by
  have hpairwise := h.pairwise
  rw [SelectionOrder.eq_of_lifo_take? (h.take?_of_pop? hpop)] at hpairwise
  exact fun other hother =>
    (List.pairwise_append.mp hpairwise).2.2 other hother item (List.mem_singleton_self item)

end Requests

/-- No pending work is lost or doubled, whatever was asked of a worklist that was empty. The queue
and the set have the same items, each once. An item is accepted just if it is not pending. What was
popped and what is pending is what was accepted, each item as often. As long as items are pending
one of them can be popped: the one that was accepted longest ago, so that items come out in the
order in which they went in, or, by the other order, the one accepted last. -/
theorem pending_work_is_kept (order : SelectionOrder) (requests : List (WorkRequest α)) :
    let l := after order requests
    (l.work.queue.Nodup ∧ l.work.queued.Nodup ∧
      ∀ item, item ∈ l.work.queued ↔ item ∈ l.work.queue) ∧
    (∀ item, (l.work.push item).2 = true ↔ item ∉ l.work.queue) ∧
    (l.popped ++ l.work.queue).Perm l.accepted ∧
    (order = .fifo → l.popped ++ l.work.queue = l.accepted) ∧
    (l.work.pop? = none ↔ l.work.queue = []) ∧
    ∀ item work, l.work.pop? = some (item, work) → l.work.queue.Perm (item :: work.queue) ∧
      ∀ other ∈ work.queue,
        (order = .fifo → age l.accepted other < age l.accepted item) ∧
        (order = .lifo → age l.accepted item < age l.accepted other) := by
  intro l
  have hl : l.Sound order := sound_after order requests
  refine ⟨⟨l.work.nodup, l.work.perm.nodup_iff.mpr l.work.nodup, fun _ => Worklist.mem_queued⟩,
    fun _ => Worklist.snd_push, hl.perm, hl.fifo, Worklist.pop?_eq_none_iff,
    fun item work hpop => ⟨Worklist.perm_of_pop? hpop, fun other hother => ⟨?_, ?_⟩⟩⟩
  · rintro rfl
    exact hl.age_lt_of_fifo hpop other hother
  · rintro rfl
    exact hl.lt_age_of_lifo hpop other hother

/-- Two requests find their item pending, and one item comes back after it was popped: the first one
or the second one, depending on the order. -/
def requeuing : List (WorkRequest Nat) :=
  [.push 1, .push 2, .push 2, .pop, .push 3, .push 1, .push 2]

theorem requeued_work_is_kept :
    (after .fifo requeuing).accepted = [1, 2, 3, 1] ∧
    (∃ work, (after .fifo requeuing).work.pop? = some (2, work) ∧ work.queue = [3, 1] ∧
      ∀ other ∈ work.queue, age [1, 2, 3, 1] other < age [1, 2, 3, 1] 2) ∧
    (after .lifo requeuing).accepted = [1, 2, 3, 2] ∧
    ∃ work, (after .lifo requeuing).work.pop? = some (2, work) ∧ work.queue = [1, 3] ∧
      ∀ other ∈ work.queue, age [1, 2, 3, 2] 2 < age [1, 2, 3, 2] other := by
  obtain ⟨-, -, -, -, -, hfifo⟩ := pending_work_is_kept .fifo requeuing
  obtain ⟨-, -, -, -, -, hlifo⟩ := pending_work_is_kept .lifo requeuing
  exact ⟨rfl, ⟨_, rfl, rfl, fun other hother => ((hfifo 2 _ rfl).2 other hother).1 rfl⟩,
    rfl, _, rfl, rfl, fun other hother => ((hlifo 2 _ rfl).2 other hother).2 rfl⟩

end WorkLedger

end LockUsage
