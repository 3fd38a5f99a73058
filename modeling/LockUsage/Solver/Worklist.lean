/-! Pending work without duplicates. An item that is pending is not taken in again.

The items stand in a queue, and once more in a set in which they are looked up. -/

namespace LockUsage

/-- Which pending item comes next: the oldest or the newest. -/
inductive SelectionOrder where
  | fifo
  | lifo
deriving DecidableEq

/-- The item of a queue that comes next, and the queue without it. -/
def SelectionOrder.take? : SelectionOrder → List α → Option (α × List α)
  | _, [] => none
  | .fifo, item :: rest => some (item, rest)
  | .lifo, first :: rest =>
    some ((first :: rest).getLast (List.cons_ne_nil _ _), (first :: rest).dropLast)

namespace SelectionOrder

variable {queue rest : List α} {item : α}

theorem eq_of_fifo_take? (h : fifo.take? queue = some (item, rest)) : queue = item :: rest := by
  cases queue with
  | nil => cases h
  | cons first others =>
    cases h
    rfl

theorem eq_of_lifo_take? (h : lifo.take? queue = some (item, rest)) : queue = rest ++ [item] := by
  cases queue with
  | nil => cases h
  | cons first others =>
    cases h
    exact (List.dropLast_concat_getLast (List.cons_ne_nil first others)).symm

variable {order : SelectionOrder} (h : order.take? queue = some (item, rest))
include h

theorem perm_of_take? : queue.Perm (item :: rest) := by
  cases order with
  | fifo => exact .of_eq (eq_of_fifo_take? h)
  | lifo => exact eq_of_lifo_take? h ▸ List.perm_append_singleton item rest

theorem sublist_of_take? : rest.Sublist queue := by
  cases order with
  | fifo => exact eq_of_fifo_take? h ▸ List.sublist_cons_self item rest
  | lifo => exact eq_of_lifo_take? h ▸ List.sublist_append_left rest [item]

end SelectionOrder

/-- The pending items, oldest first, and the set of these items. -/
structure Worklist (α : Type) where
  order : SelectionOrder
  queue : List α
  queued : List α
  nodup : queue.Nodup
  perm : queued.Perm queue

namespace Worklist

def empty (order : SelectionOrder) : Worklist α := ⟨order, [], [], .nil, .nil⟩

def size (w : Worklist α) : Nat := w.queue.length

def isEmpty (w : Worklist α) : Bool := w.queue.isEmpty

theorem mem_queued {w : Worklist α} {item : α} : item ∈ w.queued ↔ item ∈ w.queue :=
  w.perm.mem_iff

variable [DecidableEq α]

def contains (w : Worklist α) (item : α) : Bool := decide (item ∈ w.queued)

/-- The worklist with an item that is not pending taken in. -/
def add (w : Worklist α) (item : α) (h : item ∉ w.queued) : Worklist α where
  order := w.order
  queue := w.queue ++ [item]
  queued := item :: w.queued
  nodup := (List.perm_append_singleton item w.queue).nodup_iff.mpr
    (List.nodup_cons.mpr ⟨fun hin => h (mem_queued.mpr hin), w.nodup⟩)
  perm := (w.perm.cons item).trans (List.perm_append_singleton item w.queue).symm

/-- Takes in an item, and says whether it was not pending already. -/
def push (w : Worklist α) (item : α) : Worklist α × Bool :=
  if h : item ∈ w.queued then (w, false) else (w.add item h, true)

/-- The worklist without the item that comes next. -/
def remove (w : Worklist α) (next : α × List α) (h : w.order.take? w.queue = some next) :
    Worklist α where
  order := w.order
  queue := next.2
  queued := w.queued.erase next.1
  nodup := (List.nodup_cons.mp ((SelectionOrder.perm_of_take? h).nodup_iff.mp w.nodup)).2
  perm := (List.cons_perm_iff_perm_erase.mp
    ((SelectionOrder.perm_of_take? h).symm.trans w.perm.symm)).2.symm

def pop? (w : Worklist α) : Option (α × Worklist α) :=
  (w.order.take? w.queue).pmap (fun next h => (next.1, w.remove next h)) fun _ h => h

section

variable {w w' : Worklist α} {item other : α}

theorem push_of_mem (h : item ∈ w.queue) : w.push item = (w, false) := dif_pos (mem_queued.mpr h)

theorem push_of_not_mem (h : item ∉ w.queue) :
    w.push item = (w.add item fun hin => h (mem_queued.mp hin), true) :=
  dif_neg _

theorem snd_push : (w.push item).2 = true ↔ item ∉ w.queue := by
  by_cases h : item ∈ w.queue
  · simp [push_of_mem h, h]
  · simp [push_of_not_mem h, h]

theorem mem_queue_push : other ∈ (w.push item).1.queue ↔ other ∈ w.queue ∨ other = item := by
  by_cases h : item ∈ w.queue
  · rw [push_of_mem h]
    exact ⟨.inl, fun hor => hor.elim id fun he => he ▸ h⟩
  · rw [push_of_not_mem h]
    simp [add]

theorem take?_of_pop? (h : w.pop? = some (item, w')) :
    w.order.take? w.queue = some (item, w'.queue) ∧ w'.order = w.order := by
  obtain ⟨next, _, htake, heq⟩ := Option.pmap_eq_some_iff.mp h
  cases heq
  exact ⟨htake, rfl⟩

theorem perm_of_pop? (h : w.pop? = some (item, w')) : w.queue.Perm (item :: w'.queue) :=
  SelectionOrder.perm_of_take? (take?_of_pop? h).1

theorem pop?_eq_none_iff : w.pop? = none ↔ w.queue = [] := by
  rw [pop?, Option.pmap_eq_none_iff]
  obtain ⟨order, queue⟩ := w
  cases queue <;> cases order <;> simp [SelectionOrder.take?]

end

end Worklist

end LockUsage
