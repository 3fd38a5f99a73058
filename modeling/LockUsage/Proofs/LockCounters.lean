import LockUsage.Proofs.LockLevels
import Mathlib.Tactic.Ring

/-! Lock states as families of counters. Each name has a signed number: its acquires minus its
releases. What is held and what is pending are the two sides of that number, so the order in which
states were made does not show in them, and replaying one state on another adds their counters. -/

namespace LockUsage

namespace LockState

section Counts

variable {c : String → Int} {s : LockState} (h : Counts c s)
include h

/-- Locks that each add `d` to the number of their name add `d` for each time they occur. -/
theorem Counts.foldl {op : LockState → Lock → LockState} {d : Int}
    (hop : ∀ c s, Counts c s → ∀ l : Lock,
      Counts (fun n => c n + if l.name = n then d else 0) (op s l)) (locks : List Lock) :
    Counts (fun n => c n + (names locks).count n * d) (locks.foldl op s) := by
  induction locks generalizing c s with
  | nil => simpa [names] using h
  | cons l locks ih =>
    have hrest := ih (hop c s h l)
    simp only [names, List.map_cons, List.foldl_cons, List.count_cons, beq_iff_eq] at hrest ⊢
    convert hrest using 2 with n
    split_ifs <;> push_cast <;> ring

theorem Counts.replay {c' : String → Int} {t : LockState} (ht : Counts c' t) :
    Counts (fun n => c n + c' n) (s.replay t) := by
  have hheld := h.foldl (fun _ _ hs l => hs.acquire l.name l.pre) t.held
  have hall := hheld.foldl (fun _ _ hs l => hs.release l.name l.pre) t.pending
  rw [LockState.replay]
  convert hall using 2 with n
  have hn := ht n
  omega

theorem Counts.same_iff {c' : String → Int} {t : LockState} (ht : Counts c' t) :
    s.same t = true ↔ ∀ name, c name = c' name := by
  rw [LockState.same_iff, List.perm_iff_count, List.perm_iff_count, ← forall_and]
  refine forall_congr' fun name => ?_
  have hs := h name
  have ht := ht name
  omega

end Counts

end LockState

/-- How a lock state came about: from nothing, by acquires, releases and replays of other states. -/
inductive LockHistory where
  | start
  | acquire (before : LockHistory) (name pre : String)
  | release (before : LockHistory) (name pre : String)
  | replay (before other : LockHistory)

namespace LockHistory

def state : LockHistory → LockState
  | start => .empty
  | acquire before name pre => (before.state.acquire name pre).1
  | release before name pre => (before.state.release name pre).1
  | replay before other => before.state.replay other.state

/-- The acquires of a name minus its releases. A replay counts for what it replays. -/
def balance : LockHistory → String → Int
  | start, _ => 0
  | acquire before name _, n => before.balance n + if name = n then 1 else 0
  | release before name _, n => before.balance n + if name = n then -1 else 0
  | replay before other, n => before.balance n + other.balance n

theorem counts (h : LockHistory) : h.state.Counts h.balance := by
  induction h with
  | start => exact LockState.counts_empty
  | acquire before name pre ih => exact ih.acquire name pre
  | release before name pre ih => exact ih.release name pre
  | replay before other ih ih' => exact ih.replay ih'

/-- A lock state is a family of signed counters. However it came about, each name is held as often
as its balance is above zero and pending as often as it is below, the outcome of a further acquire
or release tells the sign of the balance, and two states are the same just if all balances agree. So
replays can be exchanged and regrouped. -/
theorem state_is_its_balances (h : LockHistory) :
    (∀ name, ((LockState.names h.state.held).count name : Int) = max (h.balance name) 0 ∧
      ((LockState.names h.state.pending).count name : Int) = max (-h.balance name) 0 ∧
      ¬ (h.state.holds name = true ∧ h.state.hasPending name = true)) ∧
    (h.state.isInit = true ↔ ∀ name, h.balance name = 0) ∧
    (∀ name pre, let outcome := (h.state.acquire name pre).2
      (outcome = .matched ↔ h.balance name < 0) ∧ (outcome = .acquired ↔ h.balance name = 0) ∧
        (outcome = .reacquired ↔ 0 < h.balance name)) ∧
    (∀ name pre, let outcome := (h.state.release name pre).2
      (outcome = .doubleRelease ↔ h.balance name < 0) ∧
        (outcome = .unmatched ↔ h.balance name = 0) ∧
        (outcome = .released ↔ 0 < h.balance name)) ∧
    (∀ h' : LockHistory, h.state.same h'.state = true ↔
      ∀ name, h.balance name = h'.balance name) ∧
    (∀ h' : LockHistory, (h.state.replay h'.state).same (h'.state.replay h.state) = true) ∧
    ∀ h' h'' : LockHistory, ((h.state.replay h'.state).replay h''.state).same
      (h.state.replay (h'.state.replay h''.state)) = true := by
  have hc := h.counts
  refine ⟨fun name => ⟨(hc name).1, (hc name).2, ?_⟩, hc.isInit_iff, fun name pre => ?_,
    fun name pre => ?_, fun h' => hc.same_iff h'.counts, fun h' => ?_, fun h' h'' => ?_⟩
  · rw [hc.holds_iff, hc.hasPending_iff]
    omega
  · simp only [hc.acquire_outcome]
    split_ifs <;> simp <;> omega
  · simp only [hc.release_outcome]
    split_ifs <;> simp <;> omega
  · refine ((hc.replay h'.counts).same_iff (h'.counts.replay hc)).mpr fun name => ?_
    exact Int.add_comm _ _
  · refine (((hc.replay h'.counts).replay h''.counts).same_iff
      (hc.replay (h'.counts.replay h''.counts))).mpr fun name => ?_
    exact Int.add_assoc _ _ _

end LockHistory

end LockUsage
