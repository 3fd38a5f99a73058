import LockUsage.State.Grouping
import Mathlib.Data.List.Perm.Basic

/-! The state of a lock as a signed number: how often it is held, or below zero how many releases
are pending. An acquire adds one and a release takes one away. -/

namespace LockUsage

namespace LockState

theorem same_iff {s t : LockState} :
    s.same t = true ↔
      (names s.held).Perm (names t.held) ∧ (names s.pending).Perm (names t.pending) := by
  simp only [same, Bool.and_eq_true, List.isPerm_iff]

theorem names_without (name : String) (locks : List Lock) :
    names (without name locks) = (names locks).erase name := by
  induction locks with
  | nil => rfl
  | cons l rest ih =>
    by_cases h : l.name = name
    · simp [names, without, h]
    · have hh : (l.name == name) = false := by simpa using h
      simp only [names, without, List.eraseP_cons, hh, List.map_cons, List.erase_cons] at ih ⊢
      simp [ih]

theorem any_name_iff {name : String} {locks : List Lock} :
    (locks.any fun l => l.name == name) = true ↔ name ∈ names locks := by
  simp [names]

/-- For each name the locks held are the positive part of its number, and the pending releases are
the negative part. -/
def Counts (c : String → Int) (s : LockState) : Prop :=
  ∀ name, ((names s.held).count name : Int) = max (c name) 0 ∧
    ((names s.pending).count name : Int) = max (-c name) 0

theorem counts_empty : Counts (fun _ => 0) empty := fun _ => ⟨rfl, rfl⟩

/-- What is held and what is pending, exchanged. -/
def mirror (s : LockState) : LockState := ⟨s.pending, s.held⟩

theorem release_eq_mirror (s : LockState) (name pre : String) :
    (s.release name pre).1 = (s.mirror.acquire name pre).1.mirror := by
  have hp : s.mirror.hasPending name = s.holds name := rfl
  rw [LockState.release, LockState.acquire, hp]
  split_ifs <;> rfl

section Counts

variable {c : String → Int} {s : LockState} (h : Counts c s)
include h

theorem Counts.holds_iff (name : String) : s.holds name = true ↔ 0 < c name := by
  have hc := (h name).1
  rw [holds, any_name_iff, ← List.count_pos_iff]
  omega

theorem Counts.hasPending_iff (name : String) : s.hasPending name = true ↔ c name < 0 := by
  have hc := (h name).2
  rw [hasPending, any_name_iff, ← List.count_pos_iff]
  omega

theorem Counts.isInit_iff : s.isInit = true ↔ ∀ name, c name = 0 := by
  have hnil (locks : List Lock) :
      locks.isEmpty = true ↔ ∀ name, (names locks).count name = 0 := by
    simp only [List.count_eq_zero, ← List.eq_nil_iff_forall_not_mem, names, List.map_eq_nil_iff,
      List.isEmpty_iff]
  rw [isInit, Bool.and_eq_true, hnil, hnil, ← forall_and]
  refine forall_congr' fun name => ?_
  have hc := h name
  omega

theorem Counts.acquire (name pre : String) :
    Counts (fun n => c n + if name = n then 1 else 0) (s.acquire name pre).1 := by
  intro n
  have hn := h n
  by_cases hp : s.hasPending name = true
  · have hc := (h.hasPending_iff name).mp hp
    simp only [LockState.acquire, if_pos hp, names_without, List.count_erase]
    by_cases he : name = n
    · subst he
      simp only [beq_self_eq_true, if_true]
      omega
    · simp only [beq_iff_eq, if_neg he]
      omega
  · have hc := mt (h.hasPending_iff name).mpr hp
    simp only [LockState.acquire, if_neg hp, names, List.map_append, List.count_append] at hn ⊢
    by_cases he : name = n
    · subst he
      simp only [List.map_cons, List.map_nil, List.count_singleton_self, if_true]
      omega
    · simp only [List.map_cons, List.map_nil, List.count_singleton, beq_iff_eq, if_neg he]
      omega

theorem Counts.mirror : Counts (fun n => -c n) s.mirror := fun n =>
  ⟨(h n).2, by simpa [LockState.mirror] using (h n).1⟩

theorem Counts.release (name pre : String) :
    Counts (fun n => c n + if name = n then -1 else 0) (s.release name pre).1 := by
  have hm := (h.mirror.acquire name pre).mirror
  rw [← release_eq_mirror] at hm
  convert hm using 2 with n
  split_ifs <;> omega

theorem Counts.acquire_outcome (name pre : String) : (s.acquire name pre).2 =
    if c name < 0 then .matched else if c name = 0 then .acquired else .reacquired := by
  have hp := h.hasPending_iff name
  have hh := h.holds_iff name
  rw [LockState.acquire]
  by_cases hneg : c name < 0
  · rw [if_pos (hp.mpr hneg), if_pos hneg]
  · rw [if_neg (mt hp.mp hneg), if_neg hneg]
    by_cases hpos : 0 < c name
    · rw [if_pos (hh.mpr hpos), if_neg (by omega)]
    · rw [if_neg (mt hh.mp hpos), if_pos (by omega)]

theorem Counts.release_outcome (name pre : String) : (s.release name pre).2 =
    if 0 < c name then .released else if c name = 0 then .unmatched else .doubleRelease := by
  have hp := h.hasPending_iff name
  have hh := h.holds_iff name
  rw [LockState.release]
  by_cases hpos : 0 < c name
  · rw [if_pos (hh.mpr hpos), if_pos hpos]
  · rw [if_neg (mt hh.mp hpos), if_neg hpos]
    by_cases hneg : c name < 0
    · rw [if_pos (hp.mpr hneg), if_neg (by omega)]
    · rw [if_neg (mt hp.mp hneg), if_pos (by omega)]

end Counts

/-- The state mentions one lock only, and is what `level` acquires or `-level` releases leave. -/
def Tracks (name : String) (level : Int) (s : LockState) : Prop :=
  names s.held = List.replicate level.toNat name ∧
    names s.pending = List.replicate (-level).toNat name

/-- Following one lock is counting with all other numbers zero. -/
theorem tracks_iff {name : String} {level : Int} {s : LockState} :
    Tracks name level s ↔ Counts (fun n => if name = n then level else 0) s := by
  rw [Tracks, ← List.perm_replicate, ← List.perm_replicate, List.perm_iff_count,
    List.perm_iff_count, ← forall_and]
  refine forall_congr' fun n => ?_
  simp only [List.count_replicate, beq_iff_eq]
  split_ifs <;> omega

theorem tracks_empty (name : String) : Tracks name 0 empty := ⟨rfl, rfl⟩

theorem Tracks.unique {name : String} {m n : Int} {s : LockState}
    (hm : Tracks name m s) (hn : Tracks name n s) : m = n := by
  have hh := congrArg List.length (hm.1.symm.trans hn.1)
  have hp := congrArg List.length (hm.2.symm.trans hn.2)
  simp only [List.length_replicate] at hh hp
  omega

theorem Tracks.of_same {name : String} {n : Int} {s t : LockState}
    (hs : Tracks name n s) (h : s.same t = true) : Tracks name n t := by
  obtain ⟨hh, hp⟩ := LockState.same_iff.mp h
  exact ⟨List.perm_replicate.mp (hs.1 ▸ hh.symm), List.perm_replicate.mp (hs.2 ▸ hp.symm)⟩

section Tracks

variable {name : String} {level : Int} {s : LockState} (h : Tracks name level s)
include h

theorem Tracks.holds_iff : s.holds name = true ↔ 0 < level := by
  simpa using (tracks_iff.mp h).holds_iff name

theorem Tracks.hasPending_iff : s.hasPending name = true ↔ level < 0 := by
  simpa using (tracks_iff.mp h).hasPending_iff name

theorem Tracks.acquire (pre : String) : Tracks name (level + 1) (s.acquire name pre).1 := by
  have hc := (tracks_iff.mp h).acquire name pre
  refine tracks_iff.mpr ?_
  convert hc using 2 with n
  split_ifs <;> rfl

theorem Tracks.release (pre : String) : Tracks name (level - 1) (s.release name pre).1 := by
  have hc := (tracks_iff.mp h).release name pre
  refine tracks_iff.mpr ?_
  convert hc using 2 with n
  split_ifs <;> rfl

theorem Tracks.acquire_outcome (pre : String) : (s.acquire name pre).2 =
    if level < 0 then .matched else if level = 0 then .acquired else .reacquired := by
  simpa using (tracks_iff.mp h).acquire_outcome name pre

theorem Tracks.release_outcome (pre : String) : (s.release name pre).2 =
    if 0 < level then .released else if level = 0 then .unmatched else .doubleRelease := by
  simpa using (tracks_iff.mp h).release_outcome name pre

end Tracks

end LockState

end LockUsage
