import LockUsage.Proofs.PathAssumptions
import LockUsage.Proofs.Problems

/-! What path conditions remember of branches. An outcome that is assumed is recorded, or follows
from what is recorded of its key, and rules out the opposite one from then on. There is one
exception: while a path is only known to differ from one constant, tests of the same subject for
other constants are passed either way and leave no trace. -/

namespace LockUsage

theorem SameKey.trans {l m n : String} (h : SameKey l m) (h' : SameKey m n) : SameKey l n := by
  rcases h with rfl | ⟨hl, he⟩
  · exact h'
  · exact .inr ⟨hl, he.trans h'.subject_eq⟩

namespace PathState

/-- Another equality on the subject of the predicate is recorded not to hold. -/
def Masks (s : PathState) (name : String) : Prop :=
  ∃ entry ∈ s.conditions, entry.1 ≠ name ∧ SameKey entry.1 name ∧ entry.2 = false

instance (s : PathState) (name : String) : Decidable (s.Masks name) :=
  inferInstanceAs (Decidable (∃ entry ∈ s.conditions, _))

/-- The outcomes of some branches assumed one after the other. What is refused changes nothing. -/
def assumeAll (s : PathState) (entries : List (String × Bool)) : PathState :=
  entries.foldl (fun s entry => (s.assume? entry.1 entry.2).getD s) s

section Refusal

variable {s t : PathState} {name : String} {value : Bool}

theorem WellFormed.assume?_eq_none_iff (hs : s.WellFormed) :
    s.assume? name value = none ↔ ∃ entry ∈ s.conditions, Excludes entry name value := by
  refine ⟨exists_of_assume?_eq_none, ?_⟩
  rintro ⟨entry, he, hkey, hconflict⟩
  cases hg : s.get? name with
  | some recorded =>
    obtain rfl := hs.keys he (Conditions.mem_of_get? hg) hkey
    rcases hconflict with ⟨-, hne⟩ | ⟨hne, -⟩
    · simp [PathState.assume?, hg, hne]
    · exact absurd rfl hne
  | none =>
    rcases hconflict with ⟨heq, -⟩ | ⟨-, htrue, rfl⟩
    · exact absurd heq (Conditions.get?_eq_none_iff.mp hg entry he)
    · cases hsib : s.sibling? name with
      | none => exact absurd hkey ((sibling?_eq_none_iff hg).mp hsib entry he)
      | some fixed =>
        obtain ⟨sibling, hsibling, hkey', rfl⟩ := exists_of_sibling? hsib
        obtain rfl := hs.keys hsibling he (hkey'.trans hkey.symm)
        simp [PathState.assume?, hg, hsib, htrue]

/-- An outcome of a new key is recorded. -/
theorem assume?_of_new (h : ∀ entry ∈ s.conditions, ¬ SameKey entry.1 name) :
    s.assume? name value = some (s.record name value) := by
  have hg : s.get? name = none :=
    Conditions.get?_eq_none_iff.mpr fun entry he heq => h entry he (heq ▸ .refl _)
  simp [assume?, hg, (sibling?_eq_none_iff hg).mpr h]

/-- Assuming more only adds conditions. -/
theorem WellFormed.assumeAll (hs : s.WellFormed) (entries : List (String × Bool)) :
    (s.assumeAll entries).WellFormed ∧ s.conditions ⊆ (s.assumeAll entries).conditions := by
  refine List.foldlRecOn (motive := fun t : PathState =>
    t.WellFormed ∧ s.conditions ⊆ t.conditions) entries _ ⟨hs, fun _ he => he⟩ ?_
  rintro t ⟨ht, hsub⟩ entry -
  refine ⟨ht.getD_assume? _ _, ?_⟩
  cases h : t.assume? entry.1 entry.2 with
  | none => exact hsub
  | some u => exact fun e he => conditions_subset_assume? h (hsub he)

end Refusal

section Decisions

variable {s t : PathState} {name : String} {value : Bool}

/-- What an assumed outcome leaves behind rules out the opposite one. -/
theorem WellFormed.exists_excludes (hs : s.WellFormed) (h : s.assume? name value = some t)
    (hmask : ¬ s.Masks name) : ∃ entry ∈ t.conditions, Excludes entry name (!value) := by
  by_cases hkey : ∃ entry ∈ s.conditions, SameKey entry.1 name
  · obtain ⟨entry, he, hkey⟩ := hkey
    -- The outcome is not refused, so the entry agrees with it or is an equality that holds.
    have hopen : ¬ Excludes entry name value := fun hex => by
      cases (hs.assume?_eq_none_iff.mpr ⟨entry, he, hex⟩).symm.trans h
    refine ⟨entry, conditions_subset_assume? h he, hkey, ?_⟩
    by_cases heq : entry.1 = name
    · have hvalue : entry.2 = value := by
        by_contra hne
        exact hopen ⟨hkey, .inl ⟨heq, hne⟩⟩
      exact .inl ⟨heq, by simp [hvalue]⟩
    · have htrue : entry.2 = true := by
        by_contra hfalse
        exact hmask ⟨entry, he, heq, hkey, by simpa using hfalse⟩
      have hvalue : value = false := by
        by_contra hne
        exact hopen ⟨hkey, .inr ⟨heq, htrue, by simpa using hne⟩⟩
      exact .inr ⟨heq, htrue, by simp [hvalue]⟩
  · have hnew : ∀ entry ∈ s.conditions, ¬ SameKey entry.1 name :=
      fun entry he hsame => hkey ⟨entry, he, hsame⟩
    obtain rfl := Option.some.inj ((assume?_of_new hnew).symm.trans h)
    have hg : s.conditions.get? name = none :=
      Conditions.get?_eq_none_iff.mpr fun entry he heq => hnew entry he (heq ▸ .refl _)
    exact ⟨(name, value), (Conditions.mem_insert hg).mpr (.inl rfl), .refl _,
      .inl ⟨rfl, by simp⟩⟩

/-- A masked test is passed either way and leaves no trace. -/
theorem WellFormed.assume?_of_masks (hs : s.WellFormed) (hmask : s.Masks name) (value : Bool) :
    s.assume? name value = some s := by
  obtain ⟨entry, he, hne, hkey, hfalse⟩ := hmask
  cases h : s.assume? name value with
  | none =>
    obtain ⟨other, ho, hkey', hconflict⟩ := hs.assume?_eq_none_iff.mp h
    obtain rfl := hs.keys ho he (hkey'.trans hkey.symm)
    rcases hconflict with ⟨heq, -⟩ | ⟨-, htrue, -⟩
    · exact absurd heq hne
    · cases hfalse.symm.trans htrue
  | some t =>
    rcases assume?_cases h with rfl | ⟨-, hnew⟩
    · rfl
    · exact absurd hkey (hnew entry he)

/-- The opposite outcome is refused, at once and after any other branches. -/
theorem WellFormed.remembers (hs : s.WellFormed) (h : s.assume? name value = some t)
    (hmask : ¬ s.Masks name) (later : List (String × Bool)) :
    (t.assumeAll later).assume? name (!value) = none := by
  obtain ⟨entry, he, hex⟩ := hs.exists_excludes h hmask
  obtain ⟨hlater, hsub⟩ := (hs.assume? h).assumeAll later
  exact hlater.assume?_eq_none_iff.mpr ⟨entry, hsub he, hex⟩

theorem WellFormed.refused_iff (hs : s.WellFormed) (h : s.assume? name value = some t) :
    t.assume? name (!value) = none ↔ ¬ s.Masks name := by
  refine ⟨fun hnone hmask => ?_, fun hmask => hs.remembers h hmask []⟩
  obtain rfl := Option.some.inj ((hs.assume?_of_masks hmask value).symm.trans h)
  cases hnone.symm.trans (hs.assume?_of_masks hmask (!value))

end Decisions

end PathState

namespace Problem

variable (P : Problem)

/-- One fact stays one or is dropped. -/
theorem facts_branch_single (i : P.body.InstIx) (way : Branch) (f : Fact) :
    (P.branch i way (.single f)).facts = (P.pass? (P.guard i).1 way f).toList := by
  cases h : P.pass? (P.guard i).1 way f with
  | none => simp [branch, FactSet.single, h, FactSet.ofList, FactSet.empty, FactSet.group,
      FactSet.size]
  | some g => simp [branch, FactSet.single, h, FactSet.ofList, FactSet.empty, FactSet.insert,
      FactSet.contains, FactSet.group, FactSet.size]

/-- With filtering, a fact passes a branch on a predicate just if the outcome can be assumed. -/
theorem pass?_predicate (hfilter : P.filter = true) (name : String) (negated : Bool) (way : Branch)
    (f : Fact) : P.pass? (.predicate name negated) way f =
      (f.path.assume? name (way.isTaken != negated)).map fun path => { f with path } := by
  simp only [pass?, hfilter, if_true]
  split <;> simp [*]

end Problem

/-- A branch decision is remembered. After a branch on a predicate, on any path condition that can
arise, the opposite outcome is refused at once and whatever other branches follow, so that a fact
that has passed a test one way does not pass the same test the other way if contradictions are
filtered. The exception is just that another equality on the subject of the predicate is recorded
not to hold: then the test is passed either way and nothing is recorded. -/
theorem PathState.decision_is_remembered {s t : PathState} (hs : s.Reachable) {name : String}
    {value : Bool} (h : s.assume? name value = some t) :
    (t.assume? name (!value) = none ↔ ¬ s.Masks name) ∧
    (¬ s.Masks name → ∀ later, (t.assumeAll later).assume? name (!value) = none) ∧
    (s.Masks name → t = s ∧ s.assume? name (!value) = some s) ∧
    ∀ (P : Problem) (i j : P.body.InstIx) (negated : Bool) (way other : Branch) (f : Fact),
      P.filter = true → (P.guard i).1 = .predicate name negated →
      (P.guard j).1 = .predicate name negated → f.path = s →
      (way.isTaken != negated) = value → other ≠ way →
      (P.branch i way (.single f)).facts = [{ f with path := t }] ∧
      ((P.branch j other (P.branch i way (.single f))).facts = [] ↔ ¬ s.Masks name) := by
  have hwf := hs.wellFormed
  refine ⟨hwf.refused_iff h, hwf.remembers h, fun hmask => ⟨?_, hwf.assume?_of_masks hmask _⟩, ?_⟩
  · exact Option.some.inj (h.symm.trans (hwf.assume?_of_masks hmask value))
  · intro P i j negated way other f hfilter hi hj hpath hvalue hother
    have hfacts : (P.branch i way (.single f)).facts = [{ f with path := t }] := by
      rw [P.facts_branch_single, hi, P.pass?_predicate hfilter, hvalue, hpath, h]
      rfl
    have hpassed : P.branch i way (.single f) = .single { f with path := t } :=
      congrArg FactSet.mk hfacts
    have hopposite : (other.isTaken != negated) = !value := by
      subst hvalue
      cases way <;> cases other <;> cases negated <;> simp_all [Branch.isTaken]
    refine ⟨hfacts, ?_⟩
    rw [hpassed, P.facts_branch_single, hj, P.pass?_predicate hfilter, hopposite,
      ← hwf.refused_iff h, Option.toList_eq_nil_iff, Option.map_eq_none_iff]

/-- Tests its parameter for 1, for 2 if it is not 1, and for 2 once more if it is 2. -/
def chainedFunc : Func where
  name := "f"
  params := ["s"]
  blocks := #[⟨"A", [0, 1]⟩, ⟨"B", [2, 3]⟩, ⟨"C", [4]⟩, ⟨"D", [5]⟩, ⟨"X", [6]⟩]
  insts := #[⟨some "one", 0, .cmp .eq (.arg 0) (.const (.int 1))⟩, ⟨none, 0, .condBr (.inst 0) 4 1⟩,
    ⟨some "two", 1, .cmp .eq (.arg 0) (.const (.int 2))⟩, ⟨none, 1, .condBr (.inst 2) 2 4⟩,
    ⟨none, 2, .condBr (.inst 2) 3 4⟩, ⟨none, 3, .ret none⟩, ⟨none, 4, .ret none⟩]

def chained : Program := ⟨"m", #["l"], #[chainedFunc]⟩

def chainedBody : Body := ⟨chainedFunc, by decide +kernel⟩

def chainedProblem : Problem :=
  .pose .default chained 0 chainedBody ⟨"@l", ⟨0, .global 0⟩, false⟩ []

/-- That the parameter is 1 says without a record of its own that it is not 2. -/
theorem chained_decision_remembered :
    (PathState.along [("%s==1", true)]).Reachable ∧
    (PathState.along [("%s==1", true)]).assume? "%s==2" false =
      some (PathState.along [("%s==1", true)]) ∧
    ¬ (PathState.along [("%s==1", true)]).Masks "%s==2" ∧
    (∀ later,
      ((PathState.along [("%s==1", true)]).assumeAll later).assume? "%s==2" true = none) ∧
    chainedProblem.filter = true ∧
    (chainedProblem.guard (3 : Fin 7)).1 = .predicate "%s==2" false ∧
    (chainedProblem.guard (4 : Fin 7)).1 = .predicate "%s==2" false ∧
    (chainedProblem.branch (4 : Fin 7) .taken (chainedProblem.branch (3 : Fin 7) .notTaken
      (.single ⟨.empty, .along [("%s==1", true)]⟩))).facts = [] := by
  have hs := PathState.reachable_along [("%s==1", true)]
  have hpassed : (PathState.along [("%s==1", true)]).assume? "%s==2" false =
      some (PathState.along [("%s==1", true)]) := by decide +kernel
  have hmask : ¬ (PathState.along [("%s==1", true)]).Masks "%s==2" := by decide +kernel
  have hfirst : (chainedProblem.guard (3 : Fin 7)).1 = .predicate "%s==2" false := by
    decide +kernel
  have hsecond : (chainedProblem.guard (4 : Fin 7)).1 = .predicate "%s==2" false := by
    decide +kernel
  obtain ⟨-, hlater, -, hbranch⟩ := PathState.decision_is_remembered hs hpassed
  have hdropped := (hbranch chainedProblem (3 : Fin 7) (4 : Fin 7) false .notTaken .taken
    ⟨.empty, .along [("%s==1", true)]⟩ rfl hfirst hsecond rfl rfl (by decide)).2.mpr hmask
  exact ⟨hs, hpassed, hmask, hlater hmask, rfl, hfirst, hsecond, hdropped⟩

/-- Once the parameter is known not to be 1, the tests for 2 contradict each other freely: a fact
that the first one finds to be 2 passes the second one as something else. -/
theorem chained_decision_forgotten :
    (PathState.along [("%s==1", false)]).assume? "%s==2" true =
      some (PathState.along [("%s==1", false)]) ∧
    (PathState.along [("%s==1", false)]).assume? "%s==2" (!true) =
      some (PathState.along [("%s==1", false)]) ∧
    chainedProblem.filter = true ∧
    (chainedProblem.branch (4 : Fin 7) .notTaken (chainedProblem.branch (3 : Fin 7) .taken
      (.single ⟨.empty, .along [("%s==1", false)]⟩))).facts =
        [⟨.empty, .along [("%s==1", false)]⟩] := by
  refine ⟨?_, ?_, rfl, ?_⟩ <;> decide +kernel

end LockUsage
