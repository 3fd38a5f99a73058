import LockUsage.Proofs.PathMerging

/-! What path conditions mean. A path condition stands for the assignments of truth values and
constants under which a run takes the path. Assuming the outcome of a branch keeps all of them that
give this outcome, adds none, and fails only if there are none. -/

namespace LockUsage

section Equalities

/-- The name is an equality of a subject with a constant, and the subject ends at the first mark. -/
structure IsEquality (name subject constant : String) : Prop where
  eq : name = subject ++ "==" ++ constant
  first : ∀ other rest, name = other ++ "==" ++ rest → subject.length ≤ other.length

theorem subjectFrom?_of_first {front rest : List Char}
    (h : ∀ other rest', front ++ '=' :: '=' :: rest = other ++ '=' :: '=' :: rest' →
      front.length ≤ other.length) (read : List Char) :
    subjectFrom? read (front ++ '=' :: '=' :: rest) =
      some (String.ofList (read.reverse ++ front)) := by
  induction front generalizing read with
  | nil => simp [subjectFrom?]
  | cons c front ih =>
    have hskip : subjectFrom? read (c :: (front ++ '=' :: '=' :: rest)) =
        subjectFrom? (c :: read) (front ++ '=' :: '=' :: rest) := by
      refine subjectFrom?.eq_2 _ _ _ fun tail hc htail => ?_
      have hle := h [] tail (by simp [hc, htail])
      simp at hle
    rw [List.cons_append, hskip, ih]
    · simp
    · intro other rest' heq
      have hle := h (c :: other) rest' (by simp [heq])
      simpa using hle

theorem exists_of_subjectFrom? {read text : List Char} {subject : String}
    (h : subjectFrom? read text = some subject) :
    ∃ front constant, text = front ++ '=' :: '=' :: constant ∧
      subject = String.ofList (read.reverse ++ front) ∧
      ∀ other rest, text = other ++ '=' :: '=' :: rest → front.length ≤ other.length := by
  fun_induction subjectFrom? read text with
  | case1 read constant =>
    refine ⟨[], constant, rfl, ?_, fun _ _ _ => Nat.zero_le _⟩
    simpa using h.symm
  | case2 read c text hne ih =>
    obtain ⟨front, constant, rfl, rfl, hfirst⟩ := ih h
    refine ⟨c :: front, constant, rfl, by simp, fun other rest heq => ?_⟩
    cases other with
    | nil =>
      obtain ⟨hc, htext⟩ := List.cons.inj heq
      exact absurd htext (hne rest hc)
    | cons d other =>
      simpa using hfirst other rest (List.cons.inj heq).2
  | case3 read => cases h

variable {name subject constant : String}

theorem eq_marked_iff : name = subject ++ "==" ++ constant ↔
    name.toList = subject.toList ++ '=' :: '=' :: constant.toList := by
  have hmark : "==".toList = ['=', '='] := by decide
  rw [← String.toList_inj]
  simp [hmark]

theorem subject?_eq_some_iff :
    subject? name = some subject ↔ ∃ constant, IsEquality name subject constant := by
  constructor
  · intro h
    obtain ⟨front, constant, heq, rfl, hfirst⟩ := exists_of_subjectFrom? h
    refine ⟨String.ofList constant, eq_marked_iff.mpr (by simpa using heq), fun other rest h => ?_⟩
    simpa [String.length_toList] using hfirst _ _ (eq_marked_iff.mp h)
  · rintro ⟨constant, heq, hfirst⟩
    rw [subject?, eq_marked_iff.mp heq, subjectFrom?_of_first]
    · simp
    · intro other rest hother
      have hname : name = String.ofList other ++ "==" ++ String.ofList rest :=
        eq_marked_iff.mpr (by simpa [eq_marked_iff.mp heq] using hother)
      simpa [String.length_toList] using hfirst _ _ hname

theorem Assignment.holds_equality (a : Assignment) (h : IsEquality name subject constant) :
    a.holds name = true ↔ a.value subject = constant := by
  have hs : subject? name = some subject := subject?_eq_some_iff.mpr ⟨constant, h⟩
  simp only [holds, hs, beq_iff_eq]
  constructor
  · intro heq
    have hlist := (eq_marked_iff.mp heq).symm.trans (eq_marked_iff.mp h.eq)
    exact String.toList_inj.mp (by simpa using hlist)
  · rintro rfl
    exact h.eq

theorem Assignment.holds_plain (a : Assignment)
    (h : ∀ subject constant, ¬ IsEquality name subject constant) : a.holds name = a.plain name := by
  have hs : subject? name = none := by
    refine Option.eq_none_iff_forall_ne_some.mpr fun subject hs => ?_
    obtain ⟨constant, hc⟩ := subject?_eq_some_iff.mp hs
    exact h subject constant hc
  simp only [holds, hs]

end Equalities

namespace PathState

/-- The path conditions that assuming, absorbing and merging can make. -/
inductive Reachable : PathState → Prop
  | unconstrained : Reachable .unconstrained
  | unreachable : Reachable .unreachable
  | assume {s : PathState} (name : String) (value : Bool) :
      Reachable s → Reachable ((s.assume? name value).getD s)
  | absorb {s other : PathState} : Reachable s → Reachable other → Reachable (s.absorb other)
  | merge {paths : List PathState} : (∀ p ∈ paths, Reachable p) → Reachable (mergePaths paths)

section WellFormed

variable {s other : PathState}

theorem WellFormed.getD_assume? (hs : s.WellFormed) (name : String) (value : Bool) :
    ((s.assume? name value).getD s).WellFormed := by
  cases h : s.assume? name value with
  | none => exact hs
  | some t => exact hs.assume? h

theorem WellFormed.absorb (hs : s.WellFormed) (other : PathState) :
    (s.absorb other).WellFormed := by
  rw [PathState.absorb]
  split_ifs
  · exact fun c hc => by cases hc
  · exact List.foldlRecOn (motive := WellFormed) other.conditions _ hs
      fun _ ht entry _ => ht.getD_assume? entry.1 entry.2

theorem Reachable.wellFormed (h : s.Reachable) : s.WellFormed := by
  induction h with
  | unconstrained => exact wellFormed_unconstrained
  | unreachable => exact fun c hc => by cases hc
  | assume name value _ ih => exact ih.getD_assume? name value
  | absorb _ _ ih _ => exact ih.absorb _
  | merge => exact wellFormed_mergePaths _

end WellFormed

/-- What a path condition can look like. -/
inductive Shape where
  | everywhere
  | nowhere
  | conditional

/-- All paths without a condition, no path without a condition, or conditions of which no two are
equalities on one subject. -/
def HasShape (s : PathState) : Shape → Prop
  | .everywhere => s.isTop = true ∧ s.conditions = []
  | .nowhere => s.isBottom = true ∧ s.conditions = []
  | .conditional => s.isTop = false ∧ s.isBottom = false ∧ s.conditions ≠ [] ∧
      ∀ e ∈ s.conditions, ∀ f ∈ s.conditions, subject? e.1 ≠ none →
        subject? e.1 = subject? f.1 → e = f

theorem WellFormed.existsUnique_shape {s : PathState} (h : s.WellFormed) :
    ∃! shape, s.HasShape shape := by
  have hkeys (e : String × Bool) (he : e ∈ s.conditions) (f : String × Bool)
      (hf : f ∈ s.conditions) (hne : subject? e.1 ≠ none) (heq : subject? e.1 = subject? f.1) :
      e = f := h.keys he hf (.inr ⟨hne, heq⟩)
  cases hr : s.region with
  | top =>
    refine ⟨.everywhere, by simp [HasShape, isTop, conditions, hr], fun shape hshape => ?_⟩
    cases shape <;> simp [HasShape, isTop, isBottom, hr] at hshape ⊢
  | bottom =>
    refine ⟨.nowhere, by simp [HasShape, isBottom, conditions, hr], fun shape hshape => ?_⟩
    cases shape <;> simp [HasShape, isTop, isBottom, hr] at hshape ⊢
  | within c =>
    have hne : s.conditions ≠ [] := conditions_of_region hr ▸ (h c hr).nonempty
    refine ⟨.conditional, ⟨by simp [isTop, hr], by simp [isBottom, hr], hne, hkeys⟩,
      fun shape hshape => ?_⟩
    cases shape <;> simp [HasShape, isTop, isBottom, hr] at hshape ⊢

/-- The assignment agrees with the path condition. -/
def Allows (s : PathState) (a : Assignment) : Prop :=
  match s.region with
  | .top => True
  | .bottom => False
  | .within conditions => ∀ entry ∈ conditions, a.holds entry.1 = entry.2

section Allows

variable {s t : PathState} {a : Assignment} {name : String} {value : Bool}

theorem allows_iff (hs : s.isBottom = false) :
    s.Allows a ↔ ∀ entry ∈ s.conditions, a.holds entry.1 = entry.2 := by
  cases hr : s.region with
  | top => simp [Allows, conditions, hr]
  | bottom => simp [isBottom, hr] at hs
  | within c => simp [Allows, conditions, hr]

theorem allows_record (hs : s.isBottom = false) (hn : s.get? name = none) :
    (s.record name value).Allows a ↔ a.holds name = value ∧ s.Allows a := by
  rw [allows_iff rfl, allows_iff hs, conditions_record]
  simp only [Conditions.mem_insert hn, forall_eq_or_imp]

/-- A branch is refused only if no assignment gives its outcome. -/
theorem not_allows_of_refused (hs : s.isBottom = false) (h : s.assume? name value = none) :
    ¬ (s.Allows a ∧ a.holds name = value) := by
  rintro ⟨ha, hname⟩
  obtain ⟨entry, he, hex⟩ := exists_of_assume?_eq_none h
  exact hex.holds_ne hname ((allows_iff hs).mp ha entry he)

/-- A branch that is taken keeps the assignments that give its outcome, and adds none. -/
theorem allows_of_assumed (hs : s.isBottom = false) (h : s.assume? name value = some t) :
    (s.Allows a → a.holds name = value → t.Allows a) ∧ (t.Allows a → s.Allows a) := by
  rcases assume?_cases h with rfl | ⟨rfl, hkey⟩
  · exact ⟨fun ha _ => ha, id⟩
  · have hn : s.get? name = none :=
      Conditions.get?_eq_none_iff.mpr fun e he heq => hkey e he (heq ▸ .refl _)
    rw [allows_record hs hn]
    exact ⟨fun ha hname => ⟨hname, ha⟩, fun ha => ha.2⟩

end Allows

/-- Assuming the outcome of a branch is sound on every path condition that can arise and allows some
path. If the outcome is refused, the path condition stays and no assignment agrees with it and gives
the outcome. Otherwise no assignment that does both is lost, and none is added. Equalities are read
as their first mark splits them. All path conditions that can arise have one of three shapes. -/
theorem assuming_is_sound {s : PathState} (hs : s.Reachable) :
    (∃! shape, s.HasShape shape) ∧
    (∀ (a : Assignment) name subject constant, IsEquality name subject constant →
      (a.holds name = true ↔ a.value subject = constant)) ∧
    (∀ (a : Assignment) name, (∀ subject constant, ¬ IsEquality name subject constant) →
      a.holds name = a.plain name) ∧
    (s.isBottom = false → ∀ name value,
      ((s.assume? name value).isSome = false →
        (s.assume? name value).getD s = s ∧ ∀ a, ¬ (s.Allows a ∧ a.holds name = value)) ∧
      ((s.assume? name value).isSome = true → ∀ a,
        (s.Allows a → a.holds name = value → ((s.assume? name value).getD s).Allows a) ∧
        (((s.assume? name value).getD s).Allows a → s.Allows a))) := by
  refine ⟨hs.wellFormed.existsUnique_shape, fun a _ _ _ => a.holds_equality,
    fun a _ => a.holds_plain, fun hopen name value => ?_⟩
  cases h : s.assume? name value with
  | none =>
    refine ⟨fun _ => ⟨rfl, fun a => not_allows_of_refused hopen h⟩, fun hsome => ?_⟩
    cases hsome
  | some t =>
    refine ⟨fun hnone => ?_, fun _ a => allows_of_assumed hopen h⟩
    cases hnone

/-- The outcomes assumed one after the other. -/
def along (entries : List (String × Bool)) : PathState :=
  entries.foldl (fun s entry => (s.assume? entry.1 entry.2).getD s) .unconstrained

theorem reachable_along (entries : List (String × Bool)) : (along entries).Reachable :=
  List.foldlRecOn (motive := Reachable) entries _ .unconstrained
    fun _ h entry _ => h.assume entry.1 entry.2

end PathState

/-- Two path conditions that differ on `%p` are merged, and a third one is taken in. -/
def crossedPath : PathState :=
  let merged := mergePaths
    [.along [("%p", true), ("%s==1", true)], .along [("%p", false), ("%s==1", true)]]
  merged.absorb (.along [("%q", false)])

/-- That `%s` is also 2 is refused, that it is not 2 is known, and another test is recorded. -/
theorem crossed_path_sound :
    crossedPath.Reachable ∧ crossedPath.isBottom = false ∧
    crossedPath.conditions = [("%q", false), ("%s==1", true)] ∧
    (crossedPath.assume? "%s==2" true).isSome = false ∧
    (∀ a, ¬ (crossedPath.Allows a ∧ a.holds "%s==2" = true)) ∧
    crossedPath.assume? "%s==2" false = some crossedPath ∧
    (crossedPath.assume? "%r" true).isSome = true ∧
    ∀ a, ((crossedPath.assume? "%r" true).getD crossedPath).Allows a → crossedPath.Allows a := by
  have hs : crossedPath.Reachable := by
    refine .absorb (.merge fun p hp => ?_) (PathState.reachable_along _)
    rcases List.mem_pair.mp hp with rfl | rfl <;> exact PathState.reachable_along _
  have hopen : crossedPath.isBottom = false := by decide +kernel
  have hrefused : (crossedPath.assume? "%s==2" true).isSome = false := by decide +kernel
  have htaken : (crossedPath.assume? "%r" true).isSome = true := by decide +kernel
  obtain ⟨-, -, -, hsound⟩ := PathState.assuming_is_sound hs
  exact ⟨hs, hopen, by decide +kernel, hrefused, ((hsound hopen _ _).1 hrefused).2,
    by decide +kernel, htaken, fun a => ((hsound hopen _ _).2 htaken a).2⟩

end LockUsage
