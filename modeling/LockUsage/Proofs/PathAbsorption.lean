import LockUsage.Proofs.BranchDecisions

/-! What a path condition becomes when it takes in another one. All paths absorb everything and no
path adds nothing. Between conditions the left side wins: of the right side only outcomes are added
whose key the left side does not have. So taking in is associative and idempotent. -/

namespace LockUsage

namespace PathState

variable {s t u : PathState}

/-- No outcome of the predicate's key is recorded. -/
def IsNew (s : PathState) (name : String) : Prop := ∀ entry ∈ s.conditions, ¬ SameKey entry.1 name

theorem IsNew.of_sameKey {m n : String} (h : s.IsNew m) (hk : SameKey m n) : s.IsNew n :=
  fun entry he hsame => h entry he (hsame.trans hk.symm)

theorem isNew_plain_iff {name : String} (h : subject? name = none) :
    s.IsNew name ↔ ∀ value, (name, value) ∉ s.conditions := by
  constructor
  · exact fun hnew value hmem => hnew _ hmem (.refl _)
  · intro hnot entry he hsame
    exact hnot entry.2 (hsame.eq_of_plain h ▸ he)

theorem isNew_equality_iff {name subject : String} (h : subject? name = some subject) :
    s.IsNew name ↔ ∀ entry ∈ s.conditions, subject? entry.1 ≠ some subject :=
  forall₂_congr fun _ _ =>
    not_congr ⟨fun hsame => hsame.subject_eq.trans h, fun he => .of_subject he h⟩

section Folding

/-- A branch adds its outcome if the key is new, and nothing otherwise. -/
theorem mem_conditions_getD_assume? {name : String} {value : Bool} {entry : String × Bool} :
    entry ∈ ((s.assume? name value).getD s).conditions ↔
      entry ∈ s.conditions ∨ (entry = (name, value) ∧ s.IsNew name) := by
  by_cases hnew : s.IsNew name
  · have hg : s.conditions.get? name = none :=
      Conditions.get?_eq_none_iff.mpr fun e he heq => hnew e he (heq ▸ .refl _)
    rw [assume?_of_new hnew, Option.getD_some, conditions_record, Conditions.mem_insert hg]
    simp only [hnew, and_true, or_comm]
  · have hsame : (s.assume? name value).getD s = s := by
      cases h : s.assume? name value with
      | none => rfl
      | some t => exact (assume?_cases h).resolve_right fun hrec => hnew hrec.2
    rw [hsame]
    simp only [hnew, and_false, or_false]

/-- Outcomes of different keys are added as far as their keys are new. -/
theorem mem_conditions_assumeAll {entries : List (String × Bool)}
    (hkeys : entries.Pairwise fun a b => ¬ SameKey a.1 b.1) {entry : String × Bool} :
    entry ∈ (s.assumeAll entries).conditions ↔
      entry ∈ s.conditions ∨ (entry ∈ entries ∧ s.IsNew entry.1) := by
  induction entries generalizing s with
  | nil => simp [assumeAll]
  | cons first rest ih =>
    obtain ⟨hfirst, hrest⟩ := List.pairwise_cons.mp hkeys
    have hstep : s.assumeAll (first :: rest) =
        ((s.assume? first.1 first.2).getD s).assumeAll rest := rfl
    -- The rest has other keys than the first, which does not get in its way.
    have hnew (other : String × Bool) (hother : other ∈ rest) :
        ((s.assume? first.1 first.2).getD s).IsNew other.1 ↔ s.IsNew other.1 := by
      constructor
      · exact fun h e he => h e (mem_conditions_getD_assume?.mpr (.inl he))
      · intro h e he
        rcases mem_conditions_getD_assume?.mp he with he | ⟨rfl, -⟩
        · exact h e he
        · exact hfirst other hother
    rw [hstep, ih hrest, mem_conditions_getD_assume?, List.mem_cons, or_assoc]
    refine or_congr_right ⟨?_, ?_⟩
    · rintro (⟨rfl, h⟩ | ⟨he, h⟩)
      · exact ⟨.inl rfl, h⟩
      · exact ⟨.inr he, (hnew entry he).mp h⟩
    · rintro ⟨rfl | he, h⟩
      · exact .inl ⟨rfl, h⟩
      · exact .inr ⟨he, (hnew entry he).mpr h⟩

theorem WellFormed.pairwise_keys (ht : t.WellFormed) :
    t.conditions.Pairwise fun a b => ¬ SameKey a.1 b.1 := by
  refine ht.sorted.imp_of_mem fun {a b} ha hb hlt hsame => ?_
  rw [ht.keys ha hb hsame] at hlt
  exact lt_irrefl _ hlt

end Folding

section Absorbing

theorem absorb_of_top (h : s.isTop = true ∨ t.isTop = true) : (s.absorb t).region = .top := by
  rw [absorb, if_pos (Bool.or_eq_true_iff.mpr h)]

theorem absorb_of_not_top (hs : s.isTop = false) (ht : t.isTop = false) :
    s.absorb t = s.assumeAll t.conditions := by
  rw [absorb, if_neg (by simp [hs, ht])]
  rfl

/-- The conditions of the left side, and those of the right side whose keys are new. -/
theorem mem_conditions_absorb (ht : t.WellFormed) (hs' : s.isTop = false) (ht' : t.isTop = false)
    {entry : String × Bool} : entry ∈ (s.absorb t).conditions ↔
      entry ∈ s.conditions ∨ (entry ∈ t.conditions ∧ s.IsNew entry.1) := by
  rw [absorb_of_not_top hs' ht', mem_conditions_assumeAll ht.pairwise_keys]

theorem isNew_absorb (ht : t.WellFormed) (hs' : s.isTop = false) (ht' : t.isTop = false)
    {name : String} : (s.absorb t).IsNew name ↔ s.IsNew name ∧ t.IsNew name := by
  simp only [IsNew, mem_conditions_absorb ht hs' ht']
  constructor
  · intro h
    have hs : s.IsNew name := fun e he => h e (.inl he)
    refine ⟨hs, fun e he hsame => h e (.inr ⟨he, ?_⟩) hsame⟩
    exact hs.of_sameKey hsame.symm
  · rintro ⟨hs, ht⟩ e (he | ⟨he, -⟩)
    · exact hs e he
    · exact ht e he

theorem WellFormed.conditions_ne_nil (hs : s.WellFormed) (htop : s.isTop = false)
    (hbottom : s.isBottom = false) : s.conditions ≠ [] := by
  rw [Ne, hs.conditions_eq_nil_iff, ← isTop_iff, ← isBottom_iff, htop, hbottom]
  simp

theorem region_ne_of_mem {entry : String × Bool} (h : entry ∈ s.conditions) :
    s.isTop = false ∧ s.isBottom = false := by
  cases hr : s.region with
  | top => simp [conditions, hr] at h
  | bottom => simp [conditions, hr] at h
  | within c => simp [isTop, isBottom, hr]

theorem absorb_bottom (hs : s.isTop = false) (ht : t.isBottom = true) : s.absorb t = s := by
  have hr := isBottom_iff.mp ht
  rw [absorb_of_not_top hs (by simp [isTop, hr])]
  simp [conditions, hr, assumeAll]

/-- Conditions taken in are conditions in the end. -/
theorem absorb_conditional (ht : t.WellFormed) (hs' : s.isTop = false) (ht' : t.isTop = false)
    (h : t.isBottom = false) :
    (s.absorb t).isTop = false ∧ (s.absorb t).isBottom = false := by
  obtain ⟨entry, he⟩ := List.exists_mem_of_ne_nil _ (ht.conditions_ne_nil ht' h)
  by_cases hnew : s.IsNew entry.1
  · exact region_ne_of_mem ((mem_conditions_absorb ht hs' ht').mpr (.inr ⟨he, hnew⟩))
  · obtain ⟨other, hother, -⟩ : ∃ other ∈ s.conditions, SameKey other.1 entry.1 := by
      by_contra hnone
      exact hnew fun other hother hsame => hnone ⟨other, hother, hsame⟩
    exact region_ne_of_mem ((mem_conditions_absorb ht hs' ht').mpr (.inl hother))

theorem isTop_absorb (ht : t.WellFormed) : (s.absorb t).isTop = (s.isTop || t.isTop) := by
  by_cases h : s.isTop = true ∨ t.isTop = true
  · rw [isTop_iff.mpr (absorb_of_top h), Bool.or_eq_true_iff.mpr h]
  · obtain ⟨hs', ht'⟩ : s.isTop = false ∧ t.isTop = false := by simpa using h
    cases hb : t.isBottom with
    | true => rw [absorb_bottom hs' hb, hs', ht']; rfl
    | false => rw [(absorb_conditional ht hs' ht' hb).1, hs', ht']; rfl

theorem isBottom_absorb (ht : t.WellFormed) (hs' : s.isTop = false) (ht' : t.isTop = false) :
    (s.absorb t).isBottom = (s.isBottom && t.isBottom) := by
  cases hb : t.isBottom with
  | true => rw [absorb_bottom hs' hb, Bool.and_true]
  | false => rw [(absorb_conditional ht hs' ht' hb).2, Bool.and_false]

end Absorbing

section Laws

theorem WellFormed.bottom_absorb (hs : s.WellFormed) (ht : t.isBottom = true) :
    (t.absorb s).region = s.region := by
  have hr := isBottom_iff.mp ht
  have hnil : t.conditions = [] := by simp [conditions, hr]
  by_cases htop : s.isTop = true
  · rw [absorb_of_top (.inr htop), isTop_iff.mp htop]
  · have hs' : s.isTop = false := by simpa using htop
    have ht' : t.isTop = false := by simp [isTop, hr]
    have hwf : t.WellFormed := fun c hc => by cases hr.symm.trans hc
    refine (hwf.absorb s).region_eq hs ?_ fun entry => ?_
    · rw [isBottom_absorb hs ht' hs', ht, Bool.true_and]
    · rw [mem_conditions_absorb hs ht' hs', IsNew, hnil]
      simp

theorem WellFormed.absorb_self (hs : s.WellFormed) : (s.absorb s).region = s.region := by
  by_cases htop : s.isTop = true
  · rw [absorb_of_top (.inl htop), isTop_iff.mp htop]
  · have hs' : s.isTop = false := by simpa using htop
    refine (hs.absorb s).region_eq hs ?_ fun entry => ?_
    · rw [isBottom_absorb hs hs' hs', Bool.and_self]
    · rw [mem_conditions_absorb hs hs' hs']
      exact or_iff_left_of_imp fun h => h.1

theorem WellFormed.absorb_assoc (hs : s.WellFormed) (ht : t.WellFormed) (hu : u.WellFormed) :
    ((s.absorb t).absorb u).region = (s.absorb (t.absorb u)).region := by
  have htu := ht.absorb u
  by_cases htop : s.isTop = true ∨ t.isTop = true ∨ u.isTop = true
  · rw [absorb_of_top, absorb_of_top]
    · simpa [isTop_absorb hu] using htop
    · simpa [isTop_absorb ht, or_assoc] using htop
  · obtain ⟨hs', ht', hu'⟩ : s.isTop = false ∧ t.isTop = false ∧ u.isTop = false := by
      simpa using htop
    have hst' : (s.absorb t).isTop = false := by simp [isTop_absorb ht, hs', ht']
    have htu' : (t.absorb u).isTop = false := by simp [isTop_absorb hu, ht', hu']
    refine ((hs.absorb t).absorb u).region_eq (hs.absorb _) ?_ fun entry => ?_
    · rw [isBottom_absorb hu hst' hu', isBottom_absorb ht hs' ht', isBottom_absorb htu hs' htu',
        isBottom_absorb hu ht' hu', Bool.and_assoc]
    · rw [mem_conditions_absorb hu hst' hu', mem_conditions_absorb ht hs' ht',
        isNew_absorb ht hs' ht', mem_conditions_absorb htu hs' htu',
        mem_conditions_absorb hu ht' hu']
      tauto

end Laws

/-- Taking in another path condition is a left-biased merge, on all path conditions that can arise.
No path is neutral on both sides, all paths absorb on both sides, and the operation is idempotent
and associative. Of two conditional ones, the result has the conditions of the left one, and those
of the right one that are plain predicates the left one says nothing of, or equalities on subjects
of which the left one has no equality. -/
theorem absorbing_is_left_biased (hs : s.Reachable) (ht : t.Reachable) (hu : u.Reachable) :
    (∀ nowhere : PathState, nowhere.isBottom = true →
      (nowhere.absorb s).same s = true ∧ (s.absorb nowhere).same s = true) ∧
    (∀ everywhere : PathState, everywhere.isTop = true →
      (everywhere.absorb s).same everywhere = true ∧
        (s.absorb everywhere).same everywhere = true) ∧
    (s.absorb s).same s = true ∧
    ((s.absorb t).absorb u).same (s.absorb (t.absorb u)) = true ∧
    (s.conditions ≠ [] → t.conditions ≠ [] →
      (s.absorb t).isTop = false ∧ (s.absorb t).isBottom = false ∧
      (∀ name value, subject? name = none → ((name, value) ∈ (s.absorb t).conditions ↔
        (name, value) ∈ s.conditions ∨
          ((name, value) ∈ t.conditions ∧ ∀ v, (name, v) ∉ s.conditions))) ∧
      ∀ name value subject, subject? name = some subject →
        ((name, value) ∈ (s.absorb t).conditions ↔ (name, value) ∈ s.conditions ∨
          ((name, value) ∈ t.conditions ∧
            ∀ entry ∈ s.conditions, subject? entry.1 ≠ some subject))) := by
  have hwf := hs.wellFormed
  simp only [same_iff_region]
  refine ⟨fun nowhere hnone => ⟨hwf.bottom_absorb hnone, ?_⟩, fun everywhere hall => ⟨?_, ?_⟩,
    hwf.absorb_self, hwf.absorb_assoc ht.wellFormed hu.wellFormed, fun hsome htsome => ?_⟩
  · by_cases htop : s.isTop = true
    · rw [absorb_of_top (.inl htop), isTop_iff.mp htop]
    · rw [absorb_bottom (by simpa using htop) hnone]
  · rw [absorb_of_top (.inl hall), isTop_iff.mp hall]
  · rw [absorb_of_top (.inr hall), isTop_iff.mp hall]
  · obtain ⟨e, he⟩ := List.exists_mem_of_ne_nil _ hsome
    obtain ⟨f, hf⟩ := List.exists_mem_of_ne_nil _ htsome
    have hs' := (region_ne_of_mem he).1
    obtain ⟨ht', htb⟩ := region_ne_of_mem hf
    obtain ⟨htop, hbottom⟩ := absorb_conditional ht.wellFormed hs' ht' htb
    refine ⟨htop, hbottom, fun name value hplain => ?_, fun name value subject heq => ?_⟩
    · rw [mem_conditions_absorb ht.wellFormed hs' ht', isNew_plain_iff hplain]
    · rw [mem_conditions_absorb ht.wellFormed hs' ht', isNew_equality_iff heq]

end PathState

def leftPath : PathState := .along [("%p", true), ("%s==1", false)]

def rightPath : PathState := .along [("%p", false), ("%s==2", true), ("%q", true)]

/-- The left side keeps its value of `%p` and that `%s` is not 1, and gains `%q`. -/
theorem left_path_absorbs_right :
    leftPath.Reachable ∧ rightPath.Reachable ∧ (mergePaths [leftPath, rightPath]).Reachable ∧
    ((leftPath.absorb rightPath).absorb (mergePaths [leftPath, rightPath])).same
      (leftPath.absorb (rightPath.absorb (mergePaths [leftPath, rightPath]))) = true ∧
    ("%q", true) ∈ (leftPath.absorb rightPath).conditions ∧
    ("%p", false) ∉ (leftPath.absorb rightPath).conditions ∧
    ("%s==2", true) ∉ (leftPath.absorb rightPath).conditions := by
  have hs : leftPath.Reachable := PathState.reachable_along _
  have ht : rightPath.Reachable := PathState.reachable_along _
  have hu : (mergePaths [leftPath, rightPath]).Reachable := by
    refine .merge fun p hp => ?_
    rcases List.mem_pair.mp hp with rfl | rfl
    · exact hs
    · exact ht
  obtain ⟨-, -, -, hassoc, hmerge⟩ := PathState.absorbing_is_left_biased hs ht hu
  obtain ⟨-, -, hplain, hequality⟩ := hmerge (by decide +kernel) (by decide +kernel)
  refine ⟨hs, ht, hu, hassoc, ?_, ?_, ?_⟩
  · exact (hplain "%q" true (by decide +kernel)).mpr (.inr (by decide +kernel))
  · rw [hplain "%p" false (by decide +kernel)]
    decide +kernel
  · rw [hequality "%s==2" true "%s" (by decide +kernel)]
    decide +kernel

end LockUsage
