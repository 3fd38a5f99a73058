import LockUsage.Proofs.LockLevels
import Mathlib.Data.String.Basic

/-! Path conditions as sets of recorded outcomes. Two predicates have the same key if they are equal
or are equalities on one subject, and a path condition records at most one outcome a key. Merging
keeps the outcomes on whose key all contributors agree. -/

namespace LockUsage

/-- Predicates of which one path condition records at most one. -/
def SameKey (m n : String) : Prop := m = n ∨ (subject? m ≠ none ∧ subject? m = subject? n)

instance (m n : String) : Decidable (SameKey m n) := inferInstanceAs (Decidable (_ ∨ _))

theorem SameKey.refl (n : String) : SameKey n n := .inl rfl

theorem SameKey.symm {m n : String} (h : SameKey m n) : SameKey n m := by
  rcases h with rfl | ⟨hm, he⟩
  · exact .inl rfl
  · exact .inr ⟨he ▸ hm, he.symm⟩

theorem SameKey.eq_of_plain {m n : String} (h : SameKey m n) (hn : subject? n = none) : m = n := by
  rcases h with he | ⟨hm, he⟩
  · exact he
  · exact absurd (he.trans hn) hm

theorem SameKey.of_subject {m n subject : String} (hm : subject? m = some subject)
    (hn : subject? n = some subject) : SameKey m n :=
  .inr ⟨by simp [hm], by rw [hm, hn]⟩

theorem SameKey.subject_eq {m n : String} (h : SameKey m n) : subject? m = subject? n := by
  rcases h with rfl | ⟨-, he⟩
  · rfl
  · exact he

/-- Truth values of plain predicates, and values of the subjects of equalities. -/
structure Assignment where
  plain : String → Bool
  value : String → String

/-- An equality holds if its subject has the value that it names. -/
def Assignment.holds (a : Assignment) (name : String) : Bool :=
  match subject? name with
  | none => a.plain name
  | some subject => name == subject ++ "==" ++ a.value subject

/-- No two equalities on one subject hold. -/
theorem Assignment.eq_of_holds {a : Assignment} {m n : String} (h : SameKey m n)
    (hm : a.holds m = true) (hn : a.holds n = true) : m = n := by
  cases hs : subject? n with
  | none => exact h.eq_of_plain hs
  | some subject =>
    have hs' : subject? m = some subject := h.subject_eq.trans hs
    simp only [holds, hs, hs', beq_iff_eq] at hm hn
    rw [hm, hn]

/-- What is recorded rules out the outcome of a branch: it is the opposite outcome, or two
equalities on one subject would both hold. -/
def Excludes (recorded : String × Bool) (name : String) (value : Bool) : Prop :=
  SameKey recorded.1 name ∧ ((recorded.1 = name ∧ recorded.2 ≠ value) ∨
    (recorded.1 ≠ name ∧ recorded.2 = true ∧ value = true))

instance (recorded : String × Bool) (name : String) (value : Bool) :
    Decidable (Excludes recorded name value) := inferInstanceAs (Decidable (_ ∧ _))

theorem Excludes.ne {recorded : String × Bool} {name : String} {value : Bool}
    (h : Excludes recorded name value) : recorded ≠ (name, value) := by
  rintro rfl
  rcases h.2 with ⟨-, hne⟩ | ⟨hne, -⟩ <;> exact hne rfl

/-- No assignment agrees with an outcome and with one that rules it out. -/
theorem Excludes.holds_ne {recorded : String × Bool} {name : String} {value : Bool}
    (h : Excludes recorded name value) {a : Assignment} (ha : a.holds name = value) :
    a.holds recorded.1 ≠ recorded.2 := by
  intro hr
  obtain ⟨hkey, ⟨hname, hne⟩ | ⟨hne, htrue, hvalue⟩⟩ := h
  · exact hne (by rw [← hr, ← ha, hname])
  · exact hne (Assignment.eq_of_holds hkey (hr.trans htrue) (ha.trans hvalue))

namespace Conditions

def Sorted (c : Conditions) : Prop := c.Pairwise fun a b => a.1 < b.1

theorem get?_eq_none_iff {c : Conditions} {n : String} :
    c.get? n = none ↔ ∀ entry ∈ c, entry.1 ≠ n := by
  simp only [get?, List.lookup_eq_none_iff, bne_iff_ne]
  exact forall₂_congr fun _ _ => ne_comm

theorem mem_of_get? {c : Conditions} {n : String} {v : Bool} (h : c.get? n = some v) :
    (n, v) ∈ c := by
  obtain ⟨pre, post, rfl, -⟩ := List.lookup_eq_some_iff.mp h
  simp

theorem mem_insert {c : Conditions} {n : String} {v : Bool} (hn : c.get? n = none)
    {entry : String × Bool} : entry ∈ insert n v c ↔ entry = (n, v) ∨ entry ∈ c := by
  induction c with
  | nil => simp [insert]
  | cons first rest ih =>
    have hne : first.1 ≠ n := get?_eq_none_iff.mp hn first (by simp)
    have hrest : get? rest n = none :=
      get?_eq_none_iff.mpr fun e he => get?_eq_none_iff.mp hn e (by simp [he])
    simp only [insert, if_neg hne]
    split
    · simp only [List.mem_cons, ih hrest]
      tauto
    · simp only [List.mem_cons]

theorem mem_names_insert {c : Conditions} {n : String} {v : Bool} {name : String} :
    name ∈ (insert n v c).map (·.1) ↔ name = n ∨ name ∈ c.map (·.1) := by
  induction c with
  | nil => simp [insert]
  | cons first rest ih =>
    rw [insert]
    split_ifs with hlt heq
    · simp only [List.map_cons, List.mem_cons, ih]
      tauto
    · simp [← heq]
    · simp

theorem Sorted.insert {c : Conditions} (hc : c.Sorted) (n : String) (v : Bool) :
    (c.insert n v).Sorted := by
  induction c with
  | nil => simp [Conditions.insert, Sorted]
  | cons first rest ih =>
    obtain ⟨hfirst, hrest⟩ := List.pairwise_cons.mp hc
    rw [Conditions.insert]
    split_ifs with hlt heq
    · refine List.pairwise_cons.mpr ⟨fun e he => ?_, ih hrest⟩
      rcases mem_names_insert.mp (List.mem_map_of_mem he) with hn | hmem
      · exact hn ▸ hlt
      · obtain ⟨e', he', hname⟩ := List.mem_map.mp hmem
        exact hname ▸ hfirst e' he'
    · exact List.pairwise_cons.mpr ⟨fun e he => heq ▸ hfirst e he, hrest⟩
    · have hgt : n < first.1 := lt_of_le_of_ne (not_lt.mp hlt) (Ne.symm heq)
      refine List.pairwise_cons.mpr ⟨fun e he => ?_, hc⟩
      rcases List.mem_cons.mp he with rfl | he
      · exact hgt
      · exact hgt.trans (hfirst e he)

theorem mem_erase {c : Conditions} {n : String} {entry : String × Bool} :
    entry ∈ c.erase n ↔ entry ∈ c ∧ entry.1 ≠ n := by
  simp [erase]

theorem Sorted.erase {c : Conditions} (hc : c.Sorted) (n : String) : (c.erase n).Sorted :=
  List.Pairwise.filter _ hc

theorem Sorted.nodup {c : Conditions} (hc : c.Sorted) : c.Nodup :=
  hc.imp fun {_ _} hlt he => absurd (congrArg Prod.fst he) hlt.ne

theorem Sorted.ext {c d : Conditions} (hc : c.Sorted) (hd : d.Sorted)
    (h : ∀ entry, entry ∈ c ↔ entry ∈ d) : c = d :=
  ((List.perm_ext_iff_of_nodup hc.nodup hd.nodup).mpr h).eq_of_pairwise
    (fun _ _ _ _ hlt hgt => absurd hgt hlt.asymm) hc hd

structure WellFormed (c : Conditions) : Prop where
  nonempty : c ≠ []
  sorted : c.Sorted
  keys : ∀ a ∈ c, ∀ b ∈ c, SameKey a.1 b.1 → a = b

end Conditions

namespace PathState

def WellFormed (s : PathState) : Prop := ∀ c, s.region = .within c → c.WellFormed

theorem wellFormed_unconstrained : unconstrained.WellFormed := fun c h => by
  simp [unconstrained] at h

theorem isTop_iff {s : PathState} : s.isTop = true ↔ s.region = .top := by simp [isTop]

theorem isBottom_iff {s : PathState} : s.isBottom = true ↔ s.region = .bottom := by simp [isBottom]

theorem conditions_of_region {s : PathState} {c : Conditions} (h : s.region = .within c) :
    s.conditions = c := by
  simp [conditions, h]

theorem WellFormed.sorted {s : PathState} (hs : s.WellFormed) : s.conditions.Sorted := by
  cases h : s.region with
  | top => simp [conditions, h, Conditions.Sorted]
  | bottom => simp [conditions, h, Conditions.Sorted]
  | within c => simpa only [conditions_of_region h] using (hs c h).sorted

theorem WellFormed.keys {s : PathState} (hs : s.WellFormed) {a b : String × Bool}
    (ha : a ∈ s.conditions) (hb : b ∈ s.conditions) (h : SameKey a.1 b.1) : a = b := by
  cases hr : s.region with
  | top => simp [conditions, hr] at ha
  | bottom => simp [conditions, hr] at ha
  | within c =>
    rw [conditions_of_region hr] at ha hb
    exact (hs c hr).keys a ha b hb h

theorem WellFormed.conditions_eq_nil_iff {s : PathState} (hs : s.WellFormed) :
    s.conditions = [] ↔ s.region = .top ∨ s.region = .bottom := by
  cases h : s.region with
  | top => simp [conditions, h]
  | bottom => simp [conditions, h]
  | within c => simpa [conditions_of_region h] using (hs c h).nonempty

/-- A well-formed path condition is known from its outcomes and from whether it allows no path. -/
theorem WellFormed.region_eq {s t : PathState} (hs : s.WellFormed) (ht : t.WellFormed)
    (hb : s.isBottom = t.isBottom) (h : ∀ entry, entry ∈ s.conditions ↔ entry ∈ t.conditions) :
    s.region = t.region := by
  have hc : s.conditions = t.conditions := hs.sorted.ext ht.sorted h
  have hn := hs.conditions_eq_nil_iff.symm.trans (hc ▸ ht.conditions_eq_nil_iff)
  have hb' : s.region = .bottom ↔ t.region = .bottom := by
    rw [← isBottom_iff, ← isBottom_iff, hb]
  cases hrs : s.region with
  | top => simp_all
  | bottom => exact (hb'.mp hrs).symm
  | within c =>
    cases hrt : t.region with
    | top => simp_all
    | bottom => exact absurd (hb'.mpr hrt) (by simp [hrs])
    | within d => rw [← conditions_of_region hrs, hc, conditions_of_region hrt]

theorem conditions_record (s : PathState) (name : String) (value : Bool) :
    (s.record name value).conditions = s.conditions.insert name value := rfl

theorem WellFormed.record {s : PathState} (hs : s.WellFormed) {name : String} (value : Bool)
    (hk : ∀ entry ∈ s.conditions, ¬ SameKey entry.1 name) : (s.record name value).WellFormed := by
  have hn : s.conditions.get? name = none :=
    Conditions.get?_eq_none_iff.mpr fun e he h => hk e he (h ▸ .refl _)
  intro c hc
  obtain rfl : s.conditions.insert name value = c := by simpa [PathState.record] using hc
  refine ⟨?_, hs.sorted.insert name value, ?_⟩
  · exact List.ne_nil_of_mem ((Conditions.mem_insert hn).mpr (.inl rfl))
  · intro a ha b hb hab
    rcases (Conditions.mem_insert hn).mp ha with rfl | ha <;>
      rcases (Conditions.mem_insert hn).mp hb with rfl | hb
    · rfl
    · exact absurd hab.symm (hk b hb)
    · exact absurd hab (hk a ha)
    · exact hs.keys ha hb hab

theorem sibling?_eq_none_iff {s : PathState} {name : String} (hn : s.get? name = none) :
    s.sibling? name = none ↔ ∀ entry ∈ s.conditions, ¬ SameKey entry.1 name := by
  have hne := Conditions.get?_eq_none_iff.mp hn
  cases hs : subject? name with
  | none =>
    simp only [sibling?, hs, true_iff]
    exact fun e he h => hne e he (h.eq_of_plain hs)
  | some subject =>
    simp only [sibling?, hs, Option.map_eq_none_iff, List.find?_eq_none, beq_iff_eq]
    refine forall₂_congr fun e he => not_congr ⟨fun h => .of_subject h hs, fun h => ?_⟩
    exact h.subject_eq.trans hs

theorem exists_of_sibling? {s : PathState} {name : String} {fixed : Bool}
    (h : s.sibling? name = some fixed) :
    ∃ entry ∈ s.conditions, SameKey entry.1 name ∧ entry.2 = fixed := by
  cases hs : subject? name with
  | none => simp [sibling?, hs] at h
  | some subject =>
    simp only [sibling?, hs, Option.map_eq_some_iff] at h
    obtain ⟨entry, hf, he⟩ := h
    have hsub := List.find?_some hf
    exact ⟨entry, List.mem_of_find?_eq_some hf, .of_subject (by simpa using hsub) hs, he⟩

/-- A branch either leaves the path condition as it is, or records an outcome of a new key. -/
theorem assume?_cases {s t : PathState} {name : String} {value : Bool}
    (h : s.assume? name value = some t) :
    t = s ∨ (t = s.record name value ∧ ∀ entry ∈ s.conditions, ¬ SameKey entry.1 name) := by
  cases hg : s.get? name with
  | some recorded =>
    simp only [assume?, hg] at h
    split at h
    · exact .inl (Option.some.inj h).symm
    · simp at h
  | none =>
    cases hs : s.sibling? name with
    | some fixed =>
      simp only [assume?, hg, hs] at h
      split at h
      · simp at h
      · exact .inl (Option.some.inj h).symm
    | none =>
      simp only [assume?, hg, hs] at h
      exact .inr ⟨(Option.some.inj h).symm, (sibling?_eq_none_iff hg).mp hs⟩

theorem exists_of_assume?_eq_none {s : PathState} {name : String} {value : Bool}
    (h : s.assume? name value = none) : ∃ entry ∈ s.conditions, Excludes entry name value := by
  cases hg : s.get? name with
  | some recorded =>
    simp only [assume?, hg] at h
    split at h
    · simp at h
    · next hne => exact ⟨_, Conditions.mem_of_get? hg, .refl _, .inl ⟨rfl, hne⟩⟩
  | none =>
    cases hs : s.sibling? name with
    | none => simp [assume?, hg, hs] at h
    | some fixed =>
      simp only [assume?, hg, hs] at h
      split at h
      · next hv =>
        obtain ⟨entry, he, hk, rfl⟩ := exists_of_sibling? hs
        have hne := Conditions.get?_eq_none_iff.mp hg entry he
        exact ⟨entry, he, hk, .inr ⟨hne, by simpa using hv⟩⟩
      · simp at h

theorem WellFormed.assume? {s t : PathState} (hs : s.WellFormed) {name : String} {value : Bool}
    (h : s.assume? name value = some t) : t.WellFormed := by
  rcases assume?_cases h with rfl | ⟨rfl, hk⟩
  · exact hs
  · exact hs.record value hk

/-- After a branch its outcome is recorded, or another equality on the subject is. -/
theorem mem_assume? {s t : PathState} {name : String} {value : Bool}
    (h : s.assume? name value = some t) : (name, value) ∈ t.conditions ∨
      ∃ entry ∈ s.conditions, SameKey entry.1 name ∧ entry.1 ≠ name := by
  cases hg : s.get? name with
  | some recorded =>
    simp only [assume?, hg] at h
    split at h
    · next hv =>
      obtain rfl := Option.some.inj h
      exact .inl (hv ▸ Conditions.mem_of_get? hg)
    · simp at h
  | none =>
    cases hs : s.sibling? name with
    | some fixed =>
      obtain ⟨entry, he, hk, -⟩ := exists_of_sibling? hs
      exact .inr ⟨entry, he, hk, Conditions.get?_eq_none_iff.mp hg entry he⟩
    | none =>
      simp only [assume?, hg, hs] at h
      obtain rfl := Option.some.inj h
      exact .inl ((Conditions.mem_insert hg).mpr (.inl rfl))

theorem conditions_subset_assume? {s t : PathState} {name : String} {value : Bool}
    (h : s.assume? name value = some t) : s.conditions ⊆ t.conditions := by
  rcases assume?_cases h with rfl | ⟨rfl, hk⟩
  · exact fun _ he => he
  · have hn : s.conditions.get? name = none :=
      Conditions.get?_eq_none_iff.mpr fun e he h => hk e he (h ▸ .refl _)
    exact fun entry he => (Conditions.mem_insert hn).mpr (.inr he)

theorem mem_conditions_assume? {s t : PathState} {name : String} {value : Bool}
    (h : s.assume? name value = some t) {entry : String × Bool} (he : entry ∈ t.conditions) :
    entry ∈ s.conditions ∨ entry = (name, value) := by
  rcases assume?_cases h with rfl | ⟨rfl, hk⟩
  · exact .inl he
  · have hn : s.conditions.get? name = none :=
      Conditions.get?_eq_none_iff.mpr fun e he h => hk e he (h ▸ .refl _)
    exact ((Conditions.mem_insert hn).mp he).symm

end PathState

end LockUsage
