import LockUsage.Proofs.PathMerging
import Mathlib.Data.Multiset.Basic

/-! Sets of facts up to what facts say. The key of a fact is the part of it that counts: how often
each lock is held and pending, and the paths that are allowed. Two facts are the same if they have
the same key, and change detection compares sets of keys. -/

namespace LockUsage

abbrev LockKey := Multiset String × Multiset String

def LockState.key (s : LockState) : LockKey := (↑(names s.held), ↑(names s.pending))

theorem LockState.same_iff_key {s t : LockState} : s.same t = true ↔ s.key = t.key := by
  simp only [same_iff, key, Prod.mk.injEq, Multiset.coe_eq_coe]

namespace Fact

def key (f : Fact) : LockKey × Region := (f.locks.key, f.path.region)

theorem same_iff {f g : Fact} : f.same g = true ↔ f.key = g.key := by
  simp only [same, PathState.same, Bool.and_eq_true, beq_iff_eq, LockState.same_iff_key, key,
    Prod.mk.injEq]

theorem locks_key_eq {f g : Fact} (h : f.key = g.key) : f.locks.key = g.locks.key :=
  congrArg Prod.fst h

theorem region_eq {f g : Fact} (h : f.key = g.key) : f.path.region = g.path.region :=
  congrArg Prod.snd h

theorem conditions_eq {f g : Fact} (h : f.key = g.key) :
    f.path.conditions = g.path.conditions := by
  simp only [PathState.conditions, region_eq h]

end Fact

namespace FactSet

def keys (s : FactSet) : List (LockKey × Region) := s.facts.map Fact.key

/-- No two facts are the same. -/
def Distinct (s : FactSet) : Prop := s.keys.Nodup

/-- The two sets say the same. -/
def Equiv (s t : FactSet) : Prop := ∀ k, k ∈ s.keys ↔ k ∈ t.keys

theorem Equiv.refl (s : FactSet) : s.Equiv s := fun _ => .rfl

theorem Equiv.symm {s t : FactSet} (h : s.Equiv t) : t.Equiv s := fun k => (h k).symm

theorem Equiv.trans {s t u : FactSet} (h : s.Equiv t) (h' : t.Equiv u) : s.Equiv u :=
  fun k => (h k).trans (h' k)

theorem key_mem_keys {s : FactSet} {f : Fact} (h : f ∈ s.facts) : f.key ∈ s.keys :=
  List.mem_map_of_mem h

theorem mem_keys {s : FactSet} {k : LockKey × Region} :
    k ∈ s.keys ↔ ∃ f ∈ s.facts, f.key = k := List.mem_map

theorem Equiv.exists_mem {s t : FactSet} (h : s.Equiv t) {f : Fact} (hf : f ∈ s.facts) :
    ∃ g ∈ t.facts, g.key = f.key := mem_keys.mp ((h _).mp (key_mem_keys hf))

theorem size_eq_length_keys (s : FactSet) : s.size = s.keys.length := by simp [size, keys]

theorem Equiv.size_eq {s t : FactSet} (h : s.Equiv t) (hs : s.Distinct) (ht : t.Distinct) :
    s.size = t.size := by
  rw [size_eq_length_keys, size_eq_length_keys]
  exact ((List.perm_ext_iff_of_nodup hs ht).mpr h).length_eq

theorem contains_iff {s : FactSet} {f : Fact} : s.contains f = true ↔ f.key ∈ s.keys := by
  simp only [contains, List.any_eq_true, Fact.same_iff, mem_keys]
  exact exists_congr fun _ => and_congr_right fun _ => eq_comm

theorem differsFrom_eq_false_iff_subset {s t : FactSet} :
    s.differsFrom t = false ↔ s.size = t.size ∧ s.keys ⊆ t.keys := by
  simp only [differsFrom, Bool.or_eq_false_iff, bne_eq_false_iff_eq, List.any_eq_false,
    Bool.not_eq_true', Bool.not_eq_false, contains_iff, keys, List.subset_def, List.forall_mem_map]

theorem differsFrom_eq_false_iff {s t : FactSet} (hs : s.Distinct) (ht : t.Distinct) :
    s.differsFrom t = false ↔ s.Equiv t := by
  rw [differsFrom_eq_false_iff_subset]
  constructor
  · rintro ⟨hsize, hsub⟩
    rw [size_eq_length_keys, size_eq_length_keys] at hsize
    have hp : s.keys.Perm t.keys :=
      (List.subperm_of_subset hs hsub).perm_of_length_le hsize.ge
    exact fun k => hp.mem_iff
  · intro h
    exact ⟨h.size_eq hs ht, fun k hk => (h k).mp hk⟩

theorem same_iff_equiv {s t : FactSet} (hs : s.Distinct) (ht : t.Distinct) :
    s.same t = true ↔ s.Equiv t := by
  simp only [same, Bool.and_eq_true, Bool.not_eq_true', differsFrom_eq_false_iff hs ht,
    differsFrom_eq_false_iff ht hs]
  exact ⟨fun h => h.1, fun h => ⟨h, h.symm⟩⟩

theorem distinct_empty : empty.Distinct := List.nodup_nil

theorem distinct_single (f : Fact) : (single f).Distinct := List.nodup_singleton _

theorem mem_keys_insert {s : FactSet} {f : Fact} {k : LockKey × Region} :
    k ∈ (s.insert f).keys ↔ k ∈ s.keys ∨ k = f.key := by
  by_cases h : s.contains f = true
  · rw [insert, if_pos h]
    exact ⟨.inl, fun hk => hk.elim id fun he => he ▸ contains_iff.mp h⟩
  · rw [insert, if_neg h]
    simp [keys]

theorem mem_facts_insert {s : FactSet} {f g : Fact} (h : g ∈ (s.insert f).facts) :
    g ∈ s.facts ∨ g = f := by
  by_cases hc : s.contains f = true
  · rw [insert, if_pos hc] at h
    exact .inl h
  · rw [insert, if_neg hc] at h
    simpa using h

theorem Distinct.insert {s : FactSet} (hs : s.Distinct) (f : Fact) : (s.insert f).Distinct := by
  by_cases h : s.contains f = true
  · rw [FactSet.insert, if_pos h]
    exact hs
  · rw [FactSet.insert, if_neg h]
    have hk : f.key ∉ s.keys := fun hm => h (contains_iff.mpr hm)
    simp only [Distinct, keys, List.map_append, List.map_cons, List.map_nil]
    exact hs.append (List.nodup_singleton _) (List.disjoint_singleton.mpr hk)

theorem mem_keys_foldl_insert {facts : List Fact} {s : FactSet} {k : LockKey × Region} :
    k ∈ (facts.foldl insert s).keys ↔ k ∈ s.keys ∨ k ∈ facts.map Fact.key := by
  induction facts generalizing s with
  | nil => simp
  | cons f facts ih =>
    rw [List.foldl_cons, ih, mem_keys_insert]
    simp only [List.map_cons, List.mem_cons]
    tauto

theorem mem_facts_foldl_insert {facts : List Fact} {s : FactSet} {g : Fact}
    (h : g ∈ (facts.foldl insert s).facts) : g ∈ s.facts ∨ g ∈ facts := by
  induction facts generalizing s with
  | nil => exact .inl h
  | cons f facts ih =>
    rcases ih h with hg | hg
    · rcases mem_facts_insert hg with hg | rfl
      · exact .inl hg
      · exact .inr (by simp)
    · exact .inr (by simp [hg])

theorem Distinct.foldl_insert {s : FactSet} (hs : s.Distinct) (facts : List Fact) :
    (facts.foldl FactSet.insert s).Distinct := by
  induction facts generalizing s with
  | nil => exact hs
  | cons f facts ih => exact ih (hs.insert f)

theorem mem_keys_ofList {facts : List Fact} {k : LockKey × Region} :
    k ∈ (ofList facts).keys ↔ k ∈ facts.map Fact.key := by
  rw [ofList, mem_keys_foldl_insert]
  simp [keys, empty]

theorem mem_of_mem_ofList {facts : List Fact} {g : Fact} (h : g ∈ (ofList facts).facts) :
    g ∈ facts := by
  simpa [empty] using mem_facts_foldl_insert h

theorem distinct_ofList (facts : List Fact) : (ofList facts).Distinct :=
  distinct_empty.foldl_insert facts

/-- Sets of facts, however they are put together. -/
inductive Built : FactSet → Prop
  | empty : Built .empty
  | single (f : Fact) : Built (.single f)
  | insert {s : FactSet} (f : Fact) : Built s → Built (s.insert f)
  | union {s t : FactSet} : Built s → Built t → Built (s.union t)
  | ofList (facts : List Fact) : Built (.ofList facts)

theorem Built.distinct {s : FactSet} (h : s.Built) : s.Distinct := by
  induction h with
  | empty => exact distinct_empty
  | single f => exact distinct_single f
  | insert f _ ih => exact ih.insert f
  | union _ _ ih _ => exact ih.foldl_insert _
  | ofList facts => exact distinct_ofList facts

/-- Mapping equivalent sets by a function of keys gives equivalent sets. -/
theorem Equiv.ofList_filterMap {s t : FactSet} (h : s.Equiv t) {step : Fact → Option Fact}
    (hstep : ∀ f g, f.key = g.key → (step f).map Fact.key = (step g).map Fact.key) :
    (ofList (s.facts.filterMap step)).Equiv (ofList (t.facts.filterMap step)) := by
  have hsub {s t : FactSet} (h : s.Equiv t) {k : LockKey × Region}
      (hk : k ∈ (ofList (s.facts.filterMap step)).keys) :
      k ∈ (ofList (t.facts.filterMap step)).keys := by
    simp only [mem_keys_ofList, List.mem_map, List.mem_filterMap] at hk ⊢
    obtain ⟨f', ⟨f, hf, hs⟩, rfl⟩ := hk
    obtain ⟨g, hg, hkey⟩ := h.exists_mem hf
    have hh := hstep g f hkey
    rw [hs, Option.map_some, Option.map_eq_some_iff] at hh
    obtain ⟨g', hs', hk'⟩ := hh
    exact ⟨g', ⟨g, hg, hs'⟩, hk'⟩
  exact fun k => ⟨hsub h, hsub h.symm⟩

theorem mem_keys_union {s t : FactSet} {k : LockKey × Region} :
    k ∈ (s.union t).keys ↔ k ∈ s.keys ∨ k ∈ t.keys := mem_keys_foldl_insert

/-- All facts of several sets. -/
def unions (sets : List FactSet) : FactSet := sets.foldl union empty

theorem mem_keys_foldl_union {sets : List FactSet} {s : FactSet} {k : LockKey × Region} :
    k ∈ (sets.foldl union s).keys ↔ k ∈ s.keys ∨ ∃ t ∈ sets, k ∈ t.keys := by
  induction sets generalizing s with
  | nil => simp
  | cons t sets ih =>
    rw [List.foldl_cons, ih, mem_keys_union]
    simp only [List.mem_cons, exists_eq_or_imp]
    tauto

theorem mem_keys_unions {sets : List FactSet} {k : LockKey × Region} :
    k ∈ (unions sets).keys ↔ ∃ t ∈ sets, k ∈ t.keys := by
  rw [unions, mem_keys_foldl_union]
  simp [keys, empty]

theorem mem_facts_foldl_union {sets : List FactSet} {s : FactSet} {f : Fact}
    (h : f ∈ (sets.foldl union s).facts) : f ∈ s.facts ∨ ∃ t ∈ sets, f ∈ t.facts := by
  induction sets generalizing s with
  | nil => exact .inl h
  | cons t sets ih =>
    rcases ih h with hf | ⟨u, hu, hf⟩
    · rcases mem_facts_foldl_insert hf with hf | hf
      · exact .inl hf
      · exact .inr ⟨t, by simp, hf⟩
    · exact .inr ⟨u, by simp [hu], hf⟩

theorem mem_of_mem_unions {sets : List FactSet} {f : Fact} (h : f ∈ (unions sets).facts) :
    ∃ t ∈ sets, f ∈ t.facts := by
  simpa [empty] using mem_facts_foldl_union h

theorem distinct_unions (sets : List FactSet) : (unions sets).Distinct := by
  suffices h : ∀ s : FactSet, s.Distinct → (sets.foldl union s).Distinct from h _ distinct_empty
  induction sets with
  | nil => exact fun s hs => hs
  | cons t sets ih => exact fun s hs => ih _ (hs.foldl_insert t.facts)

end FactSet

end LockUsage
