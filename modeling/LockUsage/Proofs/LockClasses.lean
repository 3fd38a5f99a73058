import LockUsage.Proofs.Grouping
import LockUsage.Proofs.Lists

/-! Grouping class by class. The facts of a grouped set are listed by the classes of the set: one
that holds nothing, one for each name that is held, and one for each release that is pending where
nothing is held. Since the facts that stand for two classes are never the same, none is dropped on
the way into the set, and grouping once more finds each of them alone in its class. -/

namespace LockUsage

/-- The states with such locks belong to the class. -/
def LockState.fits (s : LockState) : LockClass → Bool
  | .init => s.isInit
  | .held name => s.holds name
  | .pending name => s.held.isEmpty && s.hasPending name

/-- The state has what makes up the class, once, and nothing else. -/
def LockState.isJust (s : LockState) : LockClass → Bool
  | .init => s.isInit
  | .held name => names s.held == [name] && s.pending.isEmpty
  | .pending name => s.held.isEmpty && names s.pending == [name]

namespace LockState

variable {s : LockState} {c : LockClass}

theorem names_eq_nil {locks : List Lock} : names locks = [] ↔ locks.isEmpty = true := by
  simp [names]

theorem isInit_iff_key : s.isInit = true ↔ s.key = (0, 0) := by
  simp only [isInit, key, Bool.and_eq_true, ← names_eq_nil, Prod.mk.injEq, Multiset.coe_eq_zero]

theorem fits_iff : s.fits c = true ↔ c.Covers s.key := by
  cases c with
  | init => exact isInit_iff_key
  | held name => simp only [fits, holds, any_name_iff, LockClass.Covers, key, Multiset.mem_coe]
  | pending name =>
    simp only [fits, hasPending, any_name_iff, LockClass.Covers, key, Bool.and_eq_true,
      ← names_eq_nil, Multiset.mem_coe, Multiset.coe_eq_zero]

theorem isJust_iff : s.isJust c = true ↔ s.key = c.key := by
  cases c with
  | init => exact isInit_iff_key
  | held name =>
    simp only [isJust, LockClass.key, key, Bool.and_eq_true, beq_iff_eq, ← names_eq_nil,
      Prod.mk.injEq, Multiset.coe_eq_zero, Multiset.coe_eq_singleton]
  | pending name =>
    simp only [isJust, LockClass.key, key, Bool.and_eq_true, beq_iff_eq, ← names_eq_nil,
      Prod.mk.injEq, Multiset.coe_eq_zero, Multiset.coe_eq_singleton]

end LockState

theorem LockClass.key_injective : Function.Injective LockClass.key := fun _ _ h =>
  covers_key_iff.mp (h ▸ covers_key_iff.mpr rfl)

namespace FactSet

def shows (s : FactSet) (c : LockClass) : Bool := s.facts.any fun f => f.locks.fits c

def heldNames (s : FactSet) : List String :=
  (s.facts.flatMap fun f => LockState.names f.locks.held).eraseDups

/-- The names of which a release is pending in some fact that holds nothing. -/
def pendingNames (s : FactSet) : List String :=
  ((s.facts.filter fun f => f.locks.held.isEmpty).flatMap fun f =>
    LockState.names f.locks.pending).eraseDups

variable {s : FactSet}

theorem mem_classes_iff_shows {c : LockClass} : c ∈ s.classes ↔ s.shows c = true := by
  simp only [mem_classes, shows, List.any_eq_true, LockState.fits_iff]

theorem members_eq (s : FactSet) (c : LockClass) :
    s.members c = s.facts.filter fun f => f.locks.fits c := by
  refine List.filter_congr fun f _ => ?_
  rw [Bool.eq_iff_iff, decide_eq_true_iff, LockState.mem_classes_iff, LockState.fits_iff]

theorem facts_foldl_insert {facts : List Fact} {s : FactSet}
    (h : (s.keys ++ facts.map Fact.key).Nodup) :
    (facts.foldl insert s).facts = s.facts ++ facts := by
  induction facts generalizing s with
  | nil => simp
  | cons f facts ih =>
    have hnew : s.contains f = false := by
      refine Bool.eq_false_iff.mpr fun hc => ?_
      exact List.disjoint_of_nodup_append h (contains_iff.mp hc) (List.mem_cons_self ..)
    have hinsert : s.insert f = ⟨s.facts ++ [f]⟩ := by simp [insert, hnew]
    have hkeys : ((s.insert f).keys ++ facts.map Fact.key).Nodup := by
      simpa [hinsert, keys] using h
    rw [List.foldl_cons, ih hkeys, hinsert, List.append_assoc, List.singleton_append]

theorem facts_ofList {facts : List Fact} (h : (facts.map Fact.key).Nodup) :
    (ofList facts).facts = facts := by
  simpa [ofList, empty, keys] using facts_foldl_insert (s := empty) (by simpa [keys, empty] using h)

theorem nodup_classes (s : FactSet) : s.classes.Nodup := nodup_eraseDups _

/-- The facts of a grouped set, class by class. -/
theorem facts_group (h : 1 < s.size) :
    s.group.facts = s.classes.map fun c => c.representative (s.members c) := by
  rw [group, if_neg (by omega)]
  refine facts_ofList ?_
  -- No fact is taken for another one, since classes have different keys.
  rw [List.map_map]
  refine s.nodup_classes.map fun c d hcd => LockClass.key_injective ?_
  simp only [Function.comp_apply, LockClass.key_representative] at hcd
  exact congrArg Prod.fst hcd

theorem isJust_representative (c d : LockClass) (members : List Fact) :
    (c.representative members).locks.isJust d = (c == d) := by
  rw [Bool.eq_iff_iff, LockState.isJust_iff, beq_iff_eq, LockClass.representative,
    LockClass.key_locks]
  exact LockClass.key_injective.eq_iff

theorem countP_isJust_group (h : 1 < s.size) (c : LockClass) :
    s.group.facts.countP (fun f => f.locks.isJust c) = if s.shows c then 1 else 0 := by
  have hcount : s.group.facts.countP (fun f => f.locks.isJust c) = s.classes.count c := by
    rw [facts_group h, List.countP_map, List.count]
    exact List.countP_congr fun d _ => by simp [isJust_representative]
  rw [hcount]
  by_cases hc : s.shows c = true
  · rw [if_pos hc, List.count_eq_one_of_mem s.nodup_classes (mem_classes_iff_shows.mpr hc)]
  · rw [if_neg hc, List.count_eq_zero_of_not_mem (mt mem_classes_iff_shows.mp hc)]

/-- Every fact of a grouped set stands for a class, on the paths of the members. -/
theorem exists_isJust_of_mem_group (h : 1 < s.size) {f : Fact} (hf : f ∈ s.group.facts) :
    ∃ c, f.locks.isJust c = true ∧
      f.path = mergePaths ((s.facts.filter fun g => g.locks.fits c).map (·.path)) := by
  rw [facts_group h] at hf
  obtain ⟨c, -, rfl⟩ := List.mem_map.mp hf
  refine ⟨c, by simp [isJust_representative], ?_⟩
  rw [← members_eq]
  rfl

theorem classes_subset (s : FactSet) :
    s.classes ⊆ .init :: (s.heldNames.map .held ++ s.pendingNames.map .pending) := by
  intro c hc
  obtain ⟨f, hf, hfits⟩ := List.any_eq_true.mp (mem_classes_iff_shows.mp hc)
  cases c with
  | init => exact List.mem_cons_self
  | held name =>
    have hn : name ∈ s.heldNames :=
      List.mem_eraseDups.mpr (List.mem_flatMap.mpr ⟨f, hf, LockState.any_name_iff.mp hfits⟩)
    exact List.mem_cons_of_mem _ (List.mem_append_left _ (List.mem_map_of_mem hn))
  | pending name =>
    obtain ⟨hfree, hp⟩ := Bool.and_eq_true_iff.mp hfits
    have hn : name ∈ s.pendingNames := List.mem_eraseDups.mpr (List.mem_flatMap.mpr
      ⟨f, List.mem_filter.mpr ⟨hf, hfree⟩, LockState.any_name_iff.mp hp⟩)
    exact List.mem_cons_of_mem _ (List.mem_append_right _ (List.mem_map_of_mem hn))

theorem size_group_le (s : FactSet) :
    s.group.size ≤ 1 + s.heldNames.length + s.pendingNames.length := by
  by_cases h : s.size ≤ 1
  · rw [group_of_size_le_one h]
    omega
  · have hsub := (List.subperm_of_subset s.nodup_classes s.classes_subset).length_le
    rw [size, facts_group (by omega), List.length_map]
    simp only [List.length_cons, List.length_append, List.length_map] at hsub
    omega

/-- Grouping keeps one fact a class. What is in a set of at most one fact stays as it is. Otherwise
there is exactly one fact for each class that some fact belongs to, on the merged paths of the facts
that do, and no other. Grouping again changes nothing, and neither does the order in which the set
was put together. -/
theorem grouped_by_class (hs : s.Built) :
    (s.size ≤ 1 → s.group = s) ∧
    (1 < s.size →
      (∀ c, s.group.facts.countP (fun f => f.locks.isJust c) = if s.shows c then 1 else 0) ∧
      ∀ f ∈ s.group.facts, ∃ c, f.locks.isJust c = true ∧
        f.path = mergePaths ((s.facts.filter fun g => g.locks.fits c).map (·.path))) ∧
    s.group.size ≤ 1 + s.heldNames.length + s.pendingNames.length ∧
    s.group.group.same s.group = true ∧
    ∀ t : FactSet, t.Built → s.same t = true → s.group.same t.group = true := by
  have hd := hs.distinct
  refine ⟨group_of_size_le_one, fun h => ⟨countP_isJust_group h, fun f hf => ?_⟩, s.size_group_le,
    ?_, fun t ht hst => ?_⟩
  · exact exists_isJust_of_mem_group h hf
  · exact (same_iff_equiv hd.group.group hd.group).mpr s.group_group
  · have heq := (same_iff_equiv hd ht.distinct).mp hst
    exact (same_iff_equiv hd.group ht.distinct.group).mpr (heq.group hd ht.distinct)

end FactSet

/-- Two facts with `@a` held, one of them twice and with a release of `@b` pending, a free one, and
two with releases pending. -/
def mixedFacts : List Fact :=
  [⟨⟨[⟨"@a", ""⟩, ⟨"@a", "%p"⟩], [⟨"@b", ""⟩]⟩, ⟨.within [("%p", true), ("%q==1", true)], "%p"⟩⟩,
    ⟨⟨[⟨"@a", ""⟩], []⟩, ⟨.within [("%p", false), ("%q==1", true)], "%p"⟩⟩,
    .initial,
    ⟨⟨[], [⟨"@b", ""⟩, ⟨"@c", ""⟩]⟩, .unreachable⟩,
    ⟨⟨[], [⟨"@b", ""⟩]⟩, ⟨.within [("%p", false)], "%p"⟩⟩]

/-- The facts with `@a` held have become one, on the path on which both agree, and the one with two
releases pending counts for both. -/
theorem mixed_facts_grouped :
    (FactSet.ofList mixedFacts).Built ∧ (FactSet.ofList mixedFacts).size = 5 ∧
    (FactSet.ofList mixedFacts).group.facts =
      [⟨⟨[⟨"@a", ""⟩], []⟩, ⟨.within [("%q==1", true)], "%q==1"⟩⟩, .initial,
        ⟨⟨[], [⟨"@b", ""⟩]⟩, ⟨.within [("%p", false)], "%p"⟩⟩,
        ⟨⟨[], [⟨"@c", ""⟩]⟩, .unreachable⟩] ∧
    (FactSet.ofList mixedFacts).group.facts.countP (fun f => f.locks.isJust (.held "@a")) = 1 ∧
    (FactSet.ofList mixedFacts).group.group.same (FactSet.ofList mixedFacts).group = true ∧
    (FactSet.ofList mixedFacts).group.same (FactSet.ofList mixedFacts.reverse).group = true := by
  have hs : (FactSet.ofList mixedFacts).Built := .ofList _
  obtain ⟨-, hcount, -, hagain, horder⟩ := FactSet.grouped_by_class hs
  have hsize : (FactSet.ofList mixedFacts).size = 5 := by decide +kernel
  have hshows : (FactSet.ofList mixedFacts).shows (.held "@a") = true := by decide +kernel
  refine ⟨hs, hsize, by decide +kernel, ?_, hagain, horder _ (.ofList _) (by decide +kernel)⟩
  rw [(hcount (by omega)).1, if_pos hshows]

end LockUsage
