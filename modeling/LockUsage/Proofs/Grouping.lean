import LockUsage.Proofs.FactSets

/-! Grouping keeps one fact a class of lock states, and the class of no fact is lost. -/

namespace LockUsage

namespace LockClass

/-- What the fact that stands for the class says of the locks. -/
def key : LockClass → LockKey
  | init => (0, 0)
  | held name => ({name}, 0)
  | pending name => (0, {name})

theorem key_locks (c : LockClass) (members : List Fact) : (c.locks members).key = c.key := by
  cases c <;> rfl

theorem key_representative (c : LockClass) (members : List Fact) :
    (c.representative members).key = (c.key, (mergePaths (members.map (·.path))).region) := by
  simp only [representative, Fact.key, key_locks]

/-- The facts with such a key belong to the class. -/
def Covers (c : LockClass) (k : LockKey) : Prop :=
  match c with
  | init => k = (0, 0)
  | held name => name ∈ k.1
  | pending name => k.1 = 0 ∧ name ∈ k.2

theorem covers_key_iff {c d : LockClass} : c.Covers d.key ↔ c = d := by
  cases c <;> cases d <;> simp [Covers, key]

end LockClass

theorem LockState.mem_classes_iff {s : LockState} {c : LockClass} :
    c ∈ s.classes ↔ c.Covers s.key := by
  have hempty (l : List Lock) : l.isEmpty = true ↔ (↑(names l) : Multiset String) = 0 := by
    simp [names]
  by_cases hh : s.held.isEmpty = true
  · have hk := (hempty _).mp hh
    by_cases hp : s.pending.isEmpty = true
    · have hq := (hempty _).mp hp
      cases c <;> simp [classes, isInit, hh, hp, LockClass.Covers, LockState.key, hk, hq]
    · have hq := (hempty _).not.mp hp
      cases c <;> simp [classes, isInit, hh, hp, LockClass.Covers, LockState.key, hk]
      · simpa using hq
  · have hk := (hempty _).not.mp hh
    have hn : names s.held ≠ [] := by simpa using hk
    cases c <;> simp [classes, isInit, hh, LockClass.Covers, LockState.key, hn]

namespace FactSet

theorem mem_classes {s : FactSet} {c : LockClass} :
    c ∈ s.classes ↔ ∃ f ∈ s.facts, c.Covers f.locks.key := by
  simp only [classes, List.mem_eraseDups, List.mem_flatMap, LockState.mem_classes_iff]

theorem mem_members {s : FactSet} {c : LockClass} {f : Fact} :
    f ∈ s.members c ↔ f ∈ s.facts ∧ c.Covers f.locks.key := by
  simp only [members, List.mem_filter, decide_eq_true_eq, LockState.mem_classes_iff]

theorem group_of_size_le_one {s : FactSet} (h : s.size ≤ 1) : s.group = s := by
  simp [group, h]

theorem mem_keys_group {s : FactSet} (h : 1 < s.size) {k : LockKey × Region} :
    k ∈ s.group.keys ↔ ∃ c ∈ s.classes,
      k = (c.key, (mergePaths ((s.members c).map (·.path))).region) := by
  rw [group, if_neg (by omega), mem_keys_ofList]
  simp only [List.map_map, List.mem_map, Function.comp_apply, LockClass.key_representative, eq_comm]

theorem mem_facts_group {s : FactSet} {f : Fact} (h : f ∈ s.group.facts) :
    f ∈ s.facts ∨ ∃ c ∈ s.classes, f = c.representative (s.members c) := by
  by_cases hs : s.size ≤ 1
  · rw [group_of_size_le_one hs] at h
    exact .inl h
  · rw [group, if_neg hs] at h
    obtain ⟨c, hc, he⟩ := List.mem_map.mp (mem_of_mem_ofList h)
    exact .inr ⟨c, hc, he.symm⟩

theorem Distinct.group {s : FactSet} (hs : s.Distinct) : s.group.Distinct := by
  by_cases h : s.size ≤ 1
  · rw [group_of_size_le_one h]
    exact hs
  · rw [FactSet.group, if_neg h]
    exact distinct_ofList _

theorem Equiv.classes_iff {s t : FactSet} (h : s.Equiv t) {c : LockClass}
    (hc : c ∈ s.classes) : c ∈ t.classes := by
  obtain ⟨f, hf, hcov⟩ := mem_classes.mp hc
  obtain ⟨g, hg, hk⟩ := h.exists_mem hf
  exact mem_classes.mpr ⟨g, hg, Fact.locks_key_eq hk ▸ hcov⟩

theorem Equiv.mem_region_members {s t : FactSet} (h : s.Equiv t) {c : LockClass} {r : Region}
    (hr : r ∈ ((s.members c).map (·.path)).map PathState.region) :
    r ∈ ((t.members c).map (·.path)).map PathState.region := by
  simp only [List.map_map, List.mem_map, Function.comp_apply] at hr ⊢
  obtain ⟨f, hf, rfl⟩ := hr
  obtain ⟨hf, hcov⟩ := mem_members.mp hf
  obtain ⟨g, hg, hk⟩ := h.exists_mem hf
  exact ⟨g, mem_members.mpr ⟨hg, Fact.locks_key_eq hk ▸ hcov⟩, Fact.region_eq hk⟩

theorem Equiv.group {s t : FactSet} (h : s.Equiv t) (hs : s.Distinct) (ht : t.Distinct) :
    s.group.Equiv t.group := by
  have hsize := h.size_eq hs ht
  by_cases h1 : s.size ≤ 1
  · rw [group_of_size_le_one h1, group_of_size_le_one (hsize ▸ h1)]
    exact h
  · intro k
    rw [mem_keys_group (by omega), mem_keys_group (by omega)]
    have hregion (c : LockClass) : (mergePaths ((s.members c).map (·.path))).region =
        (mergePaths ((t.members c).map (·.path))).region :=
      mergePaths_region_congr fun r => ⟨h.mem_region_members, h.symm.mem_region_members⟩
    simp only [hregion]
    exact exists_congr fun c => and_congr_left fun _ => ⟨h.classes_iff, h.symm.classes_iff⟩

/-- A fact that stands for a class belongs to this class only. -/
theorem mem_members_group {s : FactSet} (h : 1 < s.size) {c : LockClass} {f : Fact}
    (hf : f ∈ s.group.members c) :
    f.path.region = (mergePaths ((s.members c).map (·.path))).region := by
  obtain ⟨hf, hcov⟩ := mem_members.mp hf
  obtain ⟨d, -, hk⟩ := (mem_keys_group h).mp (key_mem_keys hf)
  have hl : f.locks.key = d.key := congrArg Prod.fst hk
  obtain rfl : c = d := LockClass.covers_key_iff.mp (hl ▸ hcov)
  exact congrArg Prod.snd hk

theorem mem_classes_group {s : FactSet} (h : 1 < s.size) {c : LockClass} :
    c ∈ s.group.classes ↔ c ∈ s.classes := by
  rw [mem_classes]
  constructor
  · rintro ⟨f, hf, hcov⟩
    obtain ⟨d, hd, hk⟩ := (mem_keys_group h).mp (key_mem_keys hf)
    have hl : f.locks.key = d.key := congrArg Prod.fst hk
    obtain rfl : c = d := LockClass.covers_key_iff.mp (hl ▸ hcov)
    exact hd
  · intro hc
    obtain ⟨f, hf, hk⟩ := mem_keys.mp ((mem_keys_group h).mpr ⟨c, hc, rfl⟩)
    have hl : f.locks.key = c.key := congrArg Prod.fst hk
    exact ⟨f, hf, hl ▸ LockClass.covers_key_iff.mpr rfl⟩

theorem region_members_group {s : FactSet} (h : 1 < s.size) {c : LockClass} (hc : c ∈ s.classes) :
    (mergePaths ((s.group.members c).map (·.path))).region =
      (mergePaths ((s.members c).map (·.path))).region := by
  rw [← mergePaths_singleton (wellFormed_mergePaths ((s.members c).map (·.path)))]
  refine mergePaths_region_congr fun r => ?_
  simp only [List.map_map, List.mem_map, Function.comp_apply, List.map_cons, List.map_nil,
    List.mem_singleton]
  constructor
  · rintro ⟨f, hf, rfl⟩
    exact mem_members_group h hf
  · rintro rfl
    obtain ⟨f, hf, hcov⟩ := mem_classes.mp ((mem_classes_group h).mpr hc)
    have hm := mem_members.mpr ⟨hf, hcov⟩
    exact ⟨f, hm, mem_members_group h hm⟩

theorem group_group (s : FactSet) : s.group.group.Equiv s.group := by
  by_cases h1 : s.size ≤ 1
  · rw [group_of_size_le_one h1, group_of_size_le_one h1]
    exact .refl _
  · by_cases h2 : s.group.size ≤ 1
    · rw [group_of_size_le_one h2]
      exact .refl _
    · intro k
      rw [mem_keys_group (s := s.group) (by omega), mem_keys_group (s := s) (by omega)]
      constructor
      · rintro ⟨c, hc, rfl⟩
        have hc' := (mem_classes_group (by omega)).mp hc
        exact ⟨c, hc', by rw [region_members_group (by omega) hc']⟩
      · rintro ⟨c, hc, rfl⟩
        exact ⟨c, (mem_classes_group (by omega)).mpr hc,
          by rw [region_members_group (by omega) hc]⟩

end FactSet

/-! Facts on one lock only have a level, and the fact that stands for their class has its sign. -/

/-- The class of the states of a lock at a level. -/
def LockClass.ofLevel (name : String) (level : Int) : LockClass :=
  if level = 0 then .init else if 0 < level then .held name else .pending name

theorem LockClass.ofLevel_eq_iff {name : String} {m n : Int} :
    LockClass.ofLevel name m = .ofLevel name n ↔ m.sign = n.sign := by
  rcases lt_trichotomy m 0 with hm | rfl | hm <;> rcases lt_trichotomy n 0 with hn | rfl | hn
  all_goals
    simp [LockClass.ofLevel, Int.sign_eq_one_of_pos, Int.sign_eq_neg_one_of_neg, *, ne_of_gt,
      ne_of_lt, not_lt_of_gt]

namespace LockState

theorem Tracks.of_key_eq {name : String} {n : Int} {s t : LockState} (h : Tracks name n s)
    (hk : s.key = t.key) : Tracks name n t := h.of_same (same_iff_key.mpr hk)

theorem Tracks.key_eq {name : String} {n : Int} {s : LockState} (h : Tracks name n s) :
    s.key = (↑(List.replicate n.toNat name), ↑(List.replicate (-n).toNat name)) := by
  rw [key, h.1, h.2]

theorem Tracks.covers_iff {name : String} {n : Int} {s : LockState} (h : Tracks name n s)
    {c : LockClass} : c.Covers s.key ↔ c = .ofLevel name n := by
  have hk := h.key_eq
  rcases lt_trichotomy n 0 with hn | rfl | hn
  · have h0 : n.toNat = 0 := by omega
    have h1 : (-n).toNat ≠ 0 := by omega
    have hcls : LockClass.ofLevel name n = .pending name := by
      simp [LockClass.ofLevel, hn.ne, not_lt_of_gt hn]
    cases c <;> simp [LockClass.Covers, hk, h0, h1, hcls]
  · cases c <;> simp [LockClass.Covers, hk, LockClass.ofLevel]
  · have h0 : n.toNat ≠ 0 := by omega
    have hcls : LockClass.ofLevel name n = .held name := by
      simp [LockClass.ofLevel, hn.ne', hn]
    cases c <;> simp [LockClass.Covers, hk, h0, hcls]

theorem tracks_of_key_ofLevel {name : String} {n : Int} {s : LockState}
    (h : s.key = (LockClass.ofLevel name n).key) : Tracks name n.sign s := by
  rcases lt_trichotomy n 0 with hn | rfl | hn
  · have hcls : LockClass.ofLevel name n = .pending name := by
      simp [LockClass.ofLevel, hn.ne, not_lt_of_gt hn]
    rw [hcls, key, LockClass.key, Prod.mk.injEq, Multiset.coe_eq_zero,
      Multiset.coe_eq_singleton] at h
    rw [Int.sign_eq_neg_one_of_neg hn]
    exact h
  · simp only [LockClass.ofLevel, if_true, key, LockClass.key, Prod.mk.injEq,
      Multiset.coe_eq_zero] at h
    exact h
  · have hcls : LockClass.ofLevel name n = .held name := by
      simp [LockClass.ofLevel, hn.ne', hn]
    rw [hcls, key, LockClass.key, Prod.mk.injEq, Multiset.coe_eq_zero,
      Multiset.coe_eq_singleton] at h
    rw [Int.sign_eq_one_of_pos hn]
    exact h

end LockState

/-- A level, or that of the fact that stands for it. -/
def Collapses (n m : Int) : Prop := m = n ∨ m = n.sign

theorem Collapses.refl (n : Int) : Collapses n n := .inl rfl

theorem Collapses.sign_eq {n m : Int} (h : Collapses n m) : m.sign = n.sign := by
  rcases h with rfl | rfl
  · rfl
  · rw [Int.sign_sign]

theorem Collapses.trans {k n m : Int} (h : Collapses k n) (h' : Collapses n m) : Collapses k m := by
  rcases h' with rfl | rfl
  · exact h
  · exact .inr h.sign_eq

theorem Collapses.eq_of_sign {n m : Int} (h : Collapses n m) (hn : n.sign = n) : m = n := by
  rcases h with rfl | rfl
  · rfl
  · exact hn

namespace FactSet

/-- Every fact is about this lock only. -/
def Tracks (name : String) (s : FactSet) : Prop :=
  ∀ f ∈ s.facts, ∃ level, f.locks.Tracks name level

variable {name : String} {s : FactSet}

theorem tracks_empty : empty.Tracks name := fun _ hf => by cases hf

theorem tracks_representative {f : Fact} {n : Int} (hf : f ∈ s.facts) (hn : f.locks.Tracks name n)
    (members : List Fact) :
    LockClass.ofLevel name n ∈ s.classes ∧
      ((LockClass.ofLevel name n).representative members).locks.Tracks name n.sign :=
  ⟨mem_classes.mpr ⟨f, hf, hn.covers_iff.mpr rfl⟩,
    LockState.tracks_of_key_ofLevel (LockClass.key_locks _ _)⟩

/-- No level is lost, but for its distance from zero. -/
theorem exists_mem_group {f : Fact} {n : Int} (hf : f ∈ s.facts) (hn : f.locks.Tracks name n) :
    ∃ g ∈ s.group.facts, ∃ m, g.locks.Tracks name m ∧ Collapses n m ∧
      (f.path.region = .top → g.path.region = .top) := by
  by_cases h1 : s.size ≤ 1
  · rw [group_of_size_le_one h1]
    exact ⟨f, hf, n, hn, .refl n, id⟩
  · have hrep := tracks_representative hf hn (s.members (.ofLevel name n))
    obtain ⟨g, hg, hk⟩ := mem_keys.mp ((mem_keys_group (by omega)).mpr ⟨_, hrep.1, rfl⟩)
    refine ⟨g, hg, n.sign, LockState.tracks_of_key_ofLevel (congrArg Prod.fst hk), .inr rfl, ?_⟩
    intro ht
    have hm : f ∈ s.members (.ofLevel name n) := mem_members.mpr ⟨hf, hn.covers_iff.mpr rfl⟩
    have hp := mergePaths_of_top (List.mem_map_of_mem (f := (·.path)) hm) ht
    have hr : g.path.region = _ := congrArg Prod.snd hk
    rw [hr, hp]
    rfl

/-- In a grouped set there is one fact for each sign. -/
theorem key_eq_of_mem_group {f g : Fact} {n m : Int} (hf : f ∈ s.group.facts)
    (hg : g ∈ s.group.facts) (hn : f.locks.Tracks name n) (hm : g.locks.Tracks name m)
    (hsign : n.sign = m.sign) : f.key = g.key := by
  by_cases h1 : s.size ≤ 1
  · rw [group_of_size_le_one h1] at hf hg
    obtain ⟨f', hf'⟩ := List.length_eq_one_iff.mp (Nat.le_antisymm h1 (List.length_pos_of_mem hf))
    rw [hf', List.mem_singleton] at hf hg
    rw [hf, hg]
  · obtain ⟨c, -, hc⟩ := (mem_keys_group (by omega)).mp (key_mem_keys hf)
    obtain ⟨d, -, hd⟩ := (mem_keys_group (by omega)).mp (key_mem_keys hg)
    have hcn := hn.covers_iff.mp (Prod.mk.inj hc |>.1 ▸ LockClass.covers_key_iff.mpr rfl)
    have hdm := hm.covers_iff.mp (Prod.mk.inj hd |>.1 ▸ LockClass.covers_key_iff.mpr rfl)
    rw [hc, hd, hcn, hdm, LockClass.ofLevel_eq_iff.mpr hsign]

/-- Every level of a grouped set, and every outcome recorded there, is one of the set. -/
theorem exists_of_mem_group (hs : s.Tracks name) {g : Fact} (hg : g ∈ s.group.facts) :
    ∃ m, g.locks.Tracks name m ∧ (∃ f ∈ s.facts, ∃ n, f.locks.Tracks name n ∧ Collapses n m) ∧
      ∀ entry ∈ g.path.conditions, ∃ f ∈ s.facts, ∃ n, f.locks.Tracks name n ∧ Collapses n m ∧
        entry ∈ f.path.conditions := by
  rcases mem_facts_group hg with hg | ⟨c, hc, rfl⟩
  · obtain ⟨m, hm⟩ := hs g hg
    exact ⟨m, hm, ⟨g, hg, m, hm, .refl m⟩, fun entry he => ⟨g, hg, m, hm, .refl m, he⟩⟩
  · obtain ⟨f, hf, hcov⟩ := mem_classes.mp hc
    obtain ⟨n, hn⟩ := hs f hf
    obtain rfl := hn.covers_iff.mp hcov
    refine ⟨n.sign, (tracks_representative hf hn _).2, ⟨f, hf, n, hn, .inr rfl⟩, ?_⟩
    intro entry he
    obtain ⟨p, hp, hep⟩ := mem_of_mem_mergePaths he
    obtain ⟨f', hf', rfl⟩ := List.mem_map.mp hp
    obtain ⟨hf', hcov'⟩ := mem_members.mp hf'
    obtain ⟨n', hn'⟩ := hs f' hf'
    have hsign := LockClass.ofLevel_eq_iff.mp (hn'.covers_iff.mp hcov')
    exact ⟨f', hf', n', hn', .inr hsign, hep⟩

theorem Tracks.group (hs : s.Tracks name) : s.group.Tracks name := fun _ hg =>
  (exists_of_mem_group hs hg).imp fun _ h => h.1

/-- All path conditions are well-formed. -/
def WellFormed (s : FactSet) : Prop := ∀ f ∈ s.facts, f.path.WellFormed

theorem WellFormed.group (hs : s.WellFormed) : s.group.WellFormed := by
  intro g hg
  rcases mem_facts_group hg with hg | ⟨c, -, rfl⟩
  · exact hs g hg
  · exact wellFormed_mergePaths _

/-- What is recorded in a grouped set agrees, key by key, with every fact of the class. -/
theorem WellFormed.eq_of_mem_group (hs : s.WellFormed) {f g : Fact} {n m : Int}
    (hf : f ∈ s.facts) (hn : f.locks.Tracks name n) (hg : g ∈ s.group.facts)
    (hm : g.locks.Tracks name m) (hsign : n.sign = m.sign) {a b : String × Bool}
    (ha : a ∈ f.path.conditions) (hb : b ∈ g.path.conditions) (hkey : SameKey a.1 b.1) : a = b := by
  by_cases h1 : s.size ≤ 1
  · rw [group_of_size_le_one h1] at hg
    obtain ⟨k, hk⟩ := List.length_eq_one_iff.mp (Nat.le_antisymm h1 (List.length_pos_of_mem hf))
    rw [hk, List.mem_singleton] at hf hg
    subst hf hg
    exact (hs _ (hk ▸ List.mem_singleton.mpr rfl)).keys ha hb hkey
  · have hc : LockClass.ofLevel name m = .ofLevel name n := LockClass.ofLevel_eq_iff.mpr hsign.symm
    have hmem : f ∈ s.members (.ofLevel name m) :=
      mem_members.mpr ⟨hf, hn.covers_iff.mpr hc⟩
    have hgroup : g ∈ s.group.members (.ofLevel name m) :=
      mem_members.mpr ⟨hg, hm.covers_iff.mpr rfl⟩
    have hregion := mem_members_group (by omega) hgroup
    have hb' : b ∈ (mergePaths ((s.members (.ofLevel name m)).map (·.path))).conditions := by
      simpa [PathState.conditions, hregion] using hb
    refine (mem_conditions_mergePaths.mp hb').2.2 a (List.mem_flatMap.mpr ?_) hkey
    exact ⟨f.path, List.mem_map_of_mem hmem, ha⟩

/-- An outcome that all facts record stays recorded when they are grouped. -/
theorem WellFormed.mem_group (hs : s.WellFormed) {entry : String × Bool}
    (hall : ∀ f ∈ s.facts, entry ∈ f.path.conditions) {g : Fact} (hg : g ∈ s.group.facts) :
    entry ∈ g.path.conditions := by
  rcases mem_facts_group hg with hg | ⟨c, hc, rfl⟩
  · exact hall g hg
  · have hpaths : ∀ p ∈ (s.members c).map (·.path), p.WellFormed ∧ entry ∈ p.conditions := by
      intro p hp
      obtain ⟨f, hf, rfl⟩ := List.mem_map.mp hp
      have hf := (mem_members.mp hf).1
      exact ⟨hs f hf, hall f hf⟩
    refine mem_conditions_mergePaths.mpr ⟨fun p hp ht => ?_, ?_, fun other ho hkey => ?_⟩
    · have he := (hpaths p hp).2
      simp [PathState.conditions, ht] at he
    · obtain ⟨f, hf, hcov⟩ := mem_classes.mp hc
      have hp := List.mem_map_of_mem (f := (·.path)) (mem_members.mpr ⟨hf, hcov⟩)
      exact List.mem_flatMap.mpr ⟨f.path, hp, hall f hf⟩
    · obtain ⟨p, hp, ho⟩ := List.mem_flatMap.mp ho
      exact (hpaths p hp).1.keys ho (hpaths p hp).2 hkey

end FactSet

end LockUsage
