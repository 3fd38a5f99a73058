import LockUsage.Proofs.PathConditions
import Mathlib.Data.List.Nodup

/-! What merging path conditions keeps. Outcomes are settled one after the other, in an order that
does not matter: an outcome survives exactly if all contributors that record one of its key record
this one. -/

namespace LockUsage

/-- All recorded outcomes of the key are this one. -/
def Survives (conditions : List (String × Bool)) (entry : String × Bool) : Prop :=
  entry ∈ conditions ∧ ∀ other ∈ conditions, SameKey other.1 entry.1 → other = entry

/-- The state after settling the outcomes in `done`, of which none is listed twice. -/
structure Settles (done : List (String × Bool)) (s : PathState) : Prop where
  sorted : s.conditions.Sorted
  open_ : s.region ≠ .bottom ∧ s.region ≠ .within []
  mem_iff : ∀ n v, (n, v) ∈ s.conditions ↔ (n, v) ∈ done ∧ (n, !v) ∉ done

theorem settles_nil : Settles [] .unconstrained :=
  ⟨by simp [PathState.unconstrained, PathState.conditions, Conditions.Sorted],
    by simp [PathState.unconstrained], by simp [PathState.unconstrained, PathState.conditions]⟩

/-- A state without conditions is unconstrained. -/
theorem conditions_widen (rest : Conditions) (last : String) :
    PathState.conditions ⟨if rest.isEmpty then .top else .within rest, last⟩ = rest := by
  cases rest <;> rfl

theorem Settles.settle_opposite {done : List (String × Bool)} {s : PathState} (h : Settles done s)
    {n : String} {v : Bool} (hg : s.get? n = some (!v)) :
    Settles (done ++ [(n, v)]) (s.settle n v) := by
  have hmem := (h.mem_iff n !v).mp (Conditions.mem_of_get? hg)
  have hset : s.settle n v = { s with region :=
      if (s.conditions.erase n).isEmpty then .top else .within (s.conditions.erase n) } := by
    simp [PathState.settle, hg]
  have hcond : (s.settle n v).conditions = s.conditions.erase n := by
    rw [hset, conditions_widen]
  refine ⟨?_, ?_, ?_⟩
  · rw [hcond]
    exact h.sorted.erase n
  · rw [hset]
    by_cases he : (s.conditions.erase n).isEmpty
    · simp [he]
    · simpa [he] using List.isEmpty_iff.not.mp he
  · intro m w
    rw [hcond, Conditions.mem_erase, h.mem_iff]
    by_cases hm : m = n
    · subst hm
      by_cases hw : w = v
      · simp [hw, hmem.1]
      · obtain rfl : w = !v := by cases w <;> cases v <;> simp_all
        simp
    · simp [hm]

theorem Settles.settle_new {done : List (String × Bool)} {s : PathState} (h : Settles done s)
    {n : String} {v : Bool} (hg : s.get? n = none) (hnew : (n, v) ∉ done) :
    Settles (done ++ [(n, v)]) (s.settle n v) := by
  have hset : s.settle n v = s.record n v := by simp [PathState.settle, hg]
  have hopp : (n, !v) ∉ done := by
    intro hd
    have hc := (h.mem_iff n !v).mpr ⟨hd, by simpa using hnew⟩
    exact Conditions.get?_eq_none_iff.mp hg _ hc rfl
  refine ⟨?_, ?_, ?_⟩
  · rw [hset]
    exact h.sorted.insert n v
  · rw [hset]
    have hne := List.ne_nil_of_mem ((Conditions.mem_insert (v := v) hg).mpr (.inl rfl))
    exact ⟨by simp [PathState.record], by simpa [PathState.record] using hne⟩
  · intro m w
    rw [hset, PathState.conditions_record, Conditions.mem_insert hg, h.mem_iff]
    by_cases hm : m = n
    · subst hm
      by_cases hw : w = v
      · simp [hw, hnew, hopp]
      · obtain rfl : w = !v := by cases w <;> cases v <;> simp_all
        simp [hopp]
    · simp [hm]

theorem Settles.settle {done : List (String × Bool)} {s : PathState} (h : Settles done s)
    {n : String} {v : Bool} (hnew : (n, v) ∉ done) :
    Settles (done ++ [(n, v)]) (s.settle n v) := by
  cases hg : s.get? n with
  | none => exact h.settle_new hg hnew
  | some recorded =>
    have hmem := (h.mem_iff n recorded).mp (Conditions.mem_of_get? hg)
    have hv : recorded = !v := by
      rcases Bool.eq_or_eq_not recorded v with rfl | he
      · exact absurd hmem.1 hnew
      · exact he
    exact h.settle_opposite (hv ▸ hg)

theorem Settles.foldl {done : List (String × Bool)} {s : PathState} (h : Settles done s)
    {more : List (String × Bool)} (hnd : (done ++ more).Nodup) :
    Settles (done ++ more) (more.foldl (fun s entry => s.settle entry.1 entry.2) s) := by
  induction more generalizing done s with
  | nil => simpa using h
  | cons entry more ih =>
    have hnd' : ((done ++ [entry]) ++ more).Nodup := by simpa using hnd
    have hnew : entry ∉ done := fun hm =>
      (List.disjoint_of_nodup_append hnd) hm (List.mem_cons_self ..)
    simpa using ih (h.settle hnew) hnd'

/-- The path condition after settling conditions in the order in which they are listed. -/
def settleAll (order : List (String × Bool)) : PathState :=
  order.foldl (fun s entry => s.settle entry.1 entry.2) .unconstrained

theorem settles_settleAll {order : List (String × Bool)} (h : order.Nodup) :
    Settles order (settleAll order) := by
  have hnd : ([] ++ order).Nodup := h
  exact settles_nil.foldl hnd

@[simp] theorem mem_sortedSet {name : String} {names : List String} :
    name ∈ sortedSet names ↔ name ∈ names := by
  rw [sortedSet]
  induction names with
  | nil => rfl
  | cons first names ih => rw [List.foldr_cons, Conditions.mem_names_insert, ih, List.mem_cons]

theorem nodup_sortedSet (names : List String) : (sortedSet names).Nodup := by
  have hsorted : (names.foldr (fun name => Conditions.insert name true) []).Sorted := by
    induction names with
    | nil => exact List.Pairwise.nil
    | cons first names ih => exact ih.insert first true
  exact List.pairwise_map.mpr (hsorted.imp fun hlt => hlt.ne)

theorem mem_plainNames {conditions : List (String × Bool)} {n : String} {v : Bool} :
    n ∈ plainNames conditions v ↔ (n, v) ∈ conditions ∧ subject? n = none := by
  simp only [plainNames, mem_sortedSet, List.mem_map, List.mem_filter, Bool.and_eq_true,
    beq_iff_eq, Option.isNone_iff_eq_none]
  constructor
  · rintro ⟨⟨m, w⟩, ⟨hm, rfl, hs⟩, rfl⟩
    exact ⟨hm, hs⟩
  · rintro ⟨hm, hs⟩
    exact ⟨(n, v), ⟨hm, rfl, hs⟩, rfl⟩

theorem agreed?_eq_some_iff {entries : List (String × Bool)} {entry : String × Bool} :
    agreed? entries = some entry ↔ entry ∈ entries ∧ ∀ other ∈ entries, other = entry := by
  cases entries with
  | nil => simp [agreed?]
  | cons first rest =>
    simp only [agreed?, List.all_eq_true, beq_iff_eq]
    constructor
    · intro h
      split at h
      · next hall =>
        obtain rfl := Option.some.inj h
        exact ⟨by simp, by simpa using hall⟩
      · simp at h
    · rintro ⟨-, hall⟩
      obtain rfl := hall first (by simp)
      rw [if_pos fun other ho => hall other (by simp [ho])]

theorem mem_agreedEqualities {conditions : List (String × Bool)} {entry : String × Bool} :
    entry ∈ agreedEqualities conditions ↔ subject? entry.1 ≠ none ∧ Survives conditions entry := by
  simp only [agreedEqualities, List.mem_filterMap, mem_sortedSet, agreed?_eq_some_iff,
    List.mem_filter, beq_iff_eq]
  constructor
  · rintro ⟨subject, -, ⟨hm, hs⟩, hall⟩
    exact ⟨by simp [hs], hm, fun o ho hk => hall o ⟨ho, hk.subject_eq.trans hs⟩⟩
  · rintro ⟨hs, hm, hall⟩
    obtain ⟨subject, hs⟩ := Option.ne_none_iff_exists'.mp hs
    exact ⟨subject, ⟨entry, hm, hs⟩, ⟨hm, hs⟩, fun o ho => hall o ho.1 (.of_subject ho.2 hs)⟩

theorem nodup_agreedEqualities (conditions : List (String × Bool)) :
    (agreedEqualities conditions).Nodup := by
  refine (nodup_sortedSet _).filterMap fun s t entry hs ht => ?_
  have hs' := (List.mem_filter.mp (agreed?_eq_some_iff.mp hs).1).2
  have ht' := (List.mem_filter.mp (agreed?_eq_some_iff.mp ht).1).2
  simp only [beq_iff_eq] at hs' ht'
  exact Option.some.inj (hs'.symm.trans ht')

theorem mem_settlingOrder {conditions : List (String × Bool)} {n : String} {v : Bool} :
    (n, v) ∈ settlingOrder conditions ↔ ((n, v) ∈ conditions ∧ subject? n = none) ∨
      (subject? n ≠ none ∧ Survives conditions (n, v)) := by
  have hplain : ((n, v) ∈ (plainNames conditions true).map (·, true) ∨
      (n, v) ∈ (plainNames conditions false).map (·, false)) ↔
      (n, v) ∈ conditions ∧ subject? n = none := by
    cases v <;> simp [mem_plainNames]
  simp only [settlingOrder, List.mem_append, mem_agreedEqualities, ← hplain]
  split
  · simp only [List.mem_append]
  · simp only [List.mem_append, or_comm]

theorem nodup_settlingOrder (conditions : List (String × Bool)) :
    (settlingOrder conditions).Nodup := by
  have hmap (v : Bool) : ((plainNames conditions v).map (·, v)).Nodup :=
    (nodup_sortedSet _).map fun _ _ h => (Prod.mk.inj h).1
  have hdis : List.Disjoint ((plainNames conditions true).map (·, true))
      ((plainNames conditions false).map (·, false)) := by
    intro e ht hf
    simp only [List.mem_map] at ht hf
    obtain ⟨_, -, rfl⟩ := ht
    obtain ⟨_, -, hf⟩ := hf
    simp at hf
  have hplain : (if ((plainNames conditions true).map (·, true)).length >
        ((plainNames conditions false).map (·, false)).length
      then (plainNames conditions true).map (·, true) ++
        (plainNames conditions false).map (·, false)
      else (plainNames conditions false).map (·, false) ++
        (plainNames conditions true).map (·, true)).Nodup := by
    split
    · exact (hmap true).append (hmap false) hdis
    · exact (hmap false).append (hmap true) fun _ hf ht => hdis ht hf
  refine hplain.append (nodup_agreedEqualities conditions) ?_
  rintro ⟨n, v⟩ hp he
  have hs := (mem_agreedEqualities.mp he).1
  apply hs
  have hm : n ∈ plainNames conditions true ∨ n ∈ plainNames conditions false := by
    split at hp <;> simp only [List.mem_append, List.mem_map] at hp <;> grind
  rcases hm with hm | hm <;> exact (mem_plainNames.mp hm).2

theorem survives_plain_iff {conditions : List (String × Bool)} {n : String} {v : Bool}
    (hs : subject? n = none) :
    Survives conditions (n, v) ↔ (n, v) ∈ conditions ∧ (n, !v) ∉ conditions := by
  constructor
  · rintro ⟨hm, hall⟩
    exact ⟨hm, fun hn => by simpa using hall _ hn (.refl _)⟩
  · rintro ⟨hm, hn⟩
    refine ⟨hm, fun ⟨m, w⟩ ho hk => ?_⟩
    obtain rfl : m = n := hk.eq_of_plain hs
    rcases Bool.eq_or_eq_not w v with rfl | rfl
    · rfl
    · exact absurd ho hn

theorem survives_equality_iff {conditions : List (String × Bool)} {n subject : String} {v : Bool}
    (hs : subject? n = some subject) :
    Survives conditions (n, v) ↔ (n, v) ∈ conditions ∧
      ∀ entry ∈ conditions, subject? entry.1 = some subject → entry = (n, v) := by
  refine and_congr_right fun _ => forall₂_congr fun entry _ => imp_congr_left ?_
  exact ⟨fun hk => hk.subject_eq.trans hs, fun he => .of_subject he hs⟩

/-- What the fold over the settling order records. -/
theorem survives_of_settlingOrder {conditions : List (String × Bool)} {n : String} {v : Bool} :
    ((n, v) ∈ settlingOrder conditions ∧ (n, !v) ∉ settlingOrder conditions) ↔
      Survives conditions (n, v) := by
  simp only [mem_settlingOrder]
  by_cases hs : subject? n = none
  · simp only [survives_plain_iff hs, hs, ne_eq, not_true_eq_false, false_and, or_false, and_true]
  · simp only [hs, ne_eq, not_false_eq_true, true_and, and_false, false_or]
    constructor
    · exact fun h => h.1
    · exact fun h => ⟨h, fun hn => by simpa using h.2 _ hn.1 (.refl _)⟩

theorem mergePaths_of_top {paths : List PathState} {p : PathState} (hp : p ∈ paths)
    (ht : p.region = .top) : mergePaths paths = .unconstrained := by
  have hany : paths.any PathState.isTop = true :=
    List.any_eq_true.mpr ⟨p, hp, PathState.isTop_iff.mpr ht⟩
  simp [mergePaths, hany]

theorem settles_mergePaths {paths : List PathState} (ht : paths.any PathState.isTop = false)
    (hb : paths.all PathState.isBottom = false) :
    Settles (settlingOrder (paths.flatMap PathState.conditions)) (mergePaths paths) := by
  have heq : mergePaths paths = settleAll (settlingOrder (paths.flatMap PathState.conditions)) := by
    simp [mergePaths, ht, hb, settleAll]
  rw [heq]
  exact settles_settleAll (nodup_settlingOrder _)

/-- The outcomes recorded after merging. -/
theorem mem_conditions_mergePaths {paths : List PathState} {entry : String × Bool} :
    entry ∈ (mergePaths paths).conditions ↔ (∀ p ∈ paths, p.region ≠ .top) ∧
      Survives (paths.flatMap PathState.conditions) entry := by
  have htop : paths.any PathState.isTop = false ↔ ∀ p ∈ paths, p.region ≠ .top := by
    simp [PathState.isTop]
  cases ht : paths.any PathState.isTop with
  | true =>
    have hn : ¬ ∀ p ∈ paths, p.region ≠ .top := by simp [← htop, ht]
    simp [mergePaths, ht, hn, PathState.unconstrained, PathState.conditions]
  | false =>
    cases hb : paths.all PathState.isBottom with
    | true =>
      have hnil : paths.flatMap PathState.conditions = [] := by
        rw [List.flatMap_eq_nil_iff]
        intro p hp
        have hr := PathState.isBottom_iff.mp (List.all_eq_true.mp hb p hp)
        simp [PathState.conditions, hr]
      simp [mergePaths, ht, hb, hnil, Survives, PathState.unreachable, PathState.conditions]
    | false =>
      obtain ⟨n, v⟩ := entry
      rw [(settles_mergePaths ht hb).mem_iff, survives_of_settlingOrder]
      exact ⟨fun h => ⟨htop.mp ht, h⟩, fun h => h.2⟩

theorem mem_of_mem_mergePaths {paths : List PathState} {entry : String × Bool}
    (h : entry ∈ (mergePaths paths).conditions) : ∃ p ∈ paths, entry ∈ p.conditions :=
  List.mem_flatMap.mp (mem_conditions_mergePaths.mp h).2.1

theorem isBottom_mergePaths (paths : List PathState) :
    (mergePaths paths).isBottom = (!paths.any PathState.isTop && paths.all PathState.isBottom) := by
  cases ht : paths.any PathState.isTop with
  | true => simp [mergePaths, ht, PathState.unconstrained, PathState.isBottom]
  | false =>
    cases hb : paths.all PathState.isBottom with
    | true => simp [mergePaths, ht, hb, PathState.unreachable, PathState.isBottom]
    | false => simpa [PathState.isBottom] using (settles_mergePaths ht hb).open_.1

theorem wellFormed_mergePaths (paths : List PathState) : (mergePaths paths).WellFormed := by
  intro c hc
  have hcond := PathState.conditions_of_region hc
  cases ht : paths.any PathState.isTop with
  | true => simp [mergePaths, ht, PathState.unconstrained] at hc
  | false =>
    cases hb : paths.all PathState.isBottom with
    | true => simp [mergePaths, ht, hb, PathState.unreachable] at hc
    | false =>
      have h := settles_mergePaths ht hb
      refine ⟨?_, hcond ▸ h.sorted, ?_⟩
      · rintro rfl
        exact h.open_.2 hc
      · intro a ha b hm hk
        rw [← hcond] at ha hm
        exact (mem_conditions_mergePaths.mp hm).2.2 a (mem_conditions_mergePaths.mp ha).2.1 hk

theorem any_isTop_iff {paths : List PathState} :
    paths.any PathState.isTop = true ↔ .top ∈ paths.map PathState.region := by
  simp [PathState.isTop]

theorem all_isBottom_iff {paths : List PathState} :
    paths.all PathState.isBottom = true ↔ ∀ r ∈ paths.map PathState.region, r = .bottom := by
  simp [PathState.isBottom]

/-- Merging depends only on which path conditions contribute. -/
theorem mergePaths_region_congr {ps qs : List PathState}
    (h : ∀ r, r ∈ ps.map PathState.region ↔ r ∈ qs.map PathState.region) :
    (mergePaths ps).region = (mergePaths qs).region := by
  have hbottom : ps.all PathState.isBottom = qs.all PathState.isBottom := by
    rw [Bool.eq_iff_iff, all_isBottom_iff, all_isBottom_iff]
    exact forall_congr' fun r => imp_congr_left (h r)
  have htop : ps.any PathState.isTop = qs.any PathState.isTop := by
    rw [Bool.eq_iff_iff, any_isTop_iff, any_isTop_iff, h]
  have hcond (entry : String × Bool) : entry ∈ ps.flatMap PathState.conditions ↔
      entry ∈ qs.flatMap PathState.conditions := by
    have hp (l : List PathState) : entry ∈ l.flatMap PathState.conditions ↔
        ∃ r ∈ l.map PathState.region, entry ∈ PathState.conditions ⟨r, ""⟩ := by
      simp [List.mem_flatMap, PathState.conditions]
    simp only [hp, h]
  refine (wellFormed_mergePaths ps).region_eq (wellFormed_mergePaths qs) ?_ fun entry => ?_
  · rw [isBottom_mergePaths, isBottom_mergePaths, htop, hbottom]
  · have ht : (∀ p ∈ ps, p.region ≠ .top) ↔ ∀ q ∈ qs, q.region ≠ .top := by
      have hl (l : List PathState) :
          (∀ p ∈ l, p.region ≠ .top) ↔ .top ∉ l.map PathState.region := by
        simp
      rw [hl, hl, h]
    simp only [mem_conditions_mergePaths, Survives, hcond, ht]

theorem mergePaths_singleton {p : PathState} (hp : p.WellFormed) :
    (mergePaths [p]).region = p.region := by
  refine (wellFormed_mergePaths _).region_eq hp ?_ fun entry => ?_
  · rw [isBottom_mergePaths]
    cases h : p.region <;> simp [PathState.isTop, PathState.isBottom, h]
  · simp only [mem_conditions_mergePaths, Survives, List.flatMap_cons, List.flatMap_nil,
      List.append_nil, List.mem_singleton, forall_eq]
    constructor
    · exact fun h => h.2.1
    · intro he
      refine ⟨fun ht => ?_, he, fun other ho hk => hp.keys ho he hk⟩
      simp [PathState.conditions, ht] at he

/-- Paths that allow no way contribute no condition. -/
theorem mem_flatMap_conditions {paths : List PathState} {entry : String × Bool} :
    entry ∈ paths.flatMap PathState.conditions ↔
      ∃ p ∈ paths.filter fun p => !p.isBottom, entry ∈ p.conditions := by
  rw [List.mem_flatMap]
  refine exists_congr fun p => ?_
  rw [List.mem_filter, and_assoc]
  refine and_congr_right fun _ => ⟨fun he => ⟨?_, he⟩, fun h => h.2⟩
  rw [Bool.not_eq_true', ← Bool.not_eq_true, PathState.isBottom_iff]
  intro hb
  simp [PathState.conditions, hb] at he

theorem Settles.region_eq {done : List (String × Bool)} {s : PathState} (h : Settles done s) :
    s.region = if s.conditions.isEmpty then .top else .within s.conditions := by
  cases hr : s.region with
  | top => simp [PathState.conditions, hr]
  | bottom => exact absurd hr h.open_.1
  | within c =>
    have hne : c.isEmpty = false := by
      rw [List.isEmpty_eq_false_iff]
      rintro rfl
      exact h.open_.2 hr
    simp [PathState.conditions, hr, hne]

theorem Settles.isTop_iff {done : List (String × Bool)} {s : PathState} (h : Settles done s) :
    s.isTop = true ↔ s.conditions = [] := by
  rw [PathState.isTop_iff, h.region_eq]
  split_ifs with he
  · simpa using he
  · simpa using he

/-- In which order conditions are settled does not show. -/
theorem Settles.region_eq_of_perm {done done' : List (String × Bool)} {s t : PathState}
    (hs : Settles done s) (ht : Settles done' t) (h : done.Perm done') : s.region = t.region := by
  have hc : s.conditions = t.conditions := by
    refine hs.sorted.ext ht.sorted fun ⟨n, v⟩ => ?_
    rw [hs.mem_iff, ht.mem_iff, h.mem_iff, h.mem_iff]
  rw [hs.region_eq, ht.region_eq, hc]

theorem PathState.same_iff_region {s t : PathState} : s.same t = true ↔ s.region = t.region := by
  rw [PathState.same, beq_iff_eq]

/-- Merging keeps what the path conditions agree on. It gives all paths if one of them does and none
if all of them do. Otherwise, of those that allow some path, a plain predicate keeps a value that no
other one contradicts, an equality stays if it is the only one on its subject, and no condition at
all is left if there is nothing of that kind. In which order the conditions are settled does not
matter, nor in which order and how often the path conditions are listed. -/
theorem merging_keeps_agreement (paths : List PathState) :
    let merged := mergePaths paths
    let live := paths.filter fun p => !p.isBottom
    ((∃ p ∈ paths, p.isTop = true) → merged.isTop = true) ∧
    ((∀ p ∈ paths, p.isBottom = true) → merged.isBottom = true) ∧
    ((∀ p ∈ paths, p.isTop = false) → live ≠ [] →
      merged.isBottom = false ∧
      (∀ n v, subject? n = none → ((n, v) ∈ merged.conditions ↔
        (∃ p ∈ live, (n, v) ∈ p.conditions) ∧ ∀ p ∈ live, (n, !v) ∉ p.conditions)) ∧
      (∀ e v s, subject? e = some s → ((e, v) ∈ merged.conditions ↔
        (∃ p ∈ live, (e, v) ∈ p.conditions) ∧
          ∀ p ∈ live, ∀ entry ∈ p.conditions, subject? entry.1 = some s → entry = (e, v))) ∧
      (merged.isTop = true ↔ merged.conditions = []) ∧
      ∀ order : List (String × Bool),
        order.Perm (settlingOrder (paths.flatMap PathState.conditions)) →
          (settleAll order).same merged = true) ∧
    ∀ others : List PathState, (∀ p ∈ paths, ∃ q ∈ others, p.same q = true) →
      (∀ q ∈ others, ∃ p ∈ paths, q.same p = true) → merged.same (mergePaths others) = true := by
  intro merged live
  have hlive (entry : String × Bool) : entry ∈ paths.flatMap PathState.conditions ↔
      ∃ p ∈ live, entry ∈ p.conditions := mem_flatMap_conditions
  refine ⟨?_, fun hb => ?_, fun htop hne => ?_, fun others hpo hop => ?_⟩
  · rintro ⟨p, hp, ht⟩
    exact congrArg PathState.isTop (mergePaths_of_top hp (PathState.isTop_iff.mp ht))
  · have hall : paths.all PathState.isBottom = true := List.all_eq_true.mpr hb
    have hnone : paths.any PathState.isTop = false := by
      refine List.any_eq_false.mpr fun p hp ht => ?_
      rw [PathState.isTop_iff, PathState.isBottom_iff.mp (hb p hp)] at ht
      cases ht
    rw [isBottom_mergePaths, hall, hnone]
    rfl
  · have hnone : paths.any PathState.isTop = false := by simpa using htop
    have hsome : paths.all PathState.isBottom = false := by
      rw [← Bool.not_eq_true, List.all_eq_true]
      intro hall
      exact hne (List.filter_eq_nil_iff.mpr fun p hp => by simp [hall p hp])
    have hsettles := settles_mergePaths hnone hsome
    have hmem (entry : String × Bool) : entry ∈ merged.conditions ↔
        Survives (paths.flatMap PathState.conditions) entry := by
      rw [mem_conditions_mergePaths]
      refine and_iff_right fun p hp ht => ?_
      rw [← PathState.isTop_iff, htop p hp] at ht
      cases ht
    refine ⟨?_, fun n v hs => ?_, fun e v s hs => ?_, ?_, fun order hperm => ?_⟩
    · rw [isBottom_mergePaths, hnone, hsome]
      rfl
    · rw [hmem, survives_plain_iff hs, hlive, hlive]
      simp
    · rw [hmem, survives_equality_iff hs, hlive]
      simp only [hlive]
      exact and_congr_right fun _ =>
        ⟨fun h p hp entry he => h entry ⟨p, hp, he⟩, fun h entry ⟨p, hp, he⟩ => h p hp entry he⟩
    · exact hsettles.isTop_iff
    · have hnodup := hperm.nodup_iff.mpr (nodup_settlingOrder _)
      have hregion := (settles_settleAll hnodup).region_eq_of_perm hsettles hperm
      exact PathState.same_iff_region.mpr hregion
  · refine PathState.same_iff_region.mpr (mergePaths_region_congr fun r => ?_)
    simp only [List.mem_map]
    constructor
    · rintro ⟨p, hp, rfl⟩
      obtain ⟨q, hq, he⟩ := hpo p hp
      exact ⟨q, hq, (PathState.same_iff_region.mp he).symm⟩
    · rintro ⟨q, hq, rfl⟩
      obtain ⟨p, hp, he⟩ := hop q hq
      exact ⟨p, hp, (PathState.same_iff_region.mp he).symm⟩

end LockUsage
