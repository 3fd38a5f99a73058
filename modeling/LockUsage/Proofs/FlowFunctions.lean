import LockUsage.Proofs.Grouping
import LockUsage.Solver.Run
import Mathlib.Data.Multiset.AddSub

/-! What instructions and branches do to sets of facts: they respect what the sets say, and they
change levels and path conditions in step with the lock operation and the test that is passed. -/

namespace LockUsage

def LockOp.delta : LockOp → Int
  | acquire => 1
  | release => -1

namespace LockState

theorem holds_iff_mem_key {s : LockState} {name : String} :
    s.holds name = true ↔ name ∈ s.key.1 := any_name_iff

theorem hasPending_iff_mem_key {s : LockState} {name : String} :
    s.hasPending name = true ↔ name ∈ s.key.2 := any_name_iff

theorem key_acquire (s : LockState) (name pre : String) : (s.acquire name pre).1.key =
    if name ∈ s.key.2 then (s.key.1, Multiset.erase s.key.2 name)
    else (name ::ₘ s.key.1, s.key.2) := by
  by_cases h : s.hasPending name = true
  · rw [if_pos (hasPending_iff_mem_key.mp h)]
    simp [acquire, h, key, names_without]
  · rw [if_neg (hasPending_iff_mem_key.not.mp h)]
    simp [acquire, h, key, names]

theorem key_release (s : LockState) (name pre : String) : (s.release name pre).1.key =
    if name ∈ s.key.1 then (Multiset.erase s.key.1 name, s.key.2)
    else (s.key.1, name ::ₘ s.key.2) := by
  by_cases h : s.holds name = true
  · rw [if_pos (holds_iff_mem_key.mp h)]
    simp [release, h, key, names_without]
  · rw [if_neg (holds_iff_mem_key.not.mp h)]
    simp [release, h, key, names]

end LockState

theorem PathState.region_assume? {s t : PathState} (h : s.region = t.region) (name : String)
    (value : Bool) :
    (s.assume? name value).map PathState.region = (t.assume? name value).map PathState.region := by
  have hc : s.conditions = t.conditions := by simp [conditions, h]
  have hg : s.get? name = t.get? name := by simp [PathState.get?, hc]
  have hs : s.sibling? name = t.sibling? name := by simp [sibling?, hc]
  simp only [assume?, hg, hs]
  cases t.get? name with
  | some recorded => by_cases he : recorded = value <;> simp [he, h]
  | none =>
    cases t.sibling? name with
    | some fixed => cases fixed <;> cases value <;> simp [h]
    | none => simp [record, hc]

namespace FactSet

variable {step : Fact → Option Fact} {s : FactSet}

/-- The facts that a step gives for those of a set, grouped. -/
def through (step : Fact → Option Fact) (s : FactSet) : FactSet :=
  (ofList (s.facts.filterMap step)).group

theorem distinct_through : (s.through step).Distinct := (distinct_ofList _).group

theorem Equiv.through {t : FactSet} (h : s.Equiv t)
    (hstep : ∀ f g, f.key = g.key → (step f).map Fact.key = (step g).map Fact.key) :
    (s.through step).Equiv (t.through step) :=
  (h.ofList_filterMap hstep).group (distinct_ofList _) (distinct_ofList _)

theorem exists_of_mem_filterMap {g : Fact} (hg : g ∈ (ofList (s.facts.filterMap step)).facts) :
    ∃ f ∈ s.facts, step f = some g := List.mem_filterMap.mp (mem_of_mem_ofList hg)

theorem WellFormed.filterMap (hs : s.WellFormed)
    (hstep : ∀ f g, f.path.WellFormed → step f = some g → g.path.WellFormed) :
    (ofList (s.facts.filterMap step)).WellFormed := by
  intro g hg
  obtain ⟨f, hf, hfg⟩ := exists_of_mem_filterMap hg
  exact hstep f g (hs f hf) hfg

theorem WellFormed.through (hs : s.WellFormed)
    (hstep : ∀ f g, f.path.WellFormed → step f = some g → g.path.WellFormed) :
    (s.through step).WellFormed := (hs.filterMap hstep).group

/-- An outcome that a step records in every fact stays recorded when the facts are grouped. -/
theorem WellFormed.mem_through (hs : s.WellFormed)
    (hstep : ∀ f g, f.path.WellFormed → step f = some g → g.path.WellFormed)
    {entry : String × Bool}
    (hall : ∀ f ∈ s.facts, ∀ g, step f = some g → entry ∈ g.path.conditions) {k : Fact}
    (hk : k ∈ (s.through step).facts) : entry ∈ k.path.conditions := by
  refine (hs.filterMap hstep).mem_group (fun g hg => ?_) hk
  obtain ⟨f, hf, hfg⟩ := exists_of_mem_filterMap hg
  exact hall f hf g hfg

theorem exists_mem_through (step : Fact → Option Fact) {name : String} {f g : Fact} {n : Int}
    (hf : f ∈ s.facts)
    (hg : step f = some g) (hn : g.locks.Tracks name n) :
    ∃ k ∈ (s.through step).facts, ∃ m, k.locks.Tracks name m ∧ Collapses n m ∧
      (g.path.region = .top → k.path.region = .top) := by
  have hk : g.key ∈ (ofList (s.facts.filterMap step)).keys :=
    mem_keys_ofList.mpr (List.mem_map_of_mem (List.mem_filterMap.mpr ⟨f, hf, hg⟩))
  obtain ⟨g', hg', hkey⟩ := mem_keys.mp hk
  obtain ⟨k, hk, m, hm, hnm, htop⟩ :=
    exists_mem_group hg' (hn.of_key_eq (Fact.locks_key_eq hkey).symm)
  exact ⟨k, hk, m, hm, hnm, fun ht => htop ((Fact.region_eq hkey).trans ht)⟩

theorem exists_of_mem_through {name : String}
    (hstep : ∀ f ∈ s.facts, ∀ g, step f = some g → ∃ n, g.locks.Tracks name n)
    {k : Fact} (hk : k ∈ (s.through step).facts) :
    ∃ m, k.locks.Tracks name m ∧
      (∃ f ∈ s.facts, ∃ g, step f = some g ∧ ∃ n, g.locks.Tracks name n ∧ Collapses n m) ∧
      ∀ entry ∈ k.path.conditions, ∃ f ∈ s.facts, ∃ g, step f = some g ∧
        ∃ n, g.locks.Tracks name n ∧ Collapses n m ∧ entry ∈ g.path.conditions := by
  have htracks : (ofList (s.facts.filterMap step)).Tracks name := fun g hg =>
    (exists_of_mem_filterMap hg).elim fun f hf => hstep f hf.1 g hf.2
  obtain ⟨m, hm, ⟨g, hg, n, hn, hnm⟩, hentry⟩ := exists_of_mem_group htracks hk
  obtain ⟨f, hf, hfg⟩ := exists_of_mem_filterMap hg
  refine ⟨m, hm, ⟨f, hf, g, hfg, n, hn, hnm⟩, fun entry he => ?_⟩
  obtain ⟨g, hg, n, hn, hnm, he⟩ := hentry entry he
  obtain ⟨f, hf, hfg⟩ := exists_of_mem_filterMap hg
  exact ⟨f, hf, g, hfg, n, hn, hnm, he⟩

end FactSet

namespace Problem

variable (P : Problem)

/-- How an instruction changes the level of the lock. -/
def delta (i : P.body.InstIx) : Int :=
  match P.op i with
  | none => 0
  | some op => op.delta

/-- The outcome that is recorded when control leaves an instruction one way. -/
def outcome? (i : P.body.InstIx) (way : Branch) : Option (String × Bool) :=
  if P.body.isConditional i then
    match (P.guard i).1 with
    | .predicate name negated => some (name, way.isTaken != negated)
    | .constant _ | .unknown => none
  else none

theorem guard_of_outcome? {i : P.body.InstIx} {way : Branch} {entry : String × Bool}
    (h : P.outcome? i way = some entry) : P.body.isConditional i = true ∧
      ∃ name negated, (P.guard i).1 = .predicate name negated ∧
        (name, way.isTaken != negated) = entry := by
  by_cases hc : P.body.isConditional i = true
  · rw [outcome?, if_pos hc] at h
    cases hguard : (P.guard i).1 with
    | predicate name negated =>
      rw [hguard] at h
      exact ⟨hc, name, negated, rfl, Option.some.inj h⟩
    | constant | unknown => simp [hguard] at h
  · simp [outcome?, hc] at h

/-- The facts on one way out of an instruction, given those that enter it. -/
def flow (i : P.body.InstIx) (way : Branch) (facts : FactSet) : FactSet :=
  if P.body.isConditional i then P.branch i way (P.transfer i facts) else P.transfer i facts

theorem path_apply (op : LockOp) (f : Fact) : (P.apply op f).1.path = f.path := by
  cases op <;> rfl

theorem key_apply {f g : Fact} (h : f.key = g.key) (op : LockOp) :
    (P.apply op f).1.key = (P.apply op g).1.key := by
  have hl := Fact.locks_key_eq h
  have hr := Fact.region_eq h
  cases op with
  | acquire => simp only [apply, Fact.key, LockState.key_acquire, hl, hr]
  | release => simp only [apply, Fact.key, LockState.key_release, hl, hr]

theorem tracks_apply {f : Fact} {n : Int} (h : f.locks.Tracks P.lock n) (op : LockOp) :
    (P.apply op f).1.locks.Tracks P.lock (n + op.delta) := by
  cases op with
  | acquire => exact h.acquire _
  | release => exact h.release _

/-- The anomaly that an operation shows at a level. -/
def anomalyAt (op : LockOp) (level : Int) : Option DiagnosticKind :=
  match op with
  | .acquire => if 0 < level then some .doubleAcquire else none
  | .release =>
    if 0 < level then none
    else if level = 0 then if P.unlockWrapper then none else some .releaseWithoutAcquire
    else some .doubleRelease

theorem apply_anomaly {f : Fact} {n : Int} (h : f.locks.Tracks P.lock n) (op : LockOp) :
    (P.apply op f).2 = P.anomalyAt op n := by
  cases op with
  | acquire =>
    simp only [apply, anomalyAt, h.acquire_outcome f.path.last]
    rcases lt_trichotomy n 0 with hn | rfl | hn
    · simp [hn, not_lt_of_gt hn]
    · simp
    · simp [hn, hn.ne', not_lt_of_gt hn]
  | release =>
    simp only [apply, anomalyAt, h.release_outcome f.path.last]
    rcases lt_trichotomy n 0 with hn | rfl | hn
    · simp [hn.ne, not_lt_of_gt hn]
    · simp
    · simp [hn]

/-- A fact passes a branch as it is, or with the outcome assumed. -/
theorem pass?_cases {guard : Guard} {way : Branch} {f g : Fact}
    (h : P.pass? guard way f = some g) :
    g = f ∨ ∃ name negated path, guard = .predicate name negated ∧
      f.path.assume? name (way.isTaken != negated) = some path ∧ g = { f with path } := by
  cases guard with
  | predicate name negated =>
    simp only [pass?] at h
    split at h
    · next path hpath => exact .inr ⟨name, negated, path, rfl, hpath, (Option.some.inj h).symm⟩
    · split at h
      · simp at h
      · exact .inl (Option.some.inj h).symm
  | constant value =>
    simp only [pass?] at h
    split at h
    · exact .inl (Option.some.inj h).symm
    · simp at h
  | unknown => exact .inl (Option.some.inj h).symm

theorem locks_pass? {guard : Guard} {way : Branch} {f g : Fact}
    (h : P.pass? guard way f = some g) : g.locks = f.locks := by
  rcases P.pass?_cases h with rfl | ⟨name, negated, path, -, -, rfl⟩ <;> rfl

theorem wellFormed_pass? {guard : Guard} {way : Branch} {f g : Fact} (hf : f.path.WellFormed)
    (h : P.pass? guard way f = some g) : g.path.WellFormed := by
  rcases P.pass?_cases h with rfl | ⟨name, negated, path, -, hpath, rfl⟩
  · exact hf
  · exact hf.assume? hpath

theorem key_pass? {f g : Fact} (h : f.key = g.key) (guard : Guard) (way : Branch) :
    (P.pass? guard way f).map Fact.key = (P.pass? guard way g).map Fact.key := by
  have hl := Fact.locks_key_eq h
  have hr := Fact.region_eq h
  cases guard with
  | predicate name negated =>
    have hp := PathState.region_assume? hr name (way.isTaken != negated)
    simp only [pass?]
    cases hf : f.path.assume? name (way.isTaken != negated) with
    | none =>
      rw [hf, Option.map_none, eq_comm, Option.map_eq_none_iff] at hp
      rw [hp]
      by_cases hfilter : P.filter <;> simp [hfilter, h]
    | some p =>
      rw [hf, Option.map_some, eq_comm, Option.map_eq_some_iff] at hp
      obtain ⟨q, hq, hreg⟩ := hp
      simp [hq, Fact.key, hl, hreg]
  | constant value =>
    simp only [pass?]
    split <;> simp [h]
  | unknown => simp [pass?, h]

theorem pass?_isSome_of_filter (hfilter : P.filter = false) (guard : Guard) (way : Branch)
    (f : Fact) : (P.pass? guard way f).isSome := by
  cases guard with
  | predicate name negated =>
    cases h : f.path.assume? name (way.isTaken != negated) <;> simp [pass?, h, hfilter]
  | constant value => simp [pass?, hfilter]
  | unknown => rfl

theorem transfer_of_op {i : P.body.InstIx} {op : LockOp} (h : P.op i = some op) (s : FactSet) :
    P.transfer i s = s.through fun f => some (P.apply op f).1 := by
  simp [transfer, h, FactSet.through, List.filterMap_eq_map']

theorem transfer_of_no_op {i : P.body.InstIx} (h : P.op i = none) (s : FactSet) :
    P.transfer i s = s := by simp [transfer, h]

theorem branch_eq (i : P.body.InstIx) (way : Branch) (s : FactSet) :
    P.branch i way s = s.through (P.pass? (P.guard i).1 way) := rfl

theorem flow_of_conditional {i : P.body.InstIx} (h : P.body.isConditional i = true) (way : Branch)
    (s : FactSet) :
    P.flow i way s = (P.transfer i s).through (P.pass? (P.guard i).1 way) := by
  rw [flow, if_pos h, branch_eq]

theorem flow_of_not_conditional {i : P.body.InstIx} (h : ¬ P.body.isConditional i = true)
    (way : Branch) (s : FactSet) : P.flow i way s = P.transfer i s := by
  rw [flow, if_neg h]

theorem distinct_transfer {s : FactSet} (hs : s.Distinct) (i : P.body.InstIx) :
    (P.transfer i s).Distinct := by
  cases hop : P.op i with
  | none => rwa [P.transfer_of_no_op hop]
  | some op => rw [P.transfer_of_op hop]; exact FactSet.distinct_through

theorem distinct_flow {s : FactSet} (hs : s.Distinct) (i : P.body.InstIx) (way : Branch) :
    (P.flow i way s).Distinct := by
  by_cases hc : P.body.isConditional i = true
  · rw [P.flow_of_conditional hc]; exact FactSet.distinct_through
  · rw [P.flow_of_not_conditional hc]; exact P.distinct_transfer hs i

theorem equiv_transfer {s t : FactSet} (h : s.Equiv t) (i : P.body.InstIx) :
    (P.transfer i s).Equiv (P.transfer i t) := by
  cases hop : P.op i with
  | none => rwa [P.transfer_of_no_op hop, P.transfer_of_no_op hop]
  | some op =>
    rw [P.transfer_of_op hop, P.transfer_of_op hop]
    exact h.through fun f g hfg => congrArg some (P.key_apply hfg op)

theorem equiv_flow {s t : FactSet} (h : s.Equiv t) (i : P.body.InstIx) (way : Branch) :
    (P.flow i way s).Equiv (P.flow i way t) := by
  have ht := P.equiv_transfer h i
  by_cases hc : P.body.isConditional i = true
  · rw [P.flow_of_conditional hc, P.flow_of_conditional hc]
    exact ht.through fun f g hfg => P.key_pass? hfg _ _
  · rwa [P.flow_of_not_conditional hc, P.flow_of_not_conditional hc]

theorem wellFormed_transfer {s : FactSet} (hs : s.WellFormed) (i : P.body.InstIx) :
    (P.transfer i s).WellFormed := by
  cases hop : P.op i with
  | none => rwa [P.transfer_of_no_op hop]
  | some op =>
    rw [P.transfer_of_op hop]
    refine hs.through fun f g hf hg => ?_
    obtain rfl := Option.some.inj hg
    rwa [P.path_apply]

theorem wellFormed_flow {s : FactSet} (hs : s.WellFormed) (i : P.body.InstIx) (way : Branch) :
    (P.flow i way s).WellFormed := by
  have ht := P.wellFormed_transfer hs i
  by_cases hc : P.body.isConditional i = true
  · rw [P.flow_of_conditional hc]
    exact ht.through fun f g hf hg => P.wellFormed_pass? hf hg
  · rwa [P.flow_of_not_conditional hc]

section Levels

variable {s : FactSet} {i : P.body.InstIx} {way : Branch}

theorem delta_of_op {op : LockOp} (h : P.op i = some op) : P.delta i = op.delta := by
  simp [delta, h]

theorem delta_of_no_op (h : P.op i = none) : P.delta i = 0 := by simp [delta, h]

theorem exists_mem_transfer {f : Fact} {n : Int} (hf : f ∈ s.facts)
    (hn : f.locks.Tracks P.lock n) :
    ∃ g ∈ (P.transfer i s).facts, ∃ m, g.locks.Tracks P.lock m ∧ Collapses (n + P.delta i) m ∧
      (f.path.region = .top → g.path.region = .top) := by
  cases hop : P.op i with
  | none =>
    rw [P.transfer_of_no_op hop, P.delta_of_no_op hop, Int.add_zero]
    exact ⟨f, hf, n, hn, .refl n, id⟩
  | some op =>
    rw [P.transfer_of_op hop, P.delta_of_op hop]
    obtain ⟨g, hg, m, hm, hnm, htop⟩ := FactSet.exists_mem_through
      (fun f => some (P.apply op f).1) hf rfl (P.tracks_apply hn op)
    exact ⟨g, hg, m, hm, hnm, fun ht => htop ((congrArg _ (P.path_apply op f)).trans ht)⟩

/-- Every level passes on, unless a branch drops all facts that have it. A fact without path
conditions stays one where nothing is tested. -/
theorem exists_mem_flow {f : Fact} {n : Int} (hf : f ∈ s.facts) (hn : f.locks.Tracks P.lock n)
    (hpass : ∀ g ∈ (P.transfer i s).facts, ∀ m, g.locks.Tracks P.lock m →
      Collapses (n + P.delta i) m → (f.path.region = .top → g.path.region = .top) →
      P.body.isConditional i = true → (P.pass? (P.guard i).1 way g).isSome) :
    ∃ g ∈ (P.flow i way s).facts, ∃ m, g.locks.Tracks P.lock m ∧ Collapses (n + P.delta i) m ∧
      (f.path.region = .top → P.outcome? i way = none → g.path.region = .top) := by
  obtain ⟨g, hg, m, hm, hnm, htop⟩ := P.exists_mem_transfer (i := i) hf hn
  by_cases hc : P.body.isConditional i = true
  · obtain ⟨g', hg'⟩ := Option.isSome_iff_exists.mp (hpass g hg m hm hnm htop hc)
    have hm' : g'.locks.Tracks P.lock m := P.locks_pass? hg' ▸ hm
    obtain ⟨k, hk, l, hl, hml, htop'⟩ := FactSet.exists_mem_through _ hg hg' hm'
    rw [P.flow_of_conditional hc]
    refine ⟨k, hk, l, hl, hnm.trans hml, fun ht ho => htop' ?_⟩
    rcases P.pass?_cases hg' with rfl | ⟨name, negated, path, hguard, -, -⟩
    · exact htop ht
    · simp [outcome?, hc, hguard] at ho
  · rw [P.flow_of_not_conditional hc]
    exact ⟨g, hg, m, hm, hnm, fun ht _ => htop ht⟩

theorem exists_of_mem_transfer (hs : s.Tracks P.lock) {g : Fact}
    (hg : g ∈ (P.transfer i s).facts) :
    ∃ m, g.locks.Tracks P.lock m ∧
      (∃ f ∈ s.facts, ∃ n, f.locks.Tracks P.lock n ∧ Collapses (n + P.delta i) m) ∧
      ∀ entry ∈ g.path.conditions, ∃ f ∈ s.facts, ∃ n, f.locks.Tracks P.lock n ∧
        Collapses (n + P.delta i) m ∧ entry ∈ f.path.conditions := by
  cases hop : P.op i with
  | none =>
    rw [P.transfer_of_no_op hop] at hg
    rw [P.delta_of_no_op hop]
    simp only [Int.add_zero]
    obtain ⟨m, hm⟩ := hs g hg
    exact ⟨m, hm, ⟨g, hg, m, hm, .refl m⟩, fun entry he => ⟨g, hg, m, hm, .refl m, he⟩⟩
  | some op =>
    rw [P.transfer_of_op hop] at hg
    rw [P.delta_of_op hop]
    have hlevel {f g : Fact} (hf : f ∈ s.facts) (hfg : some (P.apply op f).1 = some g) :
        g.path = f.path ∧ ∃ n, f.locks.Tracks P.lock n ∧ g.locks.Tracks P.lock (n + op.delta) := by
      obtain rfl := Option.some.inj hfg
      obtain ⟨n, hn⟩ := hs f hf
      exact ⟨P.path_apply op f, n, hn, P.tracks_apply hn op⟩
    obtain ⟨m, hm, ⟨f, hf, g', hfg, l, hl, hlm⟩, hentry⟩ := FactSet.exists_of_mem_through
      (fun f hf g hfg => (hlevel hf hfg).2.imp' (· + op.delta) fun n hn => hn.2) hg
    obtain ⟨-, n, hn, hn'⟩ := hlevel hf hfg
    refine ⟨m, hm, ⟨f, hf, n, hn, hl.unique hn' ▸ hlm⟩, fun entry he => ?_⟩
    obtain ⟨f, hf, g', hfg, l, hl, hlm, he⟩ := hentry entry he
    obtain ⟨hpath, n, hn, hn'⟩ := hlevel hf hfg
    exact ⟨f, hf, n, hn, hl.unique hn' ▸ hlm, by rwa [hpath] at he⟩

theorem tracks_transfer (hs : s.Tracks P.lock) : (P.transfer i s).Tracks P.lock := fun _ hg =>
  (P.exists_of_mem_transfer hs hg).imp fun _ h => h.1

/-- Every level on a way out is there after the instruction, and so is every outcome recorded there
but that of the branch itself. -/
theorem exists_of_mem_way (hs : (P.transfer i s).Tracks P.lock) {g : Fact}
    (hg : g ∈ (P.flow i way s).facts) :
    ∃ m, g.locks.Tracks P.lock m ∧
      (∃ f ∈ (P.transfer i s).facts, ∃ n, f.locks.Tracks P.lock n ∧ Collapses n m) ∧
      ∀ entry ∈ g.path.conditions, P.outcome? i way = some entry ∨
        ∃ f ∈ (P.transfer i s).facts, ∃ n, f.locks.Tracks P.lock n ∧ Collapses n m ∧
          entry ∈ f.path.conditions := by
  by_cases hc : P.body.isConditional i = true
  · rw [P.flow_of_conditional hc] at hg
    have hpass {f g : Fact} (hf : f ∈ (P.transfer i s).facts)
        (hfg : P.pass? (P.guard i).1 way f = some g) : ∃ n, g.locks.Tracks P.lock n :=
      (hs f hf).imp fun n hn => P.locks_pass? hfg ▸ hn
    obtain ⟨m, hm, ⟨f, hf, g', hfg, l, hl, hlm⟩, hentry⟩ :=
      FactSet.exists_of_mem_through (fun f hf g hfg => hpass hf hfg) hg
    refine ⟨m, hm, ⟨f, hf, l, P.locks_pass? hfg ▸ hl, hlm⟩, fun entry he => ?_⟩
    obtain ⟨f, hf, g', hfg, l, hl, hlm, he⟩ := hentry entry he
    have hl' : f.locks.Tracks P.lock l := P.locks_pass? hfg ▸ hl
    rcases P.pass?_cases hfg with rfl | ⟨name, negated, path, hguard, hpath, rfl⟩
    · exact .inr ⟨g', hf, l, hl', hlm, he⟩
    · rcases PathState.mem_conditions_assume? hpath he with he | rfl
      · exact .inr ⟨f, hf, l, hl', hlm, he⟩
      · exact .inl (by simp [outcome?, hc, hguard])
  · rw [P.flow_of_not_conditional hc] at hg
    obtain ⟨m, hm⟩ := hs g hg
    exact ⟨m, hm, ⟨g, hg, m, hm, .refl m⟩, fun entry he => .inr ⟨g, hg, m, hm, .refl m, he⟩⟩

/-- Every level on a way out comes from one that enters, and so does every outcome recorded there
but that of the branch itself. -/
theorem exists_of_mem_flow (hs : s.Tracks P.lock) {g : Fact} (hg : g ∈ (P.flow i way s).facts) :
    ∃ m, g.locks.Tracks P.lock m ∧
      (∃ f ∈ s.facts, ∃ n, f.locks.Tracks P.lock n ∧ Collapses (n + P.delta i) m) ∧
      ∀ entry ∈ g.path.conditions,
        (∃ f ∈ s.facts, ∃ n, f.locks.Tracks P.lock n ∧ Collapses (n + P.delta i) m ∧
          entry ∈ f.path.conditions) ∨
        ((∃ f ∈ s.facts, ∃ n, f.locks.Tracks P.lock n ∧ Collapses (n + P.delta i) m) ∧
          P.outcome? i way = some entry) := by
  obtain ⟨m, hm, ⟨f, hf, l, hl, hlm⟩, hentry⟩ := P.exists_of_mem_way (P.tracks_transfer hs) hg
  have hlevel : ∃ f ∈ s.facts, ∃ n, f.locks.Tracks P.lock n ∧ Collapses (n + P.delta i) m := by
    obtain ⟨l', hl', ⟨f', hf', n, hn, hnl⟩, -⟩ := P.exists_of_mem_transfer hs hf
    obtain rfl := hl.unique hl'
    exact ⟨f', hf', n, hn, hnl.trans hlm⟩
  refine ⟨m, hm, hlevel, fun entry he => ?_⟩
  rcases hentry entry he with hown | ⟨f, hf, l, hl, hlm, he⟩
  · exact .inr ⟨hlevel, hown⟩
  · obtain ⟨l', hl', -, hen⟩ := P.exists_of_mem_transfer hs hf
    obtain rfl := hl.unique hl'
    obtain ⟨f', hf', n, hn, hnl, he⟩ := hen entry he
    exact .inl ⟨f', hf', n, hn, hnl.trans hlm, he⟩

theorem tracks_flow (hs : s.Tracks P.lock) : (P.flow i way s).Tracks P.lock := fun _ hg =>
  (P.exists_of_mem_flow hs hg).imp fun _ h => h.1

end Levels

end Problem

end LockUsage
