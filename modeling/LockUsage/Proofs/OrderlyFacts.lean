import LockUsage.Proofs.Balance
import LockUsage.Proofs.LockClasses
import LockUsage.Proofs.Problems

/-! Sets of facts stay small. Instructions without a lock operation pass on what enters them as it
is, and where one edge enters nothing is merged. Still every set in the table of a run has at most
one fact for each state that the lock can be in, since grouping never changes such a set, and no
fact is on a path condition that excludes all paths. -/

namespace LockUsage

namespace PathState

/-- The path condition allows all paths and has no conditions, or it has some, no name twice and at
most one equality a subject. -/
structure Orderly (s : PathState) : Prop where
  notBottom : s.isBottom = false
  conditions : (s.isTop = true ∧ s.conditions = []) ∨
    (s.isTop = false ∧ s.conditions ≠ [] ∧ (s.conditions.map (·.1)).Nodup ∧
      ∀ subject, s.conditions.countP (fun entry => subject? entry.1 == some subject) ≤ 1)

theorem WellFormed.orderly {s : PathState} (hs : s.WellFormed) (hb : s.isBottom = false) :
    s.Orderly := by
  refine ⟨hb, ?_⟩
  cases hr : s.region with
  | top => exact .inl ⟨isTop_iff.mpr hr, by rw [PathState.conditions, hr]⟩
  | bottom => simp [isBottom_iff.mpr hr] at hb
  | within c =>
    have hc := hs c hr
    have htop : s.isTop = false := by simp [isTop, hr]
    rw [conditions_of_region hr]
    refine .inr ⟨htop, hc.nonempty, ?_, fun subject => ?_⟩
    · exact List.pairwise_map.mpr (hc.sorted.imp fun hlt => hlt.ne)
    · rw [List.countP_eq_length_filter]
      refine length_le_one_of_nodup (hc.sorted.nodup.filter _) fun a ha b hb => ?_
      obtain ⟨ha, hsa⟩ := List.mem_filter.mp ha
      obtain ⟨hb, hsb⟩ := List.mem_filter.mp hb
      exact hc.keys a ha b hb (.of_subject (beq_iff_eq.mp hsa) (beq_iff_eq.mp hsb))

theorem isBottom_assume? {s t : PathState} {name : String} {value : Bool}
    (hs : s.isBottom = false) (h : s.assume? name value = some t) : t.isBottom = false := by
  rcases assume?_cases h with rfl | ⟨rfl, -⟩
  · exact hs
  · rfl

end PathState

theorem isBottom_mergePaths_eq_false {paths : List PathState} (hne : paths ≠ [])
    (h : ∀ p ∈ paths, p.isBottom = false) : (mergePaths paths).isBottom = false := by
  obtain ⟨p, hp⟩ := List.exists_mem_of_ne_nil _ hne
  have hall : paths.all PathState.isBottom = false :=
    List.all_eq_false.mpr ⟨p, hp, by simp [h p hp]⟩
  rw [isBottom_mergePaths, hall, Bool.and_false]

namespace FactSet

variable {name : String} {s : FactSet}

/-- Every fact is on some path. -/
def Feasible (s : FactSet) : Prop := ∀ f ∈ s.facts, f.path.isBottom = false

theorem Feasible.group (hs : s.Feasible) : s.group.Feasible := by
  intro g hg
  rcases mem_facts_group hg with hg | ⟨c, hc, rfl⟩
  · exact hs g hg
  · -- A class that the set has is the class of one of its facts.
    obtain ⟨f, hf, hcov⟩ := mem_classes.mp hc
    have hmem : f.path ∈ (s.members c).map (·.path) :=
      List.mem_map_of_mem (mem_members.mpr ⟨hf, hcov⟩)
    refine isBottom_mergePaths_eq_false (List.ne_nil_of_mem hmem) fun p hp => ?_
    obtain ⟨f, hf, rfl⟩ := List.mem_map.mp hp
    exact hs f (mem_members.mp hf).1

theorem Feasible.through {step : Fact → Option Fact} (hs : s.Feasible)
    (hstep : ∀ f g, f.path.isBottom = false → step f = some g → g.path.isBottom = false) :
    (s.through step).Feasible := by
  refine Feasible.group fun g hg => ?_
  obtain ⟨f, hf, hg⟩ := List.mem_filterMap.mp (mem_of_mem_ofList hg)
  exact hstep f g (hs f hf) hg

theorem feasible_merge {sets : List FactSet} (h : ∀ s ∈ sets, s.Feasible) :
    (merge sets).Feasible := by
  refine Feasible.group fun f hf => ?_
  obtain ⟨s, hs, hf⟩ := mem_of_mem_unions hf
  exact h s hs f hf

/-- At most one fact has nothing, at most one holds the lock, and in at most one a release of it is
pending. No fact is in two of these states, or mentions another lock. -/
structure Orderly (name : String) (s : FactSet) : Prop where
  free : s.facts.countP (fun f => f.locks.isInit) ≤ 1
  held : s.facts.countP (fun f => f.locks.holds name) ≤ 1
  pending : s.facts.countP (fun f => f.locks.hasPending name) ≤ 1
  size : s.size ≤ 3
  only : ∀ f ∈ s.facts, ∀ lock ∈ f.locks.held ++ f.locks.pending, lock.name = name
  exclusive : ∀ f ∈ s.facts, ¬ (f.locks.holds name = true ∧ f.locks.hasPending name = true)
  path : ∀ f ∈ s.facts, f.path.Orderly

theorem name_eq_of_tracks {level : Int} {locks : LockState} (h : locks.Tracks name level)
    {other : String} (ho : other ∈ LockState.names locks.held ++ LockState.names locks.pending) :
    other = name := by
  rw [h.1, h.2, List.mem_append, List.mem_replicate, List.mem_replicate] at ho
  exact ho.elim And.right And.right

namespace Proper

variable (h : s.Proper name)
include h

theorem countP_le_one {q : Fact → Bool} (sign : Int)
    (hq : ∀ f ∈ s.facts, ∀ n, f.locks.Tracks name n → q f = true → n.sign = sign) :
    s.facts.countP q ≤ 1 := by
  rw [List.countP_eq_length_filter, ← List.length_map Fact.key]
  refine length_le_one_of_nodup (h.distinct.sublist (List.filter_sublist.map _)) ?_
  simp only [List.mem_map, List.mem_filter]
  rintro _ ⟨f, ⟨hf, hqf⟩, rfl⟩ _ ⟨g, ⟨hg, hqg⟩, rfl⟩
  obtain ⟨m, hm⟩ := h.tracks f hf
  obtain ⟨n, hn⟩ := h.tracks g hg
  exact h.key_eq hf hg hm hn ((hq f hf m hm hqf).trans (hq g hg n hn hqg).symm)

theorem size_le : s.size ≤ 3 := by
  have hone {names : List String} (hname : ∀ other ∈ names, other = name) :
      names.eraseDups.length ≤ 1 :=
    length_le_one_of_nodup (nodup_eraseDups _) fun a ha b hb =>
      (hname a (List.mem_eraseDups.mp ha)).trans (hname b (List.mem_eraseDups.mp hb)).symm
  have hheld : s.heldNames.length ≤ 1 := hone fun other ho => by
    obtain ⟨f, hf, ho⟩ := List.mem_flatMap.mp ho
    obtain ⟨n, hn⟩ := h.tracks f hf
    exact name_eq_of_tracks hn (List.mem_append_left _ ho)
  have hpending : s.pendingNames.length ≤ 1 := hone fun other ho => by
    obtain ⟨f, hf, ho⟩ := List.mem_flatMap.mp ho
    obtain ⟨n, hn⟩ := h.tracks f (List.mem_filter.mp hf).1
    exact name_eq_of_tracks hn (List.mem_append_right _ ho)
  have hgroup := s.size_group_le
  rw [h.grouped.size_eq h.distinct.group h.distinct] at hgroup
  omega

theorem orderly (hfeasible : s.Feasible) : s.Orderly name where
  free := h.countP_le_one 0 fun f _ n hn hq => by
    have hk := LockState.isInit_iff_key.mp hq
    rw [hn.key_eq, Prod.mk.injEq] at hk
    have hzero : n.toNat = 0 ∧ (-n).toNat = 0 := by simpa using hk
    obtain rfl : n = 0 := by omega
    rfl
  held := h.countP_le_one 1 fun f _ n hn hq =>
    Int.sign_eq_one_of_pos (hn.holds_iff.mp hq)
  pending := h.countP_le_one (-1) fun f _ n hn hq =>
    Int.sign_eq_neg_one_of_neg (hn.hasPending_iff.mp hq)
  size := h.size_le
  only := fun f hf lock hlock => by
    obtain ⟨n, hn⟩ := h.tracks f hf
    refine name_eq_of_tracks hn ?_
    rw [LockState.names, LockState.names, ← List.map_append]
    exact List.mem_map_of_mem hlock
  exclusive := fun f hf hboth => by
    obtain ⟨n, hn⟩ := h.tracks f hf
    have hpos := hn.holds_iff.mp hboth.1
    have hneg := hn.hasPending_iff.mp hboth.2
    omega
  path := fun f hf => (h.wellFormed f hf).orderly (hfeasible f hf)

end Proper

end FactSet

namespace FactTable

variable {n : Nat} {t : FactTable n} {e : Edge n} {facts : FactSet} {Q : FactSet → Prop}

theorem mem_of_get? (h : t.get? e = some facts) : (e, facts) ∈ t := by
  obtain ⟨before, after, rfl, -⟩ := List.lookup_eq_some_iff.mp h
  simp

theorem forall_mem_put (h : ∀ item ∈ t, Q item.2) (hq : Q facts) :
    ∀ item ∈ t.put e facts, Q item.2 := by
  induction t with
  | nil => simpa [put] using hq
  | cons item t ih =>
    rw [List.forall_mem_cons] at h
    rw [put]
    split
    · exact List.forall_mem_cons.mpr ⟨hq, h.2⟩
    · exact List.forall_mem_cons.mpr ⟨h.1, ih h.2⟩

end FactTable

namespace Problem

variable {P : Problem} {s : P.State} {facts : FactSet}

theorem feasible_flow (h : facts.Feasible) (i : P.body.InstIx) (way : Branch) :
    (P.flow i way facts).Feasible := by
  have htransfer : (P.transfer i facts).Feasible := by
    cases hop : P.op i with
    | none => rwa [P.transfer_of_no_op hop]
    | some op =>
      rw [P.transfer_of_op hop]
      refine h.through fun f g hf hg => ?_
      obtain rfl := Option.some.inj hg
      rwa [P.path_apply]
  by_cases hc : P.body.isConditional i = true
  · rw [P.flow_of_conditional hc]
    refine htransfer.through fun f g hf hg => ?_
    rcases P.pass?_cases hg with rfl | ⟨name, negated, path, -, hpath, rfl⟩
    · exact hf
    · exact PathState.isBottom_assume? hf hpath
  · rwa [P.flow_of_not_conditional hc]

/-- All sets in the table are such that grouping changes nothing, and their facts are on paths. -/
def Tidy (P : Problem) (s : P.State) : Prop :=
  ∀ item ∈ s.facts, item.2.Proper P.lock ∧ item.2.Feasible

theorem Tidy.of_get? (h : P.Tidy s) {e : P.Edge} (he : s.facts.get? e = some facts) :
    facts.Proper P.lock ∧ facts.Feasible := h _ (FactTable.mem_of_get? he)

theorem Tidy.merge (h : P.Tidy s) (edges : List P.Edge) :
    (FactSet.merge (edges.filterMap s.facts.get?)).Proper P.lock ∧
      (FactSet.merge (edges.filterMap s.facts.get?)).Feasible := by
  have hall : ∀ fs ∈ edges.filterMap s.facts.get?, fs.Proper P.lock ∧ fs.Feasible := by
    intro fs hfs
    obtain ⟨e, -, he⟩ := List.mem_filterMap.mp hfs
    exact h.of_get? he
  exact ⟨FactSet.proper_merge fun fs hfs => (hall fs hfs).1,
    FactSet.feasible_merge fun fs hfs => (hall fs hfs).2⟩

theorem Tidy.propagate (h : P.Tidy s) (hp : facts.Proper P.lock) (hf : facts.Feasible)
    (e : P.Edge) : P.Tidy (P.propagate s e facts) := by
  have hput := FactTable.forall_mem_put (e := e)
    (Q := fun fs => fs.Proper P.lock ∧ fs.Feasible) h ⟨hp, hf⟩
  simp only [Problem.propagate]
  split_ifs
  · exact hput
  · exact hput
  · exact h

theorem Tidy.send (h : P.Tidy s) (hp : facts.Proper P.lock) (hf : facts.Feasible)
    (i : P.body.InstIx) (way : Branch) : P.Tidy (P.send s i way (P.flow i way facts)) :=
  Tidy.propagate (s := { s with edges := s.edges.ask i way }) h (proper_flow hp i way)
    (feasible_flow hf i way) _

theorem Tidy.input (h : P.Tidy s) {i : P.body.InstIx} (hin : (P.input s i).2 = some facts) :
    facts.Proper P.lock ∧ facts.Feasible := by
  rw [Problem.input] at hin
  dsimp only at hin
  split_ifs at hin with hmany hnone
  · obtain rfl := Option.some.inj hin
    exact h.merge _
  · obtain ⟨e, -, he⟩ := List.mem_filterMap.mp (List.mem_of_mem_head? hin)
    exact h.of_get? he

/-- A step puts sets on edges that are as those in the table. -/
theorem Tidy.step (h : P.Tidy s) (node : P.Node) : P.Tidy (P.step s node) := by
  cases node with
  | ret => exact h.propagate (h.merge _).1 (h.merge _).2 _
  | inst i =>
    have hin (facts : FactSet) (hfacts : (P.input s i).2 = some facts) := h.input hfacts
    have hsame : (P.input s i).1.facts = s.facts := rfl
    rw [Problem.step, stepInst]
    generalize P.input s i = entered at hin hsame
    obtain ⟨s', entering⟩ := entered
    have h' : P.Tidy s' := by rwa [Tidy, hsame]
    cases entering with
    | none => exact h'
    | some facts =>
      obtain ⟨hp, hf⟩ := hin facts rfl
      by_cases hc : P.body.isConditional i = true
      · have hflow (way : Branch) : P.branch i way (P.transfer i facts) = P.flow i way facts := by
          rw [flow, if_pos hc]
        have hguard : P.Tidy (P.useGuard s' i) := by rwa [Tidy, (useGuard_facts s' i).1]
        simp only [hc, if_true, hflow]
        exact (hguard.send hp hf i .taken).send hp hf i .notTaken
      · have hflow : P.transfer i facts = P.flow i .taken facts := by rw [flow, if_neg hc]
        simp only [hc, hflow]
        exact h'.send hp hf i .taken

theorem tidy_start (entry : P.body.InstIx) : P.Tidy (P.start entry) := by
  intro item hitem
  obtain rfl := List.mem_singleton.mp hitem
  refine ⟨FactSet.proper_initial P.lock, fun f hf => ?_⟩
  obtain rfl := List.mem_singleton.mp hf
  rfl

theorem orderly_iterate (entry : P.body.InstIx) (steps : Nat) :
    ∀ item ∈ (P.iterate steps (P.start entry)).1.facts, item.2.Orderly P.lock := by
  obtain ⟨s, hs, hfacts, -⟩ := iterate_exists
    (fun s node work (h : P.Tidy s) _ => Tidy.step (s := { s with work }) h node) steps
    (tidy_start entry)
  intro item hitem
  obtain ⟨hp, hf⟩ := hs item (hfacts ▸ hitem)
  exact hp.orderly hf

theorem orderly_solve (P : Problem) : ∀ item ∈ P.solve.facts, item.2.Orderly P.lock := by
  cases hentry : P.body.entry? with
  | none => simp [solve, hentry]
  | some entry => rw [facts_solve hentry]; exact orderly_iterate entry P.maxSteps

end Problem

/-- However many steps a run has made, each set of facts in its table has at most one fact that
holds nothing, one that holds the lock and one with a release pending, on path conditions that are
in order. That holds of every program that passes the check, whatever the sites are. -/
theorem Problem.facts_stay_orderly {p : Program} {func : FuncId} {f : Func} (hp : p.fault? = none)
    (hf : p.functions[func]? = some f) (source : AliasSource) (config : Config) (sites : SiteMap)
    (lock : TrackedLock) :
    ∃ b, Body.of? f = some b ∧
      (sites.InRange p func f → lock.value.InRange p →
        ∃ P, of? source config p func b sites lock = some P) ∧
      ∀ P, of? source config p func b sites lock = some P →
        (∀ entry steps, ∀ item ∈ (P.iterate steps (P.start entry)).1.facts,
          item.2.Orderly lock.name) ∧
        ∀ item ∈ P.solve.facts, item.2.Orderly lock.name := by
  have hc := Program.checked_of_fault? hp hf
  obtain ⟨b, hb⟩ := hc.exists_body
  refine ⟨b, hb, exists_of?_of_checked hc hf hb source config, fun P hP => ?_⟩
  rw [← lock_of_of? hP]
  exact ⟨orderly_iterate, P.orderly_solve⟩

/-- Acquires the lock on one path, releases it on another one and leaves it alone on a third. -/
def crossingFunc : Func where
  name := "f"
  params := ["p", "q"]
  blocks := #[⟨"A", [0]⟩, ⟨"B", [1, 2]⟩, ⟨"C", [3]⟩, ⟨"D", [4, 5]⟩, ⟨"J", [6, 7]⟩]
  insts := #[⟨none, 0, .condBr (.arg 0) 1 2⟩, ⟨none, 1, .call (.direct 0) [.global 0]⟩,
    ⟨none, 1, .br 4⟩, ⟨none, 2, .condBr (.arg 1) 3 4⟩,
    ⟨none, 3, .call (.direct 0) [.global 0]⟩, ⟨none, 3, .br 4⟩, ⟨none, 4, .other []⟩,
    ⟨none, 4, .br 0⟩]

def crossing : Program := ⟨"m", #["l"], #[⟨"k", ["x"], #[], #[]⟩, crossingFunc]⟩

def crossingBody : Body := ⟨crossingFunc, by decide +kernel⟩

def crossingSites : SiteMap :=
  .ofList [⟨1, .acquire, .global 0, false, 0⟩, ⟨4, .release, .global 0, false, 0⟩]

def crossedLock : TrackedLock := ⟨"@l", ⟨1, .global 0⟩, false⟩

def crossingProblem : Problem :=
  .pose .default crossing 1 crossingBody crossedLock [(1, some .acquire), (4, some .release)]

/-- Where the three paths meet there are three facts, and an instruction that does nothing to the
lock passes them on. -/
theorem crossing_facts_orderly :
    crossing.fault? = none ∧ crossing.functions[1]? = some crossingFunc ∧
    Problem.of? .names .default crossing 1 crossingBody crossingSites crossedLock =
      some crossingProblem ∧
    (∃ item ∈ (crossingProblem.iterate 9 (crossingProblem.start (0 : Fin 8))).1.facts,
      item.1 = .flow (6 : Fin 8) (.inst (7 : Fin 8)) ∧ item.2.size = 3) ∧
    ∀ item ∈ (crossingProblem.iterate 9 (crossingProblem.start (0 : Fin 8))).1.facts,
      item.2.Orderly "@l" := by
  have hfault : crossing.fault? = none := by decide +kernel
  have hP : Problem.of? .names .default crossing 1 crossingBody crossingSites crossedLock =
      some crossingProblem :=
    Problem.of?_eq_pose (by decide +kernel) (by decide +kernel) (by decide +kernel)
  have hf : crossing.functions[1]? = some crossingFunc := rfl
  obtain ⟨b, hb, -, horderly⟩ := Problem.facts_stay_orderly hfault hf .names .default crossingSites
    crossedLock
  obtain rfl : crossingBody = b := Option.some.inj hb
  exact ⟨hfault, hf, hP, by decide +kernel, (horderly _ hP).1 _ _⟩

end LockUsage
