import LockUsage.Proofs.Problems
import LockUsage.Proofs.Termination

/-! Functions without loops. There the facts on each edge can be computed one edge after the other,
along the flow of control. A run comes to the same facts, in whatever order it takes up the nodes
and however often it replaces the facts on an edge before. -/

namespace LockUsage

namespace Body

/-- Control never comes back to an instruction. -/
def LoopFree (b : Body) : Prop := ∀ i, ¬ Relation.TransGen b.Follows i i

theorem LoopFree.wellFounded {b : Body} (h : b.LoopFree) : WellFounded b.Follows :=
  wellFounded_of_acyclic fun i hi => h i (Relation.transGen_swap.mp hi)

/-- The edges into a node, but for the edge from the return node to itself. -/
def edgesInto (b : Body) (node : Node b.func.insts.size) : List (Edge b.func.insts.size) :=
  (b.entryEdge?.toList ++ b.insts.flatMap fun i => [b.edge i .taken, b.edge i .notTaken]).filter
    fun e => e.target = node

/-- The way out of an instruction that leads to a node. -/
def wayTo (b : Body) (i : b.InstIx) (node : Node b.func.insts.size) : Branch :=
  if (b.edge i .taken).target = node then .taken else .notTaken

variable {b : Body} {e : Edge b.func.insts.size} {node : Node b.func.insts.size}

theorem mem_edgesInto : e ∈ b.edgesInto node ↔
    (b.entryEdge? = some e ∨ ∃ i way, e = b.edge i way) ∧ e.target = node := by
  simp only [edgesInto, List.mem_filter, List.mem_append, Option.mem_toList, List.mem_flatMap,
    List.mem_cons, List.not_mem_nil, or_false, decide_eq_true_eq]
  refine and_congr_left fun _ => or_congr_right ⟨?_, ?_⟩
  · rintro ⟨i, -, rfl | rfl⟩
    · exact ⟨i, .taken, rfl⟩
    · exact ⟨i, .notTaken, rfl⟩
  · rintro ⟨i, way, rfl⟩
    exact ⟨i, List.mem_finRange i, by cases way <;> simp⟩

theorem edge_wayTo (i : b.InstIx) (way : Branch) :
    b.edge i (b.wayTo i (b.edge i way).target) = b.edge i way := by
  cases way with
  | taken => rw [wayTo, if_pos rfl]
  | notTaken =>
    rw [wayTo]
    split
    · next h => exact congrArg (Edge.flow i) h
    · rfl

end Body

namespace Problem

variable {P : Problem}

theorem flow_wayTo (hb : P.body.WellListed) (i : P.body.InstIx) (way : Branch) :
    P.flow i (P.body.wayTo i (P.body.edge i way).target) = P.flow i way := by
  have hway := (hb.way_eq_of_edge_eq (P.body.edge_wayTo i way)).2
  by_cases hc : P.body.isConditional i = true
  · simp only [Body.way, if_pos hc] at hway
    rw [hway]
  · funext facts
    rw [P.flow_of_not_conditional hc, P.flow_of_not_conditional hc]

section Reference

open Classical

/-- The facts on an edge, if it is known what enters each instruction. -/
def onEdge (P : Problem) (entering : P.body.InstIx → FactSet) : P.Edge → FactSet
  | .entry _ => .single .initial
  | .flow i node => P.flow i (P.body.wayTo i node) (entering i)
  | .exit => .empty

/-- What enters each instruction, computed along the flow of control: the grouped union of what
stands on the edges into it. -/
noncomputable def entering (h : P.body.LoopFree) : P.body.InstIx → FactSet :=
  h.wellFounded.fix fun i before =>
    .merge ((P.body.edgesInto (.inst i)).map
      (P.onEdge fun j => if hj : P.body.Follows j i then before j hj else .empty))

/-- The facts on each edge, computed along the flow of control. -/
noncomputable def reference (h : P.body.LoopFree) : P.Edge → FactSet
  | .exit => .merge ((P.body.edgesInto .ret).map (P.onEdge (entering h)))
  | e => P.onEdge (entering h) e

theorem entering_eq (h : P.body.LoopFree) (i : P.body.InstIx) :
    entering h i = .merge ((P.body.edgesInto (.inst i)).map (P.onEdge (entering h))) := by
  refine (WellFounded.fix_eq _ _ i).trans (congrArg FactSet.merge ?_)
  refine List.map_congr_left fun e he => ?_
  obtain ⟨hedge, ht⟩ := Body.mem_edgesInto.mp he
  rcases hedge with hedge | ⟨j, way, rfl⟩
  · obtain ⟨j, -, rfl⟩ := Body.entryEdge?_eq_some_iff.mp hedge
    rfl
  · have hj : P.body.Follows j i := ⟨way, ht⟩
    simp only [Body.edge, onEdge, dif_pos hj]
    rfl

end Reference

section Solution

variable {t : FactTable P.body.func.insts.size}

/-- What stands on an edge out of a node is what the node passes on, if it is reached or not. -/
theorem Fixpoint.out_equiv (ht : P.Fixpoint t)
    (hr : ∀ e s, t.get? e = some s → P.body.Reaches e) (node : P.Node) (way : Branch) :
    ((t.get? (P.body.out node way)).getD .empty).Equiv (P.flowOut node way (t.merged node)) := by
  by_cases hin : ∃ e s, t.get? e = some s ∧ e.target = node ∧ e ≠ .exit
  · obtain ⟨e, s, he, rfl, -⟩ := hin
    obtain ⟨fs, hfs, heq⟩ := ht.settled e s he way
    rw [hfs]
    exact heq
  · have hout : t.get? (P.body.out node way) = none := by
      cases hget : t.get? (P.body.out node way) with
      | none => rfl
      | some s =>
        obtain ⟨e, he, htarget, hexit⟩ := (hr _ s hget).exists_into
        obtain ⟨s', hs'⟩ := ht.exists_of_reaches he
        exact absurd ⟨e, s', hs', htarget, hexit⟩ hin
    have hinto : t.into node = [] := List.eq_nil_iff_forall_not_mem.mpr fun s hs => by
      obtain ⟨e, htarget, hexit, he⟩ := FactTable.mem_into.mp hs
      exact hin ⟨e, s, he, htarget, hexit⟩
    have hempty : t.merged node = .empty := by rw [FactTable.merged, hinto]; rfl
    rw [hout, hempty]
    intro k
    constructor
    · intro hk
      cases hk
    · intro hk
      obtain ⟨f, hf, -⟩ := FactSet.mem_keys.mp hk
      obtain ⟨-, -, -, ⟨g, hg, -⟩, -⟩ := exists_of_mem_flowOut FactSet.tracks_empty hf
      cases hg

theorem merged_equiv_edgesInto {node : P.Node} {facts : P.Edge → FactSet}
    (hr : ∀ e s, t.get? e = some s → P.body.Reaches e)
    (h : ∀ e ∈ P.body.edgesInto node, ((t.get? e).getD .empty).Equiv (facts e)) :
    (t.merged node).Equiv (.merge ((P.body.edgesInto node).map facts)) := by
  refine FactSet.merge_equiv fun k => ⟨?_, ?_⟩
  · rintro ⟨s, hs, hk⟩
    obtain ⟨e, htarget, hexit, he⟩ := FactTable.mem_into.mp hs
    have hmem : e ∈ P.body.edgesInto node := by
      refine Body.mem_edgesInto.mpr ⟨?_, htarget⟩
      rcases (hr e s he).cases with hentry | hedge | rfl
      · exact .inl hentry
      · exact .inr hedge
      · exact absurd rfl hexit
    exact ⟨facts e, List.mem_map_of_mem hmem, (h e hmem k).mp (by rwa [he])⟩
  · rintro ⟨s, hs, hk⟩
    obtain ⟨e, he, rfl⟩ := List.mem_map.mp hs
    have hk' := (h e he k).mpr hk
    cases hget : t.get? e with
    | none =>
      rw [hget] at hk'
      cases hk'
    | some s =>
      rw [hget] at hk'
      obtain ⟨hedge, htarget⟩ := Body.mem_edgesInto.mp he
      refine ⟨s, FactTable.mem_into.mpr ⟨e, htarget, ?_, hget⟩, hk'⟩
      rintro rfl
      rcases hedge with hedge | ⟨i, way, hedge⟩
      · obtain ⟨i, -, hi⟩ := Body.entryEdge?_eq_some_iff.mp hedge
        cases hi
      · cases hedge

theorem Fixpoint.onEdge_equiv (hb : P.body.WellListed) (ht : P.Fixpoint t)
    (hr : ∀ e s, t.get? e = some s → P.body.Reaches e) {facts : P.body.InstIx → FactSet}
    {e : P.Edge} (he : P.body.entryEdge? = some e ∨ ∃ i way, e = P.body.edge i way)
    (h : ∀ i, (∃ way, e = P.body.edge i way) → (t.merged (.inst i)).Equiv (facts i)) :
    ((t.get? e).getD .empty).Equiv (P.onEdge facts e) := by
  rcases he with hentry | ⟨i, way, rfl⟩
  · obtain ⟨i, -, rfl⟩ := Body.entryEdge?_eq_some_iff.mp hentry
    rw [ht.entry _ hentry]
    exact .refl _
  · have hflow : P.onEdge facts (P.body.edge i way) = P.flow i way (facts i) :=
      congrFun (flow_wayTo hb i way) (facts i)
    rw [hflow]
    exact (ht.out_equiv hr (.inst i) way).trans (equiv_flowOut (h i ⟨way, rfl⟩) (.inst i) way)

/-- What enters an instruction in the end is what the computation along the flow of control says. -/
theorem Fixpoint.entering_equiv (hb : P.body.WellListed) (ht : P.Fixpoint t)
    (hr : ∀ e s, t.get? e = some s → P.body.Reaches e) (h : P.body.LoopFree)
    (i : P.body.InstIx) : (t.merged (.inst i)).Equiv (entering h i) := by
  induction i using h.wellFounded.induction with
  | h i ih =>
    rw [entering_eq]
    refine merged_equiv_edgesInto hr fun e he => ?_
    obtain ⟨hedge, htarget⟩ := Body.mem_edgesInto.mp he
    refine ht.onEdge_equiv hb hr hedge fun j hj => ih j ?_
    obtain ⟨way, rfl⟩ := hj
    exact ⟨way, htarget⟩

/-- In a function without loops there is one fixpoint. -/
theorem Fixpoint.equiv_reference (hb : P.body.WellListed) (ht : P.Fixpoint t)
    (hr : ∀ e s, t.get? e = some s → P.body.Reaches e) (h : P.body.LoopFree) {e : P.Edge}
    (he : P.body.entryEdge? = some e ∨ (∃ i way, e = P.body.edge i way) ∨ e = .exit) :
    ((t.get? e).getD .empty).Equiv (reference h e) := by
  have hedge {e : P.Edge} (he : P.body.entryEdge? = some e ∨ ∃ i way, e = P.body.edge i way) :
      ((t.get? e).getD .empty).Equiv (P.onEdge (entering h) e) :=
    ht.onEdge_equiv hb hr he fun i _ => ht.entering_equiv hb hr h i
  rcases he with hentry | ⟨i, way, rfl⟩ | rfl
  · have hequiv := hedge (.inl hentry)
    obtain ⟨i, -, rfl⟩ := Body.entryEdge?_eq_some_iff.mp hentry
    exact hequiv
  · exact hedge (.inr ⟨i, way, rfl⟩)
  · exact (ht.out_equiv hr .ret .taken).trans
      (merged_equiv_edgesInto hr fun e he => hedge (Body.mem_edgesInto.mp he).1)

theorem distinct_entering (h : P.body.LoopFree) (i : P.body.InstIx) : (entering h i).Distinct := by
  rw [entering_eq]
  exact FactSet.distinct_merge _

theorem distinct_reference (h : P.body.LoopFree) (e : P.Edge) : (reference h e).Distinct := by
  cases e with
  | entry i => exact FactSet.distinct_single _
  | flow i node => exact P.distinct_flow (distinct_entering h i) i _
  | exit => exact FactSet.distinct_merge _

/-- The facts in which a run ends, if it converges, are a fixpoint on the edges that are reached. -/
theorem fixpoint_solve (hb : P.body.WellListed) (hc : P.solve.converged = true) :
    P.Fixpoint P.solve.facts ∧ ∀ e s, P.solve.facts.get? e = some s → P.body.Reaches e := by
  cases hentry : P.body.entry? with
  | none =>
    have hnil : P.solve.facts = [] := by simp [solve, hentry]
    rw [hnil]
    refine ⟨⟨fun e he => ?_, fun e s hs => ?_, fun e s hs => ?_⟩, fun e s hs => ?_⟩
    · obtain ⟨i, hi, -⟩ := Body.entryEdge?_eq_some_iff.mp he
      cases hentry.symm.trans hi
    all_goals cases hs
  | some entry =>
    rw [facts_solve hentry]
    obtain ⟨hi, ht⟩ := invariant_final hb hentry hc
    exact ⟨ht, hi.recorded.reaches⟩

theorem isSome_get?_solve (hb : P.body.WellListed) (hc : P.solve.converged = true) (e : P.Edge) :
    (P.solve.facts.get? e).isSome = true ↔ P.body.Reaches e := by
  obtain ⟨ht, hr⟩ := fixpoint_solve hb hc
  rw [Option.isSome_iff_exists]
  exact ⟨fun ⟨s, hs⟩ => hr e s hs, ht.exists_of_reaches⟩

/-- Without loops, a run that converges ends with the facts computed along the flow of control. -/
theorem same_reference (hb : P.body.WellListed) (h : P.body.LoopFree)
    (hc : P.solve.converged = true) :
    (∀ e, (P.solve.facts.get? e).isSome = true ↔ P.body.Reaches e) ∧
      (∀ e s, P.solve.facts.get? e = some s → s.same (reference h e) = true) ∧
      P.solve.exit.same (reference h .exit) = true := by
  obtain ⟨ht, hr⟩ := fixpoint_solve hb hc
  have hsame {e : P.Edge}
      (he : P.body.entryEdge? = some e ∨ (∃ i way, e = P.body.edge i way) ∨ e = .exit) :
      ((P.solve.facts.get? e).getD .empty).same (reference h e) = true := by
    refine (FactSet.same_iff_equiv ?_ (distinct_reference h e)).mpr (ht.equiv_reference hb hr h he)
    cases hget : P.solve.facts.get? e with
    | none => exact FactSet.distinct_empty
    | some s => exact (ht.proper e s hget).distinct
  refine ⟨isSome_get?_solve hb hc, fun e s hs => ?_, hsame (.inr (.inr rfl))⟩
  have hs' := hsame (hr e s hs).cases
  rwa [hs] at hs'

end Solution

theorem anchored_of_loopFree (h : P.body.LoopFree) : P.Anchored := by
  have hsub : P.Drifts ≤ P.body.Follows := fun _ _ hd => hd.2.2
  exact fun i hi => h i (Relation.TransGen.mono hsub i i hi)

end Problem

/-- In a function without loops, a run converges in either order of work, given enough steps. It
then has facts exactly on the edges that are reached, and these facts, as those with which the
function is left, are the ones computed along the flow of control. -/
theorem Problem.solves_loop_free {text : String} {p : Program} {func : FuncId} {f : Func}
    {sites : SiteMap} {lock : TrackedLock} (hp : Program.parse text = .ok p)
    (hf : p.functions[func]? = some f) (hsites : sites.InRange p func f)
    (hlock : lock.value.InRange p) (source : AliasSource) (config : Config) :
    ∃ b, Body.of? f = some b ∧ (b.LoopFree → ∃ k, ∀ n ≥ k, ∀ order, ∃ P,
      of? source { config with maxSteps := n, worklistOrder := order } p func b sites lock =
        some P ∧
      P.solve.converged = true ∧
      (∀ e, (P.solve.facts.get? e).isSome = true ↔ P.body.Reaches e) ∧
      ∃ h : P.body.LoopFree,
        (∀ e s, P.solve.facts.get? e = some s → s.same (reference h e) = true) ∧
        P.solve.exit.same (reference h .exit) = true) := by
  have hloaded := Program.loaded_of_parse hp
  obtain ⟨b, hb⟩ := hloaded.exists_body hf
  refine ⟨b, hb, fun hfree => ?_⟩
  obtain ⟨P, hP⟩ := exists_of? hloaded hf hb source config hsites hlock
  have hlisted := wellListed_of_of? hloaded hf hb hP
  obtain rfl := body_of_of? hP
  have hends (order : SelectionOrder) : ∃ k, ∀ n ≥ k,
      ({ P with maxSteps := n, order := order } : Problem).solve.converged = true :=
    Anchored.exists_converges (P := { P with order := order }) hlisted (anchored_of_loopFree hfree)
  obtain ⟨k, hk⟩ := hends .fifo
  obtain ⟨l, hl⟩ := hends .lifo
  refine ⟨max k l, fun n hn order => ⟨{ P with maxSteps := n, order := order },
    of?_with hP n order, ?_⟩⟩
  have hc : ({ P with maxSteps := n, order := order } : Problem).solve.converged = true := by
    cases order with
    | fifo => exact hk n (by omega)
    | lifo => exact hl n (by omega)
  obtain ⟨hreach, hsame, hexit⟩ := same_reference (P := { P with maxSteps := n, order := order })
    hlisted hfree hc
  exact ⟨hc, hreach, hfree, hsame, hexit⟩

def guardedText : String :=
  r#"["m",["l"],[["k",["x"]],["f",["c"],[["A",[["cond_br","%c","L","J"]]],["L",[["call",null,"k",["@l"]],["br","J"]]],["J",[["cond_br","%c","U","R"]]],["U",[["call",null,"k",["@l"]],["br","R"]]],["R",[["ret"]]]]]]]"#

/-- Acquires the lock under a condition, and releases it under the same condition. -/
def guardedFunc : Func where
  name := "f"
  params := ["c"]
  blocks := #[⟨"A", [0]⟩, ⟨"L", [1, 2]⟩, ⟨"J", [3]⟩, ⟨"U", [4, 5]⟩, ⟨"R", [6]⟩]
  insts := #[⟨none, 0, .condBr (.arg 0) 1 2⟩, ⟨none, 1, .call (.direct 0) [.global 0]⟩,
    ⟨none, 1, .br 2⟩, ⟨none, 2, .condBr (.arg 0) 3 4⟩, ⟨none, 3, .call (.direct 0) [.global 0]⟩,
    ⟨none, 3, .br 4⟩, ⟨none, 4, .ret none⟩]

def guardedProgram : Program := ⟨"m", #["l"], #[⟨"k", ["x"], #[], #[]⟩, guardedFunc]⟩

def guardedBody : Body := ⟨guardedFunc, by decide +kernel⟩

def guardedSites : SiteMap :=
  .ofList [⟨1, .acquire, .global 0, false, 0⟩, ⟨4, .release, .global 0, false, 0⟩]

def guardedLock : TrackedLock := ⟨"@l", ⟨1, .global 0⟩, false⟩

set_option maxRecDepth 1000 in
theorem guarded_run_solved :
    Program.parse guardedText = .ok guardedProgram ∧
    guardedProgram.functions[1]? = some guardedFunc ∧ Body.of? guardedFunc = some guardedBody ∧
    guardedSites.InRange guardedProgram 1 guardedFunc ∧
    guardedLock.value.InRange guardedProgram ∧ guardedBody.LoopFree ∧
    ∃ k, ∀ n ≥ k, ∀ order, ∃ P, Problem.of? .names
        { Config.default with maxSteps := n, worklistOrder := order } guardedProgram 1 guardedBody
        guardedSites guardedLock = some P ∧
      P.solve.converged = true ∧
      (∀ e, (P.solve.facts.get? e).isSome = true ↔ P.body.Reaches e) ∧
      ∃ h : P.body.LoopFree,
        (∀ e s, P.solve.facts.get? e = some s → s.same (Problem.reference h e) = true) ∧
        P.solve.exit.same (Problem.reference h .exit) = true := by
  have hparse : Program.parse guardedText = .ok guardedProgram :=
    (Program.parse_ofList _).trans (by decide +kernel)
  have hlock : guardedLock.value.InRange guardedProgram := ⟨guardedFunc, rfl, rfl⟩
  have hentries : ∀ entry ∈ guardedSites.entries, entry.1 < guardedFunc.insts.size ∧
      ∀ site ∈ entry.2, site.lock = .global 0 := by decide +kernel
  have hsites : guardedSites.InRange guardedProgram 1 guardedFunc := fun entry hentry =>
    ⟨(hentries entry hentry).1, fun site hsite => by
      rw [(hentries entry hentry).2 site hsite]
      exact hlock⟩
  have hrank : ∀ i j : Fin 7, ∀ way ∈ [Branch.taken, .notTaken],
      (guardedBody.edge i way).target = .inst j → i.val < j.val := by decide +kernel
  have hfree : guardedBody.LoopFree := acyclic_of_rank Fin.val fun i j ⟨way, ht⟩ =>
    hrank i j way (by cases way <;> simp) ht
  obtain ⟨b, hb, hsolved⟩ := Problem.solves_loop_free hparse rfl hsites hlock .names .default
  obtain rfl : guardedBody = b := Option.some.inj hb
  exact ⟨hparse, rfl, rfl, hsites, hlock, hfree, hsolved hfree⟩

end LockUsage
