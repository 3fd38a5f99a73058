import LockUsage.Proofs.Redirection
import LockUsage.Solver.Run

/-! A run of the solver does not depend on whom the calls of a function go to, given what they do to
the lock: each step of the run on the redirected function is that of the other run, with the
instructions in the same places. -/

namespace LockUsage

section Cast

/-! The number of instructions is the same, though not by definition. -/

variable {n m : Nat} (h : n = m)

def Node.cast : Node n → Node m
  | .inst i => .inst (i.cast h)
  | .ret => .ret

@[simp] theorem Node.cast_rfl : Node.cast (rfl : n = n) = id := by
  funext node
  cases node <;> rfl

def Edge.cast : Edge n → Edge m
  | .entry i => .entry (i.cast h)
  | .flow i node => .flow (i.cast h) (node.cast h)
  | .exit => .exit

def EdgeLog.cast (log : EdgeLog n) : EdgeLog m := ⟨log.asked.map (Prod.map (Fin.cast h) id)⟩

def FactTable.cast (t : FactTable n) : FactTable m := t.map (Prod.map (Edge.cast h) id)

def Worklist.cast (w : Worklist (Node n)) : Worklist (Node m) where
  order := w.order
  queue := w.queue.map (Node.cast h)
  queued := w.queued.map (Node.cast h)
  nodup := by
    subst h
    simpa using w.nodup
  perm := w.perm.map _

def SolverState.cast (s : SolverState n) : SolverState m where
  edges := s.edges.cast h
  facts := FactTable.cast h s.facts
  work := s.work.cast h
  guarded := s.guarded.map (Fin.cast h)
  warnings := s.warnings

@[simp] theorem Edge.cast_rfl : Edge.cast (rfl : n = n) = id := by
  funext edge
  cases edge with
  | flow i node => exact congrArg (Edge.flow i) (congrFun Node.cast_rfl node)
  | _ => rfl

@[simp] theorem FactTable.cast_rfl : FactTable.cast (rfl : n = n) = id := by
  funext t
  simp [FactTable.cast]

@[simp] theorem Worklist.cast_rfl : Worklist.cast (rfl : n = n) = id := by
  funext w
  simp [Worklist.cast]

theorem FactTable.get?_cast (t : FactTable n) (edge : Edge n) :
    (FactTable.cast h t).get? (edge.cast h) = t.get? edge := by
  subst h
  simp

theorem FactTable.put_cast (edge : Edge n) (facts : FactSet) (t : FactTable n) :
    FactTable.put (edge.cast h) facts (FactTable.cast h t) =
      FactTable.cast h (FactTable.put edge facts t) := by
  subst h
  simp

theorem Worklist.push_cast (w : Worklist (Node n)) (node : Node n) :
    ((w.cast h).push (node.cast h)).1 = (w.push node).1.cast h := by
  subst h
  simp

theorem Worklist.pop?_cast (w : Worklist (Node n)) :
    (w.cast h).pop? = w.pop?.map (Prod.map (Node.cast h) (Worklist.cast h)) := by
  subst h
  simp

theorem Edge.target_cast (edge : Edge n) : (edge.cast h).target = edge.target.cast h := by
  cases edge <;> rfl

theorem Edge.cast_eq_exit {edge : Edge n} : edge.cast h = .exit ↔ edge = .exit := by
  cases edge <;> simp [Edge.cast]

theorem filter_target_cast (i : Fin n) (edges : List (Edge n)) :
    ((edges.map (Edge.cast h)).filter fun e => e.target == .inst (i.cast h)) =
      (edges.filter fun e => e.target == .inst i).map (Edge.cast h) := by
  subst h
  simp

theorem entering_cast (entry : Option (Fin n)) (i : Fin n) :
    (((entry.map (Fin.cast h)).map .entry).filter fun e : Edge m =>
        e.target == .inst (i.cast h)).toList =
      ((entry.map .entry).filter fun e : Edge n => e.target == .inst i).toList.map
        (Edge.cast h) := by
  subst h
  simp

theorem eraseDups_map_cast (edges : List (Edge n)) :
    (edges.map (Edge.cast h)).eraseDups = edges.eraseDups.map (Edge.cast h) := by
  subst h
  simp

theorem mem_asked_cast {log : EdgeLog n} {i : Fin n} {way : Branch} :
    (i.cast h, way) ∈ (log.cast h).asked ↔ (i, way) ∈ log.asked := by
  subst h
  simp [EdgeLog.cast]

end Cast

section Edges

variable (r : InstId → FuncId → FuncId) {b : Body}

theorem Body.headNode_redirect (bb : BlockId) :
    (b.redirect r).headNode bb = (b.headNode bb).cast (b.size_redirect r) := by
  rw [headNode, headNode]
  split_ifs with h
  · rw [first?_redirect]
    cases b.first? ⟨bb, h⟩ <;> rfl
  · rfl

theorem Body.follow_lift (i : b.InstIx) (way : Branch) :
    (b.redirect r).follow (b.lift r i) way = (b.follow i way).cast (b.size_redirect r) := by
  rw [follow, follow, kind_lift, next?_lift]
  cases b.kind i with
  | condBr | br | switch => exact headNode_redirect r _
  | ret | unreachable => rfl
  | call | cmp | other => cases b.next? i <;> rfl

theorem Body.edge_lift (i : b.InstIx) (way : Branch) :
    (b.redirect r).edge (b.lift r i) way = (b.edge i way).cast (b.size_redirect r) := by
  rw [edge, edge, way_lift, follow_lift]
  rfl

namespace EdgeLog

variable (log : EdgeLog b.func.insts.size) (i : b.InstIx)

theorem ask_lift (way : Branch) :
    (log.cast (b.size_redirect r)).ask (b := b.redirect r) (b.lift r i) way =
      (log.ask i way).cast (b.size_redirect r) := by
  rw [ask, ask, Body.way_lift]
  have hmem : (b.lift r i, b.way i way) ∈ (log.cast (b.size_redirect r)).asked ↔
      (i, b.way i way) ∈ log.asked := mem_asked_cast _
  by_cases h : (i, b.way i way) ∈ log.asked
  · rw [if_pos h, if_pos (hmem.mpr h)]
  · rw [if_neg h, if_neg (mt hmem.mp h)]
    simp [EdgeLog.cast, Body.lift]

theorem edges_cast : (log.cast (b.size_redirect r)).edges (b := b.redirect r) =
    (log.edges (b := b)).map (Edge.cast (b.size_redirect r)) := by
  simp only [edges, EdgeLog.cast, List.map_map]
  exact List.map_congr_left fun asked _ => Body.edge_lift r asked.1 asked.2

theorem returnEdges_cast : (log.cast (b.size_redirect r)).returnEdges (b := b.redirect r) =
    (log.returnEdges (b := b)).map (Edge.cast (b.size_redirect r)) := by
  simp only [returnEdges, EdgeLog.cast, List.filter_map, List.map_map]
  refine (congrArg (List.map _) (List.filter_congr fun asked _ => ?_)).trans
    (List.map_congr_left fun asked _ => Body.edge_lift r asked.1 asked.2)
  exact Body.leaves_lift r asked.1

theorem foldl_ask_lift (terminators : List b.InstIx) :
    (terminators.map (b.lift r)).foldl
        (fun log t => (log.ask (b := b.redirect r) t .taken).ask t .notTaken)
        (log.cast (b.size_redirect r)) =
      (terminators.foldl (fun log t => (log.ask t .taken).ask t .notTaken) log).cast
        (b.size_redirect r) := by
  induction terminators generalizing log with
  | nil => rfl
  | cons t terminators ih => rw [List.map_cons, List.foldl_cons, ask_lift, ask_lift, ih]; rfl

theorem entryEdge_lift :
    ((b.redirect r).entryEdge?.filter fun e => e.target == .inst (b.lift r i)).toList =
      ((b.entryEdge?.filter fun e => e.target == .inst i).toList).map
        (Edge.cast (b.size_redirect r)) := by
  rw [Body.entryEdge?, Body.entryEdge?, Body.entry?_redirect]
  exact entering_cast _ _ i

theorem inEdges_lift :
    (log.cast (b.size_redirect r)).inEdges (b := b.redirect r) (b.lift r i) =
      ((log.inEdges i).1.cast (b.size_redirect r),
        (log.inEdges i).2.map (Edge.cast (b.size_redirect r))) := by
  simp only [inEdges, Body.prev?_lift]
  cases b.prev? i with
  | some p => simp [ask_lift, Body.edge_lift]
  | none =>
    have hasked := foldl_ask_lift r log (b.predecessors (b.blockOf i))
    simp only [Option.map_none, Body.blockOf_lift, Body.predecessors_redirect]
    refine Prod.ext hasked ((congrArg List.eraseDups ?_).trans (eraseDups_map_cast _ _))
    rw [List.map_append]
    refine congrArg₂ (· ++ ·) (entryEdge_lift r i) (Eq.trans ?_ (filter_target_cast _ i _))
    rw [List.map_append]
    refine congrArg (List.filter _) (congrArg₂ (· ++ ·) ?_ ?_)
    · rw [List.flatMap_map, List.map_flatMap]
      exact List.flatMap_congr fun t _ => by simp [Body.edge_lift]
    · exact (congrArg EdgeLog.edges hasked).trans (edges_cast r _)

end EdgeLog

end Edges

namespace Problem

variable (r : InstId → FuncId → FuncId)

/-- The same problem for the redirected function. -/
abbrev redirect (P : Problem) : Problem where
  body := P.body.redirect r
  lock := P.lock
  unlockWrapper := P.unlockWrapper
  op i := P.op (i.cast (P.body.size_redirect r).symm)
  guard i := P.guard (i.cast (P.body.size_redirect r).symm)
  sites := P.sites.map (P.body.lift r)
  filter := P.filter
  order := P.order
  maxSteps := P.maxSteps

variable {P : Problem}

/-- The state with instructions in the same places. -/
def lift (s : P.State) : (P.redirect r).State := s.cast (P.body.size_redirect r)

variable (s : P.State) (i : P.body.InstIx)

theorem filterMap_get?_lift (edges : List P.Edge) :
    (edges.map (Edge.cast (P.body.size_redirect r))).filterMap (lift r s).facts.get? =
      edges.filterMap s.facts.get? := by
  rw [List.filterMap_map]
  exact List.filterMap_congr fun edge _ => FactTable.get?_cast _ _ _

theorem input_lift : (P.redirect r).input (lift r s) (P.body.lift r i) =
    (lift r (P.input s i).1, (P.input s i).2) := by
  have hedges : (lift r s).edges.inEdges (P.body.lift r i) =
      ((s.edges.inEdges i).1.cast (P.body.size_redirect r),
        (s.edges.inEdges i).2.map (Edge.cast (P.body.size_redirect r))) :=
    EdgeLog.inEdges_lift r s.edges i
  have hfound := filterMap_get?_lift r s
  simp only [input, hedges, hfound, List.length_map]
  rfl

theorem propagate_lift (edge : P.Edge) (facts : FactSet) :
    (P.redirect r).propagate (lift r s) (edge.cast (P.body.size_redirect r)) facts =
      lift r (P.propagate s edge facts) := by
  have hget : (lift r s).facts.get? (edge.cast (P.body.size_redirect r)) = s.facts.get? edge :=
    FactTable.get?_cast _ _ _
  have hput : (lift r s).facts.put (edge.cast (P.body.size_redirect r)) facts =
      FactTable.cast (P.body.size_redirect r) (s.facts.put edge facts) := FactTable.put_cast _ _ _ _
  have hpush : ((lift r s).work.push (edge.cast (P.body.size_redirect r)).target).1 =
      (s.work.push edge.target).1.cast (P.body.size_redirect r) := by
    rw [Edge.target_cast]
    exact Worklist.push_cast _ _ _
  simp only [propagate, hget, hput, hpush, Edge.cast_eq_exit]
  split_ifs <;> rfl

theorem useGuard_lift : (P.redirect r).useGuard (lift r s) (P.body.lift r i) =
    lift r (P.useGuard s i) := by
  have hmem : P.body.lift r i ∈ (lift r s).guarded ↔ i ∈ s.guarded :=
    List.mem_map_of_injective (Body.lift_injective r)
  simp only [useGuard, hmem]
  split_ifs <;> rfl

theorem send_lift (way : Branch) (facts : FactSet) :
    (P.redirect r).send (lift r s) (P.body.lift r i) way facts = lift r (P.send s i way facts) := by
  have hask : (lift r s).edges.ask (P.body.lift r i) way =
      (s.edges.ask i way).cast (P.body.size_redirect r) := EdgeLog.ask_lift r s.edges i way
  rw [send, send, Body.edge_lift, hask]
  exact propagate_lift r { s with edges := s.edges.ask i way } (P.body.edge i way) facts

theorem stepInst_lift : (P.redirect r).stepInst (lift r s) (P.body.lift r i) =
    lift r (P.stepInst s i) := by
  have htransfer (facts : FactSet) :
      (P.redirect r).transfer (P.body.lift r i) facts = P.transfer i facts := rfl
  have hbranch (way : Branch) (facts : FactSet) :
      (P.redirect r).branch (P.body.lift r i) way facts = P.branch i way facts := rfl
  rw [stepInst, stepInst, input_lift]
  obtain ⟨s', facts⟩ := P.input s i
  cases facts with
  | none => rfl
  | some facts =>
    simp only [Body.isConditional_lift, htransfer]
    split_ifs
    · rw [hbranch, hbranch, useGuard_lift, send_lift, send_lift]
    · exact send_lift r s' i .taken _

theorem stepReturn_lift : (P.redirect r).stepReturn (lift r s) = lift r (P.stepReturn s) := by
  have hreturn : (lift r s).edges.returnEdges (b := P.body.redirect r) =
      (s.edges.returnEdges (b := P.body)).map (Edge.cast (P.body.size_redirect r)) :=
    EdgeLog.returnEdges_cast r s.edges
  rw [stepReturn, stepReturn, hreturn, filterMap_get?_lift]
  exact propagate_lift r s .exit _

theorem step_lift (node : P.Node) : (P.redirect r).step (lift r s)
    (node.cast (P.body.size_redirect r)) = lift r (P.step s node) := by
  cases node with
  | inst i => exact stepInst_lift r s i
  | ret => exact stepReturn_lift r s

theorem pop?_lift : (lift r s).work.pop? = s.work.pop?.map
    (Prod.map (Node.cast (P.body.size_redirect r)) (Worklist.cast (P.body.size_redirect r))) :=
  Worklist.pop?_cast _ _

theorem iterate_lift (left : Nat) : (P.redirect r).iterate left (lift r s) =
    (lift r (P.iterate left s).1, (P.iterate left s).2) := by
  induction left generalizing s with
  | zero =>
    rw [iterate, iterate, pop?_lift]
    cases s.work.pop? <;> rfl
  | succ left ih =>
    rw [iterate, iterate, pop?_lift]
    cases s.work.pop? with
    | none => rfl
    | some popped =>
      have hstep := step_lift r { s with work := popped.2 } popped.1
      exact (congrArg ((P.redirect r).iterate left) hstep).trans (ih _)

theorem anomalies_lift (sites : List P.body.InstIx) :
    (P.redirect r).anomalies (lift r s) (sites.map (P.body.lift r)) = P.anomalies s sites := by
  induction sites generalizing s with
  | nil => rfl
  | cons i sites ih =>
    have hanomalies (facts : FactSet) :
        (P.redirect r).anomaliesAt (P.body.lift r i) facts = P.anomaliesAt i facts := rfl
    rw [List.map_cons, anomalies, anomalies, input_lift]
    obtain ⟨s', facts⟩ := P.input s i
    simp only [ih, hanomalies]

/-- What a run finds of a lock does not depend on whom calls go to. -/
theorem solve_redirect : (P.redirect r).solve.converged = P.solve.converged ∧
    (P.redirect r).solve.log = P.solve.log ∧
    ∀ name, (P.redirect r).solve.holdsAtExit name = P.solve.holdsAtExit name := by
  rw [solve, solve, Body.entry?_redirect]
  cases P.body.entry? with
  | none => exact ⟨rfl, rfl, fun _ => rfl⟩
  | some entry =>
    have hstart : (P.redirect r).start (P.body.lift r entry) = lift r (P.start entry) := rfl
    have hrun := iterate_lift r (P.start entry) P.maxSteps
    simp only [Option.map_some, hstart, hrun]
    obtain ⟨s, left, converged⟩ := P.iterate P.maxSteps (P.start entry)
    refine ⟨trivial, ?_, fun name => ?_⟩
    · rw [anomalies_lift]
      rfl
    · have hexit : (lift r s).facts.get? .exit = s.facts.get? .exit :=
        FactTable.get?_cast (P.body.size_redirect r) s.facts .exit
      rw [Result.holdsAtExit, Result.holdsAtExit, Result.exit, Result.exit, hexit]

end Problem

end LockUsage
