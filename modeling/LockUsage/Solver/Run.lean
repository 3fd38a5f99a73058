import LockUsage.Solver.Problem

/-! Solving a problem. Every control-flow edge carries facts. The nodes at the end of edges whose
facts changed are pending, and each step takes up one of them. A run ends when nothing is pending,
or gives up after a number of steps. Anomalies are read off the facts that are there in the end. -/

namespace LockUsage

/-- The facts on the edges that have any, in the order in which the edges got them. -/
abbrev FactTable (n : Nat) := List (Edge n × FactSet)

namespace FactTable

def get? (t : FactTable n) (edge : Edge n) : Option FactSet := t.lookup edge

/-- Replaces the facts of an edge where they stand, or adds them at the end. -/
def put (edge : Edge n) (facts : FactSet) : FactTable n → FactTable n
  | [] => [(edge, facts)]
  | (e, old) :: rest => if e = edge then (edge, facts) :: rest else (e, old) :: put edge facts rest

end FactTable

/-- The grouped union of several sets of facts. -/
def FactSet.merge (sets : List FactSet) : FactSet := (sets.foldl FactSet.union .empty).group

structure SolverState (n : Nat) where
  edges : EdgeLog n
  facts : FactTable n
  work : Worklist (Node n)
  /-- The branches whose guards were used. -/
  guarded : List (Fin n)
  warnings : List String

namespace Problem

variable (P : Problem)

abbrev State : Type := SolverState P.body.func.insts.size

/-- The facts that enter an instruction: the merged ones if several edges do, none if no edge that
enters has facts. -/
def input (s : P.State) (i : P.body.InstIx) : P.State × Option FactSet :=
  let (edges, entering) := s.edges.inEdges i
  let found := entering.filterMap s.facts.get?
  ({ s with edges },
    if entering.length > 1 then (if found.isEmpty then none else some (.merge found))
    else found.head?)

/-- Puts facts on an edge and makes its end pending, if they differ from what is there. -/
def propagate (s : P.State) (edge : P.Edge) (facts : FactSet) : P.State :=
  let changed := match s.facts.get? edge with
    | some old => facts.differsFrom old
    | none => true
  if changed then
    { s with
      facts := s.facts.put edge facts
      work := if edge = .exit then s.work else (s.work.push edge.target).1 }
  else s

/-- Notes that the guard of a branch is used, and warns the first time. -/
def useGuard (s : P.State) (i : P.body.InstIx) : P.State :=
  if i ∈ s.guarded then s
  else
    { s with
      guarded := i :: s.guarded
      warnings := s.warnings ++ (P.guard i).2.toList }

/-- Passes facts on along one way out of an instruction. -/
def send (s : P.State) (i : P.body.InstIx) (way : Branch) (facts : FactSet) : P.State :=
  P.propagate { s with edges := s.edges.ask i way } (P.body.edge i way) facts

def stepInst (s : P.State) (i : P.body.InstIx) : P.State :=
  match P.input s i with
  | (s, none) =>
    { s with
      warnings := s.warnings ++
        [s!"`{P.body.func.name}`: {instText i.val} has no incoming facts"] }
  | (s, some facts) =>
    let facts := P.transfer i facts
    if P.body.isConditional i then
      let s := P.send (P.useGuard s i) i .taken (P.branch i .taken facts)
      P.send s i .notTaken (P.branch i .notTaken facts)
    else P.send s i .taken facts

/-- At the return node the facts of all leaving instructions meet. -/
def stepReturn (s : P.State) : P.State :=
  P.propagate s .exit (.merge (s.edges.returnEdges.filterMap s.facts.get?))

def step (s : P.State) : P.Node → P.State
  | .inst i => P.stepInst s i
  | .ret => P.stepReturn s

/-- Takes up pending nodes, at most so many. The result says how many steps were left, and whether
nothing is pending any more. When no step is left, the next pending node is dropped. -/
def iterate : Nat → P.State → P.State × Nat × Bool
  | left, s =>
    match s.work.pop? with
    | none => (s, left, true)
    | some (node, work) =>
      match left with
      | 0 => ({ s with work }, 0, false)
      | left + 1 => iterate left (P.step { s with work } node)

/-- Nothing is known but that control enters. -/
def start (entry : P.body.InstIx) : P.State where
  edges := .empty
  facts := [(.entry entry, .single .initial)]
  work := ((Worklist.empty P.order).push (.inst entry)).1
  guarded := []
  warnings := []

def anomaly (i : P.body.InstIx) (kind : DiagnosticKind) : Diagnostic :=
  ⟨kind, P.body.func.name, P.lock, some i.val⟩

/-- The anomalies of the operation at an instruction, over the facts that enter it. -/
def anomaliesAt (i : P.body.InstIx) (facts : FactSet) : List Diagnostic :=
  match P.op i with
  | none => []
  | some op => facts.facts.filterMap fun f => (P.apply op f).2.map (P.anomaly i)

/-- The anomalies at all lock operations. -/
def anomalies : P.State → List P.body.InstIx → List Diagnostic
  | _, [] => []
  | s, i :: rest =>
    let (s, facts) := P.input s i
    (match facts with
      | some facts => P.anomaliesAt i facts
      | none => []) ++ anomalies s rest

structure Result where
  facts : FactTable P.body.func.insts.size
  steps : Nat
  converged : Bool
  log : Log

namespace Result

/-- The facts with which the function is left. -/
def exit {P : Problem} (r : P.Result) : FactSet := (r.facts.get? .exit).getD .empty

def holdsAtExit {P : Problem} (r : P.Result) (name : String) : Bool :=
  r.exit.facts.any fun f => f.locks.holds name

end Result

/-- The outcome of a run. A declaration has no facts. -/
def solve : P.Result :=
  match P.body.entry? with
  | none => ⟨[], 0, true, .empty⟩
  | some entry =>
    let (s, left, converged) := P.iterate P.maxSteps (P.start entry)
    let warnings := s.warnings ++
      if converged then []
      else [s!"`{P.body.func.name}`: gave up on {P.lock} after {P.maxSteps} steps"]
    ⟨s.facts, P.maxSteps - left, converged, ⟨(P.anomalies s P.sites).eraseDups, warnings⟩⟩

end Problem

end LockUsage
