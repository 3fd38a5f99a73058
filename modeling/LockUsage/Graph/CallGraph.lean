import LockUsage.Graph.Components
import LockUsage.Program.Basic
import LockUsage.Text.Quoted

/-! The call graph: which function calls which one directly, and where, and which functions lie on
a cycle of calls. -/

namespace LockUsage

/-- The calls of one function to another, in program order. -/
structure CallEdge where
  caller : FuncId
  callee : FuncId
  sites : List InstId
deriving DecidableEq

structure CallGraph where
  /-- The number of functions. -/
  size : Nat
  /-- One edge a pair of functions, in the order of the first call. -/
  edges : List CallEdge
  /-- The functions on cycles. -/
  recursive : List FuncId

namespace CallGraph

/-- Adds a call to the edges. -/
def addCall (edges : List CallEdge) (caller callee : FuncId) (site : InstId) : List CallEdge :=
  match edges with
  | [] => [⟨caller, callee, [site]⟩]
  | e :: rest =>
    if e.caller = caller ∧ e.callee = callee then { e with sites := e.sites ++ [site] } :: rest
    else e :: addCall rest caller callee site

/-- The direct calls of a function, as far as their targets are known functions. -/
def directCalls? (p : Program) (caller : FuncId) : Option (List (FuncId × InstId)) := do
  let f ← p.functions[caller]?
  let calls ← f.callSites?
  let direct := calls.filterMap fun site =>
    match site.callee with
    | .direct callee => some (callee, site.inst)
    | .indirect _ => none
  if direct.all fun call => call.1 < p.functions.size then some direct else none

/-- Puts the callee of an edge in front of the others of its caller. -/
def addTarget {size : Nat} (targets : Adjacency size) (e : CallEdge) : Adjacency size :=
  if h : e.caller < size ∧ e.callee < size then
    targets.set e.caller (⟨e.callee, h.2⟩ :: targets.get ⟨e.caller, h.1⟩) h.1
  else targets

def adjacency (size : Nat) (edges : List CallEdge) : Adjacency size :=
  edges.foldl addTarget (Vector.replicate size [])

/-- The call graph of a program. There is none if an id is out of range. -/
def of? (p : Program) : Option CallGraph := do
  let calls ← p.defined.mapM fun caller =>
    (directCalls? p caller).map fun direct => direct.map fun call => (caller, call)
  let edges := calls.flatten.foldl (fun edges (caller, callee, site) =>
    addCall edges caller callee site) []
  return ⟨p.functions.size, edges, (adjacency p.functions.size edges).cyclic.map (·.val)⟩

/-- The functions that a function calls directly, by increasing id. -/
def callees (g : CallGraph) (caller : FuncId) : List FuncId :=
  let called := (g.edges.filter fun e => e.caller == caller).map (·.callee)
  (List.range g.size).filter called.contains

/-- Whether the function lies on a cycle of calls, be it of one function. -/
def isRecursive (g : CallGraph) (f : FuncId) : Bool := g.recursive.contains f

/-- Escapes what would end a label. -/
def labelChar (c : Char) : String := if c = '"' ∨ c = '\\' then "\\" ++ c.toString else c.toString

def label (s : String) : String := "\"" ++ String.join (s.toList.map labelChar) ++ "\""

def nodeLine (id : FuncId) (f : Func) : String :=
  s!"    {id} [ label = " ++ label (Text.quoted f.name) ++ " ]\n"

def edgeLine (e : CallEdge) : String :=
  s!"    {e.caller} -> {e.callee} [ label = " ++ label (toString e.sites.length) ++ " ]\n"

/-- The call graph as a drawing in the DOT language: one node a function, labelled with its quoted
name, and one edge a pair of caller and callee, labelled with the number of calls. -/
def dot (p : Program) (g : CallGraph) : String :=
  "digraph G \x7b\n" ++
    String.join (p.functions.toList.zipIdx.map fun (f, id) => nodeLine id f) ++
    String.join (g.edges.map edgeLine) ++ "\n\x7d"

end CallGraph

end LockUsage
