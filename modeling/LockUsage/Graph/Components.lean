/-! The strongly connected components of a directed graph, by one depth-first search. Nodes are
numbered as they are entered. The root of a node is the least number of a node that it is known to
lead back to; a node that keeps its own number as its root is the first one of its component, and
the others of the component wait when it is left. -/

namespace LockUsage

/-- The nodes that each node leads to. -/
abbrev Adjacency (n : Nat) := Vector (List (Fin n)) n

/-- How far a search has come with a node. -/
inductive Mark where
  | unseen
  /-- Some nodes of its component may not be known. -/
  | active (root : Nat)
  | done
deriving DecidableEq

structure ComponentSearch (n : Nat) where
  /-- The number of the next node. -/
  next : Nat
  marks : Vector Mark n
  /-- The nodes that were left before their component was complete, the last one first. -/
  waiting : List (Fin n)
  /-- The components that are complete, the last one first. -/
  found : List (List (Fin n))

namespace ComponentSearch

variable {n : Nat}

def start : ComponentSearch n := ⟨1, Vector.replicate n .unseen, [], []⟩

def mark (s : ComponentSearch n) (v : Fin n) : Mark := s.marks.get v

def setMark (s : ComponentSearch n) (v : Fin n) (mark : Mark) : ComponentSearch n :=
  { s with marks := s.marks.set v.val mark v.isLt }

/-- Numbers a node. -/
def enter (s : ComponentSearch n) (v : Fin n) : ComponentSearch n :=
  { s.setMark v (.active s.next) with next := s.next + 1 }

/-- Lowers the root of a node to that of one that it leads to. -/
def lower (s : ComponentSearch n) (v w : Fin n) : ComponentSearch n :=
  match s.mark v, s.mark w with
  | .active root, .active other => if other < root then s.setMark v (.active other) else s
  | _, _ => s

/-- Whether the root of a node is a number or comes after it. Complete nodes come after all. -/
def isFrom (s : ComponentSearch n) (number : Nat) (v : Fin n) : Bool :=
  match s.mark v with
  | .unseen => false
  | .active root => number ≤ root
  | .done => true

/-- Completes the component of a node with the nodes that wait since the node was numbered, and
frees their numbers. -/
def complete (s : ComponentSearch n) (v : Fin n) (number : Nat) : ComponentSearch n :=
  let members := v :: s.waiting.takeWhile (s.isFrom number)
  { next := s.next - members.length
    marks := members.foldl (fun marks w => marks.set w.val .done w.isLt) s.marks
    waiting := s.waiting.dropWhile (s.isFrom number)
    found := members :: s.found }

/-- Leaves a node: it completes its component if it leads back to no node before it. -/
def leave (s : ComponentSearch n) (v : Fin n) (number : Nat) : ComponentSearch n :=
  if s.mark v = .active number then s.complete v number else { s with waiting := v :: s.waiting }

end ComponentSearch

namespace Adjacency

variable {n : Nat}

/-- Enters a node, follows all its edges and leaves it. The depth is at most the number of nodes
that were not seen before. -/
def visit (g : Adjacency n) : Nat → ComponentSearch n → Fin n → ComponentSearch n
  | 0, s, _ => s
  | depth + 1, s, v =>
    let scanned := (g.get v).foldl (fun s w =>
      (if s.mark w = .unseen then g.visit depth s w else s).lower v w) (s.enter v)
    scanned.leave v s.next

/-- The search from every node that no search before has seen. -/
def search (g : Adjacency n) : ComponentSearch n :=
  (List.finRange n).foldl (fun s v => if s.mark v = .unseen then g.visit n s v else s) .start

def components (g : Adjacency n) : List (List (Fin n)) := g.search.found

/-- Whether edges lead from the nodes of a component back to them. -/
def isCyclic (g : Adjacency n) : List (Fin n) → Bool
  | [] => false
  | v :: others => !others.isEmpty || (g.get v).contains v

/-- The nodes that lie on a cycle. -/
def cyclic (g : Adjacency n) : List (Fin n) := (g.components.filter g.isCyclic).flatten

end Adjacency

end LockUsage
