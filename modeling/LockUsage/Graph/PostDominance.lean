import LockUsage.Graph.BlockGraph

/-! Post-dominance. A block post-dominates another one if every path from there to the exit passes
through it, and there is such a path. Each block has a candidate for the nearest one, and sweeps
over the blocks improve the candidates until one changes none. -/

namespace LockUsage

namespace Body

/-- The neighbours of each block. -/
def graph (b : Body) : BlockGraph b.func.blocks.size := Vector.ofFn b.neighbours

end Body

namespace BlockGraph

/-- What is left to do on a walk: to enter a block, or to leave it for good. -/
inductive Task (n : Nat) where
  | enter (bb : Fin n)
  | leave (bb : Fin n)
deriving DecidableEq

section

variable (g : BlockGraph n)

/-- The blocks that lead to a node. -/
def sources (node : BlockNode n) : List (Fin n) :=
  (List.finRange n).filter fun bb => (g.get bb).contains node

/-- Walks against the edges, depth first, and gives the blocks in the order in which they are left.
-/
def leaveFrom : Nat → List (Fin n) → List (Task n) → List (Fin n)
  | fuel + 1, entered, .enter bb :: tasks =>
    if bb ∈ entered then leaveFrom fuel entered tasks
    else
      leaveFrom fuel (bb :: entered) ((g.sources (.block bb)).map .enter ++ .leave bb :: tasks)
  | fuel + 1, entered, .leave bb :: tasks => bb :: leaveFrom fuel entered tasks
  | _, _, _ => []

/-- The blocks with a path to the exit, in the order in which a walk from the exit leaves them. Each
block makes no more tasks than there are blocks, and one to leave it. -/
def leavingOrder : List (Fin n) :=
  g.leaveFrom (n * (n + 2)) [] ((g.sources .exit).map .enter)

end

/-- The place of each block in an order. -/
abbrev Ranks (n : Nat) := Vector Nat n

def Ranks.ofOrder (order : List (Fin n)) : Ranks n := Vector.ofFn order.idxOf

/-- The place of a node. The exit comes behind all blocks. -/
def Ranks.rank (ranks : Ranks n) : BlockNode n → Nat
  | .block bb => ranks.get bb
  | .exit => n

/-- For each block the node that all paths from it seem to pass next. -/
abbrev Candidates (n : Nat) := Vector (Option (BlockNode n)) n

namespace Candidates

variable (c : Candidates n)

/-- Whether the paths from a node on are known. -/
def has : BlockNode n → Bool
  | .block bb => (c.get bb).isSome
  | .exit => true

/-- Gives a block its candidate. -/
def put (bb : Fin n) (node : BlockNode n) : Candidates n := c.set bb.val (some node) bb.isLt

/-- The node further on that a node has as its candidate. -/
def above : BlockNode n → BlockNode n
  | .block bb => (c.get bb).getD .exit
  | .exit => .exit

/-- Climbs from two nodes, always from the one behind, until both come to the same node. -/
def meetWithin (ranks : Ranks n) : Nat → BlockNode n → BlockNode n → BlockNode n
  | 0, x, _ => x
  | fuel + 1, x, y =>
    if x = y then x
    else if ranks.rank x < ranks.rank y then meetWithin ranks fuel (c.above x) y
    else meetWithin ranks fuel x (c.above y)

/-- Where two nodes meet. Each climb leads to a later place. -/
def meet (ranks : Ranks n) : BlockNode n → BlockNode n → BlockNode n :=
  c.meetWithin ranks (2 * n + 1)

end Candidates

variable (g : BlockGraph n) (ranks : Ranks n)

/-- Where the neighbours of a block, their candidates and theirs in turn meet, as far as the paths from them are known. -/
def candidate? (c : Candidates n) (bb : Fin n) : Option (BlockNode n) :=
  match (g.get bb).filter c.has with
  | [] => none
  | first :: rest => some (rest.foldl (c.meet ranks) first)

/-- Moves the candidate of a block to where its neighbours meet. -/
def improve (bb : Fin n) (c : Candidates n) : Candidates n :=
  match g.candidate? ranks c bb with
  | some node => c.put bb node
  | none => c

/-- Sweeps over the blocks in an order, the last one first, until nothing changes, at most so many
times. -/
def improveWithin (order : List (Fin n)) : Nat → Candidates n → Candidates n
  | 0, c => c
  | rounds + 1, c =>
    let next := order.foldr (g.improve ranks) c
    if next = c then c else improveWithin order rounds next

/-- The nearest node that all paths from each block to the exit pass. Each sweep but the last moves
a candidate to a later place. -/
def nearest : Candidates n :=
  let order := g.leavingOrder
  g.improveWithin (.ofOrder order) order (n * n + 1) (Vector.replicate n none)

end BlockGraph

/-- The nearest post-dominator of each block, if it has any. -/
abbrev ImmediateBlocks (n : Nat) := Vector (Option (Fin n)) n

def Body.immediate (b : Body) : ImmediateBlocks b.func.blocks.size :=
  b.graph.nearest.map fun node => node.bind BlockNode.block?

end LockUsage
