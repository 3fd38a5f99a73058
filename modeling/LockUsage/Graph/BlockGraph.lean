import LockUsage.Flow.Body

/-! The graph of a function's blocks, with one virtual exit that every leaving block leads to. -/

namespace LockUsage

/-- A block of a function of `n` blocks, or the virtual exit. -/
inductive BlockNode (n : Nat) where
  | block (bb : Fin n)
  | exit
deriving DecidableEq

def BlockNode.block? : BlockNode n → Option (Fin n)
  | block bb => some bb
  | exit => none

/-- The nodes that each block leads to. -/
abbrev BlockGraph (n : Nat) := Vector (List (BlockNode n)) n

namespace Body

/-- The different nodes that a block leads to, those named last by its terminator first. A block
without a terminator leaves the function. -/
def neighbours (b : Body) (bb : b.BlockIx) : List (BlockNode b.func.blocks.size) :=
  match b.terminator? bb with
  | none => [.exit]
  | some i =>
    if (b.kind i).isExit then [.exit] else ((b.targets i).map .block).eraseDups.reverse

/-- The blocks among the neighbours. -/
def nextBlocks (b : Body) (bb : b.BlockIx) : List b.BlockIx :=
  (b.neighbours bb).filterMap BlockNode.block?

end Body

end LockUsage
