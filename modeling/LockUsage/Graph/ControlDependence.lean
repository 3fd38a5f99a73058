import LockUsage.Graph.PostDominance

/-! Control dependence: for each block the nearest branch that decides whether it runs.

The edges of the block graph are examined depth first from the entry block. An edge to a block that
does not immediately post-dominate its source makes the block depend on the source. Along the other
edges the block inherits what the source depends on. The first edge that reaches a block decides. -/

namespace LockUsage.Body

/-- The edges still to be examined and the blocks already entered, in the order of a depth-first
walk. The fuel bounds the number of edges examined. -/
def examineFrom (b : Body) : Nat → List b.BlockIx → List (b.BlockIx × b.BlockIx) →
    List (b.BlockIx × b.BlockIx)
  | fuel + 1, entered, (source, target) :: pending =>
    (source, target) ::
      if target ∈ entered then b.examineFrom fuel entered pending
      else
        b.examineFrom fuel (target :: entered) ((b.nextBlocks target).map (target, ·) ++ pending)
  | _, _, _ => []

/-- The number of edges between blocks. -/
def edgeCount (b : Body) : Nat := (b.blocks.flatMap b.nextBlocks).length

/-- The edges between blocks in the order in which a depth-first walk from a block examines them. -/
def examined (b : Body) (start : b.BlockIx) : List (b.BlockIx × b.BlockIx) :=
  b.examineFrom b.edgeCount [start] ((b.nextBlocks start).map (start, ·))

/-- What blocks depend on. A block may depend on the entry only. -/
abbrev Dependences (n : Nat) := List (Fin n × Option (Fin n))

/-- What a block reached from `parent` depends on, given the branches passed on the way up. -/
def resolveFrom (near : ImmediateBlocks n) (deps : Dependences n) (child : Fin n) :
    Nat → List (Fin n) → Fin n → Option (Fin n)
  | 0, _, _ => none
  | fuel + 1, seen, parent =>
    if near[parent] ≠ some child then some parent
    else
      match deps.lookup parent with
      | some (some up) =>
        if up ∈ seen then none else resolveFrom near deps child fuel (up :: seen) up
      | _ => none

def resolve (near : ImmediateBlocks n) (deps : Dependences n) (parent child : Fin n) :
    Option (Fin n) :=
  resolveFrom near deps child (n + 1) [] parent

/-- Records what the target of an edge depends on, unless that is known. -/
def recordEdge (near : ImmediateBlocks n) (deps : Dependences n) (edge : Fin n × Fin n) :
    Dependences n :=
  if (deps.lookup edge.2).isSome then deps
  else deps ++ [(edge.2, resolve near deps edge.1 edge.2)]

/-- What each block depends on. Blocks that the walk never reaches depend on nothing. -/
def dependences (b : Body) : Dependences b.func.blocks.size :=
  match b.entryBlock? with
  | none => []
  | some start =>
    let reached := (b.examined start).foldl (recordEdge b.immediate) [(start, none)]
    reached ++ (b.blocks.filter fun bb => (reached.lookup bb).isNone).map (·, none)

/-- The nearest block whose branch decides whether a block runs. -/
def Dependences.controlling? (deps : Dependences n) (bb : Fin n) : Option (Fin n) :=
  (deps.lookup bb).join

end LockUsage.Body
