import LockUsage.Flow.Body

/-! Control flow between instructions. Every instruction at which control leaves the function passes
to one return node, and the function's result stands on the edge from that node to itself. -/

namespace LockUsage

/-- The two ways out of a conditional branch. -/
inductive Branch where
  | taken
  | notTaken
deriving DecidableEq

def Branch.isTaken : Branch → Bool
  | taken => true
  | notTaken => false

/-- An instruction of a function of `n` instructions, or the return node. -/
inductive Node (n : Nat) where
  | inst (i : Fin n)
  | ret
deriving DecidableEq

inductive Edge (n : Nat) where
  /-- From outside to the first instruction. -/
  | entry (target : Fin n)
  | flow (source : Fin n) (target : Node n)
  /-- From the return node to itself. -/
  | exit
deriving DecidableEq

def Node.text : Node n → String
  | .inst i => instText i.val
  | .ret => "ret"

namespace Edge

def target : Edge n → Node n
  | entry i => .inst i
  | flow _ node => node
  | exit => .ret

def text : Edge n → String
  | entry i => "entry->" ++ instText i.val
  | flow i node => instText i.val ++ "->" ++ node.text
  | exit => "ret->ret"

end Edge

namespace Body

/-- A two-way branch whose targets differ. -/
def isConditional (b : Body) (i : b.InstIx) : Bool :=
  match b.kind i with
  | .condBr _ thenTo elseTo => thenTo != elseTo
  | _ => false

/-- Only conditional branches have two ways out. -/
def way (b : Body) (i : b.InstIx) (way : Branch) : Branch :=
  if b.isConditional i then way else .taken

/-- The first instruction of a block, or the return node if there is none. -/
def headNode (b : Body) (bb : BlockId) : Node b.func.insts.size :=
  if h : bb < b.func.blocks.size then
    match b.first? ⟨bb, h⟩ with
    | some i => .inst i
    | none => .ret
  else .ret

/-- The node control passes to. A switch is followed to its default only. -/
def follow (b : Body) (i : b.InstIx) (way : Branch) : Node b.func.insts.size :=
  match b.kind i with
  | .condBr _ thenTo elseTo => b.headNode (if way.isTaken then thenTo else elseTo)
  | .br target => b.headNode target
  | .switch _ default _ => b.headNode default
  | .ret _ | .unreachable => .ret
  | .call _ _ | .cmp _ _ _ | .other _ =>
    match b.next? i with
    | some j => .inst j
    | none => .ret

/-- Whether control leaves the function at an instruction: at a return, and at the end of a block
without a terminator. -/
def leaves (b : Body) (i : b.InstIx) : Bool :=
  (b.kind i).isExit || (!(b.kind i).isTerminator && (b.next? i).isNone)

def entryEdge? (b : Body) : Option (Edge b.func.insts.size) := b.entry?.map .entry

/-- The edge out of an instruction. -/
def edge (b : Body) (i : b.InstIx) (way : Branch) : Edge b.func.insts.size :=
  .flow i (b.follow i (b.way i way))

/-- The terminators of the blocks that lead to a block, in block order. -/
def predecessors (b : Body) (bb : b.BlockIx) : List b.InstIx :=
  (b.blocks.filter fun p => decide (bb ∈ b.successors p)).filterMap b.terminator?

end Body

/-- The edges out of instructions that were asked for, in the order of the first request. -/
structure EdgeLog (n : Nat) where
  asked : List (Fin n × Branch)

namespace EdgeLog

def empty : EdgeLog n := ⟨[]⟩

variable {b : Body}

def ask (log : EdgeLog b.func.insts.size) (i : b.InstIx) (way : Branch) :
    EdgeLog b.func.insts.size :=
  if (i, b.way i way) ∈ log.asked then log else ⟨log.asked ++ [(i, b.way i way)]⟩

def edges (log : EdgeLog b.func.insts.size) : List (Edge b.func.insts.size) :=
  log.asked.map fun (i, way) => b.edge i way

/-- The edge noted for a way out of an instruction. -/
def noted? (log : EdgeLog b.func.insts.size) (i : b.InstIx) (way : Branch) :
    Option (Edge b.func.insts.size) :=
  (log.asked.find? (· == (i, b.way i way))).map fun (j, noted) => b.edge j noted

/-- The edge out of a node, as it is noted or else noted now. -/
def outEdge (log : EdgeLog b.func.insts.size) :
    Node b.func.insts.size → Branch → EdgeLog b.func.insts.size × Edge b.func.insts.size
  | .inst i, way => (log.ask i way, (log.noted? i way).getD (b.edge i way))
  | .ret, _ => (log, .exit)

/-- The different edges that enter an instruction. One that follows another in its block has the
edge from there. The first of a block has the entry edge, the edges from the terminators that lead
to the block, and the edges that were asked for before and happen to arrive here. -/
def inEdges (log : EdgeLog b.func.insts.size) (i : b.InstIx) :
    EdgeLog b.func.insts.size × List (Edge b.func.insts.size) :=
  match b.prev? i with
  | some p => (log.ask p .taken, [b.edge p .taken])
  | none =>
    let terminators := b.predecessors (b.blockOf i)
    let asked := terminators.foldl (fun log t => (log.ask t .taken).ask t .notTaken) log
    let entry := (b.entryEdge?.filter fun e => e.target == .inst i).toList
    let candidates :=
      terminators.flatMap (fun t => [b.edge t .taken, b.edge t .notTaken]) ++ asked.edges
    (asked, (entry ++ candidates.filter fun e => e.target == .inst i).eraseDups)

/-- One of the edges that enter an instruction, if there are so many. -/
def inEdge? (log : EdgeLog b.func.insts.size) (i : b.InstIx) (k : Nat) :
    EdgeLog b.func.insts.size × Option (Edge b.func.insts.size) :=
  ((log.inEdges i).1, (log.inEdges i).2[k]?)

/-- The edges into the return node from the instructions asked for so far. -/
def returnEdges (log : EdgeLog b.func.insts.size) : List (Edge b.func.insts.size) :=
  (log.asked.filter fun (i, _) => b.leaves i).map fun (i, way) => b.edge i way

end EdgeLog

end LockUsage
