import LockUsage.Program.Basic

/-! Function bodies: functions in which every block and instruction id is in range, so that their
instructions and blocks can be followed without a failing look-up. -/

namespace LockUsage

def Operand.inst? : Operand → Option InstId
  | .inst id => some id
  | _ => none

/-- Every id that an instruction holds is in range: its own block, its targets and the instructions
whose results it reads. -/
def Inst.WellIndexed (blocks insts : Nat) (inst : Inst) : Prop :=
  inst.block < blocks ∧ (∀ target ∈ inst.kind.successors, target < blocks) ∧
    ∀ id ∈ inst.kind.operands.filterMap Operand.inst?, id < insts

instance (blocks insts : Nat) (inst : Inst) : Decidable (inst.WellIndexed blocks insts) :=
  inferInstanceAs (Decidable (_ ∧ _ ∧ _))

/-- Every block and instruction id of the function is in range. -/
def Func.WellIndexed (f : Func) : Prop :=
  (∀ block ∈ f.blocks.toList, ∀ id ∈ block.insts, id < f.insts.size) ∧
    ∀ inst ∈ f.insts.toList, inst.WellIndexed f.blocks.size f.insts.size

instance (f : Func) : Decidable f.WellIndexed := inferInstanceAs (Decidable (_ ∧ _))

structure Body where
  func : Func
  indexed : func.WellIndexed

namespace Body

/-- The body of a function, if its ids are in range. -/
def of? (f : Func) : Option Body := if h : f.WellIndexed then some ⟨f, h⟩ else none

abbrev InstIx (b : Body) : Type := Fin b.func.insts.size

abbrev BlockIx (b : Body) : Type := Fin b.func.blocks.size

def insts (b : Body) : List b.InstIx := List.finRange _

def blocks (b : Body) : List b.BlockIx := List.finRange _

def inst (b : Body) (i : b.InstIx) : Inst := b.func.insts[i]

def kind (b : Body) (i : b.InstIx) : InstKind := (b.inst i).kind

theorem inst_wellIndexed (b : Body) (i : b.InstIx) :
    (b.inst i).WellIndexed b.func.blocks.size b.func.insts.size :=
  b.indexed.2 _ (by simp [inst])

def blockOf (b : Body) (i : b.InstIx) : b.BlockIx := ⟨(b.inst i).block, (b.inst_wellIndexed i).1⟩

/-- The instructions that a block lists. -/
def listed (b : Body) (bb : b.BlockIx) : List b.InstIx :=
  b.func.blocks[bb].insts.pmap Fin.mk fun _ h => b.indexed.1 _ (by simp) _ h

/-- The blocks control may pass to after an instruction. -/
def targets (b : Body) (i : b.InstIx) : List b.BlockIx :=
  (b.kind i).successors.pmap Fin.mk (b.inst_wellIndexed i).2.1

def first? (b : Body) (bb : b.BlockIx) : Option b.InstIx := (b.listed bb).head?

/-- The last instruction of a block, if it is a terminator. -/
def terminator? (b : Body) (bb : b.BlockIx) : Option b.InstIx :=
  (b.listed bb).getLast?.filter fun i => (b.kind i).isTerminator

/-- The blocks that follow a block, in the order of its terminator. -/
def successors (b : Body) (bb : b.BlockIx) : List b.BlockIx :=
  match b.terminator? bb with
  | some i => b.targets i
  | none => []

def entryBlock? (b : Body) : Option b.BlockIx := b.blocks.head?

/-- The instruction at which control enters. A declaration has none. -/
def entry? (b : Body) : Option b.InstIx := b.entryBlock?.bind b.first?

/-- Where the block of an instruction first lists it. -/
def position? (b : Body) (i : b.InstIx) : Option Nat := (b.listed (b.blockOf i)).idxOf? i

/-- The instruction that follows in the same block. -/
def next? (b : Body) (i : b.InstIx) : Option b.InstIx :=
  match b.position? i with
  | some k => (b.listed (b.blockOf i))[k + 1]?
  | none => none

/-- The instruction that precedes in the same block. -/
def prev? (b : Body) (i : b.InstIx) : Option b.InstIx :=
  match b.position? i with
  | some (k + 1) => (b.listed (b.blockOf i))[k]?
  | some 0 | none => none

def isHead (b : Body) (i : b.InstIx) : Bool := b.first? (b.blockOf i) == some i

end Body

end LockUsage
