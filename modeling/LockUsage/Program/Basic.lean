/-! The program model: functions made of blocks of instructions, and the globals they refer to.
Functions, blocks, instructions and globals are numbered from zero, blocks and instructions within
their function. -/

namespace LockUsage

abbrev FuncId := Nat
abbrev BlockId := Nat
abbrev InstId := Nat
abbrev GlobalId := Nat

def funcText (id : FuncId) : String := s!"fn{id}"

def blockText (id : BlockId) : String := s!"bb{id}"

def instText (id : InstId) : String := s!"i{id}"

def globalText (id : GlobalId) : String := s!"g{id}"

inductive Constant where
  | int (value : Int)
  | null
deriving DecidableEq

/-- Zero and null are what branch conditions are usually tested against. -/
def Constant.isNullish : Constant → Bool
  | .int value => value == 0
  | .null => true

def Constant.text : Constant → String
  | .int value => toString value
  | .null => "null"

inductive Operand where
  /-- The result of an instruction of the same function. -/
  | inst (id : InstId)
  /-- A parameter of the function, by position. -/
  | arg (index : Nat)
  | global (id : GlobalId)
  | const (value : Constant)
deriving DecidableEq

def Operand.const? : Operand → Option Constant
  | .const value => some value
  | _ => none

def Operand.isConst (o : Operand) : Bool := o.const?.isSome

inductive Callee where
  | direct (func : FuncId)
  | indirect (target : Operand)
deriving DecidableEq

inductive Predicate where
  | eq | ne | lt | le | gt | ge
deriving DecidableEq

inductive InstKind where
  | call (callee : Callee) (args : List Operand)
  | br (target : BlockId)
  | condBr (cond : Operand) (thenTo elseTo : BlockId)
  | switch (value : Operand) (default : BlockId) (cases : List (Int × BlockId))
  | ret (value : Option Operand)
  | unreachable
  | cmp (pred : Predicate) (lhs rhs : Operand)
  /-- Any other computation. Its result derives from the first operand. -/
  | other (operands : List Operand)
deriving DecidableEq

namespace InstKind

def isTerminator : InstKind → Bool
  | br _ | condBr _ _ _ | switch _ _ _ | ret _ | unreachable => true
  | call _ _ | cmp _ _ _ | other _ => false

/-- Whether control leaves the function here. -/
def isExit : InstKind → Bool
  | ret _ | unreachable => true
  | _ => false

/-- The blocks control may pass to, the default of a switch first. -/
def successors : InstKind → List BlockId
  | br target => [target]
  | condBr _ thenTo elseTo => [thenTo, elseTo]
  | switch _ default cases => default :: cases.map (·.2)
  | _ => []

def operands : InstKind → List Operand
  | call (.indirect target) args => target :: args
  | call (.direct _) args => args
  | condBr cond _ _ => [cond]
  | switch value _ _ => [value]
  | ret value => value.toList
  | cmp _ lhs rhs => [lhs, rhs]
  | other operands => operands
  | br _ | unreachable => []

end InstKind

structure Inst where
  name : Option String
  block : BlockId
  kind : InstKind
deriving DecidableEq

structure Block where
  name : String
  insts : List InstId
deriving DecidableEq

structure Func where
  name : String
  params : List String
  blocks : Array Block
  insts : Array Inst
deriving DecidableEq

structure Program where
  name : String
  globals : Array String
  functions : Array Func
deriving DecidableEq

/-- A function without a body stands for an external routine. -/
def Func.isDeclaration (f : Func) : Bool := f.blocks.isEmpty

/-- A call instruction with its callee and arguments. -/
structure CallSite where
  inst : InstId
  callee : Callee
  args : List Operand

/-- The instructions in the order in which the blocks list them. -/
def Func.listed (f : Func) : List InstId := f.blocks.toList.flatMap (·.insts)

/-- The call at an instruction, if it is one. The outer option is empty for an unknown id. -/
def Func.call? (f : Func) (id : InstId) : Option (Option CallSite) :=
  f.insts[id]?.map fun inst =>
    match inst.kind with
    | .call callee args => some ⟨id, callee, args⟩
    | _ => none

/-- The calls in the order in which the blocks list them. -/
def Func.callSites? (f : Func) : Option (List CallSite) :=
  (f.listed.mapM f.call?).map fun calls => calls.filterMap id

namespace Program

/-- The functions with a body, in order. -/
def defined (p : Program) : List FuncId :=
  (List.range p.functions.size).filter fun id =>
    match p.functions[id]? with
    | some f => !f.isDeclaration
    | none => false

/-- The text that names a value within a function: `@g` for a global, `%x` for a parameter or the
result of an instruction. There is none for an id out of range. -/
def valueName? (p : Program) (func : FuncId) (o : Operand) : Option String := do
  let f ← p.functions[func]?
  match o with
  | .global id => p.globals[id]?.map ("@" ++ ·)
  | .arg index => some ("%" ++ f.params[index]?.getD s!"arg{index}")
  | .inst id => f.insts[id]?.map fun inst => "%" ++ inst.name.getD (instText id)
  | .const value => some value.text

end Program

end LockUsage
