import LockUsage.Program.Validation
import LockUsage.Text.Blank
import LockUsage.Text.Numeral

/-! Program descriptions, in which functions, blocks, values and globals are referred to by name,
and their resolution into programs.

An operand is written `@g` for a global, `%x` for a parameter or a named instruction, or as a
constant: an integer, `null`, `true` or `false`. -/

namespace LockUsage

namespace Description

inductive Inst where
  | call (name : Option String) (callee : String) (args : List String)
  | br (target : String)
  | condBr (cond thenTo elseTo : String)
  | switch (value default : String) (cases : List (Int × String))
  | ret (value : Option String)
  | unreachable
  | cmp (name : String) (pred : Predicate) (lhs rhs : String)
  | other (name : Option String) (operands : List String)

def Inst.name? : Inst → Option String
  | call name _ _ | other name _ => name
  | cmp name _ _ _ => some name
  | _ => none

structure Block where
  name : String
  insts : List Inst

structure Func where
  name : String
  params : List String
  blocks : List Block

end Description

structure Description where
  name : String
  globals : List String
  functions : List Description.Func

namespace Description

/-- The first name that occurs earlier in the list or among the names seen before. -/
def firstRepeat? (seen : List String) : List String → Option String
  | [] => none
  | name :: rest => if name ∈ seen then some name else firstRepeat? (name :: seen) rest

/-- Fails on a name that is given twice. -/
def distinct (scope : String) (names : List String) : Except ProgramError Unit :=
  match firstRepeat? [] names with
  | none => .ok ()
  | some name => .error (.duplicateName scope name)

/-- The last position of a name. -/
def lastIndex? (name : String) : List String → Option Nat
  | [] => none
  | other :: rest =>
    match lastIndex? name rest with
    | some i => some (i + 1)
    | none => if other = name then some 0 else none

/-- The names that may be used in the body of one function, each list in the order of the ids. -/
structure Scope where
  function : String
  globals : List String
  functions : List String
  params : List String
  blocks : List String
  insts : List (Option String)

def functionScope (name : String) : String := s!"function `{name}`"

namespace Scope

def of (d : Description) (f : Description.Func) : Scope where
  function := f.name
  globals := d.globals
  functions := d.functions.map (·.name)
  params := f.params
  blocks := f.blocks.map (·.name)
  insts := f.blocks.flatMap fun block => block.insts.map Inst.name?

def unresolved (s : Scope) (name : String) : ProgramError :=
  .unresolved (functionScope s.function) name

def found (s : Scope) (name : String) : Option α → Except ProgramError α
  | some a => .ok a
  | none => .error (s.unresolved name)

def block (s : Scope) (name : String) : Except ProgramError BlockId :=
  s.found name (s.blocks.idxOf? name)

/-- A parameter, the last one of that name, or else the instruction of that name. -/
def local? (s : Scope) (name : String) : Option Operand :=
  match lastIndex? name s.params with
  | some index => some (.arg index)
  | none => (s.insts.idxOf? (some name)).map .inst

def constant? (text : String) : Option Constant :=
  if text = "null" then some .null
  else if text = "true" then some (.int 1)
  else if text = "false" then some (.int 0)
  else (Text.int64? text).map .int

/-- The operand that a text without surrounding white space denotes. -/
def operand? (s : Scope) (text : String) : Option Operand :=
  match text.toList with
  | '@' :: name => (s.globals.idxOf? (String.ofList name)).map .global
  | '%' :: name => s.local? (String.ofList name)
  | _ => (constant? text).map .const

def operand (s : Scope) (written : String) : Except ProgramError Operand :=
  let text := Text.trim written
  s.found text (s.operand? text)

/-- A function by its name, with or without a leading `@`, or else an operand. -/
def callee (s : Scope) (written : String) : Except ProgramError Callee :=
  let name := match written.toList with
    | '@' :: name => String.ofList name
    | _ => written
  match s.functions.idxOf? name with
  | some id => .ok (.direct id)
  | none => (s.operand written).map .indirect

def kind (s : Scope) : Inst → Except ProgramError InstKind
  | .call _ callee args => return .call (← s.callee callee) (← args.mapM s.operand)
  | .br target => return .br (← s.block target)
  | .condBr cond thenTo elseTo =>
    return .condBr (← s.operand cond) (← s.block thenTo) (← s.block elseTo)
  | .switch value default cases =>
    return .switch (← s.operand value) (← s.block default)
      (← cases.mapM fun (number, target) => return (number, ← s.block target))
  | .ret none => return .ret none
  | .ret (some value) => return .ret (some (← s.operand value))
  | .unreachable => return .unreachable
  | .cmp _ pred lhs rhs => return .cmp pred (← s.operand lhs) (← s.operand rhs)
  | .other _ operands => return .other (← operands.mapM s.operand)

/-- The instructions of block number `b`. -/
def resolve (s : Scope) (b : BlockId) (block : Description.Block) :
    Except ProgramError (List LockUsage.Inst) :=
  block.insts.mapM fun inst => return ⟨inst.name?, b, ← s.kind inst⟩

end Scope

/-- Blocks of the given names and sizes that list the instructions from `start` on in order. -/
def numbered (start : InstId) : List (String × Nat) → List LockUsage.Block
  | [] => []
  | (name, size) :: rest => ⟨name, List.range' start size⟩ :: numbered (start + size) rest

/-- Resolves one function. Instructions are numbered in the order of the description. -/
def function (d : Description) (f : Func) : Except ProgramError LockUsage.Func := do
  let s := Scope.of d f
  distinct (functionScope f.name) s.blocks
  distinct (functionScope f.name) (s.insts.filterMap id)
  let insts ← f.blocks.zipIdx.mapM fun (block, b) => s.resolve b block
  return {
    name := f.name
    params := f.params
    blocks := (numbered 0 (f.blocks.map fun block => (block.name, block.insts.length))).toArray
    insts := insts.flatten.toArray }

/-- Resolves every name and checks the result. -/
def load (d : Description) : Except ProgramError Program := do
  distinct d.name d.globals
  distinct d.name (d.functions.map (·.name))
  let functions ← d.functions.mapM d.function
  Program.check { name := d.name, globals := d.globals.toArray, functions := functions.toArray }

end Description

end LockUsage
