import LockUsage.Program.Basic

/-! Checking a program: every id that occurs in it is in range, no block is empty, and an
instruction is listed only by the block that it names as its own. The first fault found is
reported. -/

namespace LockUsage

inductive ProgramError where
  | unknownBlock (function : String) (block : BlockId)
  | unknownInst (function : String) (inst : InstId)
  | unknownFunction (function : String) (callee : FuncId)
  | unknownGlobal (function : String) (global : GlobalId)
  | unknownArg (function : String) (index arity : Nat)
  | emptyBlock (function block : String)
  | misplacedInst (function : String) (inst : InstId)
  | duplicateName (scope name : String)
  | unresolved (scope name : String)
  /-- The text is no program description. -/
  | malformed
  /-- The file cannot be read as text. -/
  | unreadable
deriving DecidableEq

def ProgramError.message : ProgramError → String
  | unknownBlock function block =>
    s!"function `{function}` references unknown block {blockText block}"
  | unknownInst function inst =>
    s!"function `{function}` references unknown instruction {instText inst}"
  | unknownFunction function callee =>
    s!"function `{function}` calls unknown function {funcText callee}"
  | unknownGlobal function global =>
    s!"function `{function}` references unknown global {globalText global}"
  | unknownArg function index arity =>
    s!"function `{function}` references argument {index} but has {arity} parameters"
  | emptyBlock function block => s!"block `{block}` of function `{function}` has no instructions"
  | misplacedInst function inst =>
    s!"instruction {instText inst} of function `{function}` is listed in the wrong block"
  | duplicateName scope name => s!"`{name}` is defined more than once in {scope}"
  | unresolved scope name => s!"cannot resolve `{name}` in {scope}"
  | malformed => "malformed program description"
  | unreadable => "cannot read program"

namespace Func

/-- A fault of block number `b`: it is empty, or lists an instruction that is unknown or belongs to
another block. -/
def blockFault? (f : Func) (b : BlockId) (block : Block) : Option ProgramError :=
  if block.insts.isEmpty then some (.emptyBlock f.name block.name)
  else
    block.insts.findSome? fun id =>
      match f.insts[id]? with
      | none => some (.unknownInst f.name id)
      | some inst => if inst.block = b then none else some (.misplacedInst f.name id)

def operandFault? (p : Program) (f : Func) : Operand → Option ProgramError
  | .inst id => if id < f.insts.size then none else some (.unknownInst f.name id)
  | .global id => if id < p.globals.size then none else some (.unknownGlobal f.name id)
  | .arg index =>
    if index < f.params.length then none
    else some (.unknownArg f.name index f.params.length)
  | .const _ => none

def targetFault? (f : Func) (b : BlockId) : Option ProgramError :=
  if b < f.blocks.size then none else some (.unknownBlock f.name b)

def calleeFault? (p : Program) (f : Func) : InstKind → Option ProgramError
  | .call (.direct callee) _ =>
    if callee < p.functions.size then none else some (.unknownFunction f.name callee)
  | _ => none

/-- A fault of an instruction: its own block, a target, the callee or an operand is unknown. -/
def instFault? (p : Program) (f : Func) (inst : Inst) : Option ProgramError :=
  ((inst.block :: inst.kind.successors).findSome? f.targetFault?).or
    ((f.calleeFault? p inst.kind).or (inst.kind.operands.findSome? (f.operandFault? p)))

def fault? (p : Program) (f : Func) : Option ProgramError :=
  (f.blocks.toList.zipIdx.findSome? fun (block, b) => f.blockFault? b block).or
    (f.insts.toList.findSome? (f.instFault? p))

end Func

namespace Program

/-- The first fault of the program, if it has one. -/
def fault? (p : Program) : Option ProgramError := p.functions.toList.findSome? (Func.fault? p)

/-- The program itself, if it is without fault. -/
def check (p : Program) : Except ProgramError Program :=
  match p.fault? with
  | none => .ok p
  | some fault => .error fault

end Program

end LockUsage
