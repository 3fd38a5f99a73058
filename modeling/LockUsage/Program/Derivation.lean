import LockUsage.Program.Basic

/-! Which value each instruction's result derives from, and how often results are used. -/

namespace LockUsage

/-- What an instruction does with an operand. -/
inductive OperandRole where
  /-- The result derives from it. -/
  | source
  /-- It is only read. -/
  | read
deriving DecidableEq

/-- The role of the operand at a position. A comparison derives from its side without constant. -/
def InstKind.role (kind : InstKind) (position : Nat) : OperandRole :=
  match kind with
  | .other _ => if position = 0 then .source else .read
  | .cmp _ lhs _ => if position = (if lhs.isConst then 1 else 0) then .source else .read
  | _ => .read

/-- The operands with their roles. -/
def InstKind.roles (kind : InstKind) : List (Operand × OperandRole) :=
  kind.operands.zipIdx.map fun (operand, position) => (operand, kind.role position)

namespace Func

/-- The operand that the result of an instruction derives from. -/
def parent? (f : Func) (id : InstId) : Option Operand := do
  let inst ← f.insts[id]?
  (inst.kind.roles.find? fun entry => entry.2 == .source).map (·.1)

/-- Follows parents from an operand until there is none or an instruction comes up again. -/
def rootFrom (f : Func) : Nat → List InstId → Operand → Operand
  | fuel + 1, seen, .inst id =>
    if id ∈ seen then .inst id
    else
      match f.parent? id with
      | some parent => f.rootFrom fuel (id :: seen) parent
      | none => .inst id
  | _, _, operand => operand

/-- The value that an operand derives from in the end. On a cycle of parents it is the first
instruction that comes up twice. -/
def root (f : Func) (o : Operand) : Operand := f.rootFrom (f.insts.size + 1) [] o

/-- How many operands of the function are the result of the instruction. -/
def useCount (f : Func) (id : InstId) : Nat :=
  (f.insts.toList.flatMap (·.kind.operands)).count (.inst id)

def hasUses (f : Func) (id : InstId) : Bool := f.useCount id != 0

end Func

end LockUsage
