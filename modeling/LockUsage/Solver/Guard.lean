import LockUsage.Flow.Edge
import LockUsage.Program.Derivation

/-! What a conditional branch says about its two ways out. Predicates are named after the value that
the tested operand derives from, so that tests of one variable in several blocks have one name. -/

namespace LockUsage

inductive Guard where
  /-- The predicate holds on the way taken, or on the other way if negated. -/
  | predicate (name : String) (negated : Bool)
  /-- Only the way that fits the value can be taken. -/
  | constant (value : Bool)
  | unknown
deriving DecidableEq

def Predicate.text : Predicate → String
  | eq => "Eq"
  | ne => "Ne"
  | lt => "Lt"
  | le => "Le"
  | gt => "Gt"
  | ge => "Ge"

/-- A guard, and a warning if it says less than the branch. -/
abbrev Guarded := Guard × Option String

/-- The guard of a comparison of a value with a constant. -/
def comparisonGuard (function : String) (pred : Predicate) (name : String) (value : Constant) :
    Guarded :=
  match pred with
  | .eq =>
    if value.isNullish then (.predicate name true, none)
    else (.predicate (name ++ "==" ++ value.text) false, none)
  | .ne =>
    if value.isNullish then (.predicate name false, none)
    else (.predicate (name ++ "==" ++ value.text) true, none)
  | pred => (.unknown, some s!"`{function}`: {pred.text} comparison of {name} is not tracked")

/-- The guard of a comparison of two constants. -/
def constantGuard (function : String) (pred : Predicate) (a b : Constant) : Guarded :=
  match pred with
  | .eq => (.constant (a == b), none)
  | .ne => (.constant (a != b), none)
  | _ => (.unknown, some s!"`{function}`: ordered comparison of two constants is not tracked")

namespace Program

/-- The name of the value that an operand derives from. -/
def predicateName? (p : Program) (func : FuncId) (f : Func) (o : Operand) : Option String :=
  p.valueName? func (f.root o)

/-- The guard of a branch on an operand. There is none if an id is out of range. -/
def guardOf? (p : Program) (func : FuncId) (f : Func) (cond : Operand) : Option Guarded :=
  let plain := (p.predicateName? func f cond).map fun name => (Guard.predicate name false, none)
  match cond with
  | .const value => some (.constant (!value.isNullish), none)
  | .inst id =>
    match f.insts[id]? with
    | none => none
    | some inst =>
      match inst.kind with
      | .cmp pred lhs rhs =>
        match lhs.const?, rhs.const? with
        | none, some value =>
          (p.predicateName? func f lhs).map fun name => comparisonGuard f.name pred name value
        | some value, none =>
          (p.predicateName? func f rhs).map fun name => comparisonGuard f.name pred name value
        | some a, some b => some (constantGuard f.name pred a b)
        | none, none =>
          (p.predicateName? func f lhs).map fun name =>
            (.predicate name false,
              some s!"`{f.name}`: comparison of two values, tracking {name} only")
      | _ => plain
  | .arg _ | .global _ => plain

/-- The guard of an instruction. Only branches have one. -/
def guard? (p : Program) (func : FuncId) (b : Body) (i : b.InstIx) : Option Guarded :=
  match b.kind i with
  | .condBr cond _ _ => p.guardOf? func b.func cond
  | _ => some (.unknown, none)

end Program

end LockUsage
