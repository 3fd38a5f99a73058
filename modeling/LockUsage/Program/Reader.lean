import LockUsage.Json.Reader
import LockUsage.Json.Record
import LockUsage.Program.Description

/-! Program descriptions written as JSON.

An instruction is a record tagged with the key `op`, or an array that starts with the tag. Unlike
the other records it is read as a whole, so that even its unknown parts must have a meaning. -/

namespace LockUsage

open Json

def Predicate.ofWord? : String → Option Predicate
  | "eq" => some .eq
  | "ne" => some .ne
  | "lt" => some .lt
  | "le" => some .le
  | "gt" => some .gt
  | "ge" => some .ge
  | _ => none

namespace Description

def texts? : Json → Option (List String) := asList? asText?

def predicate? (json : Json) : Option Predicate := do
  Predicate.ofWord? (← asWord? isNullOrEmpty json)

/-- A case of a switch: its number and its target. -/
def switchCase? : Json → Option (Int × String)
  | .array [label, target] => do return (← label.asInt64?, ← target.asText?)
  | _ => none

/-- How deep arrays and objects may be nested in an instruction, the instruction included. -/
def nestingLimit : Nat := 121

/-- The tag of an instruction, and the instruction without it. -/
def tagged? : Json → Option (String × Json)
  | .array (tag :: rest) => do return (← tag.asText?, .array rest)
  | .object members => do
    let keys ← keyed? members
    let tag ← required asText? (← field? keys "op")
    return (tag, .object (members.filter fun m => m.1.text? != some "op"))
  | _ => none

def Inst.ofFields? (tag : String) (rest : Json) : Option Inst :=
  match tag with
  | "call" =>
    match fields? ["name", "callee", "args"] rest with
    | some [name, callee, args] =>
      return .call (← optional none (asOption? asText?) name) (← required asText? callee)
        (← optional [] texts? args)
    | _ => none
  | "br" =>
    match fields? ["target"] rest with
    | some [target] => return .br (← required asText? target)
    | _ => none
  | "cond_br" =>
    match fields? ["cond", "then", "else"] rest with
    | some [cond, thenTo, elseTo] =>
      return .condBr (← required asText? cond) (← required asText? thenTo)
        (← required asText? elseTo)
    | _ => none
  | "switch" =>
    match fields? ["value", "default", "cases"] rest with
    | some [value, default, cases] =>
      return .switch (← required asText? value) (← required asText? default)
        (← optional [] (asList? switchCase?) cases)
    | _ => none
  | "ret" =>
    match fields? ["value"] rest with
    | some [value] => return .ret (← optional none (asOption? asText?) value)
    | _ => none
  | "unreachable" =>
    match rest with
    | .array (_ :: _) => none
    | _ => some .unreachable
  | "cmp" =>
    match fields? ["name", "pred", "lhs", "rhs"] rest with
    | some [name, pred, lhs, rhs] =>
      return .cmp (← required asText? name) (← required predicate? pred) (← required asText? lhs)
        (← required asText? rhs)
    | _ => none
  | "other" =>
    match fields? ["name", "operands"] rest with
    | some [name, operands] =>
      return .other (← optional none (asOption? asText?) name) (← optional [] texts? operands)
    | _ => none
  | _ => none

def inst? (json : Json) : Option Inst := do
  let (tag, rest) ← tagged? json
  if json.isMeaningful nestingLimit then Inst.ofFields? tag rest else none

def block? (json : Json) : Option Block :=
  match fields? ["name", "insts"] json with
  | some [name, insts] => return ⟨← required asText? name, ← required (asList? inst?) insts⟩
  | _ => none

def func? (json : Json) : Option Func :=
  match fields? ["name", "params", "blocks"] json with
  | some [name, params, blocks] =>
    return ⟨← required asText? name, ← optional [] texts? params,
      ← optional [] (asList? block?) blocks⟩
  | _ => none

/-- The description that a JSON value holds. -/
def ofJson? (json : Json) : Option Description :=
  match fields? ["name", "globals", "functions"] json with
  | some [name, globals, functions] =>
    return ⟨← required asText? name, ← optional [] texts? globals,
      ← required (asList? func?) functions⟩
  | _ => none

end Description

namespace Program

def ofJson (json : Json) : Except ProgramError Program :=
  match Description.ofJson? json with
  | some description => description.load
  | none => .error .malformed

/-- Reads, resolves and checks a program description. -/
def parse (text : String) : Except ProgramError Program :=
  match Json.parse? text with
  | some json => ofJson json
  | none => .error .malformed

end Program

end LockUsage
