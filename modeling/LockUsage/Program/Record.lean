import LockUsage.Json.Record
import LockUsage.Program.Basic
import LockUsage.Program.Reader

/-! Programs as records in which everything is referred to by id. -/

namespace LockUsage

open Json

namespace Operand

/-- The operand as a word: what it is, a colon and its number. -/
def word : Operand → String
  | inst id => s!"inst:{id}"
  | arg index => s!"arg:{index}"
  | global id => s!"global:{id}"
  | const (.int value) => s!"int:{value}"
  | const .null => "null"

def ofWord? (text : String) : Option Operand :=
  if text = "null" then some (.const .null)
  else
    match text.splitOn ":" with
    | ["inst", n] => (Text.count? n).map .inst
    | ["arg", n] => (Text.count? n).map .arg
    | ["global", n] => (Text.count? n).map .global
    | ["int", n] => (Text.int64? n).map fun i => .const (.int i)
    | _ => none

def toJson (o : Operand) : Json := ofText o.word

def ofJson? (json : Json) : Option Operand := json.asText?.bind ofWord?

end Operand

def Predicate.word : Predicate → String
  | eq => "eq"
  | ne => "ne"
  | lt => "lt"
  | le => "le"
  | gt => "gt"
  | ge => "ge"

namespace InstKind

/-- A record with a tag for the kind. -/
def tagged (tag : String) (fields : List (String × Json)) : Json :=
  Json.record (("k", ofText tag) :: fields)

def toJson : InstKind → Json
  | call (.direct id) args =>
    tagged "call" [("direct", ofNat id), ("args", ofList Operand.toJson args)]
  | call (.indirect target) args =>
    tagged "call" [("indirect", target.toJson), ("args", ofList Operand.toJson args)]
  | br target => tagged "br" [("target", ofNat target)]
  | condBr cond thenTo elseTo =>
    tagged "cond_br" [("cond", cond.toJson), ("then", ofNat thenTo), ("else", ofNat elseTo)]
  | switch value default cases =>
    tagged "switch" [("value", value.toJson), ("default", ofNat default),
      ("cases", ofList (fun c => .array [ofInt c.1, ofNat c.2]) cases)]
  | ret value => tagged "ret" [("value", ofOption Operand.toJson value)]
  | unreachable => tagged "unreachable" []
  | cmp pred lhs rhs =>
    tagged "cmp" [("pred", ofText pred.word), ("lhs", lhs.toJson), ("rhs", rhs.toJson)]
  | other operands => tagged "other" [("operands", ofList Operand.toJson operands)]

def caseOfJson? : Json → Option (Int × BlockId)
  | .array [label, target] => do return (← label.asInt64?, ← target.asNat? 64)
  | _ => none

def operands? : Option Json → Option (List Operand) := optional [] (asList? Operand.ofJson?)

def id? : Option Json → Option Nat := required (asNat? 64)

def operand? : Option Json → Option Operand := required Operand.ofJson?

def ofFields? (tag : String) (json : Json) : Option InstKind :=
  match tag with
  | "call" =>
    match fields? ["direct", "indirect", "args"] json with
    | some [some id, _, args] => do return .call (.direct (← asNat? 64 id)) (← operands? args)
    | some [none, target, args] => do
      return .call (.indirect (← operand? target)) (← operands? args)
    | _ => none
  | "br" =>
    match fields? ["target"] json with
    | some [target] => do return .br (← id? target)
    | _ => none
  | "cond_br" =>
    match fields? ["cond", "then", "else"] json with
    | some [cond, thenTo, elseTo] => do
      return .condBr (← operand? cond) (← id? thenTo) (← id? elseTo)
    | _ => none
  | "switch" =>
    match fields? ["value", "default", "cases"] json with
    | some [value, default, cases] => do
      return .switch (← operand? value) (← id? default)
        (← optional [] (asList? caseOfJson?) cases)
    | _ => none
  | "ret" =>
    match fields? ["value"] json with
    | some [value] => do return .ret (← optional none (asOption? Operand.ofJson?) value)
    | _ => none
  | "unreachable" => some .unreachable
  | "cmp" =>
    match fields? ["pred", "lhs", "rhs"] json with
    | some [pred, lhs, rhs] => do
      return .cmp (← Predicate.ofWord? (← required asText? pred)) (← operand? lhs) (← operand? rhs)
    | _ => none
  | "other" =>
    match fields? ["operands"] json with
    | some [operands] => do return .other (← operands? operands)
    | _ => none
  | _ => none

def ofJson? (json : Json) : Option InstKind :=
  match fields? ["k"] json with
  | some [tag] => do ofFields? (← required asText? tag) json
  | _ => none

end InstKind

namespace Inst

def toJson (i : Inst) : Json :=
  Json.record [("name", ofOption ofText i.name), ("block", ofNat i.block), ("kind", i.kind.toJson)]

def ofJson? (json : Json) : Option Inst :=
  match fields? ["name", "block", "kind"] json with
  | some [name, block, kind] => do
    return ⟨← optional none (asOption? asText?) name, ← required (asNat? 64) block,
      ← required InstKind.ofJson? kind⟩
  | _ => none

end Inst

namespace Block

def toJson (b : Block) : Json :=
  Json.record [("name", ofText b.name), ("insts", ofList ofNat b.insts)]

def ofJson? (json : Json) : Option Block :=
  match fields? ["name", "insts"] json with
  | some [name, insts] => do
    return ⟨← required asText? name, ← optional [] (asList? (asNat? 64)) insts⟩
  | _ => none

end Block

namespace Func

def toJson (f : Func) : Json :=
  Json.record [("name", ofText f.name), ("params", ofList ofText f.params),
    ("blocks", ofList Block.toJson f.blocks.toList), ("insts", ofList Inst.toJson f.insts.toList)]

def ofJson? (json : Json) : Option Func :=
  match fields? ["name", "params", "blocks", "insts"] json with
  | some [name, params, blocks, insts] => do
    let blocks ← optional [] (asList? Block.ofJson?) blocks
    let insts ← optional [] (asList? Inst.ofJson?) insts
    return ⟨← required asText? name, ← optional [] (asList? asText?) params, blocks.toArray,
      insts.toArray⟩
  | _ => none

end Func

namespace Program

def toJson (p : Program) : Json :=
  Json.record [("name", ofText p.name), ("globals", ofList ofText p.globals.toList),
    ("functions", ofList Func.toJson p.functions.toList)]

/-- The program that a record describes. Nothing is said yet on whether its ids are in range. -/
def ofIds? (json : Json) : Option Program :=
  match fields? ["name", "globals", "functions"] json with
  | some [name, globals, functions] => do
    let globals ← optional [] (asList? asText?) globals
    let functions ← optional [] (asList? Func.ofJson?) functions
    return ⟨← required asText? name, globals.toArray, functions.toArray⟩
  | _ => none

end Program

end LockUsage
