import LockUsage.Json.Basic
import LockUsage.Json.Numeral

/-! Reading typed data out of JSON values.

A record is an object, or an array that lists the fields in order. Unknown keys of an object are
ignored, a known key may stand only once. Integers are written without fraction and exponent and
fit into 64 bits; `-0` and larger numerals are no integers. -/

namespace LockUsage.Json

def asText? : Json → Option String
  | string literal => literal.text?
  | _ => none

def asBool? : Json → Option Bool
  | bool value => some value
  | _ => none

def asList? (decode : Json → Option α) : Json → Option (List α)
  | array elements => elements.mapM decode
  | _ => none

def asInteger? : Json → Option Int
  | number written =>
    match written.toList with
    | '-' :: digits =>
      match Text.natural? digits with
      | some n => if 0 < n ∧ n ≤ Text.valuesOf 63 then some (-(n : Int)) else none
      | none => none
    | digits =>
      match Text.natural? digits with
      | some n => if n < Text.valuesOf 64 then some (n : Int) else none
      | none => none
  | _ => none

/-- An integer of 64 bits with a sign. -/
def asInt64? (json : Json) : Option Int := do
  let i ← json.asInteger?
  if i < Text.valuesOf 63 then some i else none

/-- A natural number of at most so many bits, which are at most 64. -/
def asNat? (bits : Nat) (json : Json) : Option Nat := do
  let i ← json.asInteger?
  if 0 ≤ i ∧ i < Text.valuesOf bits then some i.toNat else none

/-- Null stands for an absent value. -/
def asOption? (decode : Json → Option α) : Json → Option (Option α)
  | null => some none
  | json => (decode json).map some

/-- The word of an enumeration, written as a string or as an object with the word as its only key.
The key's value carries nothing, which `isEmpty` decides. -/
def asWord? (isEmpty : Json → Bool) : Json → Option String
  | string literal => literal.text?
  | object [(key, value)] => if isEmpty value then key.text? else none
  | _ => none

def isNull : Json → Bool
  | null => true
  | _ => false

def isNullOrEmpty : Json → Bool
  | null => true
  | object [] => true
  | _ => false

/-- The members with their keys as texts. -/
def keyed? (members : List (Literal × Json)) : Option (List (String × Json)) :=
  members.mapM fun (key, value) => key.text?.map (·, value)

/-- The value of a key: absent, or present once. -/
def field? (members : List (String × Json)) (key : String) : Option (Option Json) :=
  match members.filter (fun m => m.1 == key) with
  | [] => some none
  | [(_, value)] => some (some value)
  | _ => none

/-- The values of the given fields, in their order. -/
def fields? (keys : List String) : Json → Option (List (Option Json))
  | object members => do
    let members ← keyed? members
    keys.mapM (field? members)
  | array elements =>
    if elements.length ≤ keys.length then
      some ((List.range keys.length).map fun i => elements[i]?)
    else none
  | _ => none

def required (decode : Json → Option α) : Option Json → Option α
  | some json => decode json
  | none => none

def optional (default : α) (decode : Json → Option α) : Option Json → Option α
  | some json => decode json
  | none => some default

mutual

/-- Whether every part of a value has a meaning: strings and keys denote texts, numerals are finite
and arrays and objects are nested at most `depth` deep. -/
def isMeaningful (depth : Nat) : Json → Bool
  | number written => isFinite written
  | string literal => literal.text?.isSome
  | array elements => 0 < depth && areMeaningful (depth - 1) elements
  | object members => 0 < depth && haveMeaning (depth - 1) members
  | _ => true

def areMeaningful (depth : Nat) : List Json → Bool
  | [] => true
  | element :: rest => isMeaningful depth element && areMeaningful depth rest

def haveMeaning (depth : Nat) : List (Literal × Json) → Bool
  | [] => true
  | (key, value) :: rest =>
    key.text?.isSome && isMeaningful depth value && haveMeaning depth rest

end

end LockUsage.Json
