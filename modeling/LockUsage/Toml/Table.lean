import LockUsage.Json.Basic

/-! The tables of a configuration file while it is read.

A table is opened by a header, by a dotted key, or because a header passes through it. What a header
opened cannot be opened again, and dotted keys extend only what dotted keys opened. Values, and the
tables within them, are closed. -/

namespace LockUsage.Toml

inductive Value where
  | string (text : String)
  | integer (value : Int)
  | float (written : String)
  | boolean (value : Bool)
  | date (written : String)
  | array (elements : List Value)
  | table (members : List (String × Value))

/-- What a table was opened by. -/
inductive Origin where
  | header
  | dottedKey
  /-- A header that leads further. -/
  | passage
deriving DecidableEq

inductive Node where
  | value (value : Value)
  | table (origin : Origin) (members : List (String × Node))
  /-- Tables under one name, each opened by a header of its own. -/
  | tables (elements : List (List (String × Node)))

abbrev Members := List (String × Node)

/-- Replaces what stands under a key, or adds it at the end. -/
def adjust? (key : String) (change : Option Node → Option Node) : Members → Option Members
  | [] => (change none).map fun node => [(key, node)]
  | (k, node) :: rest =>
    if k = key then (change (some node)).map fun node => (k, node) :: rest
    else (adjust? key change rest).map ((k, node) :: ·)

/-- Changes the table that a header's path leads to. Missing tables are opened on the way, and of
several tables under one name the last one is meant. -/
def atHeader? : List String → (Members → Option Members) → Members → Option Members
  | [], change, members => change members
  | key :: path, change, members =>
    adjust? key (fun
      | none => (atHeader? path change []).map (.table .passage)
      | some (.table origin inner) => (atHeader? path change inner).map (.table origin)
      | some (.tables elements) =>
        match elements.getLast? with
        | some last =>
          (atHeader? path change last).map fun changed => .tables (elements.dropLast ++ [changed])
        | none => none
      | some (.value _) => none) members

/-- Puts a value under a dotted key. -/
def put? : List String → Value → Members → Option Members
  | [], _, _ => none
  | [key], value, members =>
    adjust? key (fun
      | none => some (.value value)
      | some _ => none) members
  | key :: path, value, members =>
    adjust? key (fun
      | none => (put? path value []).map (.table .dottedKey)
      | some (.table .dottedKey inner) => (put? path value inner).map (.table .dottedKey)
      | some _ => none) members

/-- Opens the table of a header. -/
def openTable? (key : String) : Members → Option Members :=
  adjust? key fun
    | none => some (.table .header [])
    | some (.table .passage members) => some (.table .header members)
    | _ => none

/-- Opens a further table under one name. -/
def openNext? (key : String) : Members → Option Members :=
  adjust? key fun
    | none => some (.tables [[]])
    | some (.tables elements) => some (.tables (elements ++ [[]]))
    | _ => none

mutual

def Node.close : Node → Value
  | .value value => value
  | .table _ members => .table (closeMembers members)
  | .tables elements => .array (closeElements elements)

def closeMembers : List (String × Node) → List (String × Value)
  | [] => []
  | (key, node) :: rest => (key, node.close) :: closeMembers rest

def closeElements : List (List (String × Node)) → List Value
  | [] => []
  | members :: rest => .table (closeMembers members) :: closeElements rest

end

mutual

/-- The value as a JSON value. Floats and dates, for which there is no use, become records. -/
def Value.toJson : Value → Json
  | .string text => Json.ofText text
  | .integer value => Json.ofInt value
  | .float written => Json.record [("float", Json.ofText written)]
  | .boolean value => .bool value
  | .date written => Json.record [("date", Json.ofText written)]
  | .array elements => .array (elementsToJson elements)
  | .table members => .object (membersToJson members)

def elementsToJson : List Value → List Json
  | [] => []
  | value :: rest => value.toJson :: elementsToJson rest

def membersToJson : List (String × Value) → List (Json.Literal × Json)
  | [] => []
  | (key, value) :: rest => (Json.Literal.ofText key, value.toJson) :: membersToJson rest

end

end LockUsage.Toml
