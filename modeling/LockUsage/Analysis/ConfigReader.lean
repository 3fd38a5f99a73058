import LockUsage.Analysis.Config
import LockUsage.Json.Record
import LockUsage.Toml.Reader

/-! Configurations as records. Every field has a default. -/

namespace LockUsage

open Json

def AliasKind.ofWord? : String → Option AliasKind
  | "no" | "unrelated" => some .no
  | "may" => some .may
  | "must" => some .must
  | _ => none

def AliasKind.word : AliasKind → String
  | no => "no"
  | may => "may"
  | must => "must"

def SelectionOrder.ofWord? : String → Option SelectionOrder
  | "fifo" => some .fifo
  | "lifo" => some .lifo
  | _ => none

def SelectionOrder.word : SelectionOrder → String
  | fifo => "fifo"
  | lifo => "lifo"

namespace Config

def fieldNames : List String :=
  ["acquire", "release", "lock_arg_index", "intra_alias", "inter_alias", "max_steps",
    "filter_infeasible", "interprocedural", "worklist_order"]

/-- The configuration that a record describes. `isEmpty` says what the word of an enumeration may
carry. -/
def ofJson? (isEmpty : Json → Bool) (json : Json) : Option Config :=
  let texts? := asList? asText?
  let alias? (value : Json) : Option AliasKind := do AliasKind.ofWord? (← asWord? isEmpty value)
  let order? (value : Json) : Option SelectionOrder := do
    SelectionOrder.ofWord? (← asWord? isEmpty value)
  match fields? fieldNames json with
  | some [acquire, release, lockArgIndex, intraAlias, interAlias, maxSteps, filterInfeasible,
      interprocedural, worklistOrder] => do
    return {
      acquire := ← optional default.acquire texts? acquire
      release := ← optional default.release texts? release
      lockArgIndex := ← optional default.lockArgIndex (asNat? 64) lockArgIndex
      intraAlias := ← optional default.intraAlias alias? intraAlias
      interAlias := ← optional default.interAlias alias? interAlias
      maxSteps := ← optional default.maxSteps (asNat? 64) maxSteps
      filterInfeasible := ← optional default.filterInfeasible asBool? filterInfeasible
      interprocedural := ← optional default.interprocedural asBool? interprocedural
      worklistOrder := ← optional default.worklistOrder order? worklistOrder }
  | _ => none

def toJson (c : Config) : Json :=
  Json.record (fieldNames.zip [ofList ofText c.acquire, ofList ofText c.release,
    ofNat c.lockArgIndex, ofText c.intraAlias.word, ofText c.interAlias.word, ofNat c.maxSteps,
    .bool c.filterInfeasible, .bool c.interprocedural, ofText c.worklistOrder.word])

def isEmptyValue : Json → Bool
  | .array [] | .object [] => true
  | _ => false

/-- The configuration that a configuration file describes. -/
def parse? (text : String) : Option Config := (Toml.parse? text).bind (ofJson? isEmptyValue)

end Config

end LockUsage
