import LockUsage.Json.Printer
import LockUsage.Json.Record
import LockUsage.Report.Duration

/-! The report as a JSON record. -/

namespace LockUsage

open Json

namespace DiagnosticKind

def word : DiagnosticKind → String
  | doubleAcquire => "DoubleAcquire"
  | doubleRelease => "DoubleRelease"
  | releaseWithoutAcquire => "ReleaseWithoutAcquire"
  | unreleasedLock => "UnreleasedLock"

def ofWord? : String → Option DiagnosticKind
  | "DoubleAcquire" => some doubleAcquire
  | "DoubleRelease" => some doubleRelease
  | "ReleaseWithoutAcquire" => some releaseWithoutAcquire
  | "UnreleasedLock" => some unreleasedLock
  | _ => none

end DiagnosticKind

namespace Diagnostic

def toJson (d : Diagnostic) : Json :=
  Json.record [("kind", ofText d.kind.word), ("function", ofText d.function),
    ("lock", ofText d.lock), ("site", ofOption ofNat d.site)]

def fieldNames : List String := ["kind", "function", "lock", "site"]

/-- The site may be absent from an object, but an array lists all fields. -/
def ofJson? (json : Json) : Option Diagnostic :=
  let absent := match json with
    | .array _ => none
    | _ => some none
  match fields? fieldNames json with
  | some [kind, function, lock, site] => do
    let word ← required (asWord? isNull) kind
    return ⟨← DiagnosticKind.ofWord? word, ← required asText? function, ← required asText? lock,
      ← site.elim absent (asOption? (asNat? 32))⟩
  | _ => none

end Diagnostic

namespace LockScope

def word : LockScope → String
  | ofProgram => "Global"
  | ofFunction => "Local"

def ofWord? : String → Option LockScope
  | "Global" => some ofProgram
  | "Local" => some ofFunction
  | _ => none

end LockScope

namespace LockStatistic

def fieldNames : List String :=
  ["name", "lock_type", "direct_lock_number", "if_lock_number", "test_lock_number",
    "other_lock_number", "lock_usage", "acquire_number", "release_number", "call_depth",
    "lock_wrapper", "unlock_wrapper"]

def toJson (s : LockStatistic) : Json :=
  Json.record (fieldNames.zip [ofText s.name, ofText s.scope.word, ofNat s.direct,
    ofNat s.ifGuarded, ofNat s.testBeforeUse, ofNat s.other, ofNat s.usage, ofNat s.acquires,
    ofNat s.releases, ofNat s.callDepth, .bool s.lockWrapper, .bool s.unlockWrapper])

def ofJson? (json : Json) : Option LockStatistic :=
  let count := required (asNat? 32)
  match fields? fieldNames json with
  | some [name, scope, direct, ifGuarded, testBeforeUse, other, usage, acquires, releases,
      callDepth, lockWrapper, unlockWrapper] => do
    let word ← required (asWord? isNull) scope
    return {
      name := ← required asText? name
      scope := ← LockScope.ofWord? word
      direct := ← count direct
      ifGuarded := ← count ifGuarded
      testBeforeUse := ← count testBeforeUse
      other := ← count other
      usage := ← count usage
      acquires := ← count acquires
      releases := ← count releases
      callDepth := ← count callDepth
      lockWrapper := ← required asBool? lockWrapper
      unlockWrapper := ← required asBool? unlockWrapper }
  | _ => none

end LockStatistic

namespace FunctionStatistic

def fieldNames : List String :=
  ["function_name", "lock_number", "global_lock_number", "local_lock_number", "recursive",
    "converged", "locks"]

def toJson (s : FunctionStatistic) : Json :=
  Json.record (fieldNames.zip [ofText s.name, ofNat s.lockNumber, ofNat s.globalLockNumber,
    ofNat s.localLockNumber, .bool s.recursive, .bool s.converged,
    ofList LockStatistic.toJson s.locks])

def ofJson? (json : Json) : Option FunctionStatistic :=
  let count := required (asNat? 64)
  match fields? fieldNames json with
  | some [name, lockNumber, globalLockNumber, localLockNumber, recursive, converged, locks] => do
    return {
      name := ← required asText? name
      lockNumber := ← count lockNumber
      globalLockNumber := ← count globalLockNumber
      localLockNumber := ← count localLockNumber
      recursive := ← required asBool? recursive
      converged := ← required asBool? converged
      locks := ← required (asList? LockStatistic.ofJson?) locks }
  | _ => none

end FunctionStatistic

namespace Duration

def toJson (d : Duration) : Json :=
  Json.record [("secs", ofNat d.secs), ("nanos", ofNat d.nanos)]

/-- A record that has no other fields. -/
def ofJson? (json : Json) : Option Duration :=
  let known : Bool := match json with
    | .object members => members.all fun m => m.1.text? == some "secs" || m.1.text? == some "nanos"
    | _ => true
  match known, fields? ["secs", "nanos"] json with
  | true, some [secs, nanos] => do
    of? (← required (asNat? 64) secs) (← required (asNat? 32) nanos)
  | _, _ => none

end Duration

namespace ModuleStatistic

def fieldNames : List String :=
  ["application_name", "function_number", "lock_function_number", "functions", "diagnostics",
    "warnings", "analysis_time"]

def toJson (s : ModuleStatistic) : Json :=
  Json.record (fieldNames.zip [ofText s.name, ofNat s.functionNumber, ofNat s.lockFunctionNumber,
    ofList FunctionStatistic.toJson s.functions, ofList Diagnostic.toJson s.diagnostics,
    ofList ofText s.warnings, s.time.toJson])

def ofJson? (json : Json) : Option ModuleStatistic :=
  match fields? fieldNames json with
  | some [name, functionNumber, lockFunctionNumber, functions, diagnostics, warnings, time] => do
    return {
      name := ← required asText? name
      functionNumber := ← required (asNat? 64) functionNumber
      lockFunctionNumber := ← required (asNat? 64) lockFunctionNumber
      functions := ← required (asList? FunctionStatistic.ofJson?) functions
      diagnostics := ← required (asList? Diagnostic.ofJson?) diagnostics
      warnings := ← required (asList? asText?) warnings
      time := ← required Duration.ofJson? time }
  | _ => none

end ModuleStatistic

end LockUsage
