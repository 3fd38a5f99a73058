import LockUsage.Program.Basic

/-! Findings of the analysis: anomalies in the use of locks, and warnings about what it does not
follow. An anomaly is recorded once. -/

namespace LockUsage

inductive DiagnosticKind where
  | doubleAcquire
  | doubleRelease
  | releaseWithoutAcquire
  | unreleasedLock
deriving DecidableEq

def DiagnosticKind.text : DiagnosticKind → String
  | doubleAcquire => "double acquire"
  | doubleRelease => "double release"
  | releaseWithoutAcquire => "release without acquire"
  | unreleasedLock => "lock not released at exit"

structure Diagnostic where
  kind : DiagnosticKind
  function : String
  lock : String
  /-- The call at fault. What is found at the exit has none. -/
  site : Option InstId
deriving DecidableEq

def Diagnostic.text (d : Diagnostic) : String :=
  let place := match d.site with
    | some site => s!" at {instText site}"
    | none => ""
  s!"{d.function}: {d.kind.text} of {d.lock}" ++ place

structure Log where
  diagnostics : List Diagnostic
  warnings : List String
deriving DecidableEq

namespace Log

def empty : Log := ⟨[], []⟩

def warn (log : Log) (text : String) : Log := { log with warnings := log.warnings ++ [text] }

def isKnown (log : Log) (d : Diagnostic) : Bool := decide (d ∈ log.diagnostics)

/-- Records an anomaly unless it is known. -/
def report (log : Log) (d : Diagnostic) : Log :=
  if log.isKnown d then log else { log with diagnostics := log.diagnostics ++ [d] }

/-- Adds what a later log has found. -/
def append (log later : Log) : Log :=
  let reported := later.diagnostics.foldl report log
  { reported with warnings := reported.warnings ++ later.warnings }

def count (log : Log) (kind : DiagnosticKind) : Nat :=
  (log.diagnostics.filter fun d => d.kind == kind).length

end Log

end LockUsage
