import LockUsage.Report.Diagnostic
import LockUsage.Text.Numeral
import LockUsage.Usage.Pairs

/-! What the analysis reports: numbers for each lock of each function, anomalies and warnings. -/

namespace LockUsage

/-- Whether a lock is a global of the program. -/
inductive LockScope where
  | ofProgram
  | ofFunction
deriving DecidableEq

structure LockStatistic where
  name : String
  scope : LockScope
  direct : Nat
  ifGuarded : Nat
  testBeforeUse : Nat
  other : Nat
  /-- The pairs of acquire and release. -/
  usage : Nat
  acquires : Nat
  releases : Nat
  /-- The wrappers on the longest way to a routine. -/
  callDepth : Nat
  /-- The function acquires the lock and never releases it. -/
  lockWrapper : Bool
  /-- The function releases the lock and never acquires it. -/
  unlockWrapper : Bool
deriving DecidableEq

namespace LockStatistic

def empty (name : String) (scope : LockScope) : LockStatistic where
  name := name
  scope := scope
  direct := 0
  ifGuarded := 0
  testBeforeUse := 0
  other := 0
  usage := 0
  acquires := 0
  releases := 0
  callDepth := 0
  lockWrapper := false
  unlockWrapper := false

/-- Counts a pair of acquire and release. -/
def record (s : LockStatistic) : Usage → LockStatistic
  | .direct => { s with direct := s.direct + 1, usage := s.usage + 1 }
  | .ifGuarded => { s with ifGuarded := s.ifGuarded + 1, usage := s.usage + 1 }
  | .testBeforeUse => { s with testBeforeUse := s.testBeforeUse + 1, usage := s.usage + 1 }
  | .other => { s with other := s.other + 1, usage := s.usage + 1 }

def count (s : LockStatistic) : Usage → Nat
  | .direct => s.direct
  | .ifGuarded => s.ifGuarded
  | .testBeforeUse => s.testBeforeUse
  | .other => s.other

end LockStatistic

structure FunctionStatistic where
  name : String
  lockNumber : Nat
  globalLockNumber : Nat
  localLockNumber : Nat
  /-- The function may call itself, directly or through others. -/
  recursive : Bool
  /-- No run gave up. -/
  converged : Bool
  locks : List LockStatistic
deriving DecidableEq

namespace FunctionStatistic

def empty (name : String) : FunctionStatistic where
  name := name
  lockNumber := 0
  globalLockNumber := 0
  localLockNumber := 0
  recursive := false
  converged := true
  locks := []

def push (s : FunctionStatistic) (lock : LockStatistic) : FunctionStatistic :=
  { s with
    lockNumber := s.lockNumber + 1
    globalLockNumber := s.globalLockNumber + (if lock.scope = .ofProgram then 1 else 0)
    localLockNumber := s.localLockNumber + (if lock.scope = .ofProgram then 0 else 1)
    locks := s.locks ++ [lock] }

/-- Every lock of the function is only acquired, and there is one. -/
def isLockWrapper (s : FunctionStatistic) : Bool := !s.locks.isEmpty && s.locks.all (·.lockWrapper)

/-- Every lock of the function is only released, and there is one. -/
def isUnlockWrapper (s : FunctionStatistic) : Bool :=
  !s.locks.isEmpty && s.locks.all (·.unlockWrapper)

def count (s : FunctionStatistic) (usage : Usage) : Nat :=
  s.locks.foldr (fun lock n => lock.count usage + n) 0

def lock? (s : FunctionStatistic) (name : String) : Option LockStatistic :=
  s.locks.find? fun l => l.name == name

end FunctionStatistic

/-- A time of whole seconds and less than a second in nanoseconds. -/
structure Duration where
  secs : Nat
  nanos : Nat
deriving DecidableEq

structure ModuleStatistic where
  name : String
  functionNumber : Nat
  lockFunctionNumber : Nat
  functions : List FunctionStatistic
  diagnostics : List Diagnostic
  warnings : List String
  time : Duration
deriving DecidableEq

namespace ModuleStatistic

def function? (s : ModuleStatistic) (name : String) : Option FunctionStatistic :=
  s.functions.find? fun f => f.name == name

def total (s : ModuleStatistic) (usage : Usage) : Nat :=
  s.functions.foldr (fun f n => f.count usage + n) 0

/-- The totals are numbers of 32 bits. -/
def isCountable (s : ModuleStatistic) : Bool :=
  Usage.all.all fun usage => s.total usage < Text.valuesOf 32

def countOf (s : ModuleStatistic) (kind : DiagnosticKind) : Nat :=
  (s.diagnostics.filter fun d => d.kind == kind).length

end ModuleStatistic

end LockUsage
