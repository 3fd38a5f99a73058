import LockUsage.Report.Record

/-! The report as text, and the files that it is saved in. -/

namespace LockUsage

def LockStatistic.text (s : LockStatistic) : String :=
  s!"  {s.name} direct={s.direct} if={s.ifGuarded} test={s.testBeforeUse} other={s.other}" ++
    s!" depth={s.callDepth}" ++ (if s.lockWrapper then " [lock wrapper]" else "") ++
    (if s.unlockWrapper then " [unlock wrapper]" else "") ++ "\n"

def FunctionStatistic.text (s : FunctionStatistic) : String :=
  s!"function {s.name}: {s.lockNumber} locks" ++
    s!" ({s.globalLockNumber} global, {s.localLockNumber} local)" ++
    (if s.recursive then ", recursive" else "") ++ "\n" ++
    String.join (s.locks.map LockStatistic.text) ++
    (if s.converged then "" else "  (step limit reached, results are partial)\n")

namespace ModuleStatistic

def diagnosticsText (s : ModuleStatistic) : String :=
  if s.diagnostics.isEmpty then ""
  else "\nDiagnostics:\n" ++ String.join (s.diagnostics.map fun d => "  " ++ d.text ++ "\n")

def text (s : ModuleStatistic) : String :=
  let direct := s.total .direct
  let ifGuarded := s.total .ifGuarded
  let testBeforeUse := s.total .testBeforeUse
  let other := s.total .other
  s!"Lock usage report for {s.name}\n" ++
    s!"Analysis time: {s.time.text}\n" ++
    s!"Functions: {s.functionNumber} ({s.lockFunctionNumber} use locks)\n" ++
    s!"Patterns: direct={direct} if={ifGuarded} test={testBeforeUse} other={other}\n" ++
    String.join (s.functions.map fun f => "\n" ++ f.text) ++ s.diagnosticsText

/-- The names and contents of the files, in the order in which they are written: the text and,
beside it, the record. -/
def savedFiles (s : ModuleStatistic) (path : String) : List (String × String) :=
  [(path, s.text ++ "\n"), (path ++ ".json", s.toJson.pretty)]

end ModuleStatistic

end LockUsage
