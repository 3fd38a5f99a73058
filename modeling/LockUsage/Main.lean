import LockUsage.CommandLine.Job

/-! The command line. Options come from a variable of the environment first, and then from the
arguments. -/

namespace LockUsage.CommandLine

def readFile (path : String) : IO FileContent :=
  tryCatch (FileContent.text <$> IO.FS.readFile path) fun e =>
    match e with
    | .noFileOrDirectory .. => pure .missing
    | _ => pure .unreadable

/-- The folders that lead to a file. -/
def folderOf (path : String) : String :=
  String.intercalate "/" (path.splitOn "/").dropLast

def performEffect : Effect → IO Unit
  | .print text => IO.print text
  | .write path text => IO.FS.writeFile path text
  | .writeInFolders path text => do
    let folder := folderOf path
    unless folder.isEmpty do IO.FS.createDirAll folder
    IO.FS.writeFile path text

/-- Has the effects in turn. The result is whether all succeeded. -/
def performAll : List Effect → IO Bool
  | [] => pure true
  | effect :: rest => do
    let done ← tryCatch (do performEffect effect; pure true) fun e => do
      IO.eprintln (toString e)
      pure false
    if done then performAll rest else pure false

def analyse (job : Job) : IO UInt32 := do
  unless ← performAll job.drawing do return 1
  let start ← IO.monoNanosNow
  match job.analysis.report? with
  | none =>
    IO.eprintln JobError.inconsistentProgram.message
    return 1
  | some report =>
    let nanos := (← IO.monoNanosNow) - start
    let report := { report with time := ⟨nanos / 1000000000, nanos % 1000000000⟩ }
    return if ← performAll (Job.publication job.options report) then 0 else 1

def run (flags : String) (arguments : List String) : IO UInt32 := do
  match words? flags with
  | none =>
    IO.eprintln "LUPA_FLAGS has unbalanced quotes"
    return 1
  | some first =>
    match Options.ofArguments (first ++ arguments) with
    | .error e =>
      IO.eprintln e.message
      return 2
    | .ok options =>
      let config ← readFile options.config
      let program ← readFile options.input
      let aliases ← match options.aliasFile with
        | some path => readFile path
        | none => pure .missing
      match Job.prepare options config program aliases with
      | .error e =>
        IO.eprintln e.message
        return 1
      | .ok job => analyse job

end LockUsage.CommandLine

def main (arguments : List String) : IO UInt32 := do
  let flags ← IO.getEnv "LUPA_FLAGS"
  LockUsage.CommandLine.run (flags.getD "") arguments
