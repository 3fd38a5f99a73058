import LockUsage.Alias.SetText
import LockUsage.Analysis.Basic
import LockUsage.Analysis.ConfigReader
import LockUsage.CommandLine.Options
import LockUsage.Graph.CallGraph
import LockUsage.Program.Reader
import LockUsage.Report.Files

/-! What the command line does: it reads files, analyses the program and has effects. -/

namespace LockUsage.CommandLine

/-- What is found under a file's name. -/
inductive FileContent where
  | missing
  /-- There is something, but no text. -/
  | unreadable
  | text (text : String)

inductive JobError where
  | unreadableConfig
  | malformedConfig
  | program (error : ProgramError)
  | aliasSets (error : AliasSetError)
  | malformedPattern
  /-- An id of the program is out of range. -/
  | inconsistentProgram

def JobError.message : JobError → String
  | unreadableConfig => "failed to read the configuration"
  | malformedConfig => "failed to parse the configuration"
  | program error => "failed to load the program: " ++ error.message
  | aliasSets error => "failed to load alias sets: " ++ error.message
  | malformedPattern => "invalid lock primitive pattern"
  | inconsistentProgram => "the program is inconsistent"

/-- The configuration of a file. Without a file the defaults apply. -/
def readConfig : FileContent → Except JobError Config
  | .missing => .ok .default
  | .unreadable => .error .unreadableConfig
  | .text text =>
    match Config.parse? text with
    | some config => .ok config
    | none => .error .malformedConfig

def readProgram : FileContent → Except ProgramError Program
  | .text text => Program.parse text
  | .missing | .unreadable => .error .unreadable

def readAliasSets : FileContent → Except AliasSetError (List AliasSet)
  | .text text => AliasSet.parse text
  | .missing | .unreadable => .error .unreadable

/-- Where alias answers come from. Only one mode needs the file. -/
def readAliasSource (mode : AliasMode) (content : FileContent) : Except JobError AliasSource :=
  match mode with
  | .name => .ok .names
  | .all => .ok .everything
  | .file =>
    match readAliasSets content with
    | .ok sets => .ok (.sets sets)
    | .error e => .error (.aliasSets e)

/-- An analysis that can start. -/
structure Job where
  options : Options
  analysis : Analysis

/-- Makes the job out of the files that the options name. -/
def Job.prepare (options : Options) (config program aliases : FileContent) :
    Except JobError Job := do
  let config ← readConfig config
  let program ← match readProgram program with
    | .ok p => pure p
    | .error e => .error (.program e)
  let source ← readAliasSource options.aliasMode aliases
  let api ← match LockApi.of? config with
    | some api => pure api
    | none => .error .malformedPattern
  match CallGraph.of? program with
  | some graph => return ⟨options, program, source, config, api, graph⟩
  | none => .error .inconsistentProgram

inductive Effect where
  /-- Writes a file after the folders that lead to it are made. -/
  | writeInFolders (path text : String)
  | write (path text : String)
  | print (text : String)
deriving DecidableEq

namespace Job

/-- The drawing of the call graph. -/
def drawing (job : Job) : List Effect :=
  match job.options.vizCallgraph with
  | some path => [.writeInFolders path (job.analysis.graph.dot job.analysis.program)]
  | none => []

/-- What is done with the report. -/
def publication (options : Options) (report : ModuleStatistic) : List Effect :=
  (if options.quiet then [] else [.print (report.text ++ "\n")]) ++
    match options.output with
    | some path => (report.savedFiles path).map fun (path, text) => .write path text
    | none => []

end Job

end LockUsage.CommandLine
