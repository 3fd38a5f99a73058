import LockUsage.CommandLine.Words

/-! The options of the command line.

Arguments are read from left to right. An unknown option is an error at once. An option that is
followed by its value is checked only when the next known option, the program or the end of the
arguments is reached. -/

namespace LockUsage.CommandLine

/-- Where the identity of locks comes from. -/
inductive AliasMode where
  | name
  | all
  | file
deriving DecidableEq

structure Options where
  input : String
  config : String
  aliasMode : AliasMode
  aliasFile : Option String
  output : Option String
  vizCallgraph : Option String
  quiet : Bool
deriving DecidableEq

inductive OptionError where
  | mismatchedQuotes
  | unknownArgument
  /-- A value is missing, or is none of the words allowed. -/
  | invalidValue
  | missingProgram
  /-- An option is given twice. -/
  | argumentConflict
  /-- A flag is given a value. -/
  | tooManyValues
  | displayHelp
  | displayVersion
  | missingAliasFile
deriving DecidableEq

def OptionError.message : OptionError → String
  | mismatchedQuotes => "mismatched quotes"
  | unknownArgument => "unexpected argument"
  | invalidValue => "invalid or missing value"
  | missingProgram => "the program is missing"
  | argumentConflict => "an option is given twice"
  | tooManyValues => "a flag takes no value"
  | displayHelp => "usage: lupa [OPTIONS] PROGRAM"
  | displayVersion => "lupa v0.1.0"
  | missingAliasFile => "`--alias file` requires `--alias-file`"

/-- What takes a value. -/
inductive Setting where
  | input
  | config
  | alias
  | aliasFile
  | output
  | vizCallgraph
deriving DecidableEq

inductive Switch where
  | setting (setting : Setting)
  | quiet
  | help
  | version

def longSwitch? : String → Option Switch
  | "config" => some (.setting .config)
  | "alias" => some (.setting .alias)
  | "alias-file" => some (.setting .aliasFile)
  | "output" => some (.setting .output)
  | "viz-callgraph" => some (.setting .vizCallgraph)
  | "quiet" => some .quiet
  | "help" => some .help
  | "version" => some .version
  | _ => none

def shortSwitch? : Char → Option Switch
  | 'c' => some (.setting .config)
  | 'a' => some (.setting .alias)
  | 'o' => some (.setting .output)
  | 'q' => some .quiet
  | 'h' => some .help
  | 'V' => some .version
  | _ => none

def aliasMode? : String → Option AliasMode
  | "name" => some .name
  | "all" => some .all
  | "file" => some .file
  | _ => none

/-- What is read so far. -/
structure Scan where
  /-- The settings that are checked. -/
  given : List (Setting × String)
  quiet : Bool
  /-- A setting that is not checked yet, with its value if that was read. -/
  pending : Option (Setting × Option String)
  /-- The program was read. -/
  hasInput : Bool

namespace Scan

def start : Scan := ⟨[], false, none, false⟩

/-- Checks a setting and keeps it. -/
def keep (s : Scan) (setting : Setting) (value : String) : Except OptionError Scan :=
  if (s.given.lookup setting).isSome then .error .argumentConflict
  else if setting = .alias ∧ aliasMode? value = none then .error .invalidValue
  else .ok { s with given := s.given ++ [(setting, value)] }

/-- Checks the pending setting. -/
def settle (s : Scan) : Except OptionError Scan :=
  match s.pending with
  | none => .ok s
  | some (_, none) => .error .invalidValue
  | some (setting, some value) => keep { s with pending := none } setting value

/-- A setting whose value is attached, or is the next argument. -/
def takeSetting (s : Scan) (setting : Setting) (attached : Option String) :
    Except OptionError Scan := do
  let s ← s.settle
  match attached with
  | some value => s.keep setting value
  | none => return { s with pending := some (setting, none) }

/-- An option without a value. -/
def takeFlag (s : Scan) (switch : Switch) : Except OptionError Scan := do
  let s ← s.settle
  match switch with
  | .help => .error .displayHelp
  | .version => .error .displayVersion
  | .setting _ | .quiet =>
    if s.quiet then .error .argumentConflict else return { s with quiet := true }

/-- An option of two hyphens, without them. -/
def takeLong (s : Scan) (text : List Char) : Except OptionError Scan :=
  let name := text.takeWhile (· != '=')
  let attached := match text.drop name.length with
    | [] => none
    | _ :: value => some (String.ofList value)
  match longSwitch? (String.ofList name) with
  | none => .error .unknownArgument
  | some (.setting setting) => s.takeSetting setting attached
  | some switch => if attached.isSome then .error .tooManyValues else s.takeFlag switch

/-- Options of one letter each, after the hyphen. What follows the letter of a setting is its
value. -/
def takeShort (s : Scan) : List Char → Except OptionError Scan
  | [] => .ok s
  | c :: rest =>
    match shortSwitch? c with
    | none => .error .unknownArgument
    | some (.setting setting) =>
      s.takeSetting setting (match rest with
        | [] => none
        | '=' :: value => some (String.ofList value)
        | value => some (String.ofList value))
    | some switch => do takeShort (← s.takeFlag switch) rest

/-- An argument that is no option: the program. -/
def takeInput (s : Scan) (value : String) : Except OptionError Scan :=
  if s.hasInput then .error .unknownArgument
  else do
    let s ← s.settle
    return { s with pending := some (.input, some value), hasInput := true }

/-- Reads the arguments. After `--` there are no options any more. -/
def take (s : Scan) (onlyInput : Bool) : List String → Except OptionError Scan
  | [] => s.settle
  | argument :: rest =>
    if onlyInput then do take (← s.takeInput argument) true rest
    else if argument = "--" then take s true rest
    else
      match argument.toList with
      | '-' :: '-' :: text => do take (← s.takeLong text) false rest
      | '-' :: c :: text => do take (← s.takeShort (c :: text)) false rest
      | _ =>
        match s.pending with
        | some (setting, none) =>
          take { s with pending := some (setting, some argument) } false rest
        | _ => do take (← s.takeInput argument) false rest

/-- The options that the settings amount to. -/
def options (s : Scan) : Except OptionError Options := do
  let get := fun setting => s.given.lookup setting
  let input ← match get .input with
    | some input => pure input
    | none => .error .missingProgram
  let aliasFile := get .aliasFile
  let mode := ((get .alias).bind aliasMode?).getD .name
  if aliasFile.isNone && mode == .file then .error .missingAliasFile
  else
    return {
      input := input
      config := (get .config).getD "lupa.toml"
      aliasMode := if aliasFile.isSome then .file else mode
      aliasFile := aliasFile
      output := get .output
      vizCallgraph := get .vizCallgraph
      quiet := s.quiet }

end Scan

/-- The options that a list of arguments writes. -/
def Options.ofArguments (arguments : List String) : Except OptionError Options := do
  (← Scan.start.take false arguments).options

/-- The options that a line writes. -/
def Options.ofLine (line : String) : Except OptionError Options :=
  match words? line with
  | none => .error .mismatchedQuotes
  | some arguments => Options.ofArguments arguments

end LockUsage.CommandLine
