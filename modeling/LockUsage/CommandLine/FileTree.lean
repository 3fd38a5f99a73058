import LockUsage.CommandLine.Job

/-! Files in memory, and what the command line does to them. -/

namespace LockUsage.CommandLine

/-- A file or folder by the names that lead to it. A path that starts with `..` leads out of the
folder in which a run takes place, and one that starts with `/` starts at the top. -/
abbrev Path := List String

structure FileTree where
  files : List (Path × String)
  /-- Folders, as far as they are not there because of the files in them. -/
  folders : List Path

/-- What the names of a path lead to. -/
inductive Place where
  | folder (path : Path)
  | file (path : Path) (content : String)
  /-- There is a folder, but nothing of that name in it. -/
  | absent (folder : Path) (name : String)
  | nowhere

/-- The folder that a folder is in. -/
def Path.parent (path : Path) : Path :=
  if path = ["/"] then path
  else if path.all (· == "..") then path ++ [".."]
  else path.dropLast

/-- The number of bytes that names and whole paths may have. -/
def nameLimit : Nat := 255

def pathLimit : Nat := 4095

namespace FileTree

/-- Folders outside of the one in which a run takes place are there, but hold nothing known. -/
def isFolder (t : FileTree) (path : Path) : Bool :=
  path = ["/"] || path.all (· == "..") ||
    (t.folders ++ t.files.map (·.1.dropLast)).any fun folder => path.isPrefixOf folder

/-- Goes one name further. Only folders can be left. -/
def enter (t : FileTree) (place : Place) (name : String) : Place :=
  match place with
  | .folder path =>
    if name = "" ∨ name = "." then place
    else if name = ".." then .folder (Path.parent path)
    else if nameLimit < name.utf8ByteSize then .nowhere
    else
      match t.files.lookup (path ++ [name]) with
      | some content => .file (path ++ [name]) content
      | none => if t.isFolder (path ++ [name]) then .folder (path ++ [name]) else .absent path name
  | .file _ _ | .absent _ _ | .nowhere => .nowhere

/-- Where a path starts. -/
def origin (text : String) : Place := .folder (if text.startsWith "/" then ["/"] else [])

def find (t : FileTree) (text : String) : Place :=
  if text.isEmpty ∨ pathLimit < text.utf8ByteSize then .nowhere
  else (text.splitOn "/").foldl t.enter (origin text)

def read (t : FileTree) (text : String) : FileContent :=
  match t.find text with
  | .file _ content => .text content
  | .folder _ => .unreadable
  | .absent _ _ | .nowhere => .missing

/-- Replaces the content of a file, or adds it. -/
def put (path : Path) (text : String) : List (Path × String) → List (Path × String)
  | [] => [(path, text)]
  | (p, old) :: rest => if p = path then (p, text) :: rest else (p, old) :: put path text rest

/-- Writes a file. The folder has to be there, and the name may not be that of a folder. -/
def write? (t : FileTree) (text content : String) : Option FileTree :=
  match t.find text with
  | .file path _ => some { t with files := put path content t.files }
  | .absent folder name => some { t with files := put (folder ++ [name]) content t.files }
  | .folder _ | .nowhere => none

/-- Makes the folders of the given names, each in the one before, until one cannot be made. Says
whether all are there. -/
def makeFrom (t : FileTree) (place : Place) : List String → FileTree × Bool
  | [] => (t, true)
  | name :: rest =>
    match t.enter place name with
    | .folder path => makeFrom t (.folder path) rest
    | .absent folder name =>
      let path := folder ++ [name]
      makeFrom { t with folders := t.folders ++ [path] } (.folder path) rest
    | .file _ _ | .nowhere => (t, false)

/-- Makes the folders that lead to a file. -/
def makeFolders (t : FileTree) (text : String) : FileTree × Bool :=
  let names := (text.splitOn "/").filter fun name => name != "" && name != "."
  t.makeFrom (origin text) names.dropLast

end FileTree

/-- What a run of the command line leaves behind. -/
structure Outcome where
  exitCode : Nat
  printed : String
  tree : FileTree

/-- Has the effects in turn, until one fails. -/
def perform (printed : String) (tree : FileTree) : List Effect → Outcome
  | [] => ⟨0, printed, tree⟩
  | .print text :: rest => perform (printed ++ text) tree rest
  | .write path text :: rest =>
    match tree.write? path text with
    | some tree => perform printed tree rest
    | none => ⟨1, printed, tree⟩
  | .writeInFolders path text :: rest =>
    match tree.makeFolders path with
    | (made, false) => ⟨1, printed, made⟩
    | (made, true) =>
      match made.write? path text with
      | some tree => perform printed tree rest
      | none => ⟨1, printed, made⟩

/-- Runs the command line on files in memory. Options come from a line of flags first, and then from
the arguments. -/
def runIn (tree : FileTree) (flags : String) (arguments : List String) : Outcome :=
  match words? flags with
  | none => ⟨1, "", tree⟩
  | some first =>
    match Options.ofArguments (first ++ arguments) with
    | .error _ => ⟨2, "", tree⟩
    | .ok options =>
      match Job.prepare options (tree.read options.config) (tree.read options.input)
          (tree.read (options.aliasFile.getD "")) with
      | .error _ => ⟨1, "", tree⟩
      | .ok job =>
        let drawn := perform "" tree job.drawing
        if drawn.exitCode ≠ 0 then drawn
        else
          match job.analysis.report? with
          | none => ⟨1, "", drawn.tree⟩
          | some report => perform "" drawn.tree (Job.publication options report)

end LockUsage.CommandLine
