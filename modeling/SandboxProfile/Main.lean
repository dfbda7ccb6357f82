import SandboxProfile.Command.Run

/-!
# The program

The files that a command line names are gathered into a tree, the command runs on the tree,
and the files in which the tree has changed are written back. What a command prints and
where its exit code comes from is decided by `runArguments`.

## Main definitions

* `gatherAll` reads the files that a command may look at.
* `main` runs the command line.
-/

namespace SandboxProfile

/-! ### Gathering files -/

/-- The names in a directory of the file system; `none` if there is no directory. -/
def namesAt? (path : String) : IO (Option (List String)) := do
  let start ← IO.currentDir
  try
    let entries ← (start / path).readDir
    return some (entries.toList.map fun e => e.fileName)
  catch _ => return none

/-- Can the file be opened for writing? Opening it at its end leaves it as it is. -/
def isWritable (path : String) : IO Bool := do
  try
    let _ ← IO.FS.Handle.mk path .append
    return true
  catch _ => return false

/-- The file at a path of the file system; `none` if nothing is there. -/
def fileAt? (path : String) : IO (Option File) := do
  try
    let bytes ← IO.FS.readBinFile path
    return some ⟨bytes.toList, if ← isWritable path then .full else .readOnly⟩
  catch
    | .permissionDenied _ _ _ => return some ⟨[], .none⟩
    | _ => return none

/-- Add what is at a path of the file system, down to a depth that no profile is below. -/
def gather : Nat → String → Location → FileTree → IO FileTree
  | 0, _, _, t => return t
  | depth + 1, path, l, t => do
    match ← namesAt? path with
    | some names =>
      let t := if FileTree.isAround l then t else t.put l .directory
      names.foldlM
        (fun t name => gather depth (path ++ "/" ++ name) (l ++ [name.toList]) t) t
    | none =>
      match ← fileAt? path with
      | some f => return t.put l (.file f)
      | none => return t

/-- Add what stands on the way that names lead, and all that is at its end. -/
def gatherAlong (path : String) (l : Location) : List Text → FileTree → IO FileTree
  | [], t => gather 64 path l t
  | name :: rest, t => do
    let t ← if FileTree.isAround l then pure t else gather 1 path l t
    gatherAlong (path ++ "/" ++ String.ofList name) (FileTree.follow l name) rest t

/-- Add what a path leads to. -/
def gatherPath (t : FileTree) (path : Text) : IO FileTree := do
  if path = standardInput ∨ path.contains '\x00' then return t
  gatherAlong (if Path.isAbsolute path then "/" else ".") (FileTree.startOf path)
    (Path.names path) t

/-- All files that a command may look at. -/
def gatherAll (c : Command) : IO FileTree :=
  let paths := [Config.fileName, KeywordFile.directoryName] ++ c.configPath?.toList ++ c.paths
  paths.foldlM gatherPath FileTree.empty

/-! ### Running -/

/-- The bytes on the standard input. -/
partial def readInputBytes (input : IO.FS.Stream) (soFar : ByteArray) : IO ByteArray := do
  let more ← input.read 65536
  if more.isEmpty then return soFar else readInputBytes input (soFar ++ more)

/-- The path of a place in the file system. -/
def pathOf (l : Location) : String :=
  String.ofList <|
    match l with
    | ['/'] :: rest => '/' :: Text.joined ['/'] rest
    | _ => Text.joined ['/'] l

/-- The wording of an error in the command line. -/
def UsageError.message : UsageError → String
  | unknownOption => "no such option"
  | misusedOption => "an option lacks its value, or has one and takes none"
  | badValue => "an option has a value that it cannot have"
  | badArguments => "no such command, or too many arguments"

/-- The exit code of an ending, after a message where no note has told what went wrong. -/
def exitCode (errors : IO.FS.Stream) : Ending → IO UInt32
  | .exit code => return UInt32.ofNat code
  | .usage e => do
    errors.putStrLn ("Usage error: " ++ e.message)
    return 2
  | .fault f => do
    errors.putStrLn ("Fault: " ++ String.ofList f.message)
    return 1

/-- The environment of the process. -/
def readEnvironment : IO Environment := do
  let lookup (name : String) : IO (Option Text) :=
    return (← IO.getEnv name).map String.toList
  return ⟨← lookup "JAILFMT_INDENT_OFFSET", ← lookup "JAILFMT_USE_TABS",
    ← lookup "JAILFMT_FORMAT"⟩

/-- Run a command line on the files and streams of the process. -/
def runProcess (arguments : List Text) : IO UInt32 := do
  let command := Command.ofArguments arguments
  let tree ← match command with
    | .ok c => gatherAll c
    | .error _ => pure FileTree.empty
  let input ← match command with
    | .ok c => if c.mayReadInput then readInputBytes (← IO.getStdin) .empty else pure .empty
    | .error _ => pure .empty
  let root := (← IO.currentDir).toString.toList
  let outcome := runArguments ⟨tree, root, ← readEnvironment, input.toList⟩ arguments
  for (l, bytes) in tree.changes outcome.tree do
    IO.FS.writeBinFile (pathOf l) ⟨bytes.toArray⟩
  (← IO.getStdout).putStr (String.ofList outcome.output)
  let errors ← IO.getStderr
  errors.putStr (String.ofList (outcome.notes.flatMap Note.shown))
  exitCode errors outcome.ending

end SandboxProfile

/-- The program. -/
def main (arguments : List String) : IO UInt32 :=
  SandboxProfile.runProcess (arguments.map String.toList)
