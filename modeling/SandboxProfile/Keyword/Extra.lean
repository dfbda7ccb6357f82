import SandboxProfile.Config.Load
import SandboxProfile.Keyword.Builtin
import SandboxProfile.Text.Line
import SandboxProfile.Yaml.Reader

/-!
# Additional keywords

Keywords can be added in the configuration, and in keyword files, which stand in a directory
of their own. A keyword file lists entries, each with a category and a list of words; a file
may also hold a single entry. A mistake in any file refuses all of them.

## Main definitions

* `CatalogError` is why keywords cannot be added.
* `Declaration.ofLists` are the declarations of a configuration.
* `KeywordFile.declarations` are those of a keyword file.
* `KeywordFile.readAll` reads all keyword files of a directory.
* `Catalog.load` is the catalog of a run.
-/

namespace SandboxProfile

/-- Why keywords cannot be added. -/
inductive CatalogError where
  /-- The words of a category in the configuration are no list of texts. -/
  | invalidList (c : Category) (literal : Text)
  /-- A keyword file cannot be opened. -/
  | unreadable (path : Text) (e : AccessError)
  /-- A keyword file does not follow the grammar. -/
  | malformed (path : Text)
  /-- An entry has no category. -/
  | noCategory (path : Text)
  /-- The category of an entry is not known. -/
  | unknownCategory (path : Text) (literal : Text)
  /-- The words of an entry are no list of texts. -/
  | invalidWords (path : Text) (literal : Text)
  deriving DecidableEq, Repr

/-- The wording of the error. -/
def CatalogError.message : CatalogError → Text
  | invalidList c literal => (Setting.keywords c).refusal literal
  | unreadable path e => "Failed to read ".toList ++ path ++ [':', ' '] ++ e.message path
  | malformed path => "Failed to read ".toList ++ path ++ [':', ' '] ++ malformedDetail
  | noCategory path => path ++ ": each entry needs a 'category' key".toList
  | unknownCategory path literal => path ++ ": unknown category ".toList ++ literal
  | invalidWords path literal =>
    path ++ ": 'keywords' must be a list of strings, got ".toList ++ literal

/-! ### Lists of words -/

/-- Declare words in a category. -/
def declareAll (c : Category) (words : List Text) : List Declaration :=
  words.map fun w => (w, c)

/-- The texts that a value lists, or an error that shows the value. -/
def textsOr (v : Value) (refuse : Text → CatalogError) :
    Except (Failure CatalogError) (List Text) :=
  match v.texts? with
  | some ts => .ok ts
  | none => do
    let literal ← v.literal
    .error (.reported (refuse literal))

/-- The declarations of categories whose words are given as values. -/
def declareLists (lists : Category → Value) :
    List Category → Except (Failure CatalogError) (List Declaration)
  | [] => .ok []
  | c :: rest => do
    let words ← textsOr (lists c) (.invalidList c)
    return declareAll c words ++ (← declareLists lists rest)

namespace KeywordFile

/-! ### Entries -/

/-- The category of an entry. Only a text can name one. -/
def categoryOf (path : Text) (v : Value) : Except (Failure CatalogError) Category :=
  let named :=
    match v with
    | .text s => (Category.parse s).toOption
    | _ => none
  match named with
  | some c => .ok c
  | none => do
    let literal ← v.literal
    .error (.reported (.unknownCategory path literal))

/-- The declarations of an entry. An entry without words has none. -/
def entry (path : Text) (v : Value) : Except (Failure CatalogError) (List Declaration) :=
  match v with
  | .table entries =>
    match Value.get? "category".toList entries with
    | none => .error (.reported (.noCategory path))
    | some category => do
      let c ← categoryOf path category
      let words := (Value.get? "keywords".toList entries).getD (.list [])
      return declareAll c (← textsOr words (.invalidWords path))
  | _ => .error (.reported (.noCategory path))

/-- The declarations of several entries. -/
def entries (path : Text) : List Value → Except (Failure CatalogError) (List Declaration)
  | [] => .ok []
  | v :: rest => do
    let first ← entry path v
    return first ++ (← entries path rest)

/-- The declarations of a keyword file that holds a value. -/
def declarations (path : Text) (v : Value) : Except (Failure CatalogError) (List Declaration) :=
  match v with
  | .null => .ok []
  | .list vs => entries path vs
  | _ => entry path v

/-! ### Files -/

/-- The value that a keyword file holds. The file is decoded before any of it is read, so bytes
that are no text count before a mistake in the document, also where the mistake comes a long
way before them. -/
def value (path : Text) (item : Item) : Except (Failure CatalogError) Value :=
  match item with
  | .directory => .error (.reported (.unreadable path .isDirectory))
  | .file f =>
    if f.access = .none then .error (.reported (.unreadable path .denied))
    else
      match Utf8.decodeStream f.content with
      | .error e => .error (.fault (.undecodable e))
      | .ok s =>
        match Yaml.read (unifyBreaks s) with
        | .ok v => .ok v
        | .error .malformed => .error (.reported (.malformed path))
        | .error (.fault e) => .error (.fault e)

/-- The suffixes of keyword files. -/
def suffixes : List Text :=
  [".yaml".toList, ".yml".toList]

/-- The declarations of keyword files, which messages show inside of a directory. -/
def readFiles (directory : Text) :
    List (Text × Item) → Except (Failure CatalogError) (List Declaration)
  | [] => .ok []
  | (name, item) :: rest =>
    if suffixes.contains (Path.suffix name) then do
      let path := Path.below directory [name]
      let first ← declarations path (← value path item)
      return first ++ (← readFiles directory rest)
    else readFiles directory rest

/-- The declarations of all keyword files of a directory in the order of their names; there are
none without the directory. The directory is looked for at `path` and shown as `shown`. -/
def readAll (tree : FileTree) (path shown : Text) :
    Except (Failure CatalogError) (List Declaration) :=
  if tree.isTooLong (Path.normal path) then .error (.fault .pathTooLong)
  else
    match tree.directory? (Path.normal path) with
    | none => .ok []
    | some l => readFiles (Path.normal shown) (tree.children l)

/-- The directory of the keyword files. -/
def directoryName : Text :=
  ".jailfmt-keywords".toList

end KeywordFile

/-- The declarations of the builtin keywords, then of those that are given as values, then of
those in keyword files. Messages show the files inside of `root`. -/
def Catalog.loadFrom (lists : Category → Value) (tree : FileTree) (root : Text) :
    Except (Failure CatalogError) Catalog := do
  let given ← declareLists lists Category.all
  let name := KeywordFile.directoryName
  let custom ← KeywordFile.readAll tree name (Path.below root [name])
  return Catalog.ofDeclarations (builtinDeclarations ++ given ++ custom)

/-- The catalog of a run with a configuration. -/
def Catalog.load (config : Config) (tree : FileTree) (root : Text) :
    Except (Failure CatalogError) Catalog :=
  Catalog.loadFrom (fun c => Value.ofTexts (config.keywords c)) tree root

end SandboxProfile
