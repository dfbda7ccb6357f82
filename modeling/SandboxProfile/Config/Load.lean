import SandboxProfile.Config.Setting
import SandboxProfile.Text.Integer
import SandboxProfile.Toml.Reader

/-!
# Loading a configuration

The configuration of a run comes from a file, and variables of the environment override
single settings of it. The file is the one that the command line names, or else the one in
the working directory, if there is one. A variable whose value makes no sense is ignored,
except that every value turns tabs on or off.

## Main definitions

* `Environment` holds the variables.
* `ConfigFile.find` looks for the file.
* `Config.load` loads the configuration.
-/

namespace SandboxProfile

/-- The variables of the environment that override settings. -/
structure Environment where
  indentOffset : Option Text := none
  useTabs : Option Text := none
  format : Option Text := none
  deriving DecidableEq, Repr

namespace Environment

/-- The offset that the environment demands. -/
def offset? (e : Environment) : Option Int := do
  let i ← Text.readInteger? (← e.indentOffset)
  if 0 ≤ i then some i else none

/-- The words that turn tabs on, in any case. All other words turn them off. -/
def tabWords : List Text :=
  [['1'], "true".toList, "yes".toList]

/-- Whether the environment demands tabs or forbids them. An empty value does neither. -/
def tabs? (e : Environment) : Option Bool :=
  match e.useTabs with
  | none | some [] => none
  | some s => some (tabWords.contains (Text.lower s))

/-- The form of output that the environment demands. -/
def format? (e : Environment) : Option OutputFormat :=
  e.format.bind OutputFormat.ofName?

/-- A configuration with the settings that the environment demands. -/
def apply (e : Environment) (c : Config) : Config :=
  { c with
    indent :=
      { c.indent with
        offset := e.offset?.getD c.indent.offset
        useTabs := e.tabs?.getD c.indent.useTabs }
    format := e.format?.getD c.format }

end Environment

/-- A configuration file. -/
structure ConfigFile where
  /-- The path at which it is read. -/
  path : Text
  /-- The path that messages show. -/
  shown : Text
  deriving DecidableEq, Repr

namespace ConfigFile

/-- The configuration file: the one that is asked for, or else that of the working directory,
which messages show inside of `root`. An empty path asks for nothing. -/
def find (tree : FileTree) (root : Text) (override : Option Text) :
    Except (Failure ConfigError) (Option ConfigFile) :=
  match override with
  | none | some [] =>
    if tree.isFile Config.fileName then
      .ok (some ⟨Config.fileName, Path.below root [Config.fileName]⟩)
    else .ok none
  | some path =>
    let normal := Path.normal path
    if tree.isTooLong normal then .error (.fault .pathTooLong)
    else if tree.isFile normal then .ok (some ⟨normal, normal⟩)
    else .error (.reported (.notFound path))

/-- The table that the file stands for. -/
def table (tree : FileTree) (f : ConfigFile) : Except (Failure ConfigError) Entries :=
  match tree.read f.path with
  | .error (.fault e) => .error (.fault e)
  | .error (.reported e) => .error (.reported (.unreadable f.shown e))
  | .ok bytes =>
    match Utf8.decode bytes with
    | .error e => .error (.fault (.undecodable e))
    | .ok s =>
      match Toml.read s with
      | .ok entries => .ok entries
      | .error .malformed => .error (.reported (.malformed f.shown))
      | .error (.tooManyDigits n) => .error (.fault (.tooManyDigits n))

end ConfigFile

namespace Config

/-- The configuration that the file holds; the default one if there is no file. -/
def ofFile (tree : FileTree) : Option ConfigFile → Except (Failure ConfigError) Config
  | none => .ok {}
  | some f => do ofTable (← f.table tree)

/-- The configuration of a run. -/
def load (tree : FileTree) (root : Text) (override : Option Text) (environment : Environment) :
    Except (Failure ConfigError) Config := do
  let file ← ConfigFile.find tree root override
  return environment.apply (← ofFile tree file)

end Config

end SandboxProfile
