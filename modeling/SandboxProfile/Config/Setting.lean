import SandboxProfile.Config.Basic
import SandboxProfile.FileTree.Access
import SandboxProfile.Value.Literal

/-!
# Settings

A configuration file is a table of sections, and a section is a table of settings. A setting
may be spelt with hyphens or with underscores; if several keys are spellings of one setting,
the last of them counts. Sections and keys that are not known are ignored.

## Main definitions

* `Section` and `Setting` are the known sections and settings.
* `ConfigError` is why there is no configuration.
* `Setting.value?` is the value of a setting in the table of its section.
* `Config.ofTable` makes a configuration from the table of a file.
-/

namespace SandboxProfile

/-- The sections of a configuration file. -/
inductive Section where
  | indent
  | output
  | files
  | keywords
  deriving DecidableEq, Repr

/-- The name of a section. -/
def Section.name : Section → String
  | indent => "indent"
  | output => "output"
  | files => "files"
  | keywords => "keywords"

/-- The settings of a configuration file. -/
inductive Setting where
  | offset
  | tabWidth
  | useTabs
  | format
  | extensions
  | exclude
  | keywords (c : Category)
  deriving DecidableEq, Repr

namespace Setting

/-- The section of a setting. -/
def home : Setting → Section
  | offset | tabWidth | useTabs => .indent
  | format => .output
  | extensions | exclude => .files
  | keywords _ => .keywords

/-- The name of a setting, spelt with underscores. -/
def name : Setting → Text
  | offset => "offset".toList
  | tabWidth => "tab_width".toList
  | useTabs => "use_tabs".toList
  | format => "format".toList
  | extensions => "extensions".toList
  | exclude => "exclude".toList
  | keywords c => Text.replaced '-' '_' c.name.toList

/-- What the value of a setting must be. -/
def demand : Setting → String
  | offset => "a non-negative integer"
  | tabWidth => "a positive integer"
  | useTabs => "true or false"
  | format => "one of terminal, json, semantic"
  | extensions | exclude | keywords _ => "a list of strings"

/-- The wording for a value that a setting cannot have, given as a literal. -/
def refusal (s : Setting) (literal : Text) : Text :=
  s.home.name.toList ++ '.' :: s.name ++ " must be ".toList ++ s.demand.toList ++
    ", got ".toList ++ literal

end Setting

/-- Why there is no configuration. -/
inductive ConfigError where
  /-- There is no file at the path that was asked for. -/
  | notFound (path : Text)
  /-- The file cannot be opened. -/
  | unreadable (path : Text) (e : AccessError)
  /-- The file does not follow the grammar. -/
  | malformed (path : Text)
  /-- A section is no table. -/
  | notTable (s : Section)
  /-- A setting has a value that it cannot have. -/
  | invalid (s : Setting) (literal : Text)
  deriving DecidableEq, Repr

/-- What stands for the place and the cause of a mistake in a document. -/
def malformedDetail : Text :=
  "malformed document".toList

/-- The wording of the error. -/
def ConfigError.message : ConfigError → Text
  | notFound path => "Config file not found: ".toList ++ path
  | unreadable path e => "Failed to parse ".toList ++ path ++ [':', ' '] ++ e.message path
  | malformed path => "Failed to parse ".toList ++ path ++ [':', ' '] ++ malformedDetail
  | notTable s => '[' :: s.name.toList ++ "] must be a table".toList
  | invalid s literal => s.refusal literal

/-! ### Values of settings -/

/-- The entries of a table. -/
abbrev Entries := List (Value × Value)

namespace Setting

/-- Is the key a spelling of the setting? -/
def isSpelling (s : Setting) : Value → Bool
  | .text key => Text.replaced '-' '_' key = s.name
  | _ => false

/-- The value of a setting in the table of its section. -/
def value? (s : Setting) (entries : Entries) : Option Value :=
  ((entries.filter fun e => s.isSpelling e.1).getLast?).map Prod.snd

/-- What a setting is in the table of its section: `fallback` if it is not there, and an error
if `accept` refuses its value. -/
def read {α : Type} (s : Setting) (accept : Value → Option α) (fallback : α)
    (entries : Entries) : Except (Failure ConfigError) α :=
  match s.value? entries with
  | none => .ok fallback
  | some v =>
    match accept v with
    | some a => .ok a
    | none =>
      match v.literal? with
      | some literal => .error (.reported (.invalid s literal))
      | none => .error (.fault .tooLongToShow)

end Setting

/-- An integer of at least `least`. A truth value is no integer. -/
def Value.integerFrom? (least : Int) : Value → Option Int
  | .int i => if least ≤ i then some i else none
  | _ => none

/-- A truth value. -/
def Value.truth? : Value → Option Bool
  | .bool b => some b
  | _ => none

/-- A form of output. -/
def Value.format? : Value → Option OutputFormat
  | .text s => OutputFormat.ofName? s
  | _ => none

/-! ### Configurations -/

/-- The table of a section; it is empty if the section is not there. -/
def Section.table (s : Section) (entries : Entries) : Except ConfigError Entries :=
  match Value.get? s.name.toList entries with
  | none => .ok []
  | some (.table inner) => .ok inner
  | some _ => .error (.notTable s)

/-- An error that a command reports. -/
def report {ε α : Type} : Except ε α → Except (Failure ε) α
  | .ok a => .ok a
  | .error e => .error (.reported e)

/-- The additional keywords of all categories, in the order of the categories. -/
def readKeywords (entries : Entries) : Except (Failure ConfigError) (Category → List Text) := do
  let directive ← (Setting.keywords .directive).read Value.texts? [] entries
  let option ← (Setting.keywords .option).read Value.texts? [] entries
  let privateOption ← (Setting.keywords .privateOption).read Value.texts? [] entries
  let dbusOption ← (Setting.keywords .dbusOption).read Value.texts? [] entries
  let specialOption ← (Setting.keywords .specialOption).read Value.texts? [] entries
  let landlockOption ← (Setting.keywords .landlockOption).read Value.texts? [] entries
  let allowOption ← (Setting.keywords .allowOption).read Value.texts? [] entries
  return fun
    | .directive => directive
    | .option => option
    | .privateOption => privateOption
    | .dbusOption => dbusOption
    | .specialOption => specialOption
    | .landlockOption => landlockOption
    | .allowOption => allowOption

/-- The configuration that the table of a file stands for. All sections are checked before any
setting is. -/
def Config.ofTable (entries : Entries) : Except (Failure ConfigError) Config := do
  let defaults : Config := {}
  let indent ← report (Section.indent.table entries)
  let output ← report (Section.output.table entries)
  let files ← report (Section.files.table entries)
  let keywords ← report (Section.keywords.table entries)
  let offset ← Setting.offset.read (Value.integerFrom? 0) defaults.indent.offset indent
  let tabWidth ← Setting.tabWidth.read (Value.integerFrom? 1) defaults.indent.tabWidth indent
  let useTabs ← Setting.useTabs.read Value.truth? defaults.indent.useTabs indent
  let format ← Setting.format.read Value.format? defaults.format output
  let extensions ← Setting.extensions.read Value.texts? defaults.extensions files
  let exclude ← Setting.exclude.read Value.texts? defaults.exclude files
  return {
    indent := ⟨offset, useTabs, tabWidth⟩
    format := format
    extensions := extensions
    exclude := exclude
    keywords := ← readKeywords keywords }

end SandboxProfile
