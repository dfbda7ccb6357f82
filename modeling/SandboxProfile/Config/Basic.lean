import SandboxProfile.Indent
import SandboxProfile.Keyword.Category

/-!
# Configuration

A configuration says how lines are indented, how results are shown, which files of a
directory are profiles, and which words are keywords besides the builtin ones.

## Main definitions

* `OutputFormat` is a form in which results are shown.
* `Config` is a configuration; `{}` has the default of every setting.
* `Config.starter` is the text of a configuration file to start from.
-/

namespace SandboxProfile

/-- The forms in which results are shown. -/
inductive OutputFormat where
  /-- Text in colours. -/
  | terminal
  /-- A list of all spans. -/
  | json
  /-- Relative positions, as editors read them. -/
  | semantic
  deriving DecidableEq, Repr

namespace OutputFormat

/-- All forms. -/
def all : List OutputFormat :=
  [terminal, json, semantic]

/-- The name of a form. -/
def name : OutputFormat → String
  | terminal => "terminal"
  | json => "json"
  | semantic => "semantic"

/-- The form of exactly this name. -/
def ofName? (s : Text) : Option OutputFormat :=
  all.find? fun f => f.name.toList = s

theorem ofName?_name (f : OutputFormat) : ofName? f.name.toList = some f := by
  cases f <;> decide

end OutputFormat

/-- A configuration. -/
structure Config where
  /-- How lines are indented. -/
  indent : IndentStyle := {}
  /-- How results are shown. -/
  format : OutputFormat := .terminal
  /-- The suffixes of the files that are profiles. -/
  extensions : List Text := [".profile".toList, ".inc".toList, ".local".toList]
  /-- Patterns of files that are left out. -/
  exclude : List Text := []
  /-- The additional keywords of each category. -/
  keywords : Category → List Text := fun _ => []

namespace Config

/-- The name of the configuration file of a directory. -/
def fileName : Text :=
  ".jailfmt.toml".toList

/-- The text of a configuration file to start from. It holds the defaults. -/
def starter : Text :=
  Text.joined ['\n'] <| List.map String.toList
    ["# jailfmt configuration",
      "",
      "[indent]",
      "offset = 2                # columns for every line except include/blacklist/whitelist",
      "use_tabs = false",
      "tab_width = 8",
      "",
      "[output]",
      "format = \"terminal\"       # terminal | json | semantic",
      "",
      "[files]",
      "extensions = [\".profile\", \".inc\", \".local\"]",
      "# exclude = [\"disable-*.inc\"]",
      "",
      "[keywords]",
      "# Extra keywords per category, e.g. for options newer than this release.",
      "# option = [\"my-new-option\"]",
      "# private_option = []",
      ""]

end Config

end SandboxProfile
