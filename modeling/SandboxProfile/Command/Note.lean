import SandboxProfile.Keyword.Extra
import SandboxProfile.Profile.Basic
import SandboxProfile.Terminal.Markup
import SandboxProfile.Terminal.Render

/-!
# Notes

Besides its output a command writes notes about its progress and its errors, each on a line
of its own.

## Main definitions

* `Note` is the type of notes, `Note.text` their wording.
* `Note.shown` is a note as it appears on a terminal.
-/

namespace SandboxProfile

/-- Why the configuration of a run or its catalog cannot be loaded. -/
inductive LoadError where
  | config (e : ConfigError)
  | catalog (e : CatalogError)
  deriving DecidableEq, Repr

/-- The wording of the error. -/
def LoadError.message : LoadError → Text
  | config e => e.message
  | catalog e => e.message

/-- A note. -/
inductive Note where
  | notLoaded (e : LoadError)
  | failed (e : ProfileError)
  | unknownFormat (name : Text)
  | unknownCategory (name : Text)
  /-- The configuration file that was used, if there was one. -/
  | configUsed (path : Option Text)
  | keywordsLoaded (count : Nat)
  | profilesRead (count : Nat)
  /-- The profile is not formatted. -/
  | wouldReformat (path : Text)
  /-- The number of profiles that are not formatted, among all. -/
  | wouldChange (count total : Nat)
  | reformatted (path : Text)
  | created (path : Text)
  /-- There was something at the path of the configuration file. -/
  | alreadyThere (path : Text)
  deriving DecidableEq, Repr

namespace Note

/-- The wording of a note. -/
def text : Note → Text
  | notLoaded e => "Config error: ".toList ++ e.message
  | failed e => "Error: ".toList ++ e.message
  | unknownFormat name => "Invalid format: ".toList ++ name
  | unknownCategory name => "Unknown category: ".toList ++ name
  | configUsed path => "Config: ".toList ++ path.getD "defaults".toList
  | keywordsLoaded count => "Keywords loaded: ".toList ++ Text.ofNat count
  | profilesRead count => "Files: ".toList ++ Text.ofNat count
  | wouldReformat path => "would reformat ".toList ++ path
  | wouldChange count total =>
    Text.ofNat count ++ " of ".toList ++ Text.ofNat total ++ " file(s) would change".toList
  | reformatted path => "Reformatted ".toList ++ path
  | created path => "✓ Created ".toList ++ path
  | alreadyThere path =>
    "⚠  ".toList ++ Config.fileName ++ " already exists at ".toList ++ path

/-- Does the note end in its own text, so that nothing guards a backslash at the end? -/
def isOpen : Note → Bool
  | notLoaded _ | failed _ | unknownFormat _ | unknownCategory _ | created _ | alreadyThere _ =>
    true
  | _ => false

/-- A note as it appears on a terminal, line feed included. Its lines are not folded at the width
of the terminal, and names of pictures between colons stay as they are. -/
def shown (n : Note) : Text :=
  let guarded := if n.isOpen then Terminal.doubleLastBackslash n.text else n.text
  Terminal.plain (Terminal.dropGuards guarded) ++ ['\n']

end Note

end SandboxProfile
