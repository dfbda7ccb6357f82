import SandboxProfile.Text.Basic

/-!
# Commands

What a command line can ask for. A command that works on profiles takes their paths; if
there are none it reads the standard input.

## Main definitions

* `Command` is the type of commands.
* `UsageError` is why a command line asks for nothing.
-/

namespace SandboxProfile

/-- The options that all commands on profiles and keywords share. -/
structure CommonOptions where
  config : Option Text := none
  verbose : Bool := false
  deriving DecidableEq, Repr

/-- The options of the command that highlights. -/
structure HighlightOptions where
  paths : List Text
  format : Option Text := none
  common : CommonOptions := {}
  deriving DecidableEq, Repr

/-- The options of the command that formats. -/
structure FormatOptions where
  paths : List Text
  indent : Option Int := none
  tabs : Option Bool := none
  check : Bool := false
  write : Bool := false
  common : CommonOptions := {}
  deriving DecidableEq, Repr

/-- A command. -/
inductive Command where
  /-- Show the spans of profiles. -/
  | highlight (o : HighlightOptions)
  /-- Indent profiles. -/
  | format (o : FormatOptions)
  /-- List the keywords, of one category or of all. -/
  | keywords (category : Option Text) (common : CommonOptions)
  /-- Create a configuration file. -/
  | init
  /-- Show the version. -/
  | version
  /-- Show how the program is used. -/
  | help
  deriving DecidableEq, Repr

namespace Command

/-- The paths of profiles that a command is given. -/
def paths : Command → List Text
  | highlight o => o.paths
  | format o => o.paths
  | _ => []

/-- The path of the configuration file that a command is given. -/
def configPath? : Command → Option Text
  | highlight o => o.common.config
  | format o => o.common.config
  | keywords _ common => common.config
  | _ => none

/-- May the command read the standard input? -/
def mayReadInput : Command → Bool
  | highlight o => o.paths = [] || o.paths.contains ['-']
  | format o => o.paths = [] || o.paths.contains ['-']
  | _ => false

end Command

/-- Why a command line asks for nothing. -/
inductive UsageError where
  /-- There is no such option. -/
  | unknownOption
  /-- An option has no value and needs one, or has one and takes none. -/
  | misusedOption
  /-- An option has a value that it cannot have. -/
  | badValue
  /-- There is no such command, or there are too many arguments. -/
  | badArguments
  deriving DecidableEq, Repr

end SandboxProfile
