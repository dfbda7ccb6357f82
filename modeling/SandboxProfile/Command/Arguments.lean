import SandboxProfile.Command.Basic
import SandboxProfile.Text.Integer

/-!
# Command lines

A command line is a list of arguments. Options of the program itself may stand before the
name of the command, and options of the command anywhere after it. The value of a long
option follows it or an equals sign; options of one letter can be combined, and the rest of
such an argument is the value of the first of them that takes one. Two hyphens end the
options, and one hyphen is no option. Of an option that occurs several times the last counts.

All options are found before any of their values is looked at, and all values are looked at
before the number of arguments is.

## Main definitions

* `OptionName` lists the options, `Spellings` is a list of their spellings.
* `scanArguments` tells options and other arguments apart.
* `Command.ofArguments` reads a command line.
-/

namespace SandboxProfile

/-- The options. -/
inductive OptionName where
  | config
  | verbose
  | format
  | indent
  | tabs
  | spaces
  | check
  | write
  | category
  | version
  | help
  deriving DecidableEq, Repr

namespace OptionName

/-- Does the option take a value? -/
def takesValue : OptionName → Bool
  | config | format | indent | category => true
  | verbose | tabs | spaces | check | write | version | help => false

end OptionName

/-- The spellings of options that a part of a command line accepts. -/
abbrev Spellings := List (Text × OptionName)

/-- Options in their two spellings. -/
def spellings (options : List (OptionName × List String)) : Spellings :=
  options.flatMap fun (name, texts) => texts.map fun s => (s.toList, name)

/-- The options of the program itself. -/
def programSpellings : Spellings :=
  spellings [(.version, ["--version", "-V"]), (.help, ["--help"])]

/-- The options that all commands on profiles and keywords share. -/
def commonSpellings : Spellings :=
  spellings
    [(.config, ["--config", "-c"]), (.verbose, ["--verbose", "-v"]), (.help, ["--help"])]

/-- The options of the command that highlights. -/
def highlightSpellings : Spellings :=
  spellings [(.format, ["--format", "-f"])] ++ commonSpellings

/-- The options of the command that formats. -/
def formatSpellings : Spellings :=
  spellings
    [(.indent, ["--indent", "-i"]), (.tabs, ["--tabs"]), (.spaces, ["--spaces"]),
      (.check, ["--check"]), (.write, ["--write", "-w"])] ++ commonSpellings

/-- The options of the command that lists keywords. -/
def keywordsSpellings : Spellings :=
  spellings [(.category, ["--category", "-k"])] ++ commonSpellings

/-- The options of the command that creates a configuration file. -/
def initSpellings : Spellings :=
  spellings [(.help, ["--help"])]

/-! ### Telling options apart -/

/-- An option and its value. -/
abbrev Occurrence := OptionName × Text

/-- What an argument that begins with a hyphen says: some options, and perhaps one more whose
value is the next argument. -/
structure Cluster where
  /-- The options. -/
  occurrences : List Occurrence
  /-- The option that waits for its value. -/
  waiting : Option OptionName := none

/-- The options of one letter in an argument. The rest of the argument after an option that
takes a value is that value. -/
def readLetters (known : Spellings) : Text → Except UsageError Cluster
  | [] => .ok ⟨[], none⟩
  | c :: rest =>
    match known.lookup ['-', c] with
    | none => .error .unknownOption
    | some name =>
      if name.takesValue then
        .ok (if rest = [] then ⟨[], some name⟩ else ⟨[(name, rest)], none⟩)
      else do
        let later ← readLetters known rest
        return { later with occurrences := (name, []) :: later.occurrences }

/-- A long option, with the value after its equals sign if there is one. -/
def readLong (name : OptionName) (value : Option Text) : Except UsageError Cluster :=
  match name.takesValue, value with
  | true, some v => .ok ⟨[(name, v)], none⟩
  | true, none => .ok ⟨[], some name⟩
  | false, none => .ok ⟨[(name, [])], none⟩
  | false, some _ => .error .misusedOption

/-- The options in an argument that begins with a hyphen. -/
def readCluster (known : Spellings) (argument : Text) : Except UsageError Cluster :=
  let spelling := argument.takeWhile (· ≠ '=')
  let value : Option Text :=
    match argument.dropWhile (· ≠ '=') with
    | [] => none
    | _ :: v => some v
  match (if 2 < spelling.length then known.lookup spelling else none) with
  | some name => readLong name value
  | none =>
    if Text.startsWith argument ['-', '-'] then .error .unknownOption
    else readLetters known (argument.drop 1)

/-- The options on a part of a command line and its other arguments. -/
structure Scanned where
  occurrences : List Occurrence
  others : List Text

/-- Does the argument hold options? -/
def holdsOptions (argument : Text) : Bool :=
  argument.head? = some '-' && 1 < argument.length

/-- Tell options and other arguments apart. The options may end at the first other argument. -/
def scanArguments (known : Spellings) (stopsEarly : Bool) :
    List Text → Except UsageError Scanned
  | [] => .ok ⟨[], []⟩
  | argument :: rest =>
    if argument = ['-', '-'] then .ok ⟨[], rest⟩
    else if holdsOptions argument then do
      let cluster ← readCluster known argument
      match cluster.waiting, rest with
      | none, rest =>
        let s ← scanArguments known stopsEarly rest
        return { s with occurrences := cluster.occurrences ++ s.occurrences }
      | some _, [] => .error .misusedOption
      | some name, value :: rest =>
        let s ← scanArguments known stopsEarly rest
        return { s with occurrences := cluster.occurrences ++ (name, value) :: s.occurrences }
    else if stopsEarly then .ok ⟨[], argument :: rest⟩
    else do
      let s ← scanArguments known stopsEarly rest
      return { s with others := argument :: s.others }

namespace Scanned

/-- The value of the last occurrence of an option. -/
def value? (s : Scanned) (name : OptionName) : Option Text :=
  ((s.occurrences.filter fun o => o.1 = name).getLast?).map Prod.snd

/-- Does an option occur? -/
def holds (s : Scanned) (name : OptionName) : Bool :=
  s.occurrences.any fun o => o.1 = name

/-- The choice between tabs and spaces that was made last. -/
def tabs? (s : Scanned) : Option Bool :=
  ((s.occurrences.filter fun o => o.1 = .tabs || o.1 = .spaces).getLast?).map fun o =>
    o.1 = .tabs

/-- The shared options. -/
def common (s : Scanned) : CommonOptions :=
  ⟨s.value? .config, s.holds .verbose⟩

/-- The indentation, which must be an integer and not be negative. -/
def indent (s : Scanned) : Except UsageError (Option Int) :=
  match s.value? .indent with
  | none => .ok none
  | some v =>
    match Text.readInteger? v with
    | some i => if 0 ≤ i then .ok (some i) else .error .badValue
    | none => .error .badValue

/-- A command that takes no arguments besides its options. -/
def alone (s : Scanned) (c : Command) : Except UsageError Command :=
  if s.others = [] then .ok c else .error .badArguments

end Scanned

/-! ### Commands -/

namespace Command

/-- The command that a part of a command line stands for, unless it asks for help. -/
def orHelp (s : Scanned) (command : Except UsageError Command) : Except UsageError Command :=
  if s.holds .help then .ok .help else command

/-- The command of a name with its arguments. -/
def ofName (name : Text) (arguments : List Text) : Except UsageError Command :=
  if name = "highlight".toList then do
    let s ← scanArguments highlightSpellings false arguments
    orHelp s (.ok (.highlight ⟨s.others, s.value? .format, s.common⟩))
  else if name = "format".toList then do
    let s ← scanArguments formatSpellings false arguments
    orHelp s do
      let indent ← s.indent
      return .format ⟨s.others, indent, s.tabs?, s.holds .check, s.holds .write, s.common⟩
  else if name = "keywords".toList then do
    let s ← scanArguments keywordsSpellings false arguments
    orHelp s (s.alone (.keywords (s.value? .category) s.common))
  else if name = "init".toList then do
    let s ← scanArguments initSpellings false arguments
    orHelp s (s.alone .init)
  else
    match name with
    | [] => .error .badArguments
    | c :: _ =>
      if c.isAlphanum || 0x80 ≤ c.toNat then .error .badArguments else .ok .help

/-- The command that a command line asks for. An empty one asks for help. -/
def ofArguments (arguments : List Text) : Except UsageError Command :=
  if arguments = [] then .ok .help
  else do
    let s ← scanArguments programSpellings true arguments
    match s.occurrences with
    | (.version, _) :: _ => return .version
    | _ :: _ => return .help
    | [] =>
      match s.others with
      | [] => .error .badArguments
      | name :: rest => ofName name rest

end Command

end SandboxProfile
