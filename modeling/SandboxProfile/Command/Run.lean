import SandboxProfile.Command.Arguments
import SandboxProfile.Command.Note
import SandboxProfile.Highlight.Line
import SandboxProfile.Profile.Reading
import SandboxProfile.Report.Semantic
import SandboxProfile.Terminal.Sequence

/-!
# Running commands

A command runs on a tree of files, an environment and a standard input. It leaves a tree, an
output and notes, and ends with an exit code: zero, or one if `format --check` has found
something or there is a configuration file already, or two after an error.

Everything is loaded and read before anything is printed or written.

## Main definitions

* `Surroundings` is what a command runs on, `Outcome` what it leaves.
* `Command.run` runs a command.
* `runArguments` runs a command line.
-/

namespace SandboxProfile

/-- What a command runs on. -/
structure Surroundings where
  tree : FileTree
  /-- The path of the working directory, as messages show it. -/
  root : Text
  environment : Environment := {}
  /-- The bytes of the standard input. -/
  input : List UInt8 := []

/-- How a run ends. -/
inductive Ending where
  | exit (code : Nat)
  | usage (e : UsageError)
  | fault (f : Fault)
  deriving DecidableEq, Repr

/-- What a run leaves. -/
structure Outcome where
  ending : Ending
  output : Text := []
  notes : List Note := []
  tree : FileTree

/-! ### Loading and reading -/

/-- An end of a run before it has printed or written anything. -/
structure Stop where
  ending : Ending
  notes : List Note

/-- The end after a failure. -/
def Stop.ofFailure {ε : Type} (notes : List Note) (note : ε → Note) : Failure ε → Stop
  | .reported e => ⟨.exit 2, notes ++ [note e]⟩
  | .fault f => ⟨.fault f, notes⟩

/-- The outcome of a run that has stopped. -/
def Stop.outcome (s : Stop) (tree : FileTree) : Outcome :=
  { ending := s.ending, notes := s.notes, tree := tree }

/-- A result, or the end of the run. -/
def orStop {ε α : Type} (notes : List Note) (note : ε → Note) :
    Except (Failure ε) α → Except Stop α
  | .ok a => .ok a
  | .error e => .error (Stop.ofFailure notes note e)

/-- What a command has loaded, with the notes about it. -/
structure Loaded where
  config : Config
  catalog : Catalog
  notes : List Note

/-- The path of the configuration file, as notes show it. -/
def configPath? (s : Surroundings) (override : Option Text) : Option Text :=
  match ConfigFile.find s.tree s.root override with
  | .ok (some f) => some f.shown
  | _ => none

/-- Load the configuration and the catalog. -/
def load (s : Surroundings) (o : CommonOptions) : Except Stop Loaded := do
  let config ← orStop [] (fun e => .notLoaded (.config e))
    (Config.load s.tree s.root o.config s.environment)
  let catalog ← orStop [] (fun e => .notLoaded (.catalog e)) (Catalog.load config s.tree s.root)
  let notes : List Note :=
    if o.verbose then [.configUsed (configPath? s o.config), .keywordsLoaded catalog.size]
    else []
  return ⟨config, catalog, notes⟩

/-- Read the profiles at the given paths, or on the standard input if there are none. The notes
so far are given and those about the profiles added. -/
def readAllProfiles (s : Surroundings) (config : Config) (o : CommonOptions) (paths : List Text)
    (notes : List Note) : Except Stop (List Profile × List Note) := do
  let wanted := if paths = [] then [standardInput] else paths
  let profiles ← orStop notes .failed (readProfiles config s.tree s.input wanted)
  return (profiles, if o.verbose then notes ++ [.profilesRead profiles.length] else notes)

/-- The outcome, however the run has ended. -/
def finish (tree : FileTree) : Except Stop Outcome → Outcome
  | .ok o => o
  | .error s => s.outcome tree

/-! ### Highlighting -/

/-- The width of the terminal. -/
def terminalWidth : Nat := 80

/-- Profiles with their spans in a form of output. -/
def present (form : OutputFormat) (results : List Highlighted) : Text :=
  match form with
  | .terminal => Terminal.render false terminalWidth results
  | .json => Terminal.stripSequences (Report.spansText results ++ ['\n'])
  | .semantic => Terminal.stripSequences (Report.semanticText results ++ ['\n'])

/-- The form of output: the one that is asked for, or else that of the configuration. An empty
name asks for nothing. -/
def chooseFormat (config : Config) (notes : List Note) (name : Option Text) :
    Except Stop OutputFormat :=
  match name with
  | none | some [] => .ok config.format
  | some s =>
    match OutputFormat.ofName? s with
    | some form => .ok form
    | none => .error ⟨.exit 2, notes ++ [.unknownFormat s]⟩

/-- Show the spans of profiles. -/
def runHighlight (s : Surroundings) (o : HighlightOptions) : Except Stop Outcome := do
  let loaded ← load s o.common
  let form ← chooseFormat loaded.config loaded.notes o.format
  let (profiles, notes) ← readAllProfiles s loaded.config o.common o.paths loaded.notes
  let results := profiles.map fun p =>
    (⟨p.path, p.text, highlight loaded.catalog p.text⟩ : Highlighted)
  return { ending := .exit 0, output := present form results, notes := notes, tree := s.tree }

/-! ### Formatting -/

/-- The indentation: what is asked for, or else that of the configuration. -/
def indentStyle (config : Config) (o : FormatOptions) : IndentStyle :=
  { config.indent with
    offset := o.indent.getD config.indent.offset
    useTabs := o.tabs.getD config.indent.useTabs }

/-- The fault that a line cannot be indented is. No configuration leads to the first of them. -/
def IndentError.fault : IndentError → Fault
  | zeroTabWidth => .zeroTabWidth
  | beyondWord => .beyondWord

/-- The indented texts of profiles. -/
def formatAll (style : IndentStyle) (notes : List Note) :
    List Profile → Except Stop (List (Profile × Text))
  | [] => .ok []
  | p :: rest =>
    match formatText style p.text with
    | .error e => .error ⟨.fault e.fault, notes⟩
    | .ok text => do return (p, text) :: (← formatAll style notes rest)

/-- The paths of the profiles that indentation changes. -/
def changedPaths (formatted : List (Profile × Text)) : List Text :=
  formatted.filterMap fun (p, text) => if text = p.text then none else some p.path

/-- Tell which profiles indentation would change. -/
def reportChanges (tree : FileTree) (verbose : Bool) (notes : List Note)
    (formatted : List (Profile × Text)) : Outcome :=
  let changed := changedPaths formatted
  let summary := if verbose then [Note.wouldChange changed.length formatted.length] else []
  { ending := .exit (if changed = [] then 0 else 1)
    notes := notes ++ changed.map .wouldReformat ++ summary
    tree := tree }

/-- Print the indented texts, or write those that have changed to their files. An error stops
the run; what was printed and written before it stays. -/
def emit (write verbose : Bool) (notes : List Note) (output : Text) (tree : FileTree) :
    List (Profile × Text) → Outcome
  | [] => { ending := .exit 0, output := output, notes := notes, tree := tree }
  | (p, text) :: rest =>
    if write ∧ p.path ≠ standardInput then
      if text = p.text then emit write verbose notes output tree rest
      else
        match writeProfile tree p.path text with
        | .ok after =>
          let done := if verbose then [Note.reformatted p.path] else []
          emit write verbose (notes ++ done) output after rest
        | .error e =>
          let stop := Stop.ofFailure notes .failed e
          { ending := stop.ending, output := output, notes := stop.notes, tree := tree }
    else emit write verbose notes (output ++ Terminal.stripSequences text) tree rest

/-- Indent profiles. -/
def runFormat (s : Surroundings) (o : FormatOptions) : Except Stop Outcome := do
  let loaded ← load s o.common
  let (profiles, notes) ← readAllProfiles s loaded.config o.common o.paths loaded.notes
  let formatted ← formatAll (indentStyle loaded.config o) notes profiles
  if o.check then return reportChanges s.tree o.common.verbose notes formatted
  else return emit o.write o.common.verbose notes [] s.tree formatted

/-! ### Other commands -/

/-- The line that lists a keyword. -/
def keywordLine (d : Declaration) : Text :=
  Terminal.stripSequences (d.1 ++ '\t' :: d.2.name.toList ++ ['\n'])

/-- The category that is asked for, or none if all are. An empty name asks for all. -/
def chooseCategory (notes : List Note) (name : Option Text) : Except Stop (Option Category) :=
  match name with
  | none | some [] => .ok none
  | some s =>
    match Category.parse s with
    | .ok c => .ok (some c)
    | .error _ => .error ⟨.exit 2, notes ++ [.unknownCategory s]⟩

/-- List keywords. -/
def runKeywords (s : Surroundings) (category : Option Text) (o : CommonOptions) :
    Except Stop Outcome := do
  let loaded ← load s o
  let chosen ← chooseCategory loaded.notes category
  let listed := loaded.catalog.declarations.filter fun d => chosen.all (d.2 = ·)
  return {
    ending := .exit 0
    output := listed.flatMap keywordLine
    notes := loaded.notes
    tree := s.tree }

/-- Create a configuration file, unless there is something at its path. -/
def runInit (s : Surroundings) : Outcome :=
  let path := Path.below s.root [Config.fileName]
  match s.tree.get? [Config.fileName] with
  | some _ => { ending := .exit 1, notes := [.alreadyThere path], tree := s.tree }
  | none =>
    { ending := .exit 0
      notes := [.created path]
      tree := s.tree.put [Config.fileName] (.file ⟨Utf8.encode Config.starter, .full⟩) }

/-- The line that shows the version. -/
def versionText : Text :=
  "jailfmt 0.1.0\n".toList

/-- How the program is used. -/
def helpText : Text :=
  Text.joined ['\n'] <| List.map String.toList
    ["Usage: jailfmt [--version | -V] [--help] COMMAND [OPTIONS] [PATHS]",
      "",
      "  highlight  show the spans of profiles",
      "             --format/-f terminal|json|semantic",
      "  format     indent profiles",
      "             --indent/-i N  --tabs  --spaces  --check  --write/-w",
      "  keywords   list the keywords",
      "             --category/-k NAME",
      "  init       create a configuration file",
      "",
      "  --config/-c PATH and --verbose/-v belong to the first three.",
      ""]

/-- Run a command. -/
def Command.run (s : Surroundings) : Command → Outcome
  | .highlight o => finish s.tree (runHighlight s o)
  | .format o => finish s.tree (runFormat s o)
  | .keywords category o => finish s.tree (runKeywords s category o)
  | .init => runInit s
  | .version => { ending := .exit 0, output := versionText, tree := s.tree }
  | .help => { ending := .exit 0, output := helpText, tree := s.tree }

/-- Run a command line. -/
def runArguments (s : Surroundings) (arguments : List Text) : Outcome :=
  match Command.ofArguments arguments with
  | .ok c => c.run s
  | .error e => { ending := .usage e, tree := s.tree }

end SandboxProfile
