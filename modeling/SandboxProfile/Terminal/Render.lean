import SandboxProfile.Highlight.Span
import SandboxProfile.Terminal.Markup
import SandboxProfile.Terminal.Painted
import SandboxProfile.Text.Line

/-!
# Printing profiles on a terminal

Each line of a profile is printed on a line of the terminal, with the strokes of its spans.
Where several profiles are printed, each has a rule above it with its path in the middle.

Columns are counted in characters, as if each character took one cell of the terminal. That wide
characters take two and some take none is left out; it decides where tabs stop and how long the two
sides of a rule are, and nothing else.

## Main definitions

* `Terminal.printLine` prints one line of a profile.
* `Terminal.rule` prints the rule above a profile.
* `Terminal.render` prints a list of profiles.
* `Terminal.plain` prints a message without strokes.
-/

namespace SandboxProfile

namespace Terminal

/-! ### Lines -/

/-- The stroke of a span, if its label has a style. -/
def stroke? (s : Span) : Option Stroke :=
  (styleFor? s.label).map fun style => ⟨s.start, s.stop, style⟩

/-- A line of a profile with the strokes of its spans, ready for a terminal of the given
width. -/
def paintLine (width : Nat) (body : Text) (spans : List Span) : Painted :=
  ((Painted.ofStrokes body (spans.filterMap stroke?)).expandTabs).cutTo width

/-- A line of a profile as it is sent to the terminal, line feed included. -/
def printLine (colour : Bool) (width : Nat) (body : Text) (spans : List Span) : Text :=
  (paintLine width body spans).print colour ++ ['\n']

/-- The lines of a profile, numbered from `number` on. -/
def printLines (colour : Bool) (width : Nat) (h : Highlighted) : Nat → List Line → Text
  | _, [] => []
  | number, l :: rest =>
    printLine colour width l.body (h.spansOn number) ++
      printLines colour width h (number + 1) rest

/-- All lines of a profile. -/
def printProfile (colour : Bool) (width : Nat) (h : Highlighted) : Text :=
  printLines colour width h 1 (splitLines h.text)

/-! ### Rules -/

/-- The character that rules are drawn with. -/
def dash : Char := '─'

/-- A piece of text in a style, or plain where no colours are wanted. -/
def styled (colour : Bool) (style : Style) (text : Text) : Text :=
  Painted.printPiece colour (style, text)

/-- The mark that ends a bold text. -/
def boldEnd : Text :=
  "[/bold]".toList

/-- A path as the title of a rule of the given width. A title that is too long ends in an
ellipsis. Its length is its number of characters, as if each took one cell, and names of pictures
between colons stay as they are. -/
def ruleTitle (width : Nat) (path : Text) : Painted :=
  let text := Painted.stripMovements (Text.replaced '\n' ' ' (betweenMarks boldEnd path))
  let title := (Painted.ofStrokes text [⟨0, text.length, { bold := true }⟩]).expandTabs
  if title.text.length > width - 4 then
    ⟨title.text.take (width - 5) ++ ['…'], (title.take (width - 4)).strokes⟩
  else title

/-- The rule above a profile, line feed included. Half of what the title leaves, rounded down,
is on its left. Where there is no room for a title there is none. Every character of the title
counts as one column. -/
def rule (colour : Bool) (width : Nat) (path : Text) : Text :=
  let dim : Style := { dim := true }
  if width ≤ 4 then styled colour dim (List.replicate width dash) ++ ['\n']
  else
    let title := ruleTitle width path
    let length := title.text.length
    let side := (width - length) / 2
    styled colour dim (List.replicate (side - 1) dash ++ [' ']) ++ title.print colour ++
      styled colour dim (' ' :: List.replicate (width - side - 1 - length) dash) ++ ['\n']

/-! ### Profiles and messages -/

/-- A list of profiles. A single one has no rule. -/
def render (colour : Bool) (width : Nat) (results : List Highlighted) : Text :=
  results.flatMap fun h =>
    (if results.length > 1 then rule colour width h.path else []) ++
      printProfile colour width h

/-- A message as it appears on a terminal without colours: its lines with their tabs made
spaces, and without movements. -/
def plain (message : Text) : Text :=
  Text.joined ['\n']
    ((Text.splitOn '\n' message).map fun line => (Painted.ofStrokes line []).expandTabs.text)

end Terminal

end SandboxProfile
