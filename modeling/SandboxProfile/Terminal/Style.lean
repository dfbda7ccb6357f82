import SandboxProfile.Text.Basic

/-!
# Terminal styles

A style is a colour with two optional attributes. A terminal is told to use it by a *select
graphic rendition* sequence, which lists the codes of the style, and to leave it by the
sequence with the code zero.

## Main definitions

* `Style` and its `name` and `codes`.
* `Style.onto` lays one style over another.
* `styleFor?` gives the style of a span label.
* `Style.wrap` puts a text between the two sequences.
-/

namespace SandboxProfile

/-- The colours that labels use. -/
inductive Colour where
  | red
  | green
  | yellow
  | blue
  | magenta
  | cyan
  | brightBlack
  | brightBlue
  deriving DecidableEq, Repr

namespace Colour

/-- The name of a colour. -/
def name : Colour → String
  | red => "red"
  | green => "green"
  | yellow => "yellow"
  | blue => "blue"
  | magenta => "magenta"
  | cyan => "cyan"
  | brightBlack => "bright_black"
  | brightBlue => "bright_blue"

/-- The code that selects a colour for the text. -/
def code : Colour → Nat
  | red => 31
  | green => 32
  | yellow => 33
  | blue => 34
  | magenta => 35
  | cyan => 36
  | brightBlack => 90
  | brightBlue => 94

end Colour

/-- How a run of characters looks. -/
structure Style where
  bold : Bool := false
  dim : Bool := false
  italic : Bool := false
  /-- The colour of the text, if it is not that of the terminal. -/
  colour : Option Colour := none
  deriving DecidableEq, Repr

namespace Style

/-- The words that describe a style. -/
def name (s : Style) : String :=
  " ".intercalate
    ((if s.bold then ["bold"] else []) ++ (if s.dim then ["dim"] else []) ++
      (if s.italic then ["italic"] else []) ++ (s.colour.map Colour.name).toList)

/-- The codes that select a style. -/
def codes (s : Style) : List Nat :=
  (if s.bold then [1] else []) ++ (if s.dim then [2] else []) ++ (if s.italic then [3] else []) ++
    (s.colour.map Colour.code).toList

/-- One style laid over another: attributes add up, and the upper colour hides the lower. -/
def onto (upper lower : Style) : Style :=
  ⟨upper.bold || lower.bold, upper.dim || lower.dim, upper.italic || lower.italic,
    upper.colour <|> lower.colour⟩

/-- The sequence that selects the given codes. -/
def sequence (codes : List Nat) : Text :=
  '\x1b' :: '[' :: Text.joined [';'] (codes.map Text.ofNat) ++ ['m']

/-- A text in a style. Nothing is written for an empty text, and a style without codes leaves
the text as it is. -/
def wrap (s : Style) (text : Text) : Text :=
  if text = [] || s.codes = [] then text else sequence s.codes ++ text ++ sequence [0]

end Style

/-- The style of a span label. Plain words and punctuation have none. -/
def styleFor? (label : String) : Option Style :=
  match label with
  | "comment" => some { italic := true, colour := some .brightBlack }
  | "variable" => some { bold := true, colour := some .magenta }
  | "path" => some { colour := some .green }
  | "directive" => some { bold := true, colour := some .blue }
  | "option" => some { colour := some .cyan }
  | "private-option" => some { bold := true, colour := some .cyan }
  | "dbus-option" => some { colour := some .yellow }
  | "special-option" => some { bold := true, colour := some .yellow }
  | "landlock-option" => some { colour := some .brightBlue }
  | "allow-option" => some { bold := true, colour := some .red }
  | _ => none

end SandboxProfile
