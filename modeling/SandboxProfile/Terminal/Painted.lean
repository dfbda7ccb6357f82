import SandboxProfile.Terminal.Style
import SandboxProfile.Text.Blank

/-!
# Painted lines

A painted line is a text with strokes, each a range of columns in one style. Strokes may
overlap; where they do, later ones lie over earlier ones. Before a line is printed its tabs
become spaces, and blanks that stick out over the width of the terminal are cut off its end.
It is printed in pieces: a piece ends wherever a stroke begins or ends, and after each tab.

## Main definitions

* `Painted` is a painted line; `Painted.ofStrokes` lays ranges of columns on a text.
* `Painted.expandTabs` and `Painted.cutTo` prepare it for printing.
* `Painted.pieces` lists the pieces, `Painted.print` writes them.
-/

namespace SandboxProfile

/-- A range of columns in one style. -/
structure Stroke where
  /-- The first column. -/
  start : Int
  /-- The column after the last. -/
  stop : Int
  style : Style
  deriving DecidableEq, Repr

/-- A line of text with its strokes, the lowest first. -/
structure Painted where
  text : Text
  strokes : List Stroke
  deriving DecidableEq, Repr

namespace Painted

/-! ### Laying strokes -/

/-- The characters that a terminal would take for movements of its own and that a line must
not hold: the bell, the backspace, the vertical tab, the form feed and the carriage return. -/
def isMovement (c : Char) : Bool :=
  c = '\x07' || c = '\x08' || c = '\x0b' || c = '\x0c' || c = '\r'

/-- A text without such characters. -/
def stripMovements (s : Text) : Text :=
  s.filter fun c => !isMovement c

/-- A column of a line of the given length. Columns below zero count from its end. -/
def column (length c : Int) : Int :=
  if c < 0 then length + c else c

/-- The stroke on a line of the given length, cut off at its end. There is none if it would
be empty or start after the line. -/
def clampStroke? (length : Int) (s : Stroke) : Option Stroke :=
  let start := column length s.start
  let stop := column length s.stop
  if start ≥ length ∨ stop ≤ start then none else some ⟨start, min length stop, s.style⟩

/-- A text with strokes laid on it. -/
def ofStrokes (text : Text) (strokes : List Stroke) : Painted :=
  let kept := stripMovements text
  ⟨kept, strokes.filterMap (clampStroke? kept.length)⟩

/-! ### Cutting and joining -/

/-- The strokes inside the columns from `start` to `stop`, counted from `start`. -/
def strokesWithin (start stop : Int) (strokes : List Stroke) : List Stroke :=
  strokes.filterMap fun s =>
    let first := max 0 (s.start - start)
    let last := min (s.stop - start) (stop - start)
    if first < last then some ⟨first, last, s.style⟩ else none

/-- A line moved to the right by the given number of columns. -/
def shifted (columns : Int) (strokes : List Stroke) : List Stroke :=
  strokes.map fun s => ⟨s.start + columns, s.stop + columns, s.style⟩

/-- One line after another. -/
def append (a b : Painted) : Painted :=
  ⟨a.text ++ b.text, a.strokes ++ shifted a.text.length b.strokes⟩

/-- The first columns of a line. -/
def take (n : Nat) (p : Painted) : Painted :=
  ⟨p.text.take n, p.strokes.filterMap fun s =>
    if s.start < (n : Int) then some ⟨s.start, min (n : Int) s.stop, s.style⟩ else none⟩

/-! ### Tabs -/

/-- A text cut after each tab. -/
def cutAfterTabs : Text → List Text
  | [] => []
  | c :: rest =>
    if c = '\t' then [c] :: cutAfterTabs rest
    else
      match cutAfterTabs rest with
      | [] => [[c]]
      | piece :: pieces => (c :: piece) :: pieces

/-- The distance between tab stops. -/
def tabStop : Nat := 8

/-- A piece that starts at the given printed column, with the tab at its end, if it has one,
made of spaces up to the next stop. Strokes that reach the tab cover all its spaces. Every
character counts as one column, also one that a terminal shows two columns wide. -/
def expandPiece (column : Nat) (p : Painted) : Painted :=
  if p.text.getLast? = some '\t' then
    let length := p.text.length
    let past := (column + length) % tabStop
    let extra := if past = 0 then 0 else tabStop - past
    ⟨p.text.dropLast ++ List.replicate (1 + extra) ' ',
      p.strokes.map fun s =>
        if s.stop ≥ (length : Int) then ⟨s.start, s.stop + (extra : Int), s.style⟩ else s⟩
  else p

/-- The pieces of a line, of which the first starts at column `start` of the text and at
`column` in print, joined after their tabs have become spaces. -/
def expandPieces (strokes : List Stroke) : Nat → Nat → List Text → Painted
  | _, _, [] => ⟨[], []⟩
  | start, column, piece :: rest =>
    let stop := start + piece.length
    let here := expandPiece column ⟨piece, strokesWithin start stop strokes⟩
    here.append (expandPieces strokes stop (column + here.text.length) rest)

/-- A line whose tabs have become spaces. -/
def expandTabs (p : Painted) : Painted :=
  if p.text.contains '\t' then expandPieces p.strokes 0 0 (cutAfterTabs p.text) else p

/-! ### Width -/

/-- A line without those blanks at its end that stick out over the width. -/
def cutTo (width : Nat) (p : Painted) : Painted :=
  let length := p.text.length
  let surplus := min (Text.endLength isBlank p.text) (length - width)
  if surplus = 0 then p else p.take (length - surplus)

/-! ### Printing -/

/-- The characters from column `start` up to `stop`. Columns below zero count from the end of
the text, where there are so many, and else from its start. -/
def slice (text : Text) (start stop : Int) : Text :=
  let index (c : Int) : Nat := (column text.length c).toNat
  (text.take (index stop)).drop (index start)

/-- The style of the columns from `column` to the next end of a stroke. -/
def styleAt (strokes : List Stroke) (column : Int) : Style :=
  (strokes.filter fun s => s.start ≤ column && column < s.stop).foldl
    (fun lower s => s.style.onto lower) {}

/-- All columns at which a piece may begin or end, in rising order. -/
def borders (p : Painted) : List Int :=
  let ends := p.strokes.flatMap fun s => [s.start, s.stop]
  (0 :: (p.text.length : Int) :: ends).mergeSort fun a b => a ≤ b

/-- The pieces between neighbouring borders. -/
def piecesBetween (p : Painted) : List Int → List (Style × Text)
  | a :: b :: rest =>
    if a < b then (styleAt p.strokes a, slice p.text a b) :: piecesBetween p (b :: rest)
    else piecesBetween p (b :: rest)
  | _ => []

/-- The pieces of a line, each in one style. -/
def pieces (p : Painted) : List (Style × Text) :=
  piecesBetween p (borders p)

/-- One piece, with its style if colours are wanted. -/
def printPiece (colour : Bool) (piece : Style × Text) : Text :=
  if colour then piece.1.wrap piece.2 else piece.2

/-- The line as it is sent to the terminal. -/
def print (colour : Bool) (p : Painted) : Text :=
  p.pieces.flatMap (printPiece colour)

end Painted

end SandboxProfile
