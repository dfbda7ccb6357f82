import SandboxProfile.Terminal.Render

/-!
# Strokes before a line

Spans that come from elsewhere may have any integers as columns. A column below zero counts from
the end of its line; where the line is too short for that it stays below zero, so a stroke can
begin, and even end, before the line. The style that lies under all strokes begins with the line.
So two things can go wrong. Between two strokes before the line there is no style at all, and a
stroke that begins before the line belongs to none of the parts between tabs, so the search for
its part does not end.

## Main definitions

* `DrawError` is why a line cannot be drawn.
* `Painted.drawError?` finds out whether a line can be drawn.
* `Terminal.draw` prints a list of profiles, unless there is a line that cannot be drawn.
-/

namespace SandboxProfile

/-- Why a line cannot be drawn. -/
inductive DrawError where
  /-- The line has a tab, and a stroke begins before the line. -/
  | endless
  /-- A stroke ends before the line where no other stroke goes on. -/
  | uncovered
  deriving DecidableEq, Repr

/-- Does the stroke lie on the column? -/
def Stroke.covers (s : Stroke) (column : Int) : Bool :=
  s.start ≤ column && column < s.stop

/-- What is wrong with a line that strokes were laid on. -/
def Painted.drawError? (p : Painted) : Option DrawError :=
  if p.text.contains '\t' && p.strokes.any fun s => s.start < 0 then some .endless
  else if p.strokes.any fun s => s.stop < 0 && !p.strokes.any fun t => t.covers s.stop then
    some .uncovered
  else none

namespace Terminal

/-- The lines of a text with their numbers. -/
def numberedLines (text : Text) : List (Line × Nat) :=
  (splitLines text).zipIdx 1

/-- A line of a profile with the strokes of its spans. -/
def laidLine (body : Text) (spans : List Span) : Painted :=
  Painted.ofStrokes body (spans.filterMap stroke?)

/-- What is wrong with the first line of a profile that cannot be drawn. -/
def profileError? (h : Highlighted) : Option DrawError :=
  (numberedLines h.text).findSome? fun l => (laidLine l.1.body (h.spansOn l.2)).drawError?

/-- Print a list of profiles, unless there is a line that cannot be drawn. -/
def draw (colour : Bool) (width : Nat) (results : List Highlighted) : Except DrawError Text :=
  match results.findSome? profileError? with
  | some e => .error e
  | none => .ok (render colour width results)

end Terminal

end SandboxProfile
