import SandboxProfile.Report.Spans

/-!
# The semantic token report

Editors receive highlight spans as integers, five for each span: the distance of its line
from the line before, the distance of its first column from that of the span before if that
is on the same line and from the margin otherwise, its length, the index of its type in the
legend, and a zero for modifiers. Spans whose label is not in the legend are left out, and
distances are measured as if they were not there.

## Main definitions

* `Report.tokenTypes` is the legend.
* `Report.encode` writes spans as integers; `Report.decode` reads the integers back.
* `Report.semantic` is the report as a value; `Report.semanticText` is its text.
-/

namespace SandboxProfile

namespace Report

/-- The labels that have a type, in the order of their indices. -/
def tokenTypes : List String :=
  ["comment", "variable", "path"] ++ Category.all.map Category.name

/-- The index of a label in the legend. -/
def typeIndex? (label : String) : Option Nat :=
  tokenTypes.findIdx? (· = label)

/-- A span as it reads in the report. -/
structure Placed where
  /-- The number of the line. -/
  line : Int
  /-- The first column. -/
  start : Int
  /-- The number of columns. -/
  length : Int
  /-- The index of the type. -/
  type : Nat
  deriving DecidableEq, Repr

/-- The place of a span, if its label has a type. -/
def place? (s : Span) : Option Placed :=
  (typeIndex? s.label).map fun t => ⟨s.line, s.start, s.length, t⟩

/-- Does one span come before another, or at the same place? -/
def comesBefore (s t : Span) : Bool :=
  s.line < t.line || (s.line = t.line && s.start ≤ t.start)

/-- The spans that the report shows, by line and column; spans at one place keep their
order. -/
def placedSpans (spans : List Span) : List Placed :=
  (spans.mergeSort comesBefore).filterMap place?

/-- The integers for placed spans, after one at the given line and column. -/
def encodeFrom (line start : Int) : List Placed → List Int
  | [] => []
  | p :: rest =>
    let deltaLine := p.line - line
    let deltaStart := if deltaLine = 0 then p.start - start else p.start
    deltaLine :: deltaStart :: p.length :: (p.type : Int) :: 0 :: encodeFrom p.line p.start rest

/-- The integers for a list of spans. Counting starts at the first column of the first
line. -/
def encode (spans : List Span) : List Int :=
  encodeFrom 1 0 (placedSpans spans)

/-- The placed spans that integers stand for, after one at the given line and column. -/
def decodeFrom (line start : Int) : List Int → List Placed
  | deltaLine :: deltaStart :: length :: type :: _ :: rest =>
    let here := if deltaLine = 0 then start + deltaStart else deltaStart
    ⟨line + deltaLine, here, length, type.toNat⟩ :: decodeFrom (line + deltaLine) here rest
  | _ => []

/-- The placed spans that integers stand for. -/
def decode (data : List Int) : List Placed :=
  decodeFrom 1 0 data

/-- Decoding follows encoding from every place. -/
theorem decodeFrom_encodeFrom (line start : Int) (ps : List Placed) :
    decodeFrom line start (encodeFrom line start ps) = ps := by
  induction ps generalizing line start with
  | nil => rfl
  | cons p rest ih =>
    have hline : line + (p.line - line) = p.line := by omega
    have hstart : (if p.line - line = 0 then start + (if p.line - line = 0 then p.start - start
        else p.start) else (if p.line - line = 0 then p.start - start else p.start)) = p.start := by
      split <;> omega
    simp only [encodeFrom, decodeFrom, hline, hstart, ih, Int.toNat_natCast]

/-- The legend of the report. -/
def legend : Json :=
  .obj [("tokenTypes".toList, .arr (tokenTypes.map label)), ("tokenModifiers".toList, .arr [])]

/-- A profile in the report. -/
def semanticEntry (h : Highlighted) : Json :=
  .obj [("path".toList, .str h.path), ("data".toList, .arr ((encode h.spans).map .int))]

/-- The semantic token report of a list of profiles. -/
def semantic (results : List Highlighted) : Json :=
  .obj [("legend".toList, legend), ("files".toList, .arr (results.map semanticEntry))]

/-- The text of the semantic token report. -/
def semanticText (results : List Highlighted) : Text :=
  (semantic results).pretty

end Report

end SandboxProfile
