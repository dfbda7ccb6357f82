import SandboxProfile.Token.Basic

/-!
# Highlight spans

A span is a range of columns on one line with a mark. Spans that are computed from a text
have natural columns; spans that come from elsewhere may have any integers, and the reports
accept them all.

## Main definitions

* `Span` is a marked range of columns; `Span.length` and `Span.label` describe it.
* `Highlighted` is a text with its path and its spans.
* `Highlighted.byLine` collects the spans of each line, `Highlighted.spansOn` are those of one.

## Main results

* `Highlighted.spansOn_eq_filter` — the group of a line holds its spans in order.
-/

namespace SandboxProfile

/-- A marked range of columns on one line. -/
structure Span where
  /-- The number of the line, from one. -/
  line : Int
  /-- The first column, from zero. -/
  start : Int
  /-- The column after the last. -/
  stop : Int
  /-- What the range is. -/
  mark : Mark
  deriving DecidableEq, Repr

/-- The number of columns of a span. -/
def Span.length (s : Span) : Int :=
  s.stop - s.start

/-- The name under which reports show a span. -/
def Span.label (s : Span) : String :=
  s.mark.label

/-- A profile together with its spans. -/
structure Highlighted where
  path : Text
  text : Text
  spans : List Span
  deriving DecidableEq, Repr

/-- Add a span to the group of its line, which is made at the end if it is missing. -/
def addToGroup (s : Span) : List (Int × List Span) → List (Int × List Span)
  | [] => [(s.line, [s])]
  | (line, group) :: rest =>
    if line = s.line then (line, group ++ [s]) :: rest else (line, group) :: addToGroup s rest

/-- The spans of each line, the lines in the order in which their first spans come. -/
def groupByLine (spans : List Span) : List (Int × List Span) :=
  spans.foldl (fun groups s => addToGroup s groups) []

/-- The spans of each line of a profile. -/
def Highlighted.byLine (h : Highlighted) : List (Int × List Span) :=
  groupByLine h.spans

/-- The spans of one line, which is a line without spans if it has no group. -/
def Highlighted.spansOn (h : Highlighted) (line : Int) : List Span :=
  (h.byLine.lookup line).getD []

/-- A span joins the group of its line and no other. -/
theorem lookup_addToGroup (s : Span) (line : Int) (groups : List (Int × List Span)) :
    ((addToGroup s groups).lookup line).getD [] =
      (groups.lookup line).getD [] ++ if s.line = line then [s] else [] := by
  induction groups with
  | nil =>
    by_cases hs : s.line = line
    · simp [addToGroup, hs]
    · have hother : (line == s.line) = false := by simpa using Ne.symm hs
      simp [addToGroup, List.lookup_cons, hs, hother]
  | cons g rest ih =>
    obtain ⟨first, group⟩ := g
    rw [addToGroup]
    by_cases hline : line = first
    · subst hline
      by_cases hs : line = s.line
      · simp [hs]
      · simp [hs, Ne.symm hs]
    · have hother : (line == first) = false := by simpa using hline
      split
      · rename_i hs
        have hne : s.line ≠ line := fun h => hline (h.symm.trans hs.symm)
        simp [List.lookup_cons, hother, hne]
      · simpa only [List.lookup_cons, hother] using ih

/-- **The group of a line** is made of the spans on that line, in their order. -/
theorem Highlighted.spansOn_eq_filter (h : Highlighted) (line : Int) :
    h.spansOn line = h.spans.filter fun s => s.line = line := by
  have hfold (spans : List Span) : ∀ groups : List (Int × List Span),
      ((spans.foldl (fun groups s => addToGroup s groups) groups).lookup line).getD [] =
        (groups.lookup line).getD [] ++ spans.filter fun s => s.line = line := by
    induction spans with
    | nil => simp
    | cons s rest ih =>
      intro groups
      rw [List.foldl_cons, ih, lookup_addToGroup, List.append_assoc, List.filter_cons]
      by_cases hs : s.line = line <;> simp [hs]
  exact hfold h.spans []

/-- It holds the spans with the number of that line. -/
theorem Highlighted.mem_spansOn {h : Highlighted} {line : Int} {s : Span} :
    s ∈ h.spansOn line ↔ s ∈ h.spans ∧ s.line = line := by
  rw [spansOn_eq_filter, List.mem_filter, decide_eq_true_eq]

end SandboxProfile
