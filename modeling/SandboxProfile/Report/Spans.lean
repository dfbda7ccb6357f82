import SandboxProfile.Highlight.Span
import SandboxProfile.Json.Printer

/-!
# The span report

The span report lists the spans of each profile for editors and scripts.

## Main definitions

* `Report.spans` is the report as a value; `Report.spansText` is its text.
-/

namespace SandboxProfile

namespace Report

/-- A string value from a literal. -/
def label (s : String) : Json :=
  .str s.toList

/-- A span in the report. The category is left out where there is none. -/
def spanEntry (s : Span) : Json :=
  .obj
    ([("line".toList, .int s.line), ("start".toList, .int s.start), ("end".toList, .int s.stop),
        ("kind".toList, label s.mark.kind.name)] ++
      match s.mark.category with
      | some c => [("category".toList, label c.name)]
      | none => [])

/-- A profile in the report. -/
def spansEntry (h : Highlighted) : Json :=
  .obj [("path".toList, .str h.path), ("spans".toList, .arr (h.spans.map spanEntry))]

/-- The span report of a list of profiles. -/
def spans (results : List Highlighted) : Json :=
  .obj [("version".toList, label "1.0"), ("files".toList, .arr (results.map spansEntry))]

/-- The text of the span report. -/
def spansText (results : List Highlighted) : Text :=
  (spans results).pretty

end Report

end SandboxProfile
