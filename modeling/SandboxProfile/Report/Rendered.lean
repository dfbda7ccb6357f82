import SandboxProfile.Json.Rendering
import SandboxProfile.Report.Semantic

/-!
# Reports of spans from elsewhere

Spans that are computed from a text have lines and columns of a few digits. The reports can also
be asked for spans that come from elsewhere, whose integers may be too long to be written; in the
semantic token report a distance can be too long although no line and no column is.

## Main definitions

* `Report.renderSpans` writes the span report.
* `Report.renderSemantic` writes the semantic token report.
-/

namespace SandboxProfile

namespace Report

/-- The text of the span report, unless an integer in it is too long. -/
def renderSpans (results : List Highlighted) : Except Fault Text :=
  (spans results).render

/-- The text of the semantic token report, unless an integer in it is too long. -/
def renderSemantic (results : List Highlighted) : Except Fault Text :=
  (semantic results).render

end Report

end SandboxProfile
