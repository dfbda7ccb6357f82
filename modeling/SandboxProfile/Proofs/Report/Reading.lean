import SandboxProfile.Proofs.Json.Values
import SandboxProfile.Report.Rendered

/-!
# Reports are read back

An editor that is handed a report finds its way by the names of the members. What it reads is
written down here: an entry without one of the members it needs, or with a name that no kind and
no category has, cannot be read, and the category is the one member that may be missing. Read in
this way, the text of the span report gives the paths and the spans that it was made from, and
the text of the semantic token report gives the legend and the paths with their integers.

There is a text unless an integer in the report is too long to be written. In the semantic token
report this can be so although every line and every column is short enough, because distances are
written there and counting starts at the first line.

## Main definitions

* `Report.readSpans?` reads the span report.
* `Report.readSemantic?` reads the semantic token report as a `Report.Semantic`.
* `Report.ReadsAs` says that a value is read back from the text of a report.

## Main results

* `Report.readSpans?_spans` and `Report.readSemantic?_semantic` — what is read from the values.
* `Report.reports_lossless` — what is read from the texts.
-/

namespace SandboxProfile

theorem TokenKind.ofName?_name (k : TokenKind) : TokenKind.ofName? k.name.toList = some k := by
  cases k <;> decide

namespace Json

/-! ### Members -/

/-- The string that a value is. -/
def text? : Json → Option Text
  | .str s => some s
  | _ => none

/-- The integer that a value is. -/
def int? : Json → Option Int
  | .int i => some i
  | _ => none

/-- The elements of the array that a value is. -/
def elements? : Json → Option (List Json)
  | .arr elements => some elements
  | _ => none

/-- The member of an object, if it is a string. -/
def textAt? (name : String) (v : Json) : Option Text :=
  (v.member? name.toList).bind text?

/-- The member of an object, if it is an integer. -/
def intAt? (name : String) (v : Json) : Option Int :=
  (v.member? name.toList).bind int?

/-- The elements of the member of an object, if it is an array, each read in the same way. -/
def listAt? {α : Type} (read? : Json → Option α) (name : String) (v : Json) : Option (List α) :=
  ((v.member? name.toList).bind elements?).bind fun elements => elements.mapM read?

theorem mapM_map_eq_some {α β : Type} {make : α → Json} {read? : Json → Option β} {value : α → β}
    (h : ∀ x, read? (make x) = some (value x)) (xs : List α) :
    (xs.map make).mapM read? = some (xs.map value) := by
  induction xs with
  | nil => rfl
  | cons x rest ih => simp [h, ih]

theorem listAt?_eq_some {α β : Type} {make : α → Json} {read? : Json → Option β} {value : α → β}
    {name : String} {v : Json} {xs : List α}
    (hmember : v.member? name.toList = some (.arr (xs.map make)))
    (h : ∀ x, read? (make x) = some (value x)) : v.listAt? read? name = some (xs.map value) := by
  simp only [listAt?, hmember, Option.bind_some, elements?, mapM_map_eq_some h]

end Json

namespace Report

/-! ### Readers -/

/-- The category of a span. There is none if the member is missing; a member that is there must
name one. -/
def readCategory? (v : Json) : Option (Option Category) :=
  match v.member? "category".toList with
  | none => some none
  | some c => (c.text?.bind Category.ofName?).map some

/-- A span in the span report. -/
def readSpan? (v : Json) : Option Span := do
  let line ← v.intAt? "line"
  let start ← v.intAt? "start"
  let stop ← v.intAt? "end"
  let kind ← (v.textAt? "kind").bind TokenKind.ofName?
  let category ← readCategory? v
  return ⟨line, start, stop, kind, category⟩

/-- A profile in the span report: its path and its spans. -/
def readFileSpans? (v : Json) : Option (Text × List Span) := do
  return (← v.textAt? "path", ← v.listAt? readSpan? "spans")

/-- The paths of the span report with their spans. Only the first version can be read. -/
def readSpans? (v : Json) : Option (List (Text × List Span)) :=
  if v.textAt? "version" = some "1.0".toList then v.listAt? readFileSpans? "files" else none

/-- What the semantic token report holds. -/
structure Semantic where
  types : List Text
  modifiers : List Text
  files : List (Text × List Int)
  deriving DecidableEq, Repr

/-- A profile in the semantic token report: its path and its integers. -/
def readFileData? (v : Json) : Option (Text × List Int) := do
  return (← v.textAt? "path", ← v.listAt? Json.int? "data")

/-- What a semantic token report holds. -/
def readSemantic? (v : Json) : Option Semantic := do
  let legend ← v.member? "legend".toList
  let types ← legend.listAt? Json.text? "tokenTypes"
  let modifiers ← legend.listAt? Json.text? "tokenModifiers"
  return ⟨types, modifiers, ← v.listAt? readFileData? "files"⟩

/-! ### Reading the values -/

/-- The category of a span is read back; there is none exactly if the member is missing. -/
theorem readCategory?_spanEntry (p : Span) :
    readCategory? (spanEntry p) = some p.mark.category := by
  obtain ⟨line, start, stop, kind, category⟩ := p
  cases category with
  | none => rfl
  | some c => exact congrArg (Option.map some) (Category.ofName?_name c)

/-- **A span is read back.** -/
theorem readSpan?_spanEntry (p : Span) : readSpan? (spanEntry p) = some p := by
  have hcategory := readCategory?_spanEntry p
  obtain ⟨line, start, stop, kind, category⟩ := p
  have hline : (spanEntry ⟨line, start, stop, kind, category⟩).intAt? "line" = some line := by
    cases category <;> rfl
  have hstart : (spanEntry ⟨line, start, stop, kind, category⟩).intAt? "start" = some start := by
    cases category <;> rfl
  have hstop : (spanEntry ⟨line, start, stop, kind, category⟩).intAt? "end" = some stop := by
    cases category <;> rfl
  have hkind : (spanEntry ⟨line, start, stop, kind, category⟩).textAt? "kind" =
      some kind.name.toList := by
    cases category <;> rfl
  simp only [readSpan?, hline, hstart, hstop, hkind, hcategory, TokenKind.ofName?_name,
    Option.bind_eq_bind, Option.bind_some, Option.pure_def]

/-- A profile in the span report is read back. -/
theorem readFileSpans?_spansEntry (h : Highlighted) :
    readFileSpans? (spansEntry h) = some (h.path, h.spans) := by
  have hpath : (spansEntry h).textAt? "path" = some h.path := rfl
  have hspans : (spansEntry h).listAt? readSpan? "spans" = some (h.spans.map id) :=
    Json.listAt?_eq_some rfl readSpan?_spanEntry
  rw [List.map_id] at hspans
  simp only [readFileSpans?, hpath, hspans, Option.bind_eq_bind, Option.bind_some, Option.pure_def]

/-- **The span report is read back** as the paths and their spans. -/
theorem readSpans?_spans (results : List Highlighted) :
    readSpans? (spans results) = some (results.map fun h => (h.path, h.spans)) := by
  have hversion : (spans results).textAt? "version" = some "1.0".toList := rfl
  rw [readSpans?, if_pos hversion]
  exact Json.listAt?_eq_some rfl readFileSpans?_spansEntry

/-- A profile in the semantic token report is read back. -/
theorem readFileData?_semanticEntry (h : Highlighted) :
    readFileData? (semanticEntry h) = some (h.path, encode h.spans) := by
  have hpath : (semanticEntry h).textAt? "path" = some h.path := rfl
  have hdata : (semanticEntry h).listAt? Json.int? "data" = some ((encode h.spans).map id) :=
    Json.listAt?_eq_some rfl fun _ => rfl
  rw [List.map_id] at hdata
  simp only [readFileData?, hpath, hdata, Option.bind_eq_bind, Option.bind_some,
    Option.pure_def]

/-- What the semantic token report of a list of profiles holds. -/
def semanticOf (results : List Highlighted) : Semantic :=
  ⟨tokenTypes.map String.toList, [], results.map fun h => (h.path, encode h.spans)⟩

/-- **The semantic token report is read back** as the legend and the paths with their integers. -/
theorem readSemantic?_semantic (results : List Highlighted) :
    readSemantic? (semantic results) = some (semanticOf results) := by
  have hlegend : (semantic results).member? "legend".toList = some legend := rfl
  have htypes : legend.listAt? Json.text? "tokenTypes" = some (tokenTypes.map String.toList) :=
    Json.listAt?_eq_some rfl fun _ => rfl
  have hmodifiers : legend.listAt? Json.text? "tokenModifiers" = some [] := rfl
  have hfiles : (semantic results).listAt? readFileData? "files" =
      some (results.map fun h => (h.path, encode h.spans)) :=
    Json.listAt?_eq_some rfl readFileData?_semanticEntry
  simp only [readSemantic?, hlegend, htypes, hmodifiers, hfiles, semanticOf, Option.bind_eq_bind,
    Option.bind_some, Option.pure_def]

/-! ### The integers of the reports -/

/-- The integers of the span report are the lines and columns of the spans. -/
theorem integers_spans (results : List Highlighted) :
    (spans results).integers =
      results.flatMap fun h => h.spans.flatMap fun p => [p.line, p.start, p.stop] := by
  have hspan (p : Span) : (spanEntry p).integers = [p.line, p.start, p.stop] := by
    obtain ⟨line, start, stop, kind, category⟩ := p
    cases category <;> rfl
  have hentry (h : Highlighted) :
      (spansEntry h).integers = h.spans.flatMap fun p => [p.line, p.start, p.stop] := by
    simp only [spansEntry, Json.integers, Json.memberIntegers, Json.elementIntegers_map, hspan,
      List.nil_append, List.append_nil]
  simp only [spans, label, Json.integers, Json.memberIntegers, Json.elementIntegers_map, hentry,
    List.nil_append, List.append_nil]

/-- The integers of the semantic token report are the encoded spans. -/
theorem integers_semantic (results : List Highlighted) :
    (semantic results).integers = results.flatMap fun h => encode h.spans := by
  have hentry (h : Highlighted) : (semanticEntry h).integers = encode h.spans := by
    simp only [semanticEntry, Json.integers, Json.memberIntegers, Json.elementIntegers_map,
      List.nil_append, List.append_nil, List.flatMap_singleton']
  have hlegend : legend.integers = [] := rfl
  simp only [semantic, Json.integers, Json.memberIntegers, Json.elementIntegers_map, hentry,
    hlegend, List.nil_append, List.append_nil]

/-! ### Reading the texts -/

/-- The integer can be written: it has at most `Text.digitLimit` digits. -/
def IsShort (i : Int) : Prop :=
  i.natAbs < Json.showLimit

/-- The text is ASCII, and what is read from it is this. -/
structure ReadsAs {α : Type} (read? : Json → Option α) (t : Text) (a : α) : Prop where
  /-- All characters are ASCII. -/
  ascii : Json.IsAscii t
  /-- The text is JSON, and the reader finds in it what it looks for. -/
  reads : (Json.read? t).bind read? = some a

/-- A text gives one thing only. -/
theorem ReadsAs.unique {α : Type} {read? : Json → Option α} {t : Text} {a b : α}
    (ha : ReadsAs read? t a) (hb : ReadsAs read? t b) : a = b :=
  Option.some.inj (ha.reads.symm.trans hb.reads)

/-- The text of a value whose integers are short is read as what the value is read as. -/
theorem render_readsAs {α : Type} {read? : Json → Option α} {v : Json} {a : α}
    (hshort : ∀ i ∈ v.integers, IsShort i) (hread : read? v = some a) :
    ∃ t, v.render = .ok t ∧ ReadsAs read? t a := by
  refine ⟨v.pretty, Json.render_eq_ok_iff.mpr ⟨hshort, rfl⟩, Json.isAscii_pretty v, ?_⟩
  rw [Json.read?_pretty, Option.bind_some, hread]

/-- A value with an integer that is too long cannot be written. -/
theorem render_eq_error {v : Json} (h : ¬ ∀ i ∈ v.integers, IsShort i) :
    v.render = .error .tooLongToShow := by
  cases hrender : v.render with
  | ok t => exact absurd (Json.render_eq_ok_iff.mp hrender).1 h
  | error e =>
      rw [Json.render] at hrender
      split at hrender
      · cases hrender
      · exact hrender.symm

/-- All lines and columns can be written. -/
def HasShortSpans (results : List Highlighted) : Prop :=
  ∀ h ∈ results, ∀ p ∈ h.spans, IsShort p.line ∧ IsShort p.start ∧ IsShort p.stop

/-- The integers of the span report are short exactly if all lines and columns are. -/
theorem isShort_spans_iff {results : List Highlighted} :
    (∀ i ∈ (spans results).integers, IsShort i) ↔ HasShortSpans results := by
  simp only [HasShortSpans, integers_spans, List.forall_mem_flatMap, List.forall_mem_cons,
    List.not_mem_nil, false_implies, implies_true, and_true]

/-- All integers for the spans can be written. -/
def HasShortData (results : List Highlighted) : Prop :=
  ∀ h ∈ results, ∀ i ∈ encode h.spans, IsShort i

/-- The integers of the semantic token report are short exactly if those for the spans are. -/
theorem isShort_semantic_iff {results : List Highlighted} :
    (∀ i ∈ (semantic results).integers, IsShort i) ↔ HasShortData results := by
  simp only [HasShortData, integers_semantic, List.forall_mem_flatMap]

/-- The two reports of a list of profiles tell what they were made from, unless an integer in
them is too long to be written. -/
structure ReportsTell (results : List Highlighted) : Prop where
  /-- The span report gives the paths and their spans, categories and missing categories
  included. -/
  spans : HasShortSpans results → ∃ t, renderSpans results = .ok t ∧
    ReadsAs readSpans? t (results.map fun h => (h.path, h.spans))
  /-- A line or a column that is too long is a fault of the span report. -/
  spans_fault : ¬ HasShortSpans results → renderSpans results = .error .tooLongToShow
  /-- Profiles with the same span report have the same paths and the same spans. -/
  spans_injective : ∀ others t, renderSpans results = .ok t → renderSpans others = .ok t →
    (results.map fun h => (h.path, h.spans)) = others.map fun h => (h.path, h.spans)
  /-- The semantic token report gives the legend and the paths with the integers for their
  spans. -/
  semantic : HasShortData results → ∃ t, renderSemantic results = .ok t ∧
    ReadsAs readSemantic? t (semanticOf results)
  /-- An integer that is too long is a fault of the semantic token report. -/
  semantic_fault : ¬ HasShortData results → renderSemantic results = .error .tooLongToShow

/-- What is read from the text of a span report. -/
theorem readsAs_of_renderSpans {results : List Highlighted} {t : Text}
    (h : renderSpans results = .ok t) :
    ReadsAs readSpans? t (results.map fun h => (h.path, h.spans)) := by
  have hshort := (Json.render_eq_ok_iff.mp h).1
  obtain ⟨t', hrender, hreads⟩ := render_readsAs hshort (readSpans?_spans results)
  obtain rfl : t' = t := Except.ok.inj (hrender.symm.trans h)
  exact hreads

/-- **The reports are lossless.** Their texts are ASCII and are read back as what they were made
from. -/
theorem reports_lossless (results : List Highlighted) : ReportsTell results := by
  exact
    { spans := fun hshort =>
        render_readsAs (isShort_spans_iff.mpr hshort) (readSpans?_spans results)
      spans_fault := fun hlong => render_eq_error (mt isShort_spans_iff.mp hlong)
      spans_injective := fun _ _ h hothers =>
        (readsAs_of_renderSpans h).unique (readsAs_of_renderSpans hothers)
      semantic := fun hshort =>
        render_readsAs (isShort_semantic_iff.mpr hshort) (readSemantic?_semantic results)
      semantic_fault := fun hlong => render_eq_error (mt isShort_semantic_iff.mp hlong) }

/-- A comment of one column, so many lines above the first line. -/
def spanAbove (n : Nat) : Span :=
  ⟨1 - n, 0, 1, .comment, none⟩

/-- The first integer for such a comment is its distance from the first line. -/
theorem encode_spanAbove (n : Nat) : ∃ rest, encode [spanAbove n] = -(n : Int) :: rest := by
  have hplaced : placedSpans [spanAbove n] = [⟨1 - n, 0, 1, 0⟩] := by
    rw [placedSpans, List.mergeSort_singleton]
    rfl
  have hdistance : (1 : Int) - n - 1 = -n := by omega
  rw [encode, hplaced, encodeFrom, hdistance]
  exact ⟨_, rfl⟩

/-- The line of such a comment is one digit shorter than its distance from the first line can
be. -/
theorem hasShortSpans_spanAbove {n : Nat} (hpos : 1 < n) (h : n ≤ Json.showLimit)
    (path text : Text) : HasShortSpans [⟨path, text, [spanAbove n]⟩] := by
  intro r hr p hp
  obtain rfl := List.mem_singleton.mp hr
  obtain rfl := List.mem_singleton.mp hp
  simp only [spanAbove, IsShort]
  omega

/-- Its distance from the first line cannot be written if it is too long. -/
theorem renderSemantic_spanAbove {n : Nat} (h : Json.showLimit ≤ n) (path text : Text) :
    renderSemantic [⟨path, text, [spanAbove n]⟩] = .error .tooLongToShow := by
  refine render_eq_error fun hshort => ?_
  have hdata := isShort_semantic_iff.mp hshort _ List.mem_cons_self
  obtain ⟨rest, hencode⟩ := encode_spanAbove n
  rw [hencode] at hdata
  have hdistance := hdata _ List.mem_cons_self
  simp only [IsShort] at hdistance
  omega

/-- **A distance can be too long** although all lines and columns are short: then there is a span
report and no semantic token report. -/
theorem distance_too_long :
    HasShortSpans [⟨['a'], [], [spanAbove (Json.showLimit)]⟩] ∧
      renderSemantic [⟨['a'], [], [spanAbove (Json.showLimit)]⟩] =
        .error .tooLongToShow := by
  have hpos : 1 < Json.showLimit := Nat.lt_of_lt_of_le (by decide) Json.ten_le_showLimit
  exact ⟨hasShortSpans_spanAbove hpos (Nat.le_refl _) _ _,
    renderSemantic_spanAbove (Nat.le_refl _) _ _⟩

end Report

end SandboxProfile
