import SandboxProfile.Highlight.Line
import SandboxProfile.Proofs.Indent.Lines

/-!
# The style of line endings

Whether lines end in a line feed alone or in a carriage return and a line feed matters to no
body, so it matters neither to what is found on a line nor to its indentation. This holds of texts
without other carriage returns: one more before a line feed would be a character of the body.

## Main definitions

* `withReturns` is a text with a carriage return before each line feed.
* `Line.withReturn` is a line with a carriage return before its line feed.
* `Line.Plain` says that a line has room for one.

## Main results

* `splitLines_withReturns` — the lines are the same but for their endings.
* `endings_irrelevant` — so are the spans, the records of lines and the indented text.
-/

namespace SandboxProfile

/-- A text with a carriage return before each line feed. -/
def withReturns (s : Text) : Text :=
  s.flatMap fun c => if c = '\n' then ['\r', '\n'] else [c]

/-- A line with a carriage return before its line feed. -/
def Line.withReturn (l : Line) : Line :=
  match l.ending with
  | .lf => ⟨l.body, .crlf⟩
  | _ => l

/-- A line that has room for a carriage return: if it has a line feed, this is its ending. -/
structure Line.Plain (l : Line) : Prop where
  /-- The body holds no line feed. -/
  feed_not_mem : '\n' ∉ l.body
  /-- The ending holds no carriage return. -/
  ending_ne : l.ending ≠ .crlf

/-! ### Lines -/

theorem withReturns_append (s t : Text) :
    withReturns (s ++ t) = withReturns s ++ withReturns t :=
  List.flatMap_append

/-- Without a line feed there is no place for a carriage return. -/
theorem withReturns_of_not_mem {s : Text} (h : '\n' ∉ s) : withReturns s = s := by
  induction s with
  | nil => rfl
  | cons c rest ih =>
      obtain ⟨hc, hrest⟩ := not_or.mp (mt List.mem_cons.mpr h)
      rw [withReturns, List.flatMap_cons, if_neg (Ne.symm hc)]
      exact congrArg (c :: ·) (ih hrest)

theorem body_withReturn (l : Line) : l.withReturn.body = l.body := by
  rw [Line.withReturn]
  split <;> rfl

/-- No line is left that ends in a line feed alone. -/
theorem ending_withReturn_ne (l : Line) : l.withReturn.ending ≠ .lf := by
  rw [Line.withReturn]
  split
  · simp
  · assumption

/-- A line that has no ending gets none. -/
theorem ending_withReturn_eq_none {l : Line} : l.withReturn.ending = .none ↔ l.ending = .none := by
  rw [Line.withReturn]
  split
  · rename_i hlf
    simp [hlf]
  · exact Iff.rfl

/-- The characters of a line, if its ending has no carriage return yet. -/
theorem withReturns_text {l : Line} (h : l.Plain) :
    withReturns l.text = l.withReturn.text := by
  obtain ⟨body, ending⟩ := l
  rw [Line.text, withReturns_append, withReturns_of_not_mem h.feed_not_mem]
  cases ending with
  | none => rfl
  | lf => rfl
  | crlf => exact absurd rfl h.ending_ne

/-- A text of lines whose endings have no carriage return yet. -/
theorem withReturns_joinLines {ls : List Line} (h : ∀ l ∈ ls, l.Plain) :
    withReturns (joinLines ls) = joinLines (ls.map Line.withReturn) := by
  induction ls with
  | nil => rfl
  | cons l rest ih =>
      obtain ⟨hl, hrest⟩ := List.forall_mem_cons.mp h
      rw [List.map_cons, joinLines_cons, joinLines_cons, withReturns_append,
        withReturns_text hl, ih hrest]

/-- A carriage return more leaves the form of a line. -/
theorem Line.WellFormed.withReturn {l : Line} (h : l.WellFormed) : l.withReturn.WellFormed := by
  refine ⟨?_, fun hlf => absurd hlf (ending_withReturn_ne l), fun hnone => ?_⟩
  · rw [body_withReturn]
    exact h.feed_not_mem
  · rw [body_withReturn]
    exact h.body_ne_nil (ending_withReturn_eq_none.mp hnone)

/-- Carriage returns leave the form of lines. -/
theorem areLines_map_withReturn {ls : List Line} (h : AreLines ls) :
    AreLines (ls.map Line.withReturn) := by
  induction ls with
  | nil => trivial
  | cons l rest ih =>
      obtain ⟨hl, hlast, hrest⟩ := h
      refine ⟨hl.withReturn, fun hnone => ?_, ih hrest⟩
      rw [hlast (ending_withReturn_eq_none.mp hnone)]
      rfl

/-- The lines of a text without carriage returns have room for them. -/
theorem plain_splitLines {s : Text} (h : '\r' ∉ s) : ∀ l ∈ splitLines s, l.Plain := by
  intro l hl
  refine ⟨feed_not_mem_of_mem_splitLines hl, fun hcrlf => h ?_⟩
  rw [← joinLines_splitLines s]
  refine List.mem_flatMap.mpr ⟨l, hl, List.mem_append_right _ ?_⟩
  rw [hcrlf]
  exact List.mem_cons_self

/-- **The lines of a text with carriage returns** are the same but for their endings. -/
theorem splitLines_withReturns {s : Text} (h : '\r' ∉ s) :
    splitLines (withReturns s) = (splitLines s).map Line.withReturn := by
  conv_lhs => rw [← joinLines_splitLines s]
  rw [withReturns_joinLines (plain_splitLines h)]
  exact splitLines_joinLines (areLines_map_withReturn (areLines_splitLines s))

/-! ### What is found on lines -/

/-- Spans do not depend on endings. -/
theorem highlightFrom_map_withReturn (k : Catalog) (number : Nat) (ls : List Line) :
    highlightFrom k number (ls.map Line.withReturn) = highlightFrom k number ls := by
  induction ls generalizing number with
  | nil => rfl
  | cons l rest ih =>
      rw [List.map_cons, highlightFrom, highlightFrom, body_withReturn, ih]

/-- The records of lines do not depend on endings. -/
theorem analyseFrom_map_withReturn (k : Catalog) (offset : Int) (number : Nat) (ls : List Line) :
    analyseFrom k offset number (ls.map Line.withReturn) = analyseFrom k offset number ls := by
  induction ls generalizing number with
  | nil => rfl
  | cons l rest ih =>
      rw [List.map_cons, analyseFrom, analyseFrom, body_withReturn, ih]

/-! ### Indentation -/

variable {style : IndentStyle}

/-- Lines are indented in the same way whatever their endings are, and keep them. -/
theorem formatLines_map_withReturn (style : IndentStyle) (ls : List Line) :
    formatLines style (ls.map Line.withReturn) =
      List.map Line.withReturn <$> formatLines style ls := by
  induction ls with
  | nil => rfl
  | cons l rest ih =>
      have hline (body : Text) : (⟨body, l.withReturn.ending⟩ : Line) =
          Line.withReturn ⟨body, l.ending⟩ := by
        obtain ⟨_, ending⟩ := l
        cases ending <;> rfl
      rw [List.map_cons, formatLines, formatLines, ih, body_withReturn]
      cases formatLine style l.body with
      | error e => rfl
      | ok body =>
          cases formatLines style rest with
          | error e => rfl
          | ok others => exact congrArg (fun m => Except.ok (m :: _)) (hline body)

/-- Indented lines have room for carriage returns if the lines had. -/
theorem FormattedLines.plain {ls ms : List Line} (h : FormattedLines style ls ms)
    (hls : ∀ l ∈ ls, l.Plain) : ∀ m ∈ ms, m.Plain := by
  induction h with
  | nil => exact List.forall_mem_nil _
  | @cons l m ls ms hlm _ ih =>
      obtain ⟨hl, hrest⟩ := List.forall_mem_cons.mp hls
      have hm : m.Plain := by
        refine ⟨feed_not_mem_of_formatLine hlm.1 hl.feed_not_mem, ?_⟩
        rw [hlm.2]
        exact hl.ending_ne
      exact List.forall_mem_cons.mpr ⟨hm, ih hrest⟩

/-- **The indented text of a text with carriage returns.** -/
theorem formatText_withReturns (style : IndentStyle) {s : Text} (h : '\r' ∉ s) :
    formatText style (withReturns s) = withReturns <$> formatText style s := by
  rw [formatText, formatText, splitLines_withReturns h, formatLines_map_withReturn]
  cases hms : formatLines style (splitLines s) with
  | error e => rfl
  | ok ms =>
      have hplain := (formatLines_eq_ok hms).plain (plain_splitLines h)
      exact congrArg Except.ok (withReturns_joinLines hplain).symm

/-- **The style of line endings does not matter.** Where a text has no carriage returns, putting
one before each line feed leaves the spans and the records of its lines as they are, and the
indented text gets the same carriage returns, or cannot be made for the same reason. -/
theorem endings_irrelevant {s : Text} (h : '\r' ∉ s) :
    (∀ k, highlight k (withReturns s) = highlight k s) ∧
      (∀ k offset, analyseLines k offset (withReturns s) = analyseLines k offset s) ∧
      ∀ style, formatText style (withReturns s) = withReturns <$> formatText style s := by
  refine ⟨fun k => ?_, fun k offset => ?_, fun style => formatText_withReturns style h⟩
  · rw [highlight, splitLines_withReturns h, highlightFrom_map_withReturn, highlight]
  · rw [analyseLines, splitLines_withReturns h, analyseFrom_map_withReturn, analyseLines]

/-- Two lines, the first with a comment, that are written with carriage returns. -/
theorem endings_irrelevant_comment :
    '\r' ∉ "net # a\n\n".toList ∧
      withReturns "net # a\n\n".toList = "net # a\r\n\r\n".toList ∧
      highlight Catalog.builtin (withReturns "net # a\n\n".toList) =
        highlight Catalog.builtin "net # a\n\n".toList ∧
      formatText ⟨2, false, 8⟩ (withReturns "net # a\n\n".toList) =
        withReturns <$> formatText ⟨2, false, 8⟩ "net # a\n\n".toList :=
  have h := endings_irrelevant (s := "net # a\n\n".toList) (by decide)
  ⟨by decide, by decide, h.1 _, h.2.2 _⟩

end SandboxProfile
