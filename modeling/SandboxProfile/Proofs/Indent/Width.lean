import SandboxProfile.Proofs.Highlight.Painting
import SandboxProfile.Proofs.Indent.Accepted
import SandboxProfile.Proofs.Indent.Limits

/-!
# How far lines are indented

The indentation of a line is a number of columns, and it is written in tabs and spaces. Read
again with tab stops as far apart as a tab is wide, what was written fills just these columns:
tabs take whole steps from the margin, and the spaces after them are too few for another one.

The number is computed twice, from the line as it stands for the record of the line, and from the
line without its first blanks where the line is written. Both are the same, since blanks at the
start only move tokens.

## Main definitions

* `visualWidth` is the number of columns that characters take from the margin on.
* `LineIndented` says how a line stands in the indented text.

## Main results

* `leadingBlanks_counts` — how many tabs and spaces an indentation has.
* `visualWidth_tabs_spaces` — how many columns they take.
* `indentation_written` — a line is indented as far as its record says.
-/

namespace SandboxProfile

/-! ### Columns -/

/-- The column after a character that stands at the given column, with a tab stop every `width`
columns. -/
def nextColumn (width column : Nat) (c : Char) : Nat :=
  if c = '\t' then column + (width - column % width) else column + 1

/-- The number of columns that characters take from the margin on. -/
def visualWidth (width : Nat) (s : Text) : Nat :=
  s.foldl (nextColumn width) 0

/-- A tab at a tab stop takes a whole step, and the next one stands at a tab stop again. -/
theorem foldl_nextColumn_tabs {width column : Nat} (hcolumn : column % width = 0) (tabs : Nat) :
    (List.replicate tabs '\t').foldl (nextColumn width) column = column + tabs * width := by
  induction tabs generalizing column with
  | zero => rw [Nat.zero_mul]; rfl
  | succ n ih =>
      have hnext : nextColumn width column '\t' = column + width := by
        rw [nextColumn, if_pos rfl, hcolumn, Nat.sub_zero]
      have hstop : (column + width) % width = 0 := by rw [Nat.add_mod_right, hcolumn]
      rw [List.replicate_succ, List.foldl_cons, hnext, ih hstop, Nat.succ_mul]
      omega

/-- A space takes one column. -/
theorem foldl_nextColumn_spaces (width column spaces : Nat) :
    (List.replicate spaces ' ').foldl (nextColumn width) column = column + spaces := by
  induction spaces generalizing column with
  | zero => rfl
  | succ n ih =>
      have hnext : nextColumn width column ' ' = column + 1 := if_neg (by decide)
      rw [List.replicate_succ, List.foldl_cons, hnext, ih]
      omega

/-- **How many columns tabs and then spaces take.** -/
theorem visualWidth_tabs_spaces (width tabs spaces : Nat) :
    visualWidth width (List.replicate tabs '\t' ++ List.replicate spaces ' ') =
      tabs * width + spaces := by
  rw [visualWidth, List.foldl_append, foldl_nextColumn_tabs (Nat.zero_mod width),
    foldl_nextColumn_spaces, Nat.zero_add]

/-! ### Blanks -/

variable {style : IndentStyle}

/-- **How many tabs and spaces an indentation has**: tabs only if they are used, then fewer spaces
than a tab has columns, and all together as many columns as are to be filled. -/
theorem leadingBlanks_counts {columns : Int} {w : Text} (h : leadingBlanks style columns = .ok w)
    (hcolumns : 0 ≤ columns) (hwidth : 1 ≤ style.tabWidth) :
    ∃ tabs spaces : Nat, w = List.replicate tabs '\t' ++ List.replicate spaces ' ' ∧
      (style.useTabs = false → tabs = 0) ∧
      (style.useTabs = true → (spaces : Int) < style.tabWidth) ∧
      (tabs : Int) * style.tabWidth + spaces = columns := by
  rw [leadingBlanks] at h
  split at h
  · rename_i htabs
    rw [if_neg (by omega)] at h
    obtain ⟨tabs, ht, h⟩ := bind_eq_ok.mp h
    obtain ⟨spaces, hs, h⟩ := bind_eq_ok.mp h
    obtain rfl := pure_eq_ok.mp h
    have hdiv : 0 ≤ columns.fdiv style.tabWidth := Int.fdiv_nonneg hcolumns (by omega)
    have hmod : 0 ≤ columns.fmod style.tabWidth := Int.fmod_nonneg_of_pos columns (by omega)
    have hlt : columns.fmod style.tabWidth < style.tabWidth :=
      Int.fmod_lt_of_pos columns (by omega)
    refine ⟨(columns.fdiv style.tabWidth).toNat, (columns.fmod style.tabWidth).toNat, ?_,
      fun hnone => ?_, fun _ => ?_, ?_⟩
    · rw [copies_eq_ok ht, copies_eq_ok hs]
    · cases htabs.symm.trans hnone
    · rwa [Int.toNat_of_nonneg hmod]
    · rw [Int.toNat_of_nonneg hdiv, Int.toNat_of_nonneg hmod, Int.mul_comm]
      exact Int.mul_fdiv_add_fmod columns style.tabWidth
  · rename_i htabs
    refine ⟨0, columns.toNat, ?_, fun _ => rfl, fun huse => absurd huse htabs, ?_⟩
    · rw [copies_eq_ok h]
      rfl
    · omega

/-- An indentation takes the columns that it is to fill. -/
theorem visualWidth_leadingBlanks {columns : Int} {w : Text}
    (h : leadingBlanks style columns = .ok w) (hcolumns : 0 ≤ columns)
    (hwidth : 1 ≤ style.tabWidth) : (visualWidth style.tabWidth.toNat w : Int) = columns := by
  obtain ⟨tabs, spaces, rfl, -, -, hcount⟩ := leadingBlanks_counts h hcolumns hwidth
  rw [visualWidth_tabs_spaces, Int.natCast_add, Int.natCast_mul, Int.toNat_of_nonneg (by omega)]
  exact hcount

/-- No line stands left of the margin. -/
theorem indentFor_nonneg {offset : Int} (h : 0 ≤ offset) (line : Text) :
    0 ≤ indentFor offset line := by
  rw [indentFor]
  split
  · exact Int.le_refl 0
  · exact h

/-! ### Lines -/

/-- The line `l`, number `i` from zero of the text `s`, stands indented as `m`. -/
structure LineIndented (k : Catalog) (style : IndentStyle) (s : Text) (i : Nat) (l m : Line) :
    Prop where
  /-- It begins with tabs and then spaces. There are tabs only if they are used, and then fewer
  spaces than a tab has columns. -/
  blanks : ∃ tabs spaces : Nat,
    Text.blankPrefix m.body = List.replicate tabs '\t' ++ List.replicate spaces ' ' ∧
      (style.useTabs = false → tabs = 0) ∧
      (style.useTabs = true → (spaces : Int) < style.tabWidth)
  /-- They take as many columns as the line as it stood was to be indented. -/
  width : (visualWidth style.tabWidth.toNat (Text.blankPrefix m.body) : Int) =
    indentFor style.offset l.body
  /-- The record of the line says the same. -/
  record : ∃ r, (analyseLines k style.offset s)[i]? = some r ∧ r.number = i + 1 ∧
    r.text = l.body ∧
    r.indent = (visualWidth style.tabWidth.toNat (Text.blankPrefix m.body) : Int)
  /-- The line goes on as it did behind its first blanks. -/
  rest : Text.trimStart m.body = Text.trimStart l.body
  /-- Its ending is the same. -/
  ending : m.ending = l.ending

/-- A line of an indented text that is not blank stands where it stood. -/
theorem exists_lineIndented (k : Catalog) (hoffset : 0 ≤ style.offset)
    (hwidth : 1 ≤ style.tabWidth) {s t : Text} (h : formatText style s = .ok t) {i : Nat}
    {l : Line} (hl : (splitLines s)[i]? = some l) (hink : Text.trimStart l.body ≠ []) :
    ∃ m, (splitLines t)[i]? = some m ∧ LineIndented k style s i l m := by
  obtain ⟨ms, hms, -, hsplit⟩ := splitLines_of_formatText h
  obtain ⟨m, hm, hbody, hending⟩ := hms.exists_getElem? hl
  rcases formatLine_eq_ok hbody with ⟨hblank, -⟩ | ⟨w, hw, -, hout⟩
  · exact absurd hblank hink
  · obtain ⟨c, rest, hrest⟩ := List.exists_cons_of_ne_nil hink
    have hkept : m ≠ ⟨[], .none⟩ := by
      rintro rfl
      exact hink (List.append_eq_nil_iff.mp hout.symm).2
    have hblanks : Text.blankPrefix m.body = w := by
      rw [hout, hrest]
      exact Text.blankPrefix_append (isBlank_of_leadingBlanks hw)
        (Text.isBlank_eq_false_of_trimStart hrest) rest
    rw [indentFor_trimStart] at hw
    have hcolumns := visualWidth_leadingBlanks hw (indentFor_nonneg hoffset l.body) hwidth
    obtain ⟨tabs, spaces, hcounts, hnotabs, hspaces, -⟩ :=
      leadingBlanks_counts hw (indentFor_nonneg hoffset l.body) hwidth
    refine ⟨m, ?_, ⟨tabs, spaces, ?_, hnotabs, hspaces⟩, ?_, ?_, ?_, hending⟩
    · rw [hsplit]
      exact getElem?_dropEmptyLast hm hkept
    · rw [hblanks, hcounts]
    · rw [hblanks, hcolumns]
    · refine ⟨⟨1 + i, l.body, (tokenize true l.body).map k.classifyToken,
        indentFor style.offset l.body⟩, ?_, Nat.add_comm 1 i, rfl, ?_⟩
      · rw [analyseLines, getElem?_analyseFrom, hl]
        rfl
      · rw [hblanks, hcolumns]
    · exact trimStart_of_formatLine hbody

/-- **A line is indented as far as its record says.** Where the blanks of a text can be written, so
that the text can be indented, the indentation of each of its lines that is not blank is made of
tabs and spaces that take as many columns as the line was to be indented. -/
theorem indentation_written (k : Catalog) (hoffset : 0 ≤ style.offset)
    (hwidth : 1 ≤ style.tabWidth) (s : Text) :
    ((∃ t, formatText style s = .ok t) ↔ (HasIndentedLine s → style.CanWrite style.offset)) ∧
      ∀ t, formatText style s = .ok t → ∀ i l, (splitLines s)[i]? = some l →
        Text.trimStart l.body ≠ [] →
          ∃ m, (splitLines t)[i]? = some m ∧ LineIndented k style s i l m := by
  have hstyle : style.HasWidth := by
    intro _
    omega
  refine ⟨formatText_ok_iff hstyle, ?_⟩
  intro t ht i l hl hink
  exact exists_lineIndented k hoffset hwidth ht hl hink

/-- An offset of eleven columns is a tab and three spaces where a tab has eight columns. -/
theorem indentation_written_tabs :
    0 ≤ (IndentStyle.mk 11 true 8).offset ∧ 1 ≤ (IndentStyle.mk 11 true 8).tabWidth ∧
      formatText ⟨11, true, 8⟩ " net # a".toList = .ok "\t   net # a".toList ∧
      ∃ m, (splitLines "\t   net # a".toList)[0]? = some m ∧
        LineIndented Catalog.builtin ⟨11, true, 8⟩ " net # a".toList 0
          ⟨" net # a".toList, .none⟩ m :=
  ⟨by decide, by decide, by decide,
    (indentation_written Catalog.builtin (by decide) (by decide) " net # a".toList).2 _ (by decide)
      0 _ (by decide) (by decide)⟩

/-- A line that takes an offset that no machine word holds cannot be written. -/
theorem not_written_beyondWord :
    0 ≤ (IndentStyle.mk 9223372036854775808 false 8).offset ∧
      1 ≤ (IndentStyle.mk 9223372036854775808 false 8).tabWidth ∧
      Text.trimStart "net".toList ≠ [] ∧
      ¬∃ t, formatText ⟨9223372036854775808, false, 8⟩ "net".toList = .ok t := by
  have herror : formatText ⟨9223372036854775808, false, 8⟩ "net".toList = .error .beyondWord := by
    decide
  exact ⟨by decide, by decide, by decide, not_ok_of_error herror⟩

end SandboxProfile
