import SandboxProfile.Proofs.Indent.Lines

/-!
# When a text can be indented

Indentation writes tabs and spaces, and their numbers have to fit a machine word. Blank lines
and lines at the margin take no blanks at all, so only the other lines can stand in the way,
and all of them take the same blanks: a text can be indented if it has no such line or if
those blanks can be written.

Where texts can be indented, a later indentation absorbs all earlier ones.

## Main definitions

* `IndentStyle.CanWrite` says that the blanks for a number of columns can be written.
* `HasIndentedLine` says that some line of a text takes the offset.
* `formatInTurn` indents a text again and again.

## Main results

* `formatText_ok_iff` — when a text can be indented.
* `formatText_eq_error` — why it cannot.
* `formatInTurn_eq_ok_iff` — what remains of several indentations.
* `formatInTurn_absorbs` — the last indentation alone decides, wherever all blanks can be
  written.
-/

namespace SandboxProfile

/-! ### Blanks -/

/-- The number fits a machine word with a sign. -/
def FitsWord (n : Int) : Prop :=
  -(wordLimit : Int) ≤ n ∧ n < wordLimit

instance (n : Int) : Decidable (FitsWord n) :=
  inferInstanceAs (Decidable (-(wordLimit : Int) ≤ n ∧ n < wordLimit))

namespace IndentStyle

/-- A tab has a width if tabs are used. -/
def HasWidth (style : IndentStyle) : Prop :=
  style.useTabs = true → style.tabWidth ≠ 0

instance (style : IndentStyle) : Decidable style.HasWidth :=
  inferInstanceAs (Decidable (style.useTabs = true → style.tabWidth ≠ 0))

/-- The numbers of tabs and spaces that fill the columns fit a machine word. -/
def CanWrite (style : IndentStyle) (columns : Int) : Prop :=
  if style.useTabs then
    FitsWord (columns.fdiv style.tabWidth) ∧ FitsWord (columns.fmod style.tabWidth)
  else FitsWord columns

instance (style : IndentStyle) (columns : Int) : Decidable (style.CanWrite columns) :=
  inferInstanceAs (Decidable (if style.useTabs then
    FitsWord (columns.fdiv style.tabWidth) ∧ FitsWord (columns.fmod style.tabWidth)
    else FitsWord columns))

theorem canWrite_zero (style : IndentStyle) : style.CanWrite 0 := by
  rw [CanWrite, Int.zero_fdiv, Int.zero_fmod]
  split <;> decide

end IndentStyle

variable {style : IndentStyle}

/-- Copies can be made if their number fits a machine word. -/
theorem copies_ok_iff {n : Int} {c : Char} : (∃ w, copies n c = .ok w) ↔ FitsWord n := by
  rw [copies, FitsWord]
  split
  · rename_i hfits
    exact ⟨fun _ => hfits, fun _ => ⟨_, rfl⟩⟩
  · rename_i hbeyond
    refine ⟨?_, fun hfits => absurd hfits hbeyond⟩
    rintro ⟨w, h⟩
    cases h

/-- The columns can be filled if the numbers of blanks fit a machine word. -/
theorem leadingBlanks_ok_iff (hwidth : style.HasWidth) {columns : Int} :
    (∃ w, leadingBlanks style columns = .ok w) ↔ style.CanWrite columns := by
  rw [leadingBlanks, IndentStyle.CanWrite]
  by_cases htabs : style.useTabs = true
  · rw [if_pos htabs, if_pos htabs, if_neg (hwidth htabs), ← copies_ok_iff (c := '\t'),
      ← copies_ok_iff (c := ' ')]
    constructor
    · rintro ⟨w, h⟩
      obtain ⟨tabs, htabs, h⟩ := bind_eq_ok.mp h
      obtain ⟨spaces, hspaces, -⟩ := bind_eq_ok.mp h
      exact ⟨⟨tabs, htabs⟩, ⟨spaces, hspaces⟩⟩
    · rintro ⟨⟨tabs, htabs⟩, ⟨spaces, hspaces⟩⟩
      exact ⟨_, bind_eq_ok.mpr ⟨tabs, htabs, bind_eq_ok.mpr ⟨spaces, hspaces, rfl⟩⟩⟩
  · rw [if_neg htabs, if_neg htabs]
    exact copies_ok_iff

/-! ### Texts -/

/-- The line takes the offset: it is neither blank nor at the margin. -/
def IsIndented (line : Text) : Prop :=
  Text.trimStart line ≠ [] ∧ isFlushLeft (Text.trimStart line) = false

instance (line : Text) : Decidable (IsIndented line) :=
  inferInstanceAs (Decidable (_ ∧ _))

/-- Some line of the text takes the offset. -/
def HasIndentedLine (s : Text) : Prop :=
  ∃ l ∈ splitLines s, IsIndented l.body

instance (s : Text) : Decidable (HasIndentedLine s) :=
  inferInstanceAs (Decidable (∃ l ∈ splitLines s, IsIndented l.body))

/-- A line can be indented if the blanks that it takes can be written. -/
theorem formatLine_ok_iff (hwidth : style.HasWidth) {line : Text} :
    (∃ out, formatLine style line = .ok out) ↔
      (IsIndented line → style.CanWrite style.offset) := by
  rw [formatLine, IsIndented]
  cases hline : Text.trimStart line with
  | nil => exact ⟨fun _ h => absurd rfl h.1, fun _ => ⟨[], rfl⟩⟩
  | cons c rest =>
      have hblanks : (∃ out, (do
          let blanks ← leadingBlanks style (indentFor style.offset (c :: rest))
          return blanks ++ c :: rest) = Except.ok out) ↔
          style.CanWrite (indentFor style.offset (c :: rest)) := by
        rw [← leadingBlanks_ok_iff hwidth]
        constructor
        · rintro ⟨out, h⟩
          obtain ⟨w, hw, -⟩ := bind_eq_ok.mp h
          exact ⟨w, hw⟩
        · rintro ⟨w, hw⟩
          exact ⟨_, bind_eq_ok.mpr ⟨w, hw, rfl⟩⟩
      refine hblanks.trans ?_
      rw [indentFor]
      split
      · rename_i hmargin
        exact ⟨fun _ h => absurd (hmargin.symm.trans h.2) (by decide),
          fun _ => style.canWrite_zero⟩
      · rename_i hmargin
        exact ⟨fun h _ => h, fun h => h ⟨List.cons_ne_nil _ _, by simpa using hmargin⟩⟩

/-- Lines can be indented if each of them can. -/
theorem formatLines_ok_iff {ls : List Line} :
    (∃ ms, formatLines style ls = .ok ms) ↔
      ∀ l ∈ ls, ∃ out, formatLine style l.body = .ok out := by
  induction ls with
  | nil => exact ⟨fun _ => List.forall_mem_nil _, fun _ => ⟨[], rfl⟩⟩
  | cons l rest ih =>
      rw [List.forall_mem_cons, ← ih, formatLines]
      constructor
      · rintro ⟨ms, h⟩
        obtain ⟨body, hbody, h⟩ := bind_eq_ok.mp h
        obtain ⟨others, hothers, -⟩ := bind_eq_ok.mp h
        exact ⟨⟨body, hbody⟩, ⟨others, hothers⟩⟩
      · rintro ⟨⟨body, hbody⟩, ⟨others, hothers⟩⟩
        exact ⟨_, bind_eq_ok.mpr ⟨body, hbody, bind_eq_ok.mpr ⟨others, hothers, rfl⟩⟩⟩

/-- **When a text can be indented**: if no line takes the offset, or if it can be written. -/
theorem formatText_ok_iff (hwidth : style.HasWidth) {s : Text} :
    (∃ t, formatText style s = .ok t) ↔
      (HasIndentedLine s → style.CanWrite style.offset) := by
  have hlines : (∃ t, formatText style s = .ok t) ↔
      ∃ ms, formatLines style (splitLines s) = .ok ms := by
    constructor
    · rintro ⟨t, h⟩
      obtain ⟨ms, hms, -⟩ := bind_eq_ok.mp h
      exact ⟨ms, hms⟩
    · rintro ⟨ms, hms⟩
      exact ⟨_, bind_eq_ok.mpr ⟨ms, hms, rfl⟩⟩
  rw [hlines, formatLines_ok_iff]
  constructor
  · rintro hall ⟨l, hl, hindented⟩
    exact (formatLine_ok_iff hwidth).mp (hall l hl) hindented
  · intro hwrite l hl
    exact (formatLine_ok_iff hwidth).mpr fun hindented => hwrite ⟨l, hl, hindented⟩

/-! ### The only error -/

/-- Copies cannot be made only if their number does not fit a machine word. -/
theorem copies_eq_error {n : Int} {c : Char} {e : IndentError} (h : copies n c = .error e) :
    e = .beyondWord := by
  rw [copies] at h
  split at h
  · cases h
  · exact (Except.error.inj h).symm

/-- Where a tab has a width, columns cannot be filled only if the blanks are too many. -/
theorem leadingBlanks_eq_error (hwidth : style.HasWidth) {columns : Int} {e : IndentError}
    (h : leadingBlanks style columns = .error e) : e = .beyondWord := by
  rw [leadingBlanks] at h
  split at h
  · rename_i htabs
    rw [if_neg (hwidth htabs)] at h
    rcases combine_eq_error.mp h with h | ⟨-, h⟩
    · exact copies_eq_error h
    · exact copies_eq_error h
  · exact copies_eq_error h

/-- Where a tab has a width, a line cannot be indented only if it takes too many blanks. -/
theorem formatLine_eq_error (hwidth : style.HasWidth) {line : Text} {e : IndentError}
    (h : formatLine style line = .error e) : e = .beyondWord := by
  rw [formatLine] at h
  split at h
  · cases h
  · rcases bind_eq_error.mp h with h | ⟨blanks, -, h⟩
    · exact leadingBlanks_eq_error hwidth h
    · cases h

/-- **Where a tab has a width**, a text cannot be indented only if a line takes too many
blanks. -/
theorem formatText_eq_error (hwidth : style.HasWidth) {s : Text} {e : IndentError}
    (h : formatText style s = .error e) : e = .beyondWord := by
  have hlines (ls : List Line) (h : formatLines style ls = .error e) : e = .beyondWord := by
    induction ls with
    | nil => cases h
    | cons l rest ih =>
        rcases combine_eq_error.mp h with h | ⟨-, h⟩
        · exact formatLine_eq_error hwidth h
        · exact ih h
  rcases bind_eq_error.mp h with h | ⟨ls, -, h⟩
  · exact hlines _ h
  · cases h

/-! ### One indentation after another -/

/-- The text after several indentations, one after another. -/
def formatInTurn (styles : List IndentStyle) (s : Text) : Except IndentError Text :=
  styles.foldlM (fun t style => formatText style t) s

theorem formatInTurn_cons (style : IndentStyle) (rest : List IndentStyle) (s : Text) :
    formatInTurn (style :: rest) s = formatText style s >>= formatInTurn rest :=
  List.foldlM_cons

variable {styles : List IndentStyle} {last : IndentStyle} {s u : Text}

/-- **What remains of several indentations** is the last one; the others only have to be
possible. -/
theorem formatInTurn_eq_ok_iff :
    formatInTurn (styles ++ [last]) s = .ok u ↔
      formatText last s = .ok u ∧ ∀ style ∈ styles, ∃ t, formatText style s = .ok t := by
  induction styles generalizing s with
  | nil =>
      rw [List.nil_append, formatInTurn_cons]
      constructor
      · intro h
        obtain ⟨t, ht, h⟩ := bind_eq_ok.mp h
        obtain rfl := pure_eq_ok.mp h
        exact ⟨ht, List.forall_mem_nil _⟩
      · rintro ⟨h, -⟩
        exact bind_eq_ok.mpr ⟨u, h, rfl⟩
  | cons style styles ih =>
      rw [List.cons_append, formatInTurn_cons, List.forall_mem_cons]
      constructor
      · intro h
        obtain ⟨t, ht, h⟩ := bind_eq_ok.mp h
        -- What the later indentations make of the new text they make of the old one.
        obtain ⟨hlast, hstyles⟩ := ih.mp h
        rw [formatText_of_formatText ht] at hlast
        refine ⟨hlast, ⟨t, ht⟩, fun later hlater => ?_⟩
        rw [← formatText_of_formatText ht]
        exact hstyles later hlater
      · rintro ⟨hlast, ⟨t, ht⟩, hstyles⟩
        refine bind_eq_ok.mpr ⟨t, ht, ih.mpr ⟨?_, fun later hlater => ?_⟩⟩
        · rw [formatText_of_formatText ht]
          exact hlast
        · rw [formatText_of_formatText ht]
          exact hstyles later hlater

/-- **The last indentation alone decides**: several indentations and the last one alone both
succeed, with the same text, exactly if no line takes the offset or if all offsets can be
written. -/
theorem formatInTurn_absorbs (hwidth : ∀ style ∈ styles ++ [last], style.HasWidth) :
    (∃ u, formatInTurn (styles ++ [last]) s = .ok u ∧ formatText last s = .ok u) ↔
      (HasIndentedLine s → ∀ style ∈ styles ++ [last], style.CanWrite style.offset) := by
  have hall : (∃ u, formatInTurn (styles ++ [last]) s = .ok u ∧ formatText last s = .ok u) ↔
      ∀ style ∈ styles ++ [last], ∃ t, formatText style s = .ok t := by
    rw [List.forall_mem_append, List.forall_mem_singleton]
    constructor
    · rintro ⟨u, hturn, hlast⟩
      exact ⟨(formatInTurn_eq_ok_iff.mp hturn).2, ⟨u, hlast⟩⟩
    · rintro ⟨hstyles, ⟨u, hlast⟩⟩
      exact ⟨u, formatInTurn_eq_ok_iff.mpr ⟨hlast, hstyles⟩, hlast⟩
  rw [hall]
  constructor
  · intro hformat hindented style hstyle
    exact (formatText_ok_iff (hwidth style hstyle)).mp (hformat style hstyle) hindented
  · intro hwrite style hstyle
    exact (formatText_ok_iff (hwidth style hstyle)).mpr fun hindented =>
      hwrite hindented style hstyle

/-- Tabs, then fewer columns than none, then the default: the default remains. -/
theorem formatInTurn_absorbs_net :
    (∀ style ∈ [IndentStyle.mk 9 true 4, ⟨-3, false, 8⟩] ++ [IndentStyle.mk 2 false 8],
        style.HasWidth) ∧
      ∃ u, formatInTurn ([⟨9, true, 4⟩, ⟨-3, false, 8⟩] ++ [⟨2, false, 8⟩])
          "\tnet\r\n ".toList = .ok u ∧
        formatText ⟨2, false, 8⟩ "\tnet\r\n ".toList = .ok u :=
  ⟨by decide, (formatInTurn_absorbs (by decide)).mpr fun _ => by decide⟩

/-- An offset that no machine word holds cannot be written, even where it is less than
nothing and would take no blanks. -/
theorem not_absorbs_beyondWord :
    (IndentStyle.mk (-9223372036854775809) false 8).HasWidth ∧
      ¬∃ u, formatInTurn ([⟨-9223372036854775809, false, 8⟩] ++
          [⟨-9223372036854775809, false, 8⟩]) "net".toList = .ok u ∧
        formatText ⟨-9223372036854775809, false, 8⟩ "net".toList = .ok u := by
  refine ⟨by decide, ?_⟩
  rintro ⟨u, -, hlast⟩
  have herror : formatText ⟨-9223372036854775809, false, 8⟩ "net".toList =
      .error .beyondWord := by decide
  rw [herror] at hlast
  cases hlast

end SandboxProfile
