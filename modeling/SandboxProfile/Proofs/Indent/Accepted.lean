import SandboxProfile.Proofs.Indent.Lines
import SandboxProfile.Proofs.Token.Lexer

/-!
# Texts that are indented already

Indentation leaves a text alone exactly if it leaves every line of it alone. This is not plain from
the joined texts: a line that becomes longer could make up for another one that becomes shorter.
It does not, because the indented text is cut into the indented lines again, so that two equal
texts have equal lines.

A line is left alone if it is empty, or if it begins with the blanks for its indentation and goes
on with a character that is not blank. Its indentation is that of the line as it stands: blanks at
its start only move its tokens.

## Main definitions

* `WellIndented` says that a line is indented as it should be.

## Main results

* `indentFor_trimStart` — blanks at the start do not matter to the indentation of a line.
* `formatLine_eq_self_iff` — the lines that are left alone.
* `formatText_eq_self_iff` — the texts that are left alone.
-/

namespace SandboxProfile

/-! ### Blanks at the start -/

/-- Blanks at the start move the first token. -/
theorem firstToken?_blank_append {w : Text} (hw : ∀ c ∈ w, isBlank c = true) (s : Text) :
    firstToken? (w ++ s) = (firstToken? s).map (Token.moved w.length) := by
  have hkind : (fun t : Token => decide (t.mark.kind ≠ .comment)) ∘ Token.moved w.length =
      fun t => decide (t.mark.kind ≠ .comment) := rfl
  simp only [firstToken?, tokenize, Bool.false_eq_true, if_false]
  rw [allTokens_blank_append hw, List.filter_map, hkind, List.head?_map]

/-- Blanks at the start do not decide whether a line starts at the margin. -/
theorem isFlushLeft_trimStart (line : Text) :
    isFlushLeft (Text.trimStart line) = isFlushLeft line := by
  have hfirst : firstToken? line =
      (firstToken? (Text.trimStart line)).map (Token.moved (Text.blankPrefix line).length) := by
    conv_lhs => rw [← Text.blankPrefix_append_trimStart line]
    exact firstToken?_blank_append (fun c => Text.isBlank_of_mem_blankPrefix) _
  rw [isFlushLeft, isFlushLeft, hfirst]
  cases firstToken? (Text.trimStart line) with
  | none => rfl
  | some t => rfl

/-- **Blanks at the start do not matter to the indentation of a line.** -/
theorem indentFor_trimStart (offset : Int) (line : Text) :
    indentFor offset (Text.trimStart line) = indentFor offset line := by
  rw [indentFor, indentFor, isFlushLeft_trimStart]

/-! ### Lines -/

variable {style : IndentStyle}

/-- The line, without its ending, is empty, or it has the blanks for its indentation in front of a
character that is not blank. -/
def WellIndented (style : IndentStyle) (line : Text) : Prop :=
  line = [] ∨ ∃ w c rest, leadingBlanks style (indentFor style.offset line) = .ok w ∧
    isBlank c = false ∧ line = w ++ c :: rest

/-- **The lines that are left alone.** -/
theorem formatLine_eq_self_iff {line : Text} :
    formatLine style line = .ok line ↔ WellIndented style line := by
  constructor
  · intro h
    rcases formatLine_eq_ok h with ⟨-, hline⟩ | ⟨w, hw, hne, hline⟩
    · exact .inl hline
    · obtain ⟨c, rest, hrest⟩ := List.exists_cons_of_ne_nil hne
      rw [indentFor_trimStart] at hw
      refine .inr ⟨w, c, rest, hw, Text.isBlank_eq_false_of_trimStart hrest, ?_⟩
      rw [← hrest]
      exact hline
  · rintro (rfl | ⟨w, c, rest, hw, hc, hline⟩)
    · rfl
    · have htrim : Text.trimStart line = c :: rest := by
        rw [hline, Text.trimStart_append (isBlank_of_leadingBlanks hw),
          Text.trimStart_cons_of_ink hc]
      have hblanks : leadingBlanks style (indentFor style.offset (c :: rest)) = .ok w := by
        rw [← htrim, indentFor_trimStart]
        exact hw
      rw [formatLine, htrim]
      simp only [hblanks]
      exact congrArg Except.ok hline.symm

instance (line : Text) : Decidable (WellIndented style line) :=
  decidable_of_iff (formatLine style line = .ok line) formatLine_eq_self_iff

/-! ### Texts -/

/-- **The texts that are left alone** are those whose lines all are. -/
theorem formatText_eq_self_iff {s : Text} :
    formatText style s = .ok s ↔ ∀ l ∈ splitLines s, WellIndented style l.body := by
  have hlines : FormattedLines style (splitLines s) (splitLines s) ↔
      ∀ l ∈ splitLines s, WellIndented style l.body := by
    rw [FormattedLines, List.forall₂_same]
    refine forall₂_congr fun l _ => ?_
    rw [and_iff_left rfl, formatLine_eq_self_iff]
  rw [← hlines]
  constructor
  · intro h
    obtain ⟨ms, hms, -, hsplit⟩ := splitLines_of_formatText h
    -- Were an empty last line dropped, the text would have lost a line.
    have hkeep : dropEmptyLast ms = ms := by
      refine (prefix_dropEmptyLast ms).eq_of_length ?_
      rw [← hsplit, hms.length_eq]
    rw [hkeep] at hsplit
    rwa [← hsplit] at hms
  · intro h
    rw [formatText, formatLines_of_formattedLines h]
    exact congrArg Except.ok (joinLines_splitLines s)

end SandboxProfile
