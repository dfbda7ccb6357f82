import SandboxProfile.Proofs.Highlight.Shift
import SandboxProfile.Proofs.Indent.Lines

/-!
# Indentation keeps the meaning of a text

A text says what its tokens say, and shows what its spans show. Indentation replaces the
first blanks of each line and may take away a last line that has become empty. Three readings
of the text have to survive that: its tokens, which are cut from the whole text and not from
its lines; its spans, which may only move; and its lines themselves.

## Main definitions

* `KeepsMeaning` says what an indented text has in common with the text before.

## Main results

* `keepsMeaning_of_formatText` — indentation keeps the meaning of every text.
-/

namespace SandboxProfile

/-- The second text says what the first one says, and its lines are those of the first one,
indented. -/
structure KeepsMeaning (k : Catalog) (style : IndentStyle) (s t : Text) : Prop where
  /-- The tokens, comments included, are the same up to their places. -/
  tokens : (tokenize true t).map Token.content = (tokenize true s).map Token.content
  /-- The spans are the same, each moved by what the blanks before it have changed. -/
  spans : highlight k t = (highlight k s).map fun p =>
    p.shifted (blanksAt (splitLines t) (p.line - 1).toNat -
      blanksAt (splitLines s) (p.line - 1).toNat)
  /-- The lines are the indented ones with their endings, without an empty last one. -/
  lines : ∃ ms, FormattedLines style (splitLines s) ms ∧ splitLines t = dropEmptyLast ms

variable {style : IndentStyle}

/-- Lines that are indented have their old characters after the first blanks. -/
theorem FormattedLines.trimStart {ls ms : List Line} (h : FormattedLines style ls ms) :
    List.Forall₂ (fun l m => Text.trimStart m.body = Text.trimStart l.body) ls ms :=
  h.imp fun _ _ hlm => trimStart_of_formatLine hlm.1

/-- Lines with the same characters after their first blanks have the same tokens. -/
theorem flatMap_contents_of_trimStart {ls ms : List Line}
    (h : List.Forall₂ (fun l m => Text.trimStart m.body = Text.trimStart l.body) ls ms) :
    (ms.flatMap fun m => contents m.body) = ls.flatMap fun l => contents l.body := by
  induction h with
  | nil => rfl
  | @cons l m ls ms hlm hms ih =>
      rw [List.flatMap_cons, List.flatMap_cons, ih, ← contents_trimStart m.body, hlm,
        contents_trimStart l.body]

/-- An empty last line has no tokens. -/
theorem flatMap_contents_dropEmptyLast (ls : List Line) :
    ((dropEmptyLast ls).flatMap fun l => contents l.body) =
      ls.flatMap fun l => contents l.body := by
  have hempty : [Line.mk [] .none].flatMap (fun l => contents l.body) = [] := rfl
  refine apply_dropEmptyLast hempty (fun l ls ms h => ?_) ls
  rw [List.flatMap_cons, List.flatMap_cons, h]

/-- An empty last line has no spans. -/
theorem highlightFrom_dropEmptyLast (k : Catalog) (number : Nat) (ls : List Line) :
    highlightFrom k number (dropEmptyLast ls) = highlightFrom k number ls := by
  -- The lines of the rest have other numbers, so the spans are taken for all numbers at once.
  have hall := apply_dropEmptyLast (f := fun ls n => highlightFrom k n ls) rfl
    (fun l ls ms h => funext fun n => by
      rw [highlightFrom, highlightFrom, congrFun h (n + 1)]) ls
  exact congrFun hall number

/-- An empty last line starts with no blanks. -/
theorem blanksAt_dropEmptyLast (ls : List Line) (i : Nat) :
    blanksAt (dropEmptyLast ls) i = blanksAt ls i := by
  have hall : blanksAt (dropEmptyLast ls) = blanksAt ls := by
    refine apply_dropEmptyLast (funext fun i => ?_) (fun l ls ms h => funext fun i => ?_) ls
    · cases i <;> rfl
    · cases i with
      | zero => rfl
      | succ i => exact congrFun h i
  exact congrFun hall i

/-- The tokens of a text are those of its lines. -/
theorem contents_eq_flatMap (s : Text) :
    contents s = (splitLines s).flatMap fun l => contents l.body := by
  conv_lhs => rw [← joinLines_splitLines s]
  exact contents_joinLines (areLines_splitLines s)

/-- An indented text has the same tokens. -/
theorem contents_of_formatText {s t : Text} (h : formatText style s = .ok t) :
    contents t = contents s := by
  obtain ⟨ms, hms, -, hsplit⟩ := splitLines_of_formatText h
  rw [contents_eq_flatMap t, hsplit, flatMap_contents_dropEmptyLast,
    flatMap_contents_of_trimStart hms.trimStart, ← contents_eq_flatMap]

/-- **Indentation keeps the meaning of every text.** -/
theorem keepsMeaning_of_formatText {s t : Text} (h : formatText style s = .ok t) (k : Catalog) :
    KeepsMeaning k style s t := by
  obtain ⟨ms, hms, -, hsplit⟩ := splitLines_of_formatText h
  refine ⟨contents_of_formatText h, ?_, ms, hms, hsplit⟩
  rw [highlight, hsplit, highlightFrom_dropEmptyLast,
    highlightFrom_of_trimStart k 1 hms.trimStart, highlight]
  refine List.map_congr_left fun p _ => ?_
  rw [blanksAt_dropEmptyLast]
  rfl

/-- A text with blanks of several kinds, a comment, and an empty last line keeps its
meaning. -/
theorem keepsMeaning_of_formatText_net :
    formatText {} "\t net # a\r\n ".toList = .ok "  net # a\r\n".toList ∧
      KeepsMeaning (Catalog.builtin) {} "\t net # a\r\n ".toList "  net # a\r\n".toList :=
  ⟨by decide, keepsMeaning_of_formatText (by decide) _⟩

end SandboxProfile
