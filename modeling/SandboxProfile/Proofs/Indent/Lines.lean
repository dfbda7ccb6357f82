import Mathlib.Data.List.Basic
import Mathlib.Data.List.Forall2
import SandboxProfile.Indent
import SandboxProfile.Proofs.Except
import SandboxProfile.Proofs.Text.Ends
import SandboxProfile.Proofs.Text.Line

/-!
# What indentation does to lines

An indented line is empty or consists of new blanks and of what the old line had after its
first blanks. Endings stay, so the lines of an indented text are the indented lines, except
that a last line can vanish: one that held nothing but blanks and had no ending.

Only what follows the first blanks matters to the indentation, so indenting an indented text
gives what indenting the old text would have given.

## Main definitions

* `FormattedLines` relates lines to the same lines indented.

## Main results

* `formatLine_eq_ok` — what an indented line consists of.
* `splitLines_of_formatText` — the lines of an indented text.
* `formatText_of_formatText` — a later indentation absorbs an earlier one.
-/

namespace SandboxProfile

variable {style : IndentStyle}

/-! ### One line -/

theorem copies_eq_ok {n : Int} {c : Char} {w : Text} (h : copies n c = .ok w) :
    w = List.replicate n.toNat c := by
  rw [copies] at h
  split at h
  · exact (Except.ok.inj h).symm
  · cases h

theorem leadingBlanks_eq_ok {columns : Int} {w : Text} (h : leadingBlanks style columns = .ok w) :
    ∃ tabs spaces, w = List.replicate tabs '\t' ++ List.replicate spaces ' ' := by
  rw [leadingBlanks] at h
  split at h
  · split at h
    · cases h
    · obtain ⟨tabs, ht, h⟩ := bind_eq_ok.mp h
      obtain ⟨spaces, hs, h⟩ := bind_eq_ok.mp h
      obtain rfl := pure_eq_ok.mp h
      rw [copies_eq_ok ht, copies_eq_ok hs]
      exact ⟨_, _, rfl⟩
  · exact ⟨0, columns.toNat, by rw [copies_eq_ok h]; rfl⟩

/-- An indentation is blank. -/
theorem isBlank_of_leadingBlanks {columns : Int} {w : Text}
    (h : leadingBlanks style columns = .ok w) : ∀ c ∈ w, isBlank c = true := by
  obtain ⟨tabs, spaces, rfl⟩ := leadingBlanks_eq_ok h
  intro c hc
  rcases List.mem_append.mp hc with hc | hc
  · rw [List.eq_of_mem_replicate hc]
    rfl
  · rw [List.eq_of_mem_replicate hc]
    rfl

/-- An indentation does not end the line. -/
theorem feed_not_mem_of_leadingBlanks {columns : Int} {w : Text}
    (h : leadingBlanks style columns = .ok w) : '\n' ∉ w := by
  obtain ⟨tabs, spaces, rfl⟩ := leadingBlanks_eq_ok h
  simp

/-- **What an indented line consists of**: nothing, if the line was blank, and else new blanks
and the line without its first blanks. -/
theorem formatLine_eq_ok {line out : Text} (h : formatLine style line = .ok out) :
    (Text.trimStart line = [] ∧ out = []) ∨
      ∃ w, leadingBlanks style (indentFor style.offset (Text.trimStart line)) = .ok w ∧
        Text.trimStart line ≠ [] ∧ out = w ++ Text.trimStart line := by
  rw [formatLine] at h
  split at h
  · rename_i hline
    exact .inl ⟨hline, (Except.ok.inj h).symm⟩
  · rename_i c rest hline
    obtain ⟨w, hw, h⟩ := bind_eq_ok.mp h
    obtain rfl := pure_eq_ok.mp h
    rw [hline]
    exact .inr ⟨w, hw, List.cons_ne_nil _ _, rfl⟩

/-- Only what follows the first blanks matters. -/
theorem formatLine_congr {a b : Text} (h : Text.trimStart a = Text.trimStart b) :
    formatLine style a = formatLine style b := by
  rw [formatLine, formatLine, h]

/-- Indentation changes nothing after the first blanks. -/
theorem trimStart_of_formatLine {line out : Text} (h : formatLine style line = .ok out) :
    Text.trimStart out = Text.trimStart line := by
  rcases formatLine_eq_ok h with ⟨hline, rfl⟩ | ⟨w, hw, -, rfl⟩
  · exact hline.symm
  · rw [Text.trimStart_append (isBlank_of_leadingBlanks hw), Text.trimStart_trimStart]

/-- An indented line holds no line feed that the line did not hold. -/
theorem feed_not_mem_of_formatLine {line out : Text} (h : formatLine style line = .ok out)
    (hline : '\n' ∉ line) : '\n' ∉ out := by
  rcases formatLine_eq_ok h with ⟨-, rfl⟩ | ⟨w, hw, -, rfl⟩
  · exact List.not_mem_nil
  · rw [List.mem_append]
    rintro (hn | hn)
    · exact feed_not_mem_of_leadingBlanks hw hn
    · exact hline ((List.dropWhile_sublist _).subset hn)

theorem getLast?_trimStart {line : Text} (h : Text.trimStart line ≠ []) :
    (Text.trimStart line).getLast? = line.getLast? := by
  conv_rhs => rw [← Text.blankPrefix_append_trimStart line]
  rw [List.getLast?_append_of_ne_nil _ h]

/-- An indented line that is not empty ends as the line does. -/
theorem getLast?_of_formatLine {line out : Text} (h : formatLine style line = .ok out)
    (hout : out ≠ []) : out.getLast? = line.getLast? := by
  rcases formatLine_eq_ok h with ⟨-, rfl⟩ | ⟨w, -, hne, rfl⟩
  · exact absurd rfl hout
  · rw [List.getLast?_append_of_ne_nil _ hne, getLast?_trimStart hne]

/-! ### All lines -/

/-- The second lines are the first ones indented, each with its old ending. -/
abbrev FormattedLines (style : IndentStyle) (ls ms : List Line) : Prop :=
  List.Forall₂ (fun l m => formatLine style l.body = .ok m.body ∧ m.ending = l.ending) ls ms

theorem formatLines_eq_ok {ls ms : List Line} (h : formatLines style ls = .ok ms) :
    FormattedLines style ls ms := by
  induction ls generalizing ms with
  | nil =>
      obtain rfl := Except.ok.inj h
      exact .nil
  | cons l rest ih =>
      rw [formatLines] at h
      obtain ⟨body, hb, h⟩ := bind_eq_ok.mp h
      obtain ⟨others, ho, h⟩ := bind_eq_ok.mp h
      obtain rfl := pure_eq_ok.mp h
      exact .cons ⟨hb, rfl⟩ (ih ho)

/-- Lines that are indented one by one are indented together. -/
theorem formatLines_of_formattedLines {ls ms : List Line} (h : FormattedLines style ls ms) :
    formatLines style ls = .ok ms := by
  induction h with
  | nil => rfl
  | @cons l m ls ms hlm _ ih =>
      rw [formatLines, hlm.1, ih, ← hlm.2]
      rfl

/-- Each line is indented in its place. -/
theorem FormattedLines.exists_getElem? {ls ms : List Line} (h : FormattedLines style ls ms)
    {i : Nat} {l : Line} (hl : ls[i]? = some l) :
    ∃ m, ms[i]? = some m ∧ formatLine style l.body = .ok m.body ∧ m.ending = l.ending := by
  induction h generalizing i with
  | nil => cases hl
  | @cons k m ls ms hkm _ ih =>
      cases i with
      | zero =>
          obtain rfl : k = l := Option.some.inj hl
          exact ⟨m, rfl, hkm⟩
      | succ i => exact ih hl

theorem formatText_eq_ok {s t : Text} (h : formatText style s = .ok t) :
    ∃ ms, FormattedLines style (splitLines s) ms ∧ t = joinLines ms := by
  obtain ⟨ms, hf, h⟩ := bind_eq_ok.mp h
  exact ⟨ms, formatLines_eq_ok hf, (pure_eq_ok.mp h).symm⟩

/-- An indented line has the form of a line, unless it has neither characters nor an ending. -/
theorem wellFormed_of_formatLine {l m : Line} (hl : l.WellFormed)
    (hb : formatLine style l.body = .ok m.body) (he : m.ending = l.ending)
    (hm : m ≠ ⟨[], .none⟩) : m.WellFormed := by
  refine ⟨feed_not_mem_of_formatLine hb hl.feed_not_mem, fun hlf => ?_, fun hnone hnil => ?_⟩
  · by_cases hnil : m.body = []
    · simp [hnil]
    · rw [getLast?_of_formatLine hb hnil]
      exact hl.getLast?_ne (he ▸ hlf)
  · exact hm (by cases m; simp_all)

/-- Indented lines without an empty last one have the form of lines. -/
theorem areLines_dropEmptyLast {ls ms : List Line} (h : FormattedLines style ls ms)
    (hls : AreLines ls) : AreLines (dropEmptyLast ms) := by
  induction h with
  | nil => trivial
  | @cons l m ls ms hm hms ih =>
      obtain ⟨hl, hlast, hrest⟩ := hls
      have hnil : m.ending = .none → ms = [] := by
        intro hnone
        obtain rfl := hlast (hm.2 ▸ hnone)
        cases hms
        rfl
      rw [dropEmptyLast]
      split
      · trivial
      · rename_i hkeep
        refine ⟨wellFormed_of_formatLine hl hm.1 hm.2 fun hm0 => hkeep ⟨hm0, ?_⟩, ?_, ih hrest⟩
        · exact hnil (by rw [hm0])
        · intro hnone
          rw [hnil hnone]
          rfl

/-- **The lines of an indented text** are the indented lines without an empty last one. -/
theorem splitLines_of_formatText {s t : Text} (h : formatText style s = .ok t) :
    ∃ ms, FormattedLines style (splitLines s) ms ∧ t = joinLines ms ∧
      splitLines t = dropEmptyLast ms := by
  obtain ⟨ms, hms, rfl⟩ := formatText_eq_ok h
  refine ⟨ms, hms, rfl, ?_⟩
  rw [← joinLines_dropEmptyLast]
  exact splitLines_joinLines (areLines_dropEmptyLast hms (areLines_splitLines s))

/-! ### Indenting twice -/

/-- The text of the indented lines is made line by line. -/
theorem map_joinLines_formatLines_cons (style : IndentStyle) (l : Line) (rest : List Line) :
    joinLines <$> formatLines style (l :: rest) = (do
      let body ← formatLine style l.body
      let others ← joinLines <$> formatLines style rest
      return body ++ l.ending.text ++ others) := by
  rw [formatLines]
  cases formatLine style l.body with
  | error e => rfl
  | ok body => cases formatLines style rest <;> rfl

/-- Lines that differ in their first blanks only are indented alike, and an empty last line
adds nothing. -/
theorem map_joinLines_formatLines_dropEmptyLast {ls ms : List Line}
    (h : FormattedLines style ls ms) (later : IndentStyle) :
    joinLines <$> formatLines later (dropEmptyLast ms) = joinLines <$> formatLines later ls := by
  induction h with
  | nil => rfl
  | @cons l m ls ms hm hms ih =>
      have hbody : formatLine later m.body = formatLine later l.body :=
        formatLine_congr (trimStart_of_formatLine hm.1)
      rw [map_joinLines_formatLines_cons, ← hbody, ← hm.2, ← ih, dropEmptyLast]
      split
      · rename_i hdrop
        obtain ⟨rfl, rfl⟩ := hdrop
        rfl
      · rw [map_joinLines_formatLines_cons]

/-- **A later indentation absorbs an earlier one.** -/
theorem formatText_of_formatText {s t : Text} (h : formatText style s = .ok t)
    (later : IndentStyle) : formatText later t = formatText later s := by
  obtain ⟨ms, hms, -, hsplit⟩ := splitLines_of_formatText h
  rw [formatText, formatText, hsplit]
  exact map_joinLines_formatLines_dropEmptyLast hms later

end SandboxProfile
