import SandboxProfile.Proofs.Terminal.Expansion
import SandboxProfile.Proofs.Text.Ends
import SandboxProfile.Proofs.Text.Line
import SandboxProfile.Terminal.Sequence

/-!
# What a terminal shows

A terminal reads what it is sent character by character. A *selection* is an escape character, an
opening bracket, numbers with semicolons between them, and the letter `m`; it is not shown, and
changes the style of what follows. Everything else is shown in the style that was selected last.

Profiles are printed in pieces, and a piece in a style stands between a selection of its style and
one that goes back to the style of the terminal. So what is shown can be told from what is sent as
long as the profiles have no escape characters of their own: the pieces, each in its style. Without
colours the same pieces are sent bare.

## Main definitions

* `Terminal.stripSelections` leaves the selections out of a text.
* `Terminal.shown` is what a terminal shows.
* `Terminal.runs` are the pieces of printed profiles.

## Main results

* `Terminal.map_snd_shown` — a terminal shows what is left without the selections.
* `Terminal.shown_print` — pieces are shown in their styles.
* `Terminal.render_eq_print_runs` — profiles are printed as their pieces.
* `Terminal.escape_not_mem_runs` — printing makes no escape characters of its own in a piece.
-/

namespace SandboxProfile

namespace Terminal

/-! ### Selections -/

/-- Can the character stand between the bracket and the letter of a selection? -/
def isSelector (c : Char) : Bool :=
  c = ';' || c.isDigit

/-- What a selection selects and the text after it. Its first two characters have been read. -/
def selection? (s : Text) : Option (Text × Text) :=
  match s.dropWhile isSelector with
  | 'm' :: rest => some (s.takeWhile isSelector, rest)
  | _ => none

/-- What follows a selection is shorter than the text that it begins. -/
theorem length_selection?_lt {s selectors rest : Text}
    (h : selection? s = some (selectors, rest)) : rest.length < s.length := by
  rw [selection?] at h
  split at h
  · rename_i tail hdrop
    have hle : ('m' :: tail).length ≤ s.length := hdrop ▸ (List.dropWhile_sublist _).length_le
    obtain rfl := (Prod.mk.inj (Option.some.inj h)).2
    exact Nat.lt_of_lt_of_le (Nat.lt_succ_self _) hle
  · cases h

/-- Characters that can stand in a selection are what it selects. -/
theorem selection?_append {selectors : Text} (h : ∀ c ∈ selectors, isSelector c = true)
    (rest : Text) : selection? (selectors ++ 'm' :: rest) = some (selectors, rest) := by
  have hdrop : (selectors ++ 'm' :: rest).dropWhile isSelector = 'm' :: rest := by
    rw [List.dropWhile_append_of_pos h, List.dropWhile_cons_of_neg (by decide)]
  have htake : (selectors ++ 'm' :: rest).takeWhile isSelector = selectors := by
    rw [List.takeWhile_append_of_pos h, List.takeWhile_cons_of_neg (by decide), List.append_nil]
  rw [selection?, hdrop, htake]
  rfl

/-- A text without its selections. -/
def stripSelections : Text → Text
  | '\x1b' :: '[' :: body =>
    match h : selection? body with
    | some (_, after) =>
      have := length_selection?_lt h
      stripSelections after
    | none => '\x1b' :: '[' :: stripSelections body
  | c :: rest => c :: stripSelections rest
  | [] => []
termination_by s => s.length

/-! ### Styles that are selected -/

/-- The numbers of a selection. A number without digits is zero. -/
def selectedCodes (selectors : Text) : List Nat :=
  (Text.splitOn ';' selectors).map fun digits =>
    Text.ofDigits 10 (digits.map fun c => c.toNat - '0'.toNat)

/-- The colour that a code selects. -/
def colourOfCode? : Nat → Option Colour
  | 31 => some .red
  | 32 => some .green
  | 33 => some .yellow
  | 34 => some .blue
  | 35 => some .magenta
  | 36 => some .cyan
  | 90 => some .brightBlack
  | 94 => some .brightBlue
  | _ => none

/-- The style after a code. Zero goes back to the style of the terminal. -/
def select (style : Style) (code : Nat) : Style :=
  match code with
  | 0 => {}
  | 1 => { style with bold := true }
  | 2 => { style with dim := true }
  | 3 => { style with italic := true }
  | _ => { style with colour := colourOfCode? code <|> style.colour }

/-- What a terminal shows that is in the given style and reads a text. -/
def shown (style : Style) : Text → List Cell
  | '\x1b' :: '[' :: body =>
    match h : selection? body with
    | some (selectors, after) =>
      have := length_selection?_lt h
      shown ((selectedCodes selectors).foldl select style) after
    | none => (style, '\x1b') :: (style, '[') :: shown style body
  | c :: rest => (style, c) :: shown style rest
  | [] => []
termination_by s => s.length

/-- **A terminal shows what is left without the selections.** -/
theorem map_snd_shown (style : Style) (s : Text) :
    (shown style s).map Prod.snd = stripSelections s := by
  fun_induction shown style s with
  | case1 style body selectors after h _ ih =>
      rw [stripSelections]
      split
      · rename_i h'
        obtain ⟨-, rfl⟩ := Prod.mk.inj (Option.some.inj (h.symm.trans h'))
        exact ih
      · rename_i h'
        cases h.symm.trans h'
  | case2 style body h ih =>
      rw [stripSelections]
      split
      · rename_i h'
        cases h.symm.trans h'
      · rw [List.map_cons, List.map_cons, ih]
  | case3 style c rest hne ih => rw [stripSelections.eq_2 c rest hne, List.map_cons, ih]
  | case4 => rw [stripSelections]; rfl

/-- Text without escape characters is shown as it is. -/
theorem shown_append {s : Text} (h : escape ∉ s) (style : Style) (rest : Text) :
    shown style (s ++ rest) = s.map (fun c => (style, c)) ++ shown style rest := by
  induction s with
  | nil => rfl
  | cons c s ih =>
      rw [List.mem_cons, not_or] at h
      rw [List.cons_append, shown.eq_2 style c _ fun _ hc => absurd hc.symm h.1, ih h.2]
      rfl

/-- The codes of a style, as a selection has them. -/
def selectors (style : Style) : Text :=
  Text.joined [';'] (style.codes.map Text.ofNat)

/-- The codes of a style can stand in a selection, and select it. -/
theorem select_selectors (style : Style) :
    (∀ c ∈ selectors style, isSelector c = true) ∧
      (selectedCodes (selectors style)).foldl select {} = style := by
  rw [← List.all_eq_true]
  obtain ⟨bold, dim, italic, colour⟩ := style
  cases bold <;> cases dim <;> cases italic <;> cases colour with
  | none => decide
  | some colour => cases colour <;> decide

/-- After its selection a style is selected. -/
theorem shown_sequence_codes (style : Style) (rest : Text) :
    shown {} (Style.sequence style.codes ++ rest) = shown style rest := by
  obtain ⟨hselectors, hselect⟩ := select_selectors style
  have hsequence : Style.sequence style.codes ++ rest =
      '\x1b' :: '[' :: (selectors style ++ 'm' :: rest) := by
    rw [Style.sequence, selectors]
    simp
  rw [hsequence, shown]
  split
  · rename_i h
    rw [selection?_append hselectors] at h
    obtain ⟨rfl, rfl⟩ := Prod.mk.inj (Option.some.inj h)
    rw [hselect]
  · rename_i h
    rw [selection?_append hselectors] at h
    cases h

/-- After the code zero the style of the terminal is selected. -/
theorem shown_sequence_zero (style : Style) (rest : Text) :
    shown style (Style.sequence [0] ++ rest) = shown {} rest := by
  have hzero : ∀ c ∈ ['0'], isSelector c = true := List.all_eq_true.mp rfl
  have hsequence : Style.sequence [0] ++ rest = '\x1b' :: '[' :: (['0'] ++ 'm' :: rest) := rfl
  rw [hsequence, shown]
  split
  · rename_i h
    rw [selection?_append hzero] at h
    obtain ⟨rfl, rfl⟩ := Prod.mk.inj (Option.some.inj h)
    rfl
  · rename_i h
    rw [selection?_append hzero] at h
    cases h

theorem eq_default_of_codes_eq_nil {style : Style} (h : style.codes = []) : style = {} := by
  have hselect := (select_selectors style).2
  rw [selectors, h] at hselect
  exact hselect.symm

/-! ### Pieces -/

/-- A piece is shown in its style. -/
theorem shown_wrap {s : Text} (h : escape ∉ s) (style : Style) (rest : Text) :
    shown {} (style.wrap s ++ rest) = s.map (fun c => (style, c)) ++ shown {} rest := by
  by_cases hbare : s = [] ∨ style.codes = []
  · have hwrap : style.wrap s = s := by
      rw [Style.wrap, if_pos (by simpa using hbare)]
    rw [hwrap, shown_append h]
    rcases hbare with rfl | hcodes
    · rfl
    · rw [eq_default_of_codes_eq_nil hcodes]
  · have hwrap : style.wrap s = Style.sequence style.codes ++ s ++ Style.sequence [0] := by
      rw [Style.wrap, if_neg (by simpa using hbare)]
    rw [hwrap, List.append_assoc, List.append_assoc, shown_sequence_codes, shown_append h,
      shown_sequence_zero]

/-- **Pieces are shown in their styles.** -/
theorem shown_print {pieces : List (Style × Text)} (h : ∀ piece ∈ pieces, escape ∉ piece.2) :
    shown {} (pieces.flatMap (Painted.printPiece true)) = pieceCells pieces := by
  induction pieces with
  | nil => rw [List.flatMap_nil, shown]; rfl
  | cons piece pieces ih =>
      obtain ⟨hpiece, hrest⟩ := List.forall_mem_cons.mp h
      have hprint : Painted.printPiece true piece = piece.1.wrap piece.2 := rfl
      rw [List.flatMap_cons, hprint, shown_wrap hpiece, ih hrest]
      rfl

theorem print_false (pieces : List (Style × Text)) :
    pieces.flatMap (Painted.printPiece false) = pieces.flatMap Prod.snd := rfl

/-- Without their selections pieces are what they are without colours. -/
theorem stripSelections_print {pieces : List (Style × Text)}
    (h : ∀ piece ∈ pieces, escape ∉ piece.2) :
    stripSelections (pieces.flatMap (Painted.printPiece true)) =
      pieces.flatMap (Painted.printPiece false) := by
  rw [← map_snd_shown {}, shown_print h, Painted.map_snd_pieceCells, print_false]

/-! ### The pieces of profiles -/

/-- The line feed after a printed line, which has no style. -/
def feed : Style × Text :=
  ({}, ['\n'])

/-- The pieces of a printed line, line feed included. -/
def lineRuns (width : Nat) (body : Text) (spans : List Span) : List (Style × Text) :=
  (paintLine width body spans).pieces ++ [feed]

/-- The pieces of the rule above a profile, line feed included. -/
def ruleRuns (width : Nat) (path : Text) : List (Style × Text) :=
  let dim : Style := { dim := true }
  if width ≤ 4 then [(dim, List.replicate width dash), feed]
  else
    let title := ruleTitle width path
    let length := title.text.length
    let side := (width - length) / 2
    (dim, List.replicate (side - 1) dash ++ [' ']) :: title.pieces ++
      [(dim, ' ' :: List.replicate (width - side - 1 - length) dash), feed]

/-- The pieces of the rule above a profile, if there are several profiles. -/
def headingRuns (width : Nat) (results : List Highlighted) (h : Highlighted) :
    List (Style × Text) :=
  if results.length > 1 then ruleRuns width h.path else []

/-- The pieces of printed profiles. -/
def runs (width : Nat) (results : List Highlighted) : List (Style × Text) :=
  results.flatMap fun h => headingRuns width results h ++
    (numberedLines h.text).flatMap fun l => lineRuns width l.1.body (h.spansOn l.2)

variable (colour : Bool) (width : Nat)

theorem printPiece_feed : Painted.printPiece colour feed = ['\n'] := by
  cases colour <;> rfl

theorem printLine_eq (body : Text) (spans : List Span) :
    printLine colour width body spans =
      (lineRuns width body spans).flatMap (Painted.printPiece colour) := by
  rw [lineRuns, List.flatMap_append, List.flatMap_singleton, printPiece_feed]
  rfl

theorem rule_eq (path : Text) :
    rule colour width path = (ruleRuns width path).flatMap (Painted.printPiece colour) := by
  rw [rule, ruleRuns]
  dsimp only
  split
  · rw [List.flatMap_cons, List.flatMap_singleton, printPiece_feed]
    rfl
  · rw [List.cons_append, List.flatMap_cons, List.flatMap_append, List.flatMap_cons,
      List.flatMap_singleton, printPiece_feed, List.append_assoc, List.append_assoc]
    rfl

theorem printLines_eq (h : Highlighted) (number : Nat) (ls : List Line) :
    printLines colour width h number ls =
      (ls.zipIdx number).flatMap fun l => printLine colour width l.1.body (h.spansOn l.2) := by
  induction ls generalizing number with
  | nil => rfl
  | cons l rest ih => rw [printLines, List.zipIdx_cons, List.flatMap_cons, ih]

/-- **Profiles are printed as their pieces.** -/
theorem render_eq_print_runs (results : List Highlighted) :
    render colour width results = (runs width results).flatMap (Painted.printPiece colour) := by
  rw [render, runs, List.flatMap_assoc]
  refine List.flatMap_congr fun h _ => ?_
  rw [List.flatMap_append, List.flatMap_assoc, headingRuns, printProfile, printLines_eq]
  congr 1
  · split
    · exact rule_eq colour width h.path
    · rfl
  · exact List.flatMap_congr fun l _ => printLine_eq colour width l.1.body (h.spansOn l.2)

/-! ### Escape characters -/

theorem mem_of_mem_slice {text : Text} {a b : Int} {c : Char}
    (h : c ∈ Painted.slice text a b) : c ∈ text :=
  List.mem_of_mem_take (List.mem_of_mem_drop h)

/-- The pieces of a line have its characters. -/
theorem mem_text_of_mem_pieces {p : Painted} {piece : Style × Text} (h : piece ∈ p.pieces)
    {c : Char} (hc : c ∈ piece.2) : c ∈ p.text := by
  rw [Painted.pieces] at h
  generalize p.borders = es at h
  fun_induction Painted.piecesBetween p es with
  | case1 a b rest _ ih =>
      rcases List.mem_cons.mp h with rfl | h
      · exact mem_of_mem_slice hc
      · exact ih h
  | case2 a b rest _ ih => exact ih h
  | case3 => cases h

/-- Spreading tabs makes spaces of them and keeps everything else. -/
theorem exists_of_mem_spread {ι : Type} {column : Nat} {l : List (ι × Char)} {e : ι × Char}
    (h : e ∈ spread column l) : ∃ d ∈ l, e.1 = d.1 ∧ (e.2 = ' ' ∨ e.2 = d.2) := by
  have hlater (d : ι × Char) {l : List (ι × Char)}
      (h : ∃ d' ∈ l, e.1 = d'.1 ∧ (e.2 = ' ' ∨ e.2 = d'.2)) :
      ∃ d' ∈ d :: l, e.1 = d'.1 ∧ (e.2 = ' ' ∨ e.2 = d'.2) := by
    obtain ⟨d', hd', h⟩ := h
    exact ⟨d', List.mem_cons_of_mem _ hd', h⟩
  induction l generalizing column with
  | nil => cases h
  | cons d l ih =>
      obtain ⟨i, c⟩ := d
      rw [spread] at h
      split at h
      · rcases List.mem_append.mp h with h | h
        · rw [List.eq_of_mem_replicate h]
          exact ⟨_, List.mem_cons_self, rfl, .inl rfl⟩
        · exact hlater _ (ih h)
      · rcases List.mem_cons.mp h with rfl | h
        · exact ⟨_, List.mem_cons_self, rfl, .inr rfl⟩
        · exact hlater _ (ih h)

/-- A line whose tabs have become spaces has only spaces that are new. -/
theorem mem_text_of_mem_expandTabs {p : Painted} {c : Char} (h : c ∈ p.expandTabs.text) :
    c = ' ' ∨ c ∈ p.text := by
  rw [← Painted.map_snd_cells, Painted.cells_expandTabs] at h
  obtain ⟨e, he, rfl⟩ := List.mem_map.mp h
  obtain ⟨d, hd, -, hspace | hsame⟩ := exists_of_mem_spread he
  · exact .inl hspace
  · rw [hsame, ← p.map_snd_cells]
    exact .inr (List.mem_map_of_mem hd)

/-- A line of a text has its characters. -/
theorem mem_of_mem_body {s : Text} {l : Line × Nat} (hl : l ∈ numberedLines s) {c : Char}
    (hc : c ∈ l.1.body) : c ∈ s := by
  rw [← joinLines_splitLines s]
  refine List.mem_flatMap.mpr ⟨l.1, List.fst_mem_of_mem_zipIdx hl, ?_⟩
  exact List.mem_append_left _ hc

/-- A painted line has no characters that its body has not, but spaces. -/
theorem mem_body_of_mem_paintLine {body : Text} {spans : List Span} {c : Char}
    (h : c ∈ (paintLine width body spans).text) : c = ' ' ∨ c ∈ body := by
  have hcut : c ∈ (laidLine body spans).expandTabs.text := by
    rw [paintLine] at h
    obtain ⟨n, -, heq | heq⟩ := Painted.exists_cutTo_eq width (laidLine body spans).expandTabs
    · exact List.mem_of_mem_take (heq ▸ h)
    · exact heq ▸ h
  exact (mem_text_of_mem_expandTabs hcut).imp_right fun h => (List.mem_filter.mp h).1

/-- A text as it appears has no characters of its own. -/
theorem mem_of_mem_dropGuards {s : Text} {c : Char} (h : c ∈ dropGuards s) : c ∈ s := by
  induction s with
  | nil => exact h
  | cons d rest ih =>
      rw [dropGuards] at h
      split at h
      · exact List.mem_cons_of_mem _ (ih h)
      · rcases List.mem_cons.mp h with rfl | h
        · exact List.mem_cons_self
        · exact List.mem_cons_of_mem _ (ih h)

/-- Between marks nothing appears but the text and the mark that ends it. -/
theorem mem_of_mem_betweenMarks {closing s : Text} {c : Char} (h : c ∈ betweenMarks closing s) :
    c ∈ s ∨ c ∈ closing := by
  obtain ⟨cut, hs, hcut⟩ := Text.exists_dropEndWhile_append (· = '\\') s
  rw [betweenMarks] at h
  rcases List.mem_append.mp h with h | h
  · rcases List.mem_append.mp h with h | h
    · rw [hs]
      exact .inl (List.mem_append_left _ (mem_of_mem_dropGuards h))
    · -- Backslashes appear only if there are some at the end of the text.
      obtain rfl := List.eq_of_mem_replicate h
      cases cut with
      | nil =>
          rw [List.append_nil] at hs
          have hnone : Text.endLength (· = '\\') s = 0 := by rw [Text.endLength, ← hs, Nat.sub_self]
          rw [hnone] at h
          cases h
      | cons d cut =>
          obtain rfl := of_decide_eq_true (hcut d List.mem_cons_self)
          rw [hs]
          exact .inl (List.mem_append_right _ List.mem_cons_self)
  · split at h
    · exact .inr h
    · cases h

/-- The title of a rule has no characters that its path has not, but spaces, an ellipsis and those
of the mark that ends it. -/
theorem mem_path_of_mem_ruleTitle {path : Text} {c : Char}
    (h : c ∈ (ruleTitle width path).text) : c ∈ path ∨ c ∈ ' ' :: '…' :: boldEnd := by
  have htitle (strokes : List Stroke) (hc : c ∈ (Painted.ofStrokes (Painted.stripMovements
      (Text.replaced '\n' ' ' (betweenMarks boldEnd path))) strokes).expandTabs.text) :
      c ∈ path ∨ c ∈ ' ' :: '…' :: boldEnd := by
    rcases mem_text_of_mem_expandTabs hc with rfl | hc
    · exact .inr List.mem_cons_self
    · obtain ⟨d, hd, rfl⟩ := List.mem_map.mp (List.mem_filter.mp (List.mem_filter.mp hc).1).1
      split
      · exact .inr List.mem_cons_self
      · exact (mem_of_mem_betweenMarks hd).imp_right
          fun hd => List.mem_cons_of_mem _ (List.mem_cons_of_mem _ hd)
  rw [ruleTitle] at h
  split at h
  · rcases List.mem_append.mp h with h | h
    · exact htitle _ (List.mem_of_mem_take h)
    · rw [List.mem_singleton.mp h]
      exact .inr (List.mem_cons_of_mem _ List.mem_cons_self)
  · exact htitle _ h

/-- A line without escape characters is printed in pieces without them. -/
theorem escape_not_mem_lineRuns {body : Text} (h : escape ∉ body) (spans : List Span) :
    ∀ run ∈ lineRuns width body spans, escape ∉ run.2 := by
  intro run hrun hc
  rcases List.mem_append.mp hrun with hrun | hrun
  · rcases mem_body_of_mem_paintLine width (mem_text_of_mem_pieces hrun hc) with hc | hc
    · exact absurd hc (by decide)
    · exact h hc
  · rw [List.mem_singleton.mp hrun] at hc
    exact absurd hc (by decide)

/-- A rule for a path without escape characters is printed in pieces without them. -/
theorem escape_not_mem_ruleRuns {path : Text} (h : escape ∉ path) :
    ∀ run ∈ ruleRuns width path, escape ∉ run.2 := by
  have hfeed : escape ∉ ['\n'] := by decide
  have hdashes (n : Nat) : escape ∉ List.replicate n dash := fun hc =>
    absurd (List.eq_of_mem_replicate hc) (by decide)
  intro run hrun
  rw [ruleRuns] at hrun
  dsimp only at hrun
  split at hrun
  · simp only [List.mem_cons, List.not_mem_nil, or_false] at hrun
    rcases hrun with rfl | rfl
    · exact hdashes _
    · exact hfeed
  · simp only [List.cons_append, List.mem_cons, List.mem_append, List.not_mem_nil, or_false]
      at hrun
    rcases hrun with rfl | hrun | rfl | rfl
    · rw [List.mem_append, not_or]
      exact ⟨hdashes _, by decide⟩
    · intro hc
      rcases mem_path_of_mem_ruleTitle width (mem_text_of_mem_pieces hrun hc) with hc | hc
      · exact h hc
      · exact absurd hc (by decide)
    · rw [List.mem_cons, not_or]
      exact ⟨by decide, hdashes _⟩
    · exact hfeed

/-- **Printing makes no escape characters in a piece** that neither paths nor texts have. -/
theorem escape_not_mem_runs {results : List Highlighted}
    (h : ∀ r ∈ results, escape ∉ r.path ∧ escape ∉ r.text) :
    ∀ run ∈ runs width results, escape ∉ run.2 := by
  intro run hrun
  obtain ⟨r, hr, hrun⟩ := List.mem_flatMap.mp hrun
  rcases List.mem_append.mp hrun with hrun | hrun
  · rw [headingRuns] at hrun
    split at hrun
    · exact escape_not_mem_ruleRuns width (h r hr).1 run hrun
    · cases hrun
  · obtain ⟨l, hl, hrun⟩ := List.mem_flatMap.mp hrun
    exact escape_not_mem_lineRuns width (fun hc => (h r hr).2 (mem_of_mem_body hl hc)) _ run hrun

end Terminal

end SandboxProfile
