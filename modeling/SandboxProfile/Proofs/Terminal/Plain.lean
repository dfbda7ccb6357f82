import SandboxProfile.Proofs.Terminal.Colour
import SandboxProfile.Proofs.Text.Ends

/-!
# Profiles that are printed as they are

Without colours a single profile is printed line by line, and every printed line ends in one line
feed. What stands before it is the body of the line, unless something in the body is not for a
terminal to show: a tab, a movement, or a blank at the end of a line that is longer than the
terminal is wide. Nothing is ever wrapped, so there are as many printed lines as the profile has,
whatever its characters are.

The spans of the profile do not matter to this as long as they begin on their lines. Spans that
begin before a line may repeat a part of it or keep it from being drawn, and `PrintsPlain.exact`
says when they do.

## Main definitions

* `IsPlain` says that a line is printed as it is, `fedLines` are the bodies of the lines of a text,
  each with a line feed.
* `PrintsPlain` says what a single profile is printed as.

## Main results

* `paintLine_of_isPlain` — a plain line is not changed before it is printed.
* `printsPlain` — what every single profile is printed as.
-/

namespace SandboxProfile

namespace Terminal

/-! ### Statement -/

/-- The line, without its ending, is printed as it is on a terminal of the given width. -/
structure IsPlain (width : Nat) (body : Text) : Prop where
  /-- There is no tab to make spaces of. -/
  no_tab : '\t' ∉ body
  /-- There are no movements to leave out. -/
  no_movement : ∀ c ∈ body, Painted.isMovement c = false
  /-- There is no blank to cut off. -/
  not_cut : width < body.length → ∀ c ∈ body.getLast?, isBlank c = false

/-- A line is plain if it passes the checks for tabs, for movements and for its end. -/
theorem isPlain_iff {width : Nat} {body : Text} :
    IsPlain width body ↔ body.contains '\t' = false ∧
      body.any Painted.isMovement = false ∧
      (width < body.length → body.getLast?.any isBlank = false) := by
  have htab : body.contains '\t' = false ↔ '\t' ∉ body := by simp
  have hmovement : body.any Painted.isMovement = false ↔
      ∀ c ∈ body, Painted.isMovement c = false := by simp
  have hcut : body.getLast?.any isBlank = false ↔ ∀ c ∈ body.getLast?, isBlank c = false := by
    cases body.getLast? <;> simp
  rw [htab, hmovement, hcut]
  exact ⟨fun h => ⟨h.no_tab, h.no_movement, h.not_cut⟩, fun h => ⟨h.1, h.2.1, h.2.2⟩⟩

instance (width : Nat) (body : Text) : Decidable (IsPlain width body) :=
  decidable_of_iff _ isPlain_iff.symm

/-- The bodies of the lines of a text, each with a line feed. -/
def fedLines (s : Text) : Text :=
  (splitLines s).flatMap fun l => l.body ++ ['\n']

/-- What a single profile is printed as without colours. -/
structure PrintsPlain (width : Nat) (h : Highlighted) : Prop where
  /-- Plain lines are printed as they are, each with a line feed, exactly if they can be drawn and
  their spans repeat nothing. -/
  exact : (∀ l ∈ splitLines h.text, IsPlain width l.body) →
    (draw false width [h] = .ok (fedLines h.text) ↔ ∀ l ∈ numberedLines h.text,
      (laidLine l.1.body (h.spansOn l.2)).Drawable ∧ (laidLine l.1.body (h.spansOn l.2)).NoRepeat)
  /-- So they are if no span begins before its line. -/
  plain : (∀ l ∈ splitLines h.text, IsPlain width l.body) → (∀ s ∈ h.spans, 0 ≤ s.start) →
    draw false width [h] = .ok (fedLines h.text)
  /-- If all lines end in a line feed, this is the text itself. -/
  unchanged : (∀ l ∈ splitLines h.text, l.ending = .lf) → fedLines h.text = h.text
  /-- Something is printed exactly if all lines can be drawn. -/
  drawn_iff : (∃ out, draw false width [h] = .ok out) ↔
    ∀ l ∈ numberedLines h.text, (laidLine l.1.body (h.spansOn l.2)).Drawable
  /-- What is printed has as many lines as the text, whatever its characters and its spans are. -/
  lines : ∀ out, draw false width [h] = .ok out → ∃ printed : List Text,
    out = printed.flatMap (· ++ ['\n']) ∧ (∀ line ∈ printed, '\n' ∉ line) ∧
      printed.length = (splitLines h.text).length

/-! ### Plain lines -/

theorem endLength_eq_zero {p : Char → Bool} {s : Text}
    (h : ∀ c ∈ s.getLast?, p c = false) : Text.endLength p s = 0 := by
  rcases List.eq_nil_or_concat' s with rfl | ⟨before, c, rfl⟩
  · rfl
  · have hc : p c = false := h c (List.getLast?_concat)
    have hlast : Text.dropEndWhile p [c] = [c] := Text.dropEndWhile_cons hc []
    rw [Text.endLength, Text.dropEndWhile_append (by simp [hlast]), hlast, Nat.sub_self]

/-- **A plain line is not changed before it is printed.** -/
theorem paintLine_of_isPlain {width : Nat} {body : Text} (h : IsPlain width body)
    (spans : List Span) :
    (laidLine body spans).text = body ∧ paintLine width body spans = laidLine body spans := by
  have htext : (laidLine body spans).text = body :=
    List.filter_eq_self.mpr fun c hc => by rw [h.no_movement c hc, Bool.not_false]
  have htabs : (laidLine body spans).expandTabs = laidLine body spans := by
    rw [Painted.expandTabs, htext, if_neg (by simpa using h.no_tab)]
  have hcut : min (Text.endLength isBlank body) (body.length - width) = 0 := by
    by_cases hlong : width < body.length
    · rw [endLength_eq_zero (h.not_cut hlong), Nat.zero_min]
    · rw [Nat.sub_eq_zero_of_le (Nat.le_of_not_lt hlong), Nat.min_zero]
  refine ⟨htext, ?_⟩
  have hpaint : paintLine width body spans = (laidLine body spans).expandTabs.cutTo width := rfl
  rw [hpaint, htabs, Painted.cutTo, htext]
  exact if_pos hcut

variable {width : Nat} {h : Highlighted}

theorem flatMap_numberedLines {β : Type} (f : Line → List β) (s : Text) :
    (numberedLines s).flatMap (fun l => f l.1) = (splitLines s).flatMap f := by
  rw [← List.flatMap_map Prod.fst f, numberedLines, List.zipIdx_map_fst]

/-- A single profile is printed without a rule, as the texts of its lines. -/
theorem render_false_singleton (width : Nat) (h : Highlighted) :
    render false width [h] = (numberedLines h.text).flatMap fun l =>
      (paintLine width l.1.body (h.spansOn l.2)).pieces.flatMap Prod.snd ++ ['\n'] := by
  rw [render_false_eq, List.flatMap_singleton, plainProfile]
  have hheading : headingRuns width [h] h = [] := rfl
  rw [hheading, List.flatMap_nil, List.nil_append]
  refine List.flatMap_congr fun l _ => ?_
  rw [lineRuns, List.flatMap_append]
  rfl

/-- Without spans plain lines are printed as they are. -/
theorem render_withoutSpans_of_isPlain (hplain : ∀ l ∈ splitLines h.text, IsPlain width l.body) :
    render false width [h.withoutSpans] = fedLines h.text := by
  rw [render_false_singleton, fedLines, ← flatMap_numberedLines]
  refine List.flatMap_congr fun l hl => ?_
  have hbody : IsPlain width l.1.body := hplain l.1 (List.fst_mem_of_mem_zipIdx hl)
  obtain ⟨htext, hpaint⟩ := paintLine_of_isPlain hbody (h.withoutSpans.spansOn l.2)
  have hinside : (laidLine l.1.body (h.withoutSpans.spansOn l.2)).Inside :=
    inside_laidLine fun s hs => absurd hs List.not_mem_nil
  rw [hpaint, hinside.bounded.text_pieces_eq_text_iff.mpr hinside.noRepeat, htext]

/-! ### Printed lines -/

/-- A printed line holds no line feed before its end. -/
theorem feed_not_mem_pieces {l : Line × Nat} (hl : l ∈ numberedLines h.text)
    (spans : List Span) : '\n' ∉ (paintLine width l.1.body spans).pieces.flatMap Prod.snd := by
  intro hmem
  obtain ⟨piece, hpiece, hc⟩ := List.mem_flatMap.mp hmem
  rcases mem_body_of_mem_paintLine width (mem_text_of_mem_pieces hpiece hc) with hspace | hbody
  · cases hspace
  · exact feed_not_mem_of_mem_splitLines (List.fst_mem_of_mem_zipIdx hl) hbody

/-- What is printed has as many lines as the text. -/
theorem exists_printed (width : Nat) (h : Highlighted) : ∃ printed : List Text,
    render false width [h] = printed.flatMap (· ++ ['\n']) ∧ (∀ line ∈ printed, '\n' ∉ line) ∧
      printed.length = (splitLines h.text).length := by
  refine ⟨(numberedLines h.text).map fun l =>
    (paintLine width l.1.body (h.spansOn l.2)).pieces.flatMap Prod.snd, ?_, ?_, ?_⟩
  · rw [render_false_singleton, List.flatMap_map]
  · intro line hline
    obtain ⟨l, hl, rfl⟩ := List.mem_map.mp hline
    exact feed_not_mem_pieces hl _
  · rw [List.length_map, numberedLines, List.length_zipIdx]

/-- **What a single profile is printed as** without colours, for all spans and widths. -/
theorem printsPlain (width : Nat) (h : Highlighted) : PrintsPlain width h := by
  have hexact (hplain : ∀ l ∈ splitLines h.text, IsPlain width l.body) :
      draw false width [h] = .ok (fedLines h.text) ↔ ∀ l ∈ numberedLines h.text,
        (laidLine l.1.body (h.spansOn l.2)).Drawable ∧
          (laidLine l.1.body (h.spansOn l.2)).NoRepeat := by
    have hwithout : fedLines h.text = render false width ([h].map Highlighted.withoutSpans) :=
      (render_withoutSpans_of_isPlain hplain).symm
    rw [hwithout, draw_false_eq_iff, List.forall_mem_singleton]
    refine forall₂_congr fun l hl => ?_
    rw [(paintLine_of_isPlain (hplain l.1 (List.fst_mem_of_mem_zipIdx hl)) _).2]
  refine ⟨hexact, fun hplain hspans => ?_, fun hlf => ?_, ?_, fun out hout => ?_⟩
  · refine (hexact hplain).mpr fun l _ => ?_
    have hinside : (laidLine l.1.body (h.spansOn l.2)).Inside :=
      inside_laidLine fun s hs => hspans s (Highlighted.mem_spansOn.mp hs).1
    exact ⟨hinside.drawable, hinside.noRepeat⟩
  · have htext : fedLines h.text = joinLines (splitLines h.text) :=
      List.flatMap_congr fun l hl => by rw [Line.text, hlf l hl]; rfl
    rw [htext, joinLines_splitLines]
  · have hnone : [h].findSome? profileError? = none ↔
        ∀ l ∈ numberedLines h.text, (laidLine l.1.body (h.spansOn l.2)).Drawable := by
      rw [findSome?_profileError?_eq_none_iff, List.forall_mem_singleton]
    rw [← hnone]
    constructor
    · rintro ⟨out, hout⟩
      exact (draw_eq_ok_iff.mp hout).1
    · exact fun hdrawn => ⟨_, draw_eq_ok_iff.mpr ⟨hdrawn, rfl⟩⟩
  · obtain ⟨-, rfl⟩ := draw_eq_ok_iff.mp hout
    exact exists_printed width h

/-- A profile with lines that are longer than a narrow terminal, with characters that separate lines
elsewhere, and with spans that overlap, that are empty, and that reach over the end of their line or
stand on a line that does not exist. -/
def otherSeparators : Highlighted :=
  ⟨"a".toList, "net \u2028 all\r\n\n \u0085x".toList,
    [⟨1, 2, 99, ⟨.path, none⟩⟩, ⟨1, 0, 4, ⟨.keyword, some .option⟩⟩, ⟨3, 1, 1, ⟨.path, none⟩⟩,
      ⟨9, 0, 1, ⟨.comment, none⟩⟩]⟩

/-- It is printed as three lines. -/
theorem printsPlain_otherSeparators :
    PrintsPlain 4 otherSeparators ∧
      draw false 4 [otherSeparators] = .ok "net \u2028 all\n\n \u0085x\n".toList :=
  ⟨printsPlain 4 otherSeparators, (printsPlain 4 otherSeparators).plain (by decide) (by decide)⟩

/-- Spans that begin before the line repeat a part of it, although the line is plain. -/
theorem not_printed_plain_of_spansBefore :
    (∀ l ∈ splitLines spansBefore.text, IsPlain 80 l.body) ∧
      draw false 80 [spansBefore] ≠ .ok (fedLines spansBefore.text) := by
  have hplain : ∀ l ∈ splitLines spansBefore.text, IsPlain 80 l.body := by decide
  refine ⟨hplain, fun hsame => ?_⟩
  have hrender : fedLines spansBefore.text = render false 80 [spansBefore.withoutSpans] :=
    (render_withoutSpans_of_isPlain hplain).symm
  rw [hrender] at hsame
  -- Counted from the end of the line, the two spans begin at -2 and -1.
  have hline : (⟨"abc".toList, .none⟩, 1) ∈ numberedLines spansBefore.text := by decide
  obtain ⟨-, hnone⟩ := draw_false_eq_iff.mp hsame _ List.mem_cons_self _ hline
  exact absurd (hnone (-2) (by decide) (-1) (by decide) (by decide) (by decide)) (by decide)

end Terminal

end SandboxProfile
