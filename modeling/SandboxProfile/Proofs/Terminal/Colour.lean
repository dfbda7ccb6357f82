import SandboxProfile.Proofs.Terminal.Shown

/-!
# Colours and the text that is shown

Colours are selections around pieces, so they do not change the text that is shown: without its
selections the coloured output is the output without colours, and where a line cannot be drawn it
cannot be drawn in either way.

The spans do change the text in one case. A span may have columns so far below zero that its
stroke ends before the line, and then the pieces before the line repeat a part of it. Otherwise
the text that is shown is that of the profiles, whatever their spans are.

## Main definitions

* `Painted.Drawable` says that a line can be drawn.
* `Highlighted.withoutSpans` is a profile without its spans.

## Main results

* `Painted.drawError?_eq_none_iff` — when nothing is wrong with a line.
* `Terminal.draw_false_eq_iff` — when spans leave the text as it is.
* `Terminal.draw_colour` — colours never change the text, and spans only below zero.
-/

namespace SandboxProfile

/-! ### Lists that are joined -/

section Joined

variable {α β : Type} {f g : α → List β} {l : List α}

/-- Joined lists are not shorter if none of them is. -/
theorem length_flatMap_le (hle : ∀ a ∈ l, (g a).length ≤ (f a).length) :
    (l.flatMap g).length ≤ (l.flatMap f).length := by
  induction l with
  | nil => exact Nat.le_refl _
  | cons a l ih =>
      obtain ⟨ha, hl⟩ := List.forall_mem_cons.mp hle
      rw [List.flatMap_cons, List.flatMap_cons, List.length_append, List.length_append]
      exact Nat.add_le_add ha (ih hl)

/-- Joined lists of which none is shorter than its counterpart are the same only part by part. -/
theorem flatMap_eq_flatMap_iff (hle : ∀ a ∈ l, (g a).length ≤ (f a).length) :
    l.flatMap f = l.flatMap g ↔ ∀ a ∈ l, f a = g a := by
  refine ⟨fun h => ?_, List.flatMap_congr⟩
  induction l with
  | nil => exact List.forall_mem_nil _
  | cons a l ih =>
      obtain ⟨ha, hl⟩ := List.forall_mem_cons.mp hle
      rw [List.flatMap_cons, List.flatMap_cons] at h
      have hsum := congrArg List.length h
      rw [List.length_append, List.length_append] at hsum
      have hrest := length_flatMap_le hl
      obtain ⟨hfirst, hothers⟩ := List.append_inj h (by omega)
      exact List.forall_mem_cons.mpr ⟨hfirst, ih hl hothers⟩

end Joined

namespace Painted

variable {p : Painted}

/-! ### Lines that can be drawn -/

/-- No stroke begins before a line with a tab, and where a stroke ends before the line another one
goes on. -/
structure Drawable (p : Painted) : Prop where
  /-- With a tab all strokes begin on the line. -/
  tab : '\t' ∈ p.text → ∀ s ∈ p.strokes, 0 ≤ s.start
  /-- Before the line each end of a stroke is covered. -/
  covered : ∀ s ∈ p.strokes, s.stop < 0 → ∃ t ∈ p.strokes, t.covers s.stop = true

/-- **Nothing is wrong with a line that can be drawn.** -/
theorem drawError?_eq_none_iff : p.drawError? = none ↔ p.Drawable := by
  have hendless : (p.text.contains '\t' && p.strokes.any fun s => s.start < 0) = true ↔
      ¬('\t' ∈ p.text → ∀ s ∈ p.strokes, 0 ≤ s.start) := by
    rw [Bool.and_eq_true, List.contains_iff_mem, List.any_eq_true, Classical.not_imp]
    refine and_congr_right fun _ => ?_
    rw [Classical.not_forall]
    refine exists_congr fun s => ?_
    rw [Classical.not_imp, decide_eq_true_eq, Int.not_le]
  have huncovered : (p.strokes.any fun s =>
      s.stop < 0 && !p.strokes.any fun t => t.covers s.stop) = true ↔
      ¬∀ s ∈ p.strokes, s.stop < 0 → ∃ t ∈ p.strokes, t.covers s.stop = true := by
    rw [List.any_eq_true, Classical.not_forall]
    refine exists_congr fun s => ?_
    rw [Classical.not_imp, Classical.not_imp, Bool.and_eq_true, decide_eq_true_eq,
      Bool.not_eq_true', ← Bool.not_eq_true, List.any_eq_true]
  rw [drawError?]
  split
  · rename_i h
    refine iff_of_false (fun h => nomatch h) fun hdraw => hendless.mp h hdraw.tab
  · rename_i htab
    have htab := Classical.not_not.mp (mt hendless.mpr htab)
    split
    · rename_i h
      exact iff_of_false (fun h => nomatch h) fun hdraw => huncovered.mp h hdraw.covered
    · rename_i h
      exact iff_of_true rfl ⟨htab, Classical.not_not.mp (mt huncovered.mpr h)⟩

/-- Strokes that lie on the columns of a line can be drawn. -/
theorem Inside.drawable (h : p.Inside) : p.Drawable where
  tab _ s hs := (h s hs).1
  covered s hs hneg := by
    have := h s hs
    omega

/-- Strokes that lie on the columns of a line repeat nothing. -/
theorem Inside.noRepeat (h : p.Inside) : p.NoRepeat := by
  intro a _ b hb _ hneg
  obtain ⟨s, hs, rfl | rfl⟩ := mem_strokeEnds.mp hb
  all_goals
    have := h s hs
    omega

/-- A stroke that was clamped does not reach over the end. -/
theorem bounded_ofStrokes (text : Text) (strokes : List Stroke) :
    (ofStrokes text strokes).Bounded := by
  intro s hs
  obtain ⟨t, -, ht⟩ := List.mem_filterMap.mp hs
  rw [clampStroke?] at ht
  split at ht
  · cases ht
  · obtain rfl := Option.some.inj ht
    rw [ofStrokes]
    dsimp only
    omega

/-- Strokes that begin on the line are laid on its columns. -/
theorem inside_ofStrokes (text : Text) {strokes : List Stroke} (h : ∀ s ∈ strokes, 0 ≤ s.start) :
    (ofStrokes text strokes).Inside := by
  intro s hs
  refine ⟨?_, bounded_ofStrokes text strokes s hs⟩
  obtain ⟨t, ht, heq⟩ := List.mem_filterMap.mp hs
  have hstart := h t ht
  rw [clampStroke?] at heq
  split at heq
  · cases heq
  · obtain rfl := Option.some.inj heq
    dsimp only
    rw [column, if_neg (by omega)]
    exact hstart

/-- What a line shows is told by its text, whatever its strokes are. -/
theorem text_cutTo_expandTabs (width : Nat) {q : Painted} (h : p.text = q.text) :
    (p.expandTabs.cutTo width).text = (q.expandTabs.cutTo width).text := by
  have htext (r : Painted) : (r.expandTabs.cutTo width).text =
      (cropped width (spread 0 (r.text.map fun c => ((), c)))).map Prod.snd := by
    have hbare : r.cells.map (fun e => ((), e.2)) = r.text.map fun c => ((), c) := by
      rw [← r.map_snd_cells, List.map_map]
      rfl
    rw [← hbare, ← map_spread (fun _ => ()), ← map_cropped (fun _ => ()), List.map_map,
      ← map_snd_cells, cells_cutTo, cells_expandTabs]
    rfl
  rw [htext p, htext q, h]

end Painted

/-- A profile without its spans. -/
def Highlighted.withoutSpans (h : Highlighted) : Highlighted :=
  { h with spans := [] }

namespace Terminal

variable {width : Nat} {results : List Highlighted}

/-! ### Drawing -/

/-- Profiles can be drawn if all their lines can. -/
theorem findSome?_profileError?_eq_none_iff : results.findSome? profileError? = none ↔
    ∀ h ∈ results, ∀ l ∈ numberedLines h.text, (laidLine l.1.body (h.spansOn l.2)).Drawable := by
  rw [List.findSome?_eq_none_iff]
  refine forall₂_congr fun h _ => ?_
  rw [profileError?, List.findSome?_eq_none_iff]
  exact forall₂_congr fun l _ => Painted.drawError?_eq_none_iff

/-- What is drawn is printed, if all lines can be drawn. -/
theorem draw_eq_ok_iff {colour : Bool} {t : Text} : draw colour width results = .ok t ↔
    results.findSome? profileError? = none ∧ render colour width results = t := by
  rw [draw]
  cases results.findSome? profileError? with
  | some e => exact ⟨fun h => (nomatch h), fun h => nomatch h.1⟩
  | none => exact ⟨fun h => ⟨rfl, Except.ok.inj h⟩, fun h => congrArg _ h.2⟩

/-- **Without its selections the coloured output is the output without colours.** -/
theorem stripSelections_draw (h : ∀ r ∈ results, escape ∉ r.path ∧ escape ∉ r.text) :
    (draw true width results).map stripSelections = draw false width results := by
  rw [draw, draw]
  cases results.findSome? profileError? with
  | some e => rfl
  | none =>
      rw [render_eq_print_runs, render_eq_print_runs, Except.map,
        stripSelections_print (escape_not_mem_runs width h)]

/-! ### Spans and the text -/

/-- A line that can be drawn shows its text behind what is repeated of it. -/
theorem exists_text_lineRuns (width : Nat) (body : Text) (spans : List Span) :
    ∃ repeated, (lineRuns width body spans).flatMap Prod.snd =
        repeated ++ (lineRuns width body []).flatMap Prod.snd ∧
      (repeated = [] ↔ (paintLine width body spans).NoRepeat) := by
  have hbounded (spans : List Span) : (paintLine width body spans).Bounded :=
    (Painted.bounded_ofStrokes body _).expandTabs.cutTo width
  have hinside : (paintLine width body []).Inside :=
    ((Painted.inside_ofStrokes body (List.forall_mem_nil _)).expandTabs).cutTo width
  have htext : (paintLine width body spans).text = (paintLine width body []).text :=
    Painted.text_cutTo_expandTabs width rfl
  obtain ⟨repeated, hrepeated, hiff⟩ := (hbounded spans).exists_text_pieces
  refine ⟨repeated, ?_, hiff⟩
  rw [lineRuns, lineRuns, List.flatMap_append, List.flatMap_append, hrepeated, htext,
    (hbounded []).text_pieces_eq_text_iff.mpr hinside.noRepeat, List.append_assoc]

/-- The text of a profile as it is printed without colours. -/
def plainProfile (width : Nat) (results : List Highlighted) (h : Highlighted) : Text :=
  (headingRuns width results h).flatMap Prod.snd ++ (numberedLines h.text).flatMap fun l =>
    (lineRuns width l.1.body (h.spansOn l.2)).flatMap Prod.snd

/-- Without colours the texts of profiles are printed one after another. -/
theorem render_false_eq (width : Nat) (results : List Highlighted) :
    render false width results = results.flatMap (plainProfile width results) := by
  rw [render_eq_print_runs, print_false, runs, List.flatMap_assoc]
  refine List.flatMap_congr fun h _ => ?_
  rw [List.flatMap_append, List.flatMap_assoc, plainProfile]

/-- The text of a profile is not shorter than without its spans, and it is the same exactly if the
spans repeat nothing on any line. -/
theorem plainProfile_withoutSpans (width : Nat) (results : List Highlighted) (h : Highlighted) :
    (plainProfile width (results.map Highlighted.withoutSpans) h.withoutSpans).length ≤
        (plainProfile width results h).length ∧
      (plainProfile width results h =
          plainProfile width (results.map Highlighted.withoutSpans) h.withoutSpans ↔
        ∀ l ∈ numberedLines h.text, (paintLine width l.1.body (h.spansOn l.2)).NoRepeat) := by
  have hheading : headingRuns width (results.map Highlighted.withoutSpans) h.withoutSpans =
      headingRuns width results h := by
    rw [headingRuns, headingRuns, List.length_map, Highlighted.withoutSpans]
  have hplain : plainProfile width (results.map Highlighted.withoutSpans) h.withoutSpans =
      (headingRuns width results h).flatMap Prod.snd ++ (numberedLines h.text).flatMap fun l =>
        (lineRuns width l.1.body []).flatMap Prod.snd := by
    rw [plainProfile, hheading]
    rfl
  have hline (l : Line × Nat) :
      ((lineRuns width l.1.body []).flatMap Prod.snd).length ≤
        ((lineRuns width l.1.body (h.spansOn l.2)).flatMap Prod.snd).length := by
    obtain ⟨repeated, htext, -⟩ := exists_text_lineRuns width l.1.body (h.spansOn l.2)
    rw [htext, List.length_append]
    exact Nat.le_add_left _ _
  constructor
  · rw [hplain, plainProfile, List.length_append, List.length_append]
    exact Nat.add_le_add_left (length_flatMap_le fun l _ => hline l) _
  · rw [hplain, plainProfile, List.append_right_inj, flatMap_eq_flatMap_iff fun l _ => hline l]
    refine forall₂_congr fun l _ => ?_
    obtain ⟨repeated, htext, hiff⟩ := exists_text_lineRuns width l.1.body (h.spansOn l.2)
    rw [htext, List.append_left_eq_self, hiff]

/-- **Spans leave the printed text as it is** exactly if they repeat nothing on any line. -/
theorem render_false_withoutSpans_iff :
    render false width results = render false width (results.map Highlighted.withoutSpans) ↔
      ∀ h ∈ results, ∀ l ∈ numberedLines h.text,
        (paintLine width l.1.body (h.spansOn l.2)).NoRepeat := by
  rw [render_false_eq, render_false_eq, List.flatMap_map,
    flatMap_eq_flatMap_iff fun h _ => (plainProfile_withoutSpans width results h).1]
  exact forall₂_congr fun h _ => (plainProfile_withoutSpans width results h).2

/-- What is drawn without colours is the text without spans exactly if all lines can be drawn and
nothing is repeated. -/
theorem draw_false_eq_iff :
    draw false width results = .ok (render false width (results.map Highlighted.withoutSpans)) ↔
      ∀ h ∈ results, ∀ l ∈ numberedLines h.text,
        (laidLine l.1.body (h.spansOn l.2)).Drawable ∧
          (paintLine width l.1.body (h.spansOn l.2)).NoRepeat := by
  rw [draw_eq_ok_iff, findSome?_profileError?_eq_none_iff, render_false_withoutSpans_iff]
  constructor
  · exact fun h r hr l hl => ⟨h.1 r hr l hl, h.2 r hr l hl⟩
  · exact fun h => ⟨fun r hr l hl => (h r hr l hl).1, fun r hr l hl => (h r hr l hl).2⟩

/-- Spans that begin on the line are laid on its columns. -/
theorem inside_laidLine {body : Text} {spans : List Span} (h : ∀ s ∈ spans, 0 ≤ s.start) :
    (laidLine body spans).Inside := by
  refine Painted.inside_ofStrokes body fun s hs => ?_
  obtain ⟨span, hspan, hstroke⟩ := List.mem_filterMap.mp hs
  obtain ⟨style, -, rfl⟩ := Option.map_eq_some_iff.mp hstroke
  exact h span hspan

/-- **Colours never change the text that is shown, and spans only below zero.** Without its
selections the coloured output is the output without colours. This is the text without spans
exactly if, on each line, no stroke begins before a line with a tab, each end of a stroke before the
line is covered by another stroke, and no two such ends have characters of the line between them
when columns are counted from its end; in particular if no span begins below zero. -/
theorem draw_colour (width : Nat) {results : List Highlighted}
    (h : ∀ r ∈ results, escape ∉ r.path ∧ escape ∉ r.text) :
    (draw true width results).map stripSelections = draw false width results ∧
      (draw false width results = .ok (render false width (results.map Highlighted.withoutSpans)) ↔
        ∀ r ∈ results, ∀ l ∈ numberedLines r.text,
          (laidLine l.1.body (r.spansOn l.2)).Drawable ∧
            (paintLine width l.1.body (r.spansOn l.2)).NoRepeat) ∧
      ((∀ r ∈ results, ∀ s ∈ r.spans, 0 ≤ s.start) → draw false width results =
        .ok (render false width (results.map Highlighted.withoutSpans))) := by
  refine ⟨stripSelections_draw h, draw_false_eq_iff, fun hspans => ?_⟩
  refine draw_false_eq_iff.mpr fun r hr l _ => ?_
  have hinside : (laidLine l.1.body (r.spansOn l.2)).Inside :=
    inside_laidLine fun s hs => hspans r hr s (Highlighted.mem_spansOn.mp hs).1
  exact ⟨hinside.drawable, (hinside.expandTabs.cutTo width).noRepeat⟩

/-- Two profiles with spans that overlap, that come in no order, that are empty, and that reach over
the end of their line or stand on a line that does not exist. -/
def overlappingSpans : List Highlighted :=
  [⟨"a".toList, "net\tall \n\n# x".toList,
      [⟨1, 2, 9, ⟨.path, none⟩⟩, ⟨1, 0, 4, ⟨.keyword, some .option⟩⟩, ⟨1, 1, 1, ⟨.path, none⟩⟩,
        ⟨3, 0, 99, ⟨.comment, none⟩⟩, ⟨7, 0, 1, ⟨.comment, none⟩⟩, ⟨1, 3, -2, ⟨.word, none⟩⟩]⟩,
    ⟨"b".toList, [], []⟩]

/-- Such spans change nothing. -/
theorem draw_colour_overlappingSpans :
    (draw true 10 overlappingSpans).map stripSelections = draw false 10 overlappingSpans ∧
      draw false 10 overlappingSpans =
        .ok (render false 10 (overlappingSpans.map Highlighted.withoutSpans)) := by
  have hescape : ∀ r ∈ overlappingSpans, escape ∉ r.path ∧ escape ∉ r.text := by decide
  have hcolour := draw_colour 10 hescape
  exact ⟨hcolour.1, hcolour.2.2 (by decide)⟩

/-- One line with two spans that begin before it. -/
def spansBefore : Highlighted :=
  ⟨"a".toList, "abc".toList, [⟨1, -5, 2, ⟨.comment, none⟩⟩, ⟨1, -4, 3, ⟨.path, none⟩⟩]⟩

/-- Spans that begin before the line repeat a part of it. -/
theorem draw_ne_of_spansBefore :
    draw false 80 [spansBefore] ≠ draw false 80 [spansBefore.withoutSpans] := by
  have hwithout : draw false 80 [spansBefore.withoutSpans] =
      .ok (render false 80 [spansBefore.withoutSpans]) := by
    refine draw_false_eq_iff.mpr fun r hr l _ => ?_
    obtain rfl := List.mem_singleton.mp hr
    have hinside : (laidLine l.1.body (spansBefore.withoutSpans.spansOn l.2)).Inside :=
      inside_laidLine fun s hs => absurd hs List.not_mem_nil
    exact ⟨hinside.drawable, (hinside.expandTabs.cutTo 80).noRepeat⟩
  intro hsame
  -- Counted from the end of the line, the two spans begin at -2 and -1.
  have hline : (⟨"abc".toList, .none⟩, 1) ∈ numberedLines spansBefore.text := by decide
  obtain ⟨-, hnone⟩ := draw_false_eq_iff.mp (hsame.trans hwithout) _ List.mem_cons_self _ hline
  exact absurd (hnone (-2) (by decide) (-1) (by decide) (by decide) (by decide)) (by decide)

end Terminal

end SandboxProfile
