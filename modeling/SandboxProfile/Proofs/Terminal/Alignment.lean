import SandboxProfile.Proofs.Report.Semantic
import SandboxProfile.Proofs.Terminal.Colour

/-!
# Styles on the columns of a line

The spans of a highlighted profile cover columns of the bodies of its lines, and no two cover the
same column. What is painted is a body without the movements in it, so the strokes are laid on
columns that are counted without them: each character gets the style of the column that it has
when the movements before it are left out. After that nothing moves any more, for tabs and blanks
take their styles along.

So each style is on its characters exactly if, on every line, a printed character has the same style
on its column and on the column without the movements before it. A carriage return in the middle of
a line is enough to push the style of a keyword one character on.

## Main definitions

* `styleOfColumn` is the style of the span that covers a column.
* `keptColumn` is a column without the movements before it.
* `printedColumns` are the printed characters of a line with the columns that they come from.
* `Terminal.StylesInPlace` says that every printed character has the style of its column.

## Main results

* `cells_paintLine` — the style of each printed character of a line.
* `Terminal.stylesInPlace_iff` — when all styles are in place.
-/

namespace SandboxProfile

/-! ### Columns -/

/-- Does the span cover the column? -/
def Span.covers (s : Span) (i : Nat) : Bool :=
  s.start ≤ (i : Int) && (i : Int) < s.stop

/-- The style of the label of the span that covers a column. Columns that no span covers have none,
and neither have the columns of plain words. -/
def styleOfColumn (spans : List Span) (i : Nat) : Style :=
  match spans.find? fun s => s.covers i with
  | some s => (styleFor? s.label).getD {}
  | none => {}

/-- The column that a character of a body has when the movements before it are left out. -/
def keptColumn (body : Text) (i : Nat) : Nat :=
  (Painted.stripMovements (body.take i)).length

/-- The characters of a body with their columns, without movements. -/
def keptCharacters (body : Text) : List (Nat × Char) :=
  (body.mapIdx fun i c => (i, c)).filter fun e => !Painted.isMovement e.2

/-- The printed characters of a line with the columns of the body that they come from. -/
def printedColumns (width : Nat) (body : Text) : List (Nat × Char) :=
  cropped width (spread 0 (keptCharacters body))

/-- Printed characters come from columns of the body. -/
theorem lt_length_of_mem_printedColumns {width : Nat} {body : Text} {e : Nat × Char}
    (h : e ∈ printedColumns width body) : e.1 < body.length := by
  obtain ⟨d, hd, hcolumn, -⟩ := Terminal.exists_of_mem_spread (List.mem_of_mem_take h)
  obtain ⟨i, hi, rfl⟩ := List.mem_mapIdx.mp (List.mem_filter.mp hd).1
  rw [hcolumn]
  exact hi

/-- Without movements all columns stay. -/
theorem keptColumn_of_no_movement {body : Text} (h : ∀ c ∈ body, Painted.isMovement c = false)
    {i : Nat} (hi : i < body.length) : keptColumn body i = i := by
  have hstrip : Painted.stripMovements (body.take i) = body.take i :=
    List.filter_eq_self.mpr fun c hc => by rw [h c (List.mem_of_mem_take hc)]; rfl
  rw [keptColumn, hstrip, List.length_take, Nat.min_eq_left (Nat.le_of_lt hi)]

/-- Columns are counted on when the movements are left out. -/
theorem mapIdx_stripMovements {α : Type} (f : Nat → α) (before rest : Text) :
    (Painted.stripMovements rest).mapIdx
        (fun i c => (f ((Painted.stripMovements before).length + i), c)) =
      ((rest.mapIdx fun i c => (before.length + i, c)).filter
        fun e => !Painted.isMovement e.2).map
          fun e => (f (keptColumn (before ++ rest) e.1), e.2) := by
  induction rest generalizing before with
  | nil => rfl
  | cons c rest ih =>
      have ih := ih (before ++ [c])
      have hstrip : Painted.stripMovements (before ++ [c]) =
          Painted.stripMovements before ++ Painted.stripMovements [c] := List.filter_append _ _
      have hkept : keptColumn (before ++ c :: rest) before.length =
          (Painted.stripMovements before).length := by
        rw [keptColumn, List.take_left]
      rw [List.append_assoc, List.singleton_append, hstrip, List.length_append, List.length_append,
        List.length_singleton] at ih
      rw [List.mapIdx_cons, List.filter_cons]
      have hcolumns : (fun i c => (before.length + (i + 1), c) : Nat → Char → Nat × Char) =
          fun i c => (before.length + 1 + i, c) := by
        funext i c
        rw [Nat.add_assoc, Nat.add_comm 1]
      rw [hcolumns]
      by_cases hc : Painted.isMovement c = true
      · have hnone : Painted.stripMovements [c] = [] := by simp [Painted.stripMovements, hc]
        have hskip : Painted.stripMovements (c :: rest) = Painted.stripMovements rest := by
          simp [Painted.stripMovements, hc]
        rw [hnone, List.length_nil, Nat.add_zero] at ih
        rw [hskip, if_neg (by simp [hc]), ih]
      · have hone : Painted.stripMovements [c] = [c] := by simp [Painted.stripMovements, hc]
        have hkeep : Painted.stripMovements (c :: rest) = c :: Painted.stripMovements rest := by
          simp [Painted.stripMovements, hc]
        rw [hone, List.length_singleton] at ih
        rw [hkeep, if_pos (by simp [hc]), List.mapIdx_cons, List.map_cons, Nat.add_zero,
          Nat.add_zero, hkept, ← ih]
        refine congrArg (List.cons _) ?_
        congr 1
        funext i d
        rw [Nat.add_assoc, Nat.add_comm 1]

/-! ### Spans that stand apart -/

/-- The spans begin on the line, are not empty, and stand in order without a common column. -/
structure StandApart (spans : List Span) : Prop where
  /-- They begin on the line. -/
  start_nonneg : ∀ s ∈ spans, 0 ≤ s.start
  /-- They are not empty. -/
  start_lt_stop : ∀ s ∈ spans, s.start < s.stop
  /-- Each ends before the next begins. -/
  pairwise : spans.Pairwise fun p q => p.stop ≤ q.start

theorem styleAt_singleton {s : Stroke} {i : Int} (h : s.covers i = true) :
    Painted.styleAt [s] i = s.style := by
  have hfilter : [s].filter (fun s => s.covers i) = [s] := List.filter_cons_of_pos h
  rw [Painted.styleAt_eq_foldl, hfilter, List.foldl_cons, List.foldl_nil, Style.onto]
  simp

/-- Of spans that stand apart the one that covers a column decides its style. -/
theorem styleAt_strokes {spans : List Span}
    (h : spans.Pairwise fun p q => p.stop ≤ q.start) (i : Nat) :
    Painted.styleAt (spans.filterMap Terminal.stroke?) i = styleOfColumn spans i := by
  induction h with
  | nil => rfl
  | @cons s rest hs _ ih =>
      have hcons : (s :: rest).filterMap Terminal.stroke? =
          (Terminal.stroke? s).toList ++ rest.filterMap Terminal.stroke? := by
        cases hstroke : Terminal.stroke? s with
        | none => rw [List.filterMap_cons_none hstroke]; rfl
        | some t => rw [List.filterMap_cons_some hstroke]; rfl
      rw [hcons]
      by_cases hcover : s.covers i = true
      · have hstop : (i : Int) < s.stop := of_decide_eq_true (Bool.and_eq_true_iff.mp hcover).2
        have hfound : styleOfColumn (s :: rest) i = (styleFor? s.label).getD {} := by
          rw [styleOfColumn, List.find?_cons_of_pos (p := fun q : Span => q.covers i) hcover]
        rw [Painted.styleAt_append_left fun t ht => ?_, hfound, Terminal.stroke?]
        · cases styleFor? s.label with
          | none => rfl
          | some style => exact styleAt_singleton (s := ⟨s.start, s.stop, style⟩) hcover
        · obtain ⟨q, hq, hstroke⟩ := List.mem_filterMap.mp ht
          obtain ⟨style, -, rfl⟩ := Option.map_eq_some_iff.mp hstroke
          have := hs q hq
          rw [Painted.covers_eq_false_iff]
          dsimp only
          omega
      · rw [Painted.styleAt_append_right fun t ht => ?_, ih, styleOfColumn, styleOfColumn,
          List.find?_cons_of_neg (p := fun q : Span => q.covers i) hcover]
        obtain ⟨style, -, rfl⟩ := Option.map_eq_some_iff.mp (Option.mem_toList.mp ht)
        exact Bool.eq_false_iff.mpr hcover

theorem column_of_nonneg {length c : Int} (h : 0 ≤ c) : Painted.column length c = c := by
  rw [Painted.column, if_neg (by omega)]

/-- Strokes that are laid on a line and have no columns below zero keep their columns there. -/
theorem styleAt_ofStrokes {text : Text} {strokes : List Stroke}
    (h : ∀ s ∈ strokes, 0 ≤ s.start ∧ 0 ≤ s.stop) {i : Nat}
    (hi : i < (Painted.stripMovements text).length) :
    Painted.styleAt (Painted.ofStrokes text strokes).strokes i = Painted.styleAt strokes i := by
  refine Painted.styleAt_filterMap (fun s hs t ht => ?_) fun s hs ht => ?_
  · rw [Painted.clampStroke?, column_of_nonneg (h s hs).1, column_of_nonneg (h s hs).2] at ht
    split at ht
    · cases ht
    · obtain rfl := Option.some.inj ht
      refine ⟨rfl, Painted.covers_eq_covers ?_⟩
      dsimp only
      omega
  · rw [Painted.clampStroke?, column_of_nonneg (h s hs).1, column_of_nonneg (h s hs).2] at ht
    split at ht
    · rw [Painted.covers_eq_false_iff]
      omega
    · cases ht

/-- Strokes that are laid on a line give its columns the styles of the spans. -/
theorem cells_laidLine {spans : List Span} (h : StandApart spans) (body : Text) :
    (Terminal.laidLine body spans).cells =
      (keptCharacters body).map fun e => (styleOfColumn spans (keptColumn body e.1), e.2) := by
  have hkept := mapIdx_stripMovements (styleOfColumn spans) [] body
  simp only [Painted.stripMovements, List.filter_nil, List.length_nil, Nat.zero_add,
    List.nil_append] at hkept
  rw [keptCharacters, ← hkept]
  refine List.ext_getElem? fun i => ?_
  rw [Painted.cells, List.getElem?_mapIdx, List.getElem?_mapIdx]
  by_cases hi : i < (Painted.stripMovements body).length
  · have hstyle : Painted.styleAt (Terminal.laidLine body spans).strokes i =
        styleOfColumn spans i := by
      rw [← styleAt_strokes h.pairwise, Terminal.laidLine]
      refine styleAt_ofStrokes (fun s hs => ?_) hi
      obtain ⟨span, hspan, hstroke⟩ := List.mem_filterMap.mp hs
      obtain ⟨style, -, rfl⟩ := Option.map_eq_some_iff.mp hstroke
      have hstart := h.start_nonneg span hspan
      exact ⟨hstart, Int.le_of_lt (Int.lt_of_le_of_lt hstart (h.start_lt_stop span hspan))⟩
    rw [hstyle]
    rfl
  · have hnone : (Painted.stripMovements body)[i]? = none := List.getElem?_eq_none (by omega)
    rw [Painted.stripMovements] at hnone
    rw [hnone]
    exact congrArg (Option.map _) hnone

/-- **The style of each printed character of a line** is that of the column that it comes from,
without the movements before it. -/
theorem cells_paintLine {spans : List Span} (h : StandApart spans) (width : Nat) (body : Text) :
    (Terminal.paintLine width body spans).cells =
      (printedColumns width body).map
        fun e => (styleOfColumn spans (keptColumn body e.1), e.2) := by
  have hpaint : Terminal.paintLine width body spans =
      (Terminal.laidLine body spans).expandTabs.cutTo width := rfl
  rw [hpaint, Painted.cells_cutTo, Painted.cells_expandTabs, cells_laidLine h, printedColumns,
    map_cropped fun i => styleOfColumn spans (keptColumn body i),
    map_spread fun i => styleOfColumn spans (keptColumn body i)]

/-- The spans of a line of a highlighted text stand apart. -/
theorem standApart_spansOn (k : Catalog) (path s : Text) (n : Int) :
    StandApart ((Report.highlighted k path s).spansOn n) where
  start_nonneg p hp := by
    obtain ⟨_, _, -, -, hstart, -⟩ := exists_of_mem_highlight (Highlighted.mem_spansOn.mp hp).1
    exact hstart
  start_lt_stop p hp := by
    obtain ⟨_, _, -, -, -, hstop, -⟩ := exists_of_mem_highlight (Highlighted.mem_spansOn.mp hp).1
    exact hstop
  pairwise := by
    rw [Highlighted.spansOn_eq_filter]
    refine ((pairwise_highlightFrom k 1 (splitLines s)).filter _).imp_of_mem
      fun {p q} hp hq hbefore => ?_
    have hpn := of_decide_eq_true (List.mem_filter.mp hp).2
    have hqn := of_decide_eq_true (List.mem_filter.mp hq).2
    rcases hbefore with hline | ⟨-, hstop, -⟩
    · omega
    · exact hstop

namespace Terminal

variable {width : Nat} {results : List Highlighted}

/-! ### The output -/

/-- The cells of printed profiles if the characters that come from a column of a line have the
style that is given. -/
def outputCells (width : Nat) (results : List Highlighted)
    (style : Text → List Span → Nat → Style) : List Cell :=
  results.flatMap fun h => pieceCells (headingRuns width results h) ++
    (numberedLines h.text).flatMap fun l =>
      (printedColumns width l.1.body).map
          (fun e => (style l.1.body (h.spansOn l.2) e.1, e.2)) ++ pieceCells [feed]

/-- Every printed character that comes from a column of a line has the style of the span that
covers the column. -/
def StylesInPlace (width : Nat) (results : List Highlighted) : Prop :=
  pieceCells (runs width results) =
    outputCells width results fun _ spans i => styleOfColumn spans i

theorem pieceCells_flatMap {α : Type} (f : α → List (Style × Text)) (l : List α) :
    pieceCells (l.flatMap f) = l.flatMap fun a => pieceCells (f a) :=
  List.flatMap_assoc

/-- **The cells of printed profiles** have the styles of their columns without the movements. -/
theorem pieceCells_runs (h : ∀ r ∈ results, ∀ n : Nat, StandApart (r.spansOn n)) :
    pieceCells (runs width results) =
      outputCells width results fun body spans i => styleOfColumn spans (keptColumn body i) := by
  rw [runs, pieceCells_flatMap, outputCells]
  refine List.flatMap_congr fun r hr => ?_
  rw [pieceCells_append, pieceCells_flatMap]
  refine congrArg _ (List.flatMap_congr fun l _ => ?_)
  have hapart := h r hr l.2
  have hinside : (paintLine width l.1.body (r.spansOn l.2)).Inside :=
    (inside_laidLine hapart.start_nonneg).expandTabs.cutTo width
  rw [lineRuns, pieceCells_append, hinside.pieceCells_pieces, cells_paintLine hapart]

/-- Two ways to give styles are the same on the output exactly if they are on every printed
column. -/
theorem outputCells_eq_iff {style style' : Text → List Span → Nat → Style} :
    outputCells width results style = outputCells width results style' ↔
      ∀ h ∈ results, ∀ l ∈ numberedLines h.text, ∀ e ∈ printedColumns width l.1.body,
        style l.1.body (h.spansOn l.2) e.1 = style' l.1.body (h.spansOn l.2) e.1 := by
  have hlength (h : Highlighted) (l : Line × Nat) (style : Text → List Span → Nat → Style) :
      ((printedColumns width l.1.body).map
          (fun e => (style l.1.body (h.spansOn l.2) e.1, e.2)) ++ pieceCells [feed]).length =
        (printedColumns width l.1.body).length + 1 := by
    rw [List.length_append, List.length_map]
    rfl
  have hline (h : Highlighted) := flatMap_eq_flatMap_iff (l := numberedLines h.text)
    fun l _ => Nat.le_of_eq ((hlength h l style').trans (hlength h l style).symm)
  rw [outputCells, outputCells, flatMap_eq_flatMap_iff fun h _ => ?_]
  · refine forall₂_congr fun h _ => ?_
    rw [List.append_right_inj, hline]
    refine forall₂_congr fun l _ => ?_
    rw [List.append_left_inj, List.map_inj_left]
    refine forall₂_congr fun e _ => ?_
    rw [Prod.mk.injEq, and_iff_left rfl]
  · rw [List.length_append, List.length_append]
    exact Nat.add_le_add_left (length_flatMap_le fun l _ =>
      Nat.le_of_eq ((hlength h l style').trans (hlength h l style).symm)) _

/-- **All styles are in place** exactly if each printed character has the same style on its column
and on the column without the movements before it, in particular if no body has a movement. In
every case profiles are drawn, in pieces whose characters have the styles of their columns without
the movements, and this is what a terminal shows if there are no escape characters in the
profiles. -/
theorem stylesInPlace_iff (k : Catalog) (width : Nat) (files : List (Text × Text)) :
    let results := files.map fun f => Report.highlighted k f.1 f.2
    let kept := outputCells width results fun body spans i =>
      styleOfColumn spans (keptColumn body i)
    draw true width results = .ok ((runs width results).flatMap (Painted.printPiece true)) ∧
      pieceCells (runs width results) = kept ∧
      ((∀ r ∈ results, escape ∉ r.path ∧ escape ∉ r.text) →
        (draw true width results).map (shown {}) = .ok kept) ∧
      (StylesInPlace width results ↔
        ∀ r ∈ results, ∀ l ∈ numberedLines r.text, ∀ e ∈ printedColumns width l.1.body,
          styleOfColumn (r.spansOn l.2) (keptColumn l.1.body e.1) =
            styleOfColumn (r.spansOn l.2) e.1) ∧
      ((∀ r ∈ results, ∀ l ∈ numberedLines r.text, ∀ c ∈ l.1.body,
          Painted.isMovement c = false) → StylesInPlace width results) := by
  intro results kept
  have hapart (r : Highlighted) (hr : r ∈ results) (n : Nat) : StandApart (r.spansOn n) := by
    obtain ⟨f, -, rfl⟩ := List.mem_map.mp hr
    exact standApart_spansOn k f.1 f.2 n
  have hdraw : draw true width results =
      .ok ((runs width results).flatMap (Painted.printPiece true)) := by
    refine draw_eq_ok_iff.mpr ⟨?_, render_eq_print_runs true width results⟩
    refine findSome?_profileError?_eq_none_iff.mpr fun r hr l _ => ?_
    exact (inside_laidLine (hapart r hr l.2).start_nonneg).drawable
  have hcells : pieceCells (runs width results) = kept := pieceCells_runs hapart
  have hiff : StylesInPlace width results ↔
      ∀ r ∈ results, ∀ l ∈ numberedLines r.text, ∀ e ∈ printedColumns width l.1.body,
        styleOfColumn (r.spansOn l.2) (keptColumn l.1.body e.1) =
          styleOfColumn (r.spansOn l.2) e.1 := by
    rw [StylesInPlace, hcells, outputCells_eq_iff]
  refine ⟨hdraw, hcells, fun hescape => ?_, hiff, fun hnone => hiff.mpr fun r hr l hl e he => ?_⟩
  · rw [hdraw, Except.map, shown_print (escape_not_mem_runs width hescape), hcells]
  · rw [keptColumn_of_no_movement (hnone r hr l hl) (lt_length_of_mem_printedColumns he)]

/-- A keyword behind a carriage return that does not end its line. -/
def afterReturn : Highlighted :=
  Report.highlighted Catalog.builtin "a".toList "\rnet".toList

/-- A carriage return before a keyword takes the style off its first character. -/
theorem not_stylesInPlace_of_return : ¬StylesInPlace 80 [afterReturn] := by
  have hapart : ∀ r ∈ [afterReturn], ∀ n : Nat, StandApart (r.spansOn n) := by
    intro r hr n
    rw [List.mem_singleton.mp hr]
    exact standApart_spansOn Catalog.builtin _ _ n
  have hspans : afterReturn.spansOn (1 : Nat) = [⟨1, 1, 4, ⟨.keyword, some .option⟩⟩] := by
    decide +kernel
  have hline : (⟨"\rnet".toList, .none⟩, 1) ∈ numberedLines afterReturn.text := by decide
  have hprinted : (1, 'n') ∈ printedColumns 80 "\rnet".toList := by decide
  rw [StylesInPlace, pieceCells_runs hapart, outputCells_eq_iff]
  intro h
  have hstyle : styleOfColumn (afterReturn.spansOn (1 : Nat)) (keptColumn "\rnet".toList 1) =
      styleOfColumn (afterReturn.spansOn (1 : Nat)) 1 :=
    h afterReturn List.mem_cons_self _ hline _ hprinted
  rw [hspans] at hstyle
  exact absurd hstyle (by decide)

end Terminal

end SandboxProfile
