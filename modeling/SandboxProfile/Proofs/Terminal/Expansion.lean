import SandboxProfile.Proofs.Terminal.Pieces

/-!
# Painted lines made ready for a terminal

Before a painted line is printed its tabs become spaces and surplus blanks at its end are cut off.
Both are done on the text and on the strokes separately; here it is shown that they are done to
each cell alike. A tab becomes spaces that look as the tab did, and what else is left keeps its
style.

The same two steps can therefore be done to any list of characters that carry something along,
such as the columns that they come from.

## Main definitions

* `spread` makes spaces of tabs, in a list of characters that carry something.
* `cropped` cuts surplus blanks off its end.

## Main results

* `Painted.cells_expandTabs` and `Painted.cells_cutTo` — cells are treated as characters are.
* `Painted.Inside.expandTabs`, `Painted.Bounded.expandTabs` and the like for `cutTo` — strokes stay
  on the line.
-/

namespace SandboxProfile

variable {ι κ : Type}

/-! ### Characters that carry something -/

/-- Characters whose tabs have become spaces, from the given printed column on. The spaces carry
what the tab did. -/
def spread (column : Nat) : List (ι × Char) → List (ι × Char)
  | [] => []
  | (i, c) :: rest =>
    if c = '\t' then
      let blanks := Painted.tabStop - column % Painted.tabStop
      List.replicate blanks (i, ' ') ++ spread (column + blanks) rest
    else (i, c) :: spread (column + 1) rest

/-- Characters without the blanks at the end that stick out over the width. -/
def cropped (width : Nat) (l : List (ι × Char)) : List (ι × Char) :=
  l.take (l.length - min (Text.endLength isBlank (l.map Prod.snd)) (l.length - width))

theorem spread_append (column : Nat) (l m : List (ι × Char)) :
    spread column (l ++ m) = spread column l ++ spread (column + (spread column l).length) m := by
  induction l generalizing column with
  | nil => rfl
  | cons e l ih =>
      obtain ⟨i, c⟩ := e
      rw [List.cons_append, spread, spread]
      split
      · dsimp only
        rw [ih, List.append_assoc, List.length_append, List.length_replicate, Nat.add_assoc]
      · rw [ih, List.cons_append, List.length_cons, Nat.add_assoc, Nat.add_comm 1]

/-- Without tabs nothing is spread. -/
theorem spread_of_no_tab {l : List (ι × Char)} (h : ∀ e ∈ l, e.2 ≠ '\t') (column : Nat) :
    spread column l = l := by
  induction l generalizing column with
  | nil => rfl
  | cons e l ih =>
      obtain ⟨he, hl⟩ := List.forall_mem_cons.mp h
      rw [spread, if_neg he, ih hl]

/-- What characters carry does not matter to the tabs. -/
theorem map_spread (g : ι → κ) (column : Nat) (l : List (ι × Char)) :
    (spread column l).map (fun e => (g e.1, e.2)) =
      spread column (l.map fun e => (g e.1, e.2)) := by
  induction l generalizing column with
  | nil => rfl
  | cons e l ih =>
      obtain ⟨i, c⟩ := e
      rw [List.map_cons, spread, spread]
      split
      · dsimp only
        rw [List.map_append, List.map_replicate, ih]
      · rw [List.map_cons, ih]

/-- What characters carry does not matter to the blanks. -/
theorem map_cropped (g : ι → κ) (width : Nat) (l : List (ι × Char)) :
    (cropped width l).map (fun e => (g e.1, e.2)) =
      cropped width (l.map fun e => (g e.1, e.2)) := by
  have hsnd : (l.map fun e => (g e.1, e.2)).map Prod.snd = l.map Prod.snd := by
    rw [List.map_map]
    rfl
  rw [cropped, cropped, List.map_take, hsnd, List.length_map]

namespace Painted

/-! ### Styles -/

variable {strokes more : List Stroke}

theorem styleAt_eq_foldl (strokes : List Stroke) (i : Int) :
    styleAt strokes i =
      (strokes.filter fun s => s.covers i).foldl (fun lower s => s.style.onto lower) {} := rfl

/-- Strokes that lie elsewhere lay nothing over the others. -/
theorem styleAt_append_left {i : Int} (h : ∀ s ∈ more, s.covers i = false) :
    styleAt (strokes ++ more) i = styleAt strokes i := by
  have hnone : more.filter (fun s => s.covers i) = [] :=
    List.filter_eq_nil_iff.mpr fun s hs => by rw [h s hs]; exact Bool.false_ne_true
  rw [styleAt_eq_foldl, styleAt_eq_foldl, List.filter_append, hnone, List.append_nil]

/-- Strokes that lie elsewhere are not below the others. -/
theorem styleAt_append_right {i : Int} (h : ∀ s ∈ strokes, s.covers i = false) :
    styleAt (strokes ++ more) i = styleAt more i := by
  have hnone : strokes.filter (fun s => s.covers i) = [] :=
    List.filter_eq_nil_iff.mpr fun s hs => by rw [h s hs]; exact Bool.false_ne_true
  rw [styleAt_eq_foldl, styleAt_eq_foldl, List.filter_append, hnone, List.nil_append]

/-- Strokes that were moved give a column the style that the old strokes gave another one, if
each of them covers the one as it covered the other. -/
theorem styleAt_filterMap {f : Stroke → Option Stroke} {i j : Int}
    (hsome : ∀ s ∈ strokes, ∀ t, f s = some t → t.style = s.style ∧ t.covers j = s.covers i)
    (hnone : ∀ s ∈ strokes, f s = none → s.covers i = false) :
    styleAt (strokes.filterMap f) j = styleAt strokes i := by
  have hfold : ∀ lower : Style,
      ((strokes.filterMap f).filter fun s => s.covers j).foldl
          (fun lower s => s.style.onto lower) lower =
        (strokes.filter fun s => s.covers i).foldl (fun lower s => s.style.onto lower) lower := by
    induction strokes with
    | nil => exact fun _ => rfl
    | cons s strokes ih =>
        have ih := ih (fun t ht => hsome t (List.mem_cons_of_mem _ ht))
          (fun t ht => hnone t (List.mem_cons_of_mem _ ht))
        intro lower
        cases hs : f s with
        | none =>
            rw [List.filterMap_cons_none hs, List.filter_cons_of_neg, ih]
            rw [hnone s List.mem_cons_self hs]
            exact Bool.false_ne_true
        | some t =>
            obtain ⟨hstyle, hcovers⟩ := hsome s List.mem_cons_self t hs
            rw [List.filterMap_cons_some hs, List.filter_cons, List.filter_cons, hcovers]
            split
            · rw [List.foldl_cons, List.foldl_cons, hstyle, ih]
            · exact ih lower
  exact hfold {}

/-- Strokes that were all moved give a column the style that the old strokes gave another one, if
each of them covers the one as it covered the other. -/
theorem styleAt_map {f : Stroke → Stroke} {i j : Int}
    (h : ∀ s ∈ strokes, (f s).style = s.style ∧ (f s).covers j = s.covers i) :
    styleAt (strokes.map f) j = styleAt strokes i := by
  rw [← List.filterMap_eq_map]
  refine styleAt_filterMap (fun s hs t ht => ?_) fun s hs ht => nomatch ht
  obtain rfl := Option.some.inj ht
  exact h s hs

theorem covers_iff {s : Stroke} {i : Int} : s.covers i = true ↔ s.start ≤ i ∧ i < s.stop := by
  rw [Stroke.covers, Bool.and_eq_true, decide_eq_true_eq, decide_eq_true_eq]

theorem covers_eq_false_iff {s : Stroke} {i : Int} :
    s.covers i = false ↔ i < s.start ∨ s.stop ≤ i := by
  rw [← Bool.not_eq_true, covers_iff]
  omega

/-- Two strokes cover two columns alike. -/
theorem covers_eq_covers {s t : Stroke} {i j : Int}
    (h : t.start ≤ j ∧ j < t.stop ↔ s.start ≤ i ∧ i < s.stop) : t.covers j = s.covers i := by
  rw [Bool.eq_iff_iff, covers_iff, covers_iff, h]

/-! ### One line after another -/

/-- Cells of a text from a column on. -/
def cellsFrom (strokes : List Stroke) (start : Nat) (text : Text) : List Cell :=
  text.mapIdx fun i c => (styleAt strokes (start + i : Nat), c)

theorem cells_eq_cellsFrom (p : Painted) : p.cells = cellsFrom p.strokes 0 p.text := by
  rw [cells, cellsFrom]
  simp only [Nat.zero_add]

theorem cellsFrom_append (start : Nat) (s t : Text) :
    cellsFrom strokes start (s ++ t) =
      cellsFrom strokes start s ++ cellsFrom strokes (start + s.length) t := by
  rw [cellsFrom, cellsFrom, cellsFrom, List.mapIdx_append]
  congr 2
  funext i c
  rw [Nat.add_assoc, Nat.add_comm i]

/-- Cells are the same if their styles are. -/
theorem cellsFrom_congr {start start' : Nat} {text : Text}
    (h : ∀ i < text.length, styleAt strokes (start + i : Nat) = styleAt more (start' + i : Nat)) :
    cellsFrom strokes start text = cellsFrom more start' text := by
  refine List.ext_getElem? fun i => ?_
  rw [cellsFrom, cellsFrom, List.getElem?_mapIdx, List.getElem?_mapIdx]
  by_cases hi : i < text.length
  · rw [h i hi]
  · rw [List.getElem?_eq_none (by omega)]
    rfl

theorem cells_append {a b : Painted} (ha : a.Inside) (hb : b.Inside) :
    (a.append b).cells = a.cells ++ b.cells := by
  have hcells : (a.append b).cells = cellsFrom (a.append b).strokes 0 (a.text ++ b.text) :=
    cells_eq_cellsFrom _
  rw [hcells, cellsFrom_append, cells_eq_cellsFrom a, cells_eq_cellsFrom b]
  congr 1
  · refine cellsFrom_congr fun i hi => styleAt_append_left fun s hs => ?_
    obtain ⟨t, ht, rfl⟩ := List.mem_map.mp hs
    have := hb t ht
    rw [covers_eq_false_iff]
    dsimp only
    omega
  · refine cellsFrom_congr fun i hi => ?_
    rw [append, styleAt_append_right fun s hs => ?_, shifted]
    · refine styleAt_map fun s hs => ⟨rfl, covers_eq_covers ?_⟩
      dsimp only
      omega
    · have := ha s hs
      rw [covers_eq_false_iff]
      omega

/-- Strokes of lines that follow one another stay on them. -/
theorem Inside.append {a b : Painted} (ha : a.Inside) (hb : b.Inside) : (a.append b).Inside := by
  intro s hs
  rw [Painted.append, List.length_append]
  rcases List.mem_append.mp hs with hs | hs
  · have := ha s hs
    omega
  · obtain ⟨t, ht, rfl⟩ := List.mem_map.mp hs
    have := hb t ht
    dsimp only
    omega

/-! ### Tabs -/

/-- Where a text is cut after each tab nothing is lost. -/
theorem flatten_cutAfterTabs (s : Text) : (cutAfterTabs s).flatten = s := by
  induction s with
  | nil => rfl
  | cons c rest ih =>
      rw [cutAfterTabs]
      split
      · rw [List.flatten_cons, ih, List.singleton_append]
      · split
        · rename_i hnil
          rw [hnil] at ih
          rw [← ih]
          rfl
        · rename_i piece pieces hcons
          rw [hcons] at ih
          rw [← ih]
          rfl

/-- A piece of a text that is cut after each tab has no tab, except at its end. -/
theorem tab_not_mem_of_mem_cutAfterTabs {s piece : Text} (h : piece ∈ cutAfterTabs s) :
    ∃ front, '\t' ∉ front ∧ (piece = front ∨ piece = front ++ ['\t']) := by
  induction s generalizing piece with
  | nil => cases h
  | cons c rest ih =>
      rw [cutAfterTabs] at h
      split at h
      · rename_i hc
        rcases List.mem_cons.mp h with rfl | h
        · exact ⟨[], List.not_mem_nil, .inr (by rw [hc]; rfl)⟩
        · exact ih h
      · rename_i hc
        split at h
        · obtain rfl := List.mem_singleton.mp h
          exact ⟨[c], by simpa [eq_comm] using hc, .inl rfl⟩
        · rename_i first others hcons
          rcases List.mem_cons.mp h with rfl | h
          · obtain ⟨front, hfront, hfirst⟩ := ih (hcons ▸ List.mem_cons_self)
            refine ⟨c :: front, ?_, ?_⟩
            · rw [List.mem_cons, not_or]
              exact ⟨fun h => hc h.symm, hfront⟩
            · rcases hfirst with rfl | rfl
              · exact .inl rfl
              · exact .inr rfl
          · exact ih (hcons ▸ List.mem_cons_of_mem _ h)

/-- Strokes are cut at the borders of a part of the line. -/
theorem inside_strokesWithin (strokes : List Stroke) (start : Nat) (piece : Text) :
    Inside ⟨piece, strokesWithin start (start + piece.length : Nat) strokes⟩ := by
  intro s hs
  obtain ⟨t, -, ht⟩ := List.mem_filterMap.mp hs
  dsimp only at ht ⊢
  split at ht
  · obtain rfl := Option.some.inj ht
    dsimp only
    omega
  · cases ht

/-- The cells of a part of the line are those of its columns. -/
theorem cells_strokesWithin (strokes : List Stroke) (start : Nat) (piece : Text) :
    cells ⟨piece, strokesWithin start (start + piece.length : Nat) strokes⟩ =
      cellsFrom strokes start piece := by
  rw [cells_eq_cellsFrom]
  refine cellsFrom_congr fun i (hi : i < piece.length) =>
    styleAt_filterMap (fun s _ t ht => ?_) fun s _ ht => ?_
  · dsimp only at ht
    split at ht
    · obtain rfl := Option.some.inj ht
      refine ⟨rfl, covers_eq_covers ?_⟩
      dsimp only
      omega
    · cases ht
  · dsimp only at ht
    split at ht
    · cases ht
    · rw [covers_eq_false_iff]
      omega

/-- Cells without tabs. -/
theorem ne_tab_of_mem_cellsFrom {start : Nat} {text : Text} (h : '\t' ∉ text) {e : Cell}
    (he : e ∈ cellsFrom strokes start text) : e.2 ≠ '\t' := by
  obtain ⟨i, hi, rfl⟩ := List.mem_mapIdx.mp he
  exact fun htab => h (htab ▸ List.getElem_mem hi)

/-- The number of spaces that a tab becomes. -/
theorem blanks_eq (column n : Nat) :
    1 + (if (column + (n + 1)) % tabStop = 0 then 0
      else tabStop - (column + (n + 1)) % tabStop) = tabStop - (column + n) % tabStop := by
  rw [tabStop]
  by_cases h : (column + (n + 1)) % 8 = 0
  · rw [if_pos h]
    omega
  · rw [if_neg h]
    omega

/-- Strokes that reach the last of `n + 1` columns and are stretched cover the new columns as they
covered the last one, and all others as before. -/
theorem styleAt_stretched {n extra i j : Nat}
    (h : ∀ s ∈ strokes, s.start < s.stop ∧ s.stop ≤ ((n + 1 : Nat) : Int))
    (hij : i = j ∧ i < n ∨ i = n ∧ n ≤ j ∧ j < n + (1 + extra)) :
    styleAt (strokes.map fun s => if s.stop ≥ ((n + 1 : Nat) : Int) then
      ⟨s.start, s.stop + (extra : Int), s.style⟩ else s) j = styleAt strokes i := by
  refine styleAt_map fun s hs => ?_
  have := h s hs
  by_cases hstop : s.stop ≥ ((n + 1 : Nat) : Int)
  · rw [if_pos hstop]
    refine ⟨rfl, covers_eq_covers ?_⟩
    dsimp only
    omega
  · rw [if_neg hstop]
    exact ⟨rfl, covers_eq_covers (by omega)⟩

/-- **A tab at the end of a piece** becomes spaces that look as the tab did. -/
theorem expandPiece_of_tab {front : Text} {strokes : List Stroke} (column : Nat)
    (hfront : '\t' ∉ front) (h : Inside ⟨front ++ ['\t'], strokes⟩) :
    (expandPiece column ⟨front ++ ['\t'], strokes⟩).Inside ∧
      (expandPiece column ⟨front ++ ['\t'], strokes⟩).cells =
        spread column (cells ⟨front ++ ['\t'], strokes⟩) := by
  have hlength : (front ++ ['\t']).length = front.length + 1 := List.length_append
  have hinside : ∀ s ∈ strokes, 0 ≤ s.start ∧ s.start < s.stop ∧
      s.stop ≤ ((front.length + 1 : Nat) : Int) := fun s hs => hlength ▸ h s hs
  rw [expandPiece, if_pos List.getLast?_concat]
  dsimp only
  rw [hlength, List.dropLast_concat]
  generalize hextra : (if (column + (front.length + 1)) % tabStop = 0 then 0 else _) = extra
  have hblanks : tabStop - (column + front.length) % tabStop = 1 + extra := by
    rw [← hextra, blanks_eq]
  constructor
  · intro s hs
    obtain ⟨t, ht, rfl⟩ := List.mem_map.mp hs
    have := hinside t ht
    dsimp only
    rw [List.length_append, List.length_replicate]
    split
    · dsimp only
      omega
    · omega
  · rw [cells_eq_cellsFrom, cells_eq_cellsFrom, cellsFrom_append, cellsFrom_append, spread_append,
      spread_of_no_tab fun e he => ne_tab_of_mem_cellsFrom hfront he]
    have hstyle {i j : Nat} (hij : i = j ∧ i < front.length ∨
        i = front.length ∧ front.length ≤ j ∧ j < front.length + (1 + extra)) :=
      styleAt_stretched (fun s hs => (hinside s hs).2) hij
    congr 1
    · refine cellsFrom_congr fun i hi => ?_
      rw [Nat.zero_add]
      exact hstyle (.inl ⟨rfl, hi⟩)
    · have htab : cellsFrom strokes (0 + front.length) ['\t'] =
          [(styleAt strokes front.length, '\t')] := by
        rw [Nat.zero_add]
        rfl
      have hcount : (cellsFrom strokes 0 front).length = front.length := List.length_mapIdx
      rw [htab, spread, if_pos rfl, hcount]
      dsimp only
      rw [hblanks, spread, List.append_nil, List.eq_replicate_iff]
      refine ⟨by rw [cellsFrom, List.length_mapIdx, List.length_replicate], fun e he => ?_⟩
      obtain ⟨i, hi, rfl⟩ := List.mem_mapIdx.mp he
      rw [List.length_replicate] at hi
      rw [hstyle (.inr ⟨rfl, by omega, by omega⟩), List.getElem_replicate]

/-- A piece becomes what its cells do. -/
theorem expandPiece_spread {piece : Text} {strokes : List Stroke} (column : Nat)
    (hpiece : ∃ front, '\t' ∉ front ∧ (piece = front ∨ piece = front ++ ['\t']))
    (h : Inside ⟨piece, strokes⟩) :
    (expandPiece column ⟨piece, strokes⟩).Inside ∧
      (expandPiece column ⟨piece, strokes⟩).cells = spread column (cells ⟨piece, strokes⟩) := by
  obtain ⟨front, hfront, rfl | rfl⟩ := hpiece
  · have hlast : ¬piece.getLast? = some '\t' := fun hl => hfront (List.mem_of_getLast? hl)
    rw [expandPiece, if_neg hlast]
    refine ⟨h, (spread_of_no_tab (fun e he => ?_) column).symm⟩
    rw [cells_eq_cellsFrom] at he
    exact ne_tab_of_mem_cellsFrom hfront he
  · exact expandPiece_of_tab column hfront h

/-- Pieces that follow one another become what their cells do. -/
theorem expandPieces_spread {strokes : List Stroke} {pieces : List Text} (start column : Nat)
    (hpieces : ∀ piece ∈ pieces,
      ∃ front, '\t' ∉ front ∧ (piece = front ∨ piece = front ++ ['\t'])) :
    (expandPieces strokes start column pieces).Inside ∧
      (expandPieces strokes start column pieces).cells =
        spread column (cellsFrom strokes start pieces.flatten) := by
  induction pieces generalizing start column with
  | nil => exact ⟨fun s hs => (nomatch hs), rfl⟩
  | cons piece pieces ih =>
      obtain ⟨hpiece, hrest⟩ := List.forall_mem_cons.mp hpieces
      obtain ⟨hinside, hcells⟩ := expandPiece_spread column hpiece
        (inside_strokesWithin strokes start piece)
      obtain ⟨hinside', hcells'⟩ := ih (start + piece.length)
        (column + (expandPiece column
          ⟨piece, strokesWithin start (start + piece.length : Nat) strokes⟩).text.length) hrest
      refine ⟨hinside.append hinside', ?_⟩
      rw [expandPieces, List.flatten_cons, cellsFrom_append, spread_append,
        ← cells_strokesWithin, ← hcells, length_cells]
      exact (cells_append hinside hinside').trans (congrArg _ hcells')

/-- **Tabs become spaces** in each cell alike. -/
theorem cells_expandTabs (p : Painted) : p.expandTabs.cells = spread 0 p.cells := by
  rw [expandTabs]
  split
  · rw [(expandPieces_spread 0 0 fun piece h => tab_not_mem_of_mem_cutAfterTabs h).2,
      flatten_cutAfterTabs, ← cells_eq_cellsFrom]
  · rename_i htab
    have htab : '\t' ∉ p.text := fun h => htab (List.contains_iff_mem.mpr h)
    rw [spread_of_no_tab fun e he => ?_]
    rw [cells_eq_cellsFrom] at he
    exact ne_tab_of_mem_cellsFrom htab he

/-- Strokes stay on the line when its tabs become spaces. -/
theorem Inside.expandTabs {p : Painted} (h : p.Inside) : p.expandTabs.Inside := by
  rw [Painted.expandTabs]
  split
  · exact (expandPieces_spread 0 0 fun piece h => tab_not_mem_of_mem_cutAfterTabs h).1
  · exact h

/-- Strokes that do not reach over the end still do not when tabs become spaces. -/
theorem Bounded.expandTabs {p : Painted} (h : p.Bounded) : p.expandTabs.Bounded := by
  rw [Painted.expandTabs]
  split
  · exact (expandPieces_spread 0 0 fun piece h => tab_not_mem_of_mem_cutAfterTabs h).1.bounded
  · exact h

/-! ### Width -/

/-- The first cells of a line are those of its first columns. -/
theorem cells_take (p : Painted) (n : Nat) : (p.take n).cells = p.cells.take n := by
  refine List.ext_getElem? fun i => ?_
  rw [cells, cells, List.getElem?_mapIdx, List.getElem?_take, List.getElem?_mapIdx, take,
    List.getElem?_take]
  dsimp only
  split
  · rename_i hi
    rw [styleAt_filterMap (i := i)]
    · intro s _ t ht
      split at ht
      · obtain rfl := Option.some.inj ht
        refine ⟨rfl, covers_eq_covers ?_⟩
        dsimp only
        omega
      · cases ht
    · intro s _ ht
      split at ht
      · cases ht
      · rw [covers_eq_false_iff]
        omega
  · rfl

/-- Strokes of the first columns do not reach over them. -/
theorem Bounded.take {p : Painted} (h : p.Bounded) {n : Nat} (hn : n ≤ p.text.length) :
    (p.take n).Bounded := by
  intro s hs
  obtain ⟨t, ht, heq⟩ := List.mem_filterMap.mp hs
  split at heq
  · obtain rfl := Option.some.inj heq
    have := h t ht
    rw [Painted.take, List.length_take]
    dsimp only
    omega
  · cases heq

/-- Strokes begin where they did. -/
theorem exists_of_mem_take {p : Painted} {n : Nat} {s : Stroke} (hs : s ∈ (p.take n).strokes) :
    ∃ t ∈ p.strokes, s.start = t.start ∧ s.stop = min (n : Int) t.stop := by
  obtain ⟨t, ht, heq⟩ := List.mem_filterMap.mp hs
  split at heq
  · obtain rfl := Option.some.inj heq
    exact ⟨t, ht, rfl, rfl⟩
  · cases heq

/-- A line is cut off at some column, or left as it is. -/
theorem exists_cutTo_eq (width : Nat) (p : Painted) :
    ∃ n ≤ p.text.length, p.cutTo width = p.take n ∨ p.cutTo width = p := by
  rw [cutTo]
  split
  · exact ⟨0, Nat.zero_le _, .inr rfl⟩
  · exact ⟨_, Nat.sub_le _ _, .inl rfl⟩

/-- **Surplus blanks are cut off** with their cells. -/
theorem cells_cutTo (width : Nat) (p : Painted) :
    (p.cutTo width).cells = cropped width p.cells := by
  rw [cropped, map_snd_cells, length_cells, cutTo]
  split
  · rename_i hnone
    rw [hnone, Nat.sub_zero, List.take_of_length_le (Nat.le_of_eq p.length_cells)]
  · exact cells_take p _

/-- Strokes do not reach over the end of a line that was cut off. -/
theorem Bounded.cutTo {p : Painted} (h : p.Bounded) (width : Nat) : (p.cutTo width).Bounded := by
  obtain ⟨n, hn, heq | heq⟩ := exists_cutTo_eq width p
  · rw [heq]
    exact h.take hn
  · rw [heq]
    exact h

/-- Strokes stay on a line that was cut off. -/
theorem Inside.cutTo {p : Painted} (h : p.Inside) (width : Nat) : (p.cutTo width).Inside := by
  intro s hs
  refine ⟨?_, h.bounded.cutTo width s hs⟩
  obtain ⟨n, hn, heq | heq⟩ := exists_cutTo_eq width p
  · rw [heq] at hs
    obtain ⟨t, ht, hstart, -⟩ := exists_of_mem_take hs
    rw [hstart]
    exact (h t ht).1
  · rw [heq] at hs
    exact (h s hs).1

end Painted

end SandboxProfile
