import Mathlib.Data.List.Basic
import SandboxProfile.Terminal.Drawing

/-!
# The pieces of a painted line

A painted line is printed in pieces between neighbouring borders, which are the ends of its
strokes together with the ends of the line. No stroke begins or ends inside of a piece, so each
character of a piece has the style of the strokes that lie on its own column; and the pieces
follow one another without a gap. So a line comes out as it was, character by character.

Borders below zero make more pieces, before those of the line. A column below zero counts from the
end of the text, so these pieces repeat a part of it.

## Main definitions

* `pieceCells` are the characters of pieces, each with its style.
* `Painted.cells` are the characters of a painted line, each with the style on its column.
* `Painted.Bounded` and `Painted.Inside` say where strokes may lie.
* `Painted.NoRepeat` says that nothing is repeated.

## Main results

* `Painted.Inside.pieceCells_pieces` — the pieces of a line show its characters with their styles.
* `Painted.Bounded.text_pieces_eq_text_iff` — when the pieces show the text of the line and no more.
-/

namespace SandboxProfile

/-- A character in its style. -/
abbrev Cell := Style × Char

/-- The characters of pieces, each in the style of its piece. -/
def pieceCells (pieces : List (Style × Text)) : List Cell :=
  pieces.flatMap fun piece => piece.2.map fun c => (piece.1, c)

@[simp] theorem pieceCells_append (pieces more : List (Style × Text)) :
    pieceCells (pieces ++ more) = pieceCells pieces ++ pieceCells more :=
  List.flatMap_append

namespace Painted

variable {p : Painted}

/-- The characters of a painted line, each with the style on its column. -/
def cells (p : Painted) : List Cell :=
  p.text.mapIdx fun i c => (styleAt p.strokes i, c)

@[simp] theorem length_cells (p : Painted) : p.cells.length = p.text.length :=
  List.length_mapIdx

@[simp] theorem map_snd_cells (p : Painted) : p.cells.map Prod.snd = p.text := by
  refine List.ext_getElem? fun i => ?_
  rw [cells, List.getElem?_map, List.getElem?_mapIdx, Option.map_map]
  exact Option.map_id_apply

/-- The strokes of a line are not empty and do not reach over its end. -/
def Bounded (p : Painted) : Prop :=
  ∀ s ∈ p.strokes, s.start < s.stop ∧ s.stop ≤ p.text.length

/-- The strokes of a line lie on its columns. -/
def Inside (p : Painted) : Prop :=
  ∀ s ∈ p.strokes, 0 ≤ s.start ∧ s.start < s.stop ∧ s.stop ≤ p.text.length

/-- Strokes that lie on the columns do not reach over the end. -/
theorem Inside.bounded (h : p.Inside) : p.Bounded :=
  fun s hs => (h s hs).2

/-- The columns at which strokes begin or end. -/
def strokeEnds (p : Painted) : List Int :=
  p.strokes.flatMap fun s => [s.start, s.stop]

theorem mem_strokeEnds {e : Int} : e ∈ p.strokeEnds ↔ ∃ s ∈ p.strokes, e = s.start ∨ e = s.stop := by
  simp [strokeEnds]

/-! ### Borders -/

theorem mem_borders {e : Int} : e ∈ borders p ↔ e = 0 ∨ e = p.text.length ∨ e ∈ p.strokeEnds := by
  rw [borders, List.mem_mergeSort, List.mem_cons, List.mem_cons, strokeEnds]

/-- Borders are in rising order. -/
theorem pairwise_borders (p : Painted) : (borders p).Pairwise (· ≤ ·) := by
  have htrans (a b c : Int) (hab : decide (a ≤ b) = true) (hbc : decide (b ≤ c) = true) :
      decide (a ≤ c) = true :=
    decide_eq_true (Int.le_trans (of_decide_eq_true hab) (of_decide_eq_true hbc))
  have htotal (a b : Int) : (decide (a ≤ b) || decide (b ≤ a)) = true := by
    rw [Bool.or_eq_true, decide_eq_true_eq, decide_eq_true_eq]
    exact Int.le_total a b
  exact (List.pairwise_mergeSort htrans htotal _).imp fun h => of_decide_eq_true h

/-- The borders of a line come after those before it. -/
theorem exists_borders_eq (p : Painted) : ∃ before rest,
    borders p = before ++ 0 :: rest ∧ (∀ e ∈ before, e < 0) ∧ ∀ e ∈ rest, 0 ≤ e := by
  have hzero : (0 : Int) ∈ borders p := mem_borders.mpr (.inl rfl)
  obtain ⟨before, rest, hborders, hfirst⟩ := List.eq_append_cons_of_mem hzero
  have hsorted := pairwise_borders p
  rw [hborders] at hsorted
  obtain ⟨-, hrest, hcross⟩ := List.pairwise_append.mp hsorted
  refine ⟨before, rest, hborders, fun e he => ?_, (List.pairwise_cons.mp hrest).1⟩
  have hle := hcross e he 0 List.mem_cons_self
  have hne : e ≠ 0 := fun h => hfirst (h ▸ he)
  omega

/-- Cutting a list of borders at one of them cuts the pieces. -/
theorem piecesBetween_append (p : Painted) (before : List Int) (e : Int) (rest : List Int) :
    piecesBetween p (before ++ e :: rest) =
      piecesBetween p (before ++ [e]) ++ piecesBetween p (e :: rest) := by
  induction before with
  | nil => rfl
  | cons a before ih =>
      cases before with
      | nil =>
          rw [List.nil_append] at ih
          simp only [List.cons_append, List.nil_append, piecesBetween]
          split <;> rfl
      | cons b before =>
          simp only [List.cons_append, piecesBetween] at ih ⊢
          rw [ih]
          split <;> rfl

/-! ### The pieces of the line -/

/-- Strokes that begin and end elsewhere leave the style as it is. -/
theorem styleAt_eq_of_no_end {strokes : List Stroke} {a b : Int} (hab : a ≤ b)
    (h : ∀ s ∈ strokes, (s.start ≤ a ∨ b < s.start) ∧ (s.stop ≤ a ∨ b < s.stop)) :
    styleAt strokes b = styleAt strokes a := by
  rw [styleAt, styleAt]
  refine congrArg (List.foldl _ _) (List.filter_congr fun s hs => ?_)
  obtain ⟨hstart, hstop⟩ := h s hs
  rw [Bool.eq_iff_iff, Bool.and_eq_true, Bool.and_eq_true]
  simp only [decide_eq_true_eq]
  omega

/-- A part of a text from one column of the line to another. -/
theorem slice_of_nonneg {text : Text} {a b : Nat} :
    slice text a b = (text.take b).drop a := by
  have hcolumn (n : Nat) : (column text.length n).toNat = n := by
    rw [column, if_neg (by omega), Int.toNat_natCast]
  simp only [slice, hcolumn]

/-- Neighbouring parts of a list are one part. -/
theorem drop_take_append_drop_take {α : Type} (l : List α) {a b c : Nat} (hab : a ≤ b)
    (hbc : b ≤ c) : (l.take b).drop a ++ (l.take c).drop b = (l.take c).drop a := by
  refine List.ext_getElem? fun i => ?_
  by_cases hi : i < ((l.take b).drop a).length
  · rw [List.getElem?_append_left hi]
    rw [List.length_drop, List.length_take] at hi
    rw [List.getElem?_drop, List.getElem?_drop, List.getElem?_take, List.getElem?_take,
      if_pos (by omega), if_pos (by omega)]
  · rw [List.getElem?_append_right (by omega)]
    rw [List.length_drop, List.length_take] at hi ⊢
    rw [List.getElem?_drop, List.getElem?_drop]
    by_cases hb : b ≤ l.length
    · rw [Nat.min_eq_left hb]
      congr 1
      omega
    · rw [List.getElem?_eq_none, List.getElem?_eq_none]
      all_goals
        rw [List.length_take]
        omega

/-- A piece between neighbouring borders has the cells of its columns. -/
theorem map_slice_eq {a b : Nat}
    (h : ∀ s ∈ p.strokes, (s.start ≤ a ∨ b ≤ s.start) ∧ (s.stop ≤ a ∨ b ≤ s.stop)) :
    (slice p.text a b).map (fun c => (styleAt p.strokes a, c)) = (p.cells.take b).drop a := by
  rw [slice_of_nonneg]
  refine List.ext_getElem? fun i => ?_
  rw [List.getElem?_map, List.getElem?_drop, List.getElem?_drop, List.getElem?_take,
    List.getElem?_take]
  split
  · rename_i hi
    rw [cells, List.getElem?_mapIdx]
    have hstyle : styleAt p.strokes (a + i : Nat) = styleAt p.strokes a :=
      styleAt_eq_of_no_end (by omega) fun s hs => by
        obtain ⟨hstart, hstop⟩ := h s hs
        omega
    rw [hstyle]
  · rfl

/-- The pieces between borders of the line have the cells of their columns. -/
theorem pieceCells_piecesBetween {es : List Int} {a last : Nat}
    (hsorted : ((a : Int) :: es).Pairwise (· ≤ ·)) (hlast : ((a : Int) :: es).getLast? = some last)
    (hends : ∀ e ∈ p.strokeEnds, e ≤ a ∨ e ∈ es) :
    pieceCells (piecesBetween p (a :: es)) = (p.cells.take last).drop a := by
  induction es generalizing a with
  | nil =>
      obtain rfl : a = last := Int.ofNat_inj.mp (Option.some.inj hlast)
      rw [List.drop_take_self]
      rfl
  | cons b es ih =>
      obtain ⟨hle, hrest⟩ := List.pairwise_cons.mp hsorted
      have hab := hle b List.mem_cons_self
      obtain ⟨b, rfl⟩ := Int.eq_ofNat_of_zero_le (a := b) (by omega)
      rw [List.getLast?_cons_cons] at hlast
      have hlater (e : Int) (he : e ∈ (b : Int) :: es) : (b : Int) ≤ e := by
        rcases List.mem_cons.mp he with rfl | he
        · exact Int.le_refl _
        · exact (List.pairwise_cons.mp hrest).1 e he
      have hrec := ih hrest hlast fun e he => by
        rcases hends e he with h | h
        · exact .inl (by omega)
        · rcases List.mem_cons.mp h with rfl | h
          · exact .inl (Int.le_refl _)
          · exact .inr h
      have hbl : b ≤ last := Int.ofNat_le.mp (hlater _ (List.mem_of_getLast? hlast))
      rw [piecesBetween]
      split
      · -- no stroke begins or ends inside of this piece, for borders are in order
        have hpiece := map_slice_eq (p := p) (a := a) (b := b) fun s hs => by
          have hside (e : Int) (he : e ∈ p.strokeEnds) : e ≤ a ∨ (b : Int) ≤ e :=
            (hends e he).imp_right (hlater e)
          exact ⟨hside _ (mem_strokeEnds.mpr ⟨s, hs, .inl rfl⟩),
            hside _ (mem_strokeEnds.mpr ⟨s, hs, .inr rfl⟩)⟩
        have hcons : pieceCells ((styleAt p.strokes a, slice p.text a b) ::
            piecesBetween p (b :: es)) =
            (slice p.text a b).map (fun c => (styleAt p.strokes a, c)) ++
              pieceCells (piecesBetween p (b :: es)) := rfl
        rw [hcons, hpiece, hrec, drop_take_append_drop_take _ (by omega) hbl]
      · obtain rfl : a = b := by omega
        exact hrec

/-- The last border is the end of the line. -/
theorem Bounded.getLast?_borders (h : p.Bounded) {before rest : List Int}
    (hborders : borders p = before ++ 0 :: rest) :
    ((0 : Int) :: rest).getLast? = some (p.text.length : Int) := by
  have hsorted := pairwise_borders p
  have hlength : (p.text.length : Int) ∈ borders p := mem_borders.mpr (.inr (.inl rfl))
  have hle (e : Int) (he : e ∈ borders p) : e ≤ p.text.length := by
    rcases mem_borders.mp he with rfl | rfl | he
    · omega
    · omega
    · obtain ⟨s, hs, rfl | rfl⟩ := mem_strokeEnds.mp he
      all_goals
        have := h s hs
        omega
  obtain ⟨e, he⟩ : ∃ e, ((0 : Int) :: rest).getLast? = some e :=
    ⟨_, List.getLast?_eq_some_getLast (List.cons_ne_nil 0 rest)⟩
  rw [he]
  have hall : (borders p).getLast? = some e := by
    rw [hborders, List.getLast?_append, he]
    rfl
  have hmem := List.mem_of_getLast? hall
  obtain ⟨front, hfront⟩ := List.getLast?_eq_some_iff.mp hall
  rw [hfront] at hsorted hlength
  have hge : (p.text.length : Int) ≤ e := by
    rcases List.mem_append.mp hlength with hl | hl
    · exact (List.pairwise_append.mp hsorted).2.2 _ hl e (List.mem_singleton.mpr rfl)
    · exact Int.le_of_eq (List.mem_singleton.mp hl)
  rw [Int.le_antisymm (hle e hmem) hge]

/-- The pieces from the first column on have the cells of the line. -/
theorem Bounded.pieceCells_line (h : p.Bounded) {before rest : List Int}
    (hborders : borders p = before ++ 0 :: rest) (hbefore : ∀ e ∈ before, e < 0) :
    pieceCells (piecesBetween p (0 :: rest)) = p.cells := by
  have hsorted := pairwise_borders p
  rw [hborders] at hsorted
  have hends (e : Int) (he : e ∈ p.strokeEnds) : e ≤ (0 : Nat) ∨ e ∈ rest := by
    have hmem : e ∈ borders p := mem_borders.mpr (.inr (.inr he))
    rw [hborders] at hmem
    rcases List.mem_append.mp hmem with he | he
    · exact .inl (Int.le_of_lt (hbefore e he))
    · rcases List.mem_cons.mp he with rfl | he
      · exact .inl (Int.le_refl _)
      · exact .inr he
  have hcells := pieceCells_piecesBetween (a := 0) (List.pairwise_append.mp hsorted).2.1
    (h.getLast?_borders hborders) hends
  rw [List.drop_zero, List.take_of_length_le (Nat.le_of_eq p.length_cells)] at hcells
  exact hcells

/-- **The pieces of a line show its characters with their styles.** -/
theorem Inside.pieceCells_pieces (h : p.Inside) : pieceCells (pieces p) = p.cells := by
  obtain ⟨before, rest, hborders, hbefore, -⟩ := exists_borders_eq p
  have hnone : before = [] := by
    refine List.eq_nil_iff_forall_not_mem.mpr fun e he => ?_
    have hneg := hbefore e he
    have hmem : e ∈ borders p := hborders ▸ List.mem_append_left _ he
    rcases mem_borders.mp hmem with rfl | rfl | hend
    · omega
    · omega
    · obtain ⟨s, hs, rfl | rfl⟩ := mem_strokeEnds.mp hend
      all_goals
        have := h s hs
        omega
  rw [pieces, hborders, hnone]
  exact h.bounded.pieceCells_line (hnone ▸ hborders) (List.forall_mem_nil _)

/-! ### Pieces before the line -/

/-- No two ends of strokes before the line have characters between them, when columns are counted
from the end of the text. -/
def NoRepeat (p : Painted) : Prop :=
  ∀ a ∈ p.strokeEnds, ∀ b ∈ p.strokeEnds, a < b → b < 0 → b + p.text.length ≤ 0

/-- A part of a text between columns below zero is empty if it ends before the text. -/
theorem slice_eq_nil_iff_of_neg {text : Text} {a b : Int} (hab : a < b) (hb : b < 0) :
    slice text a b = [] ↔ b + text.length ≤ 0 := by
  have hcolumn {c : Int} (hc : c < 0) : column text.length c = text.length + c := by
    rw [column, if_pos hc]
  simp only [slice, hcolumn hb, hcolumn (Int.lt_trans hab hb)]
  rw [List.drop_eq_nil_iff, List.length_take]
  omega

theorem slice_zero (text : Text) (a : Int) : slice text a 0 = [] := by
  have hzero : (column text.length 0).toNat = 0 := rfl
  simp only [slice, hzero, List.take_zero, List.drop_nil]

/-- The pieces before the line are empty if nothing lies between two borders there. -/
theorem text_piecesBetween_eq_nil_iff {before : List Int} (hsorted : before.Pairwise (· ≤ ·))
    (hneg : ∀ e ∈ before, e < 0) :
    (piecesBetween p (before ++ [0])).flatMap Prod.snd = [] ↔
      ∀ a ∈ before, ∀ b ∈ before, a < b → b + p.text.length ≤ 0 := by
  induction before with
  | nil => exact iff_of_true rfl (List.forall_mem_nil _)
  | cons a before ih =>
      obtain ⟨hle, hrest⟩ := List.pairwise_cons.mp hsorted
      obtain ⟨ha, hneg⟩ := List.forall_mem_cons.mp hneg
      have ih := ih hrest hneg
      cases before with
      | nil =>
          simp only [List.cons_append, List.nil_append, piecesBetween]
          rw [if_pos ha, List.flatMap_cons, slice_zero]
          refine iff_of_true rfl fun x hx y hy hxy => ?_
          rw [List.mem_singleton.mp hx, List.mem_singleton.mp hy] at hxy
          omega
      | cons b before =>
          have hab := hle b List.mem_cons_self
          have hb := hneg b List.mem_cons_self
          have hlater (e : Int) (he : e ∈ b :: before) : b ≤ e := by
            rcases List.mem_cons.mp he with rfl | he
            · exact Int.le_refl _
            · exact (List.pairwise_cons.mp hrest).1 e he
          -- the first border has something behind it exactly if the second has, or is the same
          have hfirst : (if a < b then slice p.text a b else []) = [] ↔
              (a < b → b + p.text.length ≤ 0) := by
            split
            · rename_i hlt
              rw [slice_eq_nil_iff_of_neg hlt hb]
              exact ⟨fun h _ => h, fun h => h hlt⟩
            · rename_i hge
              exact iff_of_true rfl fun hlt => absurd hlt hge
          have hsplit : (piecesBetween p (a :: (b :: before) ++ [0])).flatMap Prod.snd =
              (if a < b then slice p.text a b else []) ++
                (piecesBetween p ((b :: before) ++ [0])).flatMap Prod.snd := by
            simp only [List.cons_append, piecesBetween]
            split <;> rfl
          rw [hsplit, List.append_eq_nil_iff, hfirst, ih]
          constructor
          · rintro ⟨hpiece, hall⟩ x hx y hy hxy
            rcases List.mem_cons.mp hx with rfl | hx' <;> rcases List.mem_cons.mp hy with rfl | hy'
            · omega
            · by_cases hby : b < y
              · exact hall b List.mem_cons_self y hy' hby
              · have := hlater y hy'
                obtain rfl : b = y := by omega
                exact hpiece hxy
            · have := hle x hx'
              omega
            · exact hall x hx' y hy' hxy
          · intro hall
            exact ⟨hall a List.mem_cons_self b (List.mem_cons_of_mem _ List.mem_cons_self),
              fun x hx y hy => hall x (List.mem_cons_of_mem _ hx) y (List.mem_cons_of_mem _ hy)⟩

/-- The characters of the pieces are those of their cells. -/
theorem map_snd_pieceCells (pieces : List (Style × Text)) :
    (pieceCells pieces).map Prod.snd = pieces.flatMap Prod.snd := by
  rw [pieceCells, List.map_flatMap]
  refine List.flatMap_congr fun piece _ => ?_
  rw [List.map_map]
  exact List.map_id _

/-- The text of a line comes out, behind what the pieces before the line repeat of it. -/
theorem Bounded.exists_text_pieces (h : p.Bounded) : ∃ repeated,
    (pieces p).flatMap Prod.snd = repeated ++ p.text ∧ (repeated = [] ↔ p.NoRepeat) := by
  obtain ⟨before, rest, hborders, hbefore, hrest⟩ := exists_borders_eq p
  have hsorted := pairwise_borders p
  rw [hborders] at hsorted
  refine ⟨(piecesBetween p (before ++ [0])).flatMap Prod.snd, ?_, ?_⟩
  · rw [pieces, hborders, piecesBetween_append, List.flatMap_append,
      ← map_snd_pieceCells (piecesBetween p (0 :: rest)),
      h.pieceCells_line hborders hbefore, map_snd_cells]
  · rw [text_piecesBetween_eq_nil_iff (List.pairwise_append.mp hsorted).1 hbefore]
    have hmem (e : Int) (he : e < 0) : e ∈ before ↔ e ∈ p.strokeEnds := by
      have hiff : e ∈ borders p ↔ e ∈ p.strokeEnds := by
        rw [mem_borders]
        refine ⟨fun h => ?_, fun h => .inr (.inr h)⟩
        rcases h with rfl | rfl | h
        · omega
        · omega
        · exact h
      rw [← hiff, hborders, List.mem_append]
      refine ⟨.inl, fun h => h.resolve_right fun h => ?_⟩
      rcases List.mem_cons.mp h with rfl | h
      · omega
      · have := hrest e h
        omega
    constructor
    · exact fun hall a ha b hb hab hneg =>
        hall a ((hmem a (by omega)).mpr ha) b ((hmem b hneg).mpr hb) hab
    · exact fun hall a ha b hb hab => hall a ((hmem a (hbefore a ha)).mp ha) b
        ((hmem b (hbefore b hb)).mp hb) hab (hbefore b hb)

/-- **The pieces show the text of the line and no more** if nothing is repeated. -/
theorem Bounded.text_pieces_eq_text_iff (h : p.Bounded) :
    (pieces p).flatMap Prod.snd = p.text ↔ p.NoRepeat := by
  obtain ⟨repeated, htext, hrepeated⟩ := h.exists_text_pieces
  rw [htext, ← hrepeated, List.append_left_eq_self]

end Painted

end SandboxProfile
