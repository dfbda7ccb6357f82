import SandboxProfile.Proofs.Highlight.Painting

/-!
# Highlighting behind other blanks

Blanks at the start of a line lie in no span, and all rules look at what stands around a
column and never at its number. So lines that differ in their first blanks only have the
same spans, moved by the difference.

## Main definitions

* `Span.shifted` is a span further to the right, or to the left.
* `blanksAt` is the number of blanks at the start of a line of a text.

## Main results

* `lineColumns_blank_append` — blanks at the start move the marks of a line.
* `highlightLine_of_trimStart` — lines that differ in their first blanks.
* `highlightFrom_of_trimStart` — texts whose lines differ in their first blanks.
-/

namespace SandboxProfile

/-- The span with both of its ends moved. -/
def Span.shifted (d : Int) (p : Span) : Span :=
  { p with start := p.start + d, stop := p.stop + d }

/-- The number of blanks at the start of a line, none where there is no line. -/
def blanksAt (ls : List Line) (i : Nat) : Nat :=
  match ls[i]? with
  | some l => (Text.blankPrefix l.body).length
  | none => 0

/-! ### One line -/

/-- Tokens and columns that are moved together have the same marks. -/
theorem tokenColumns_moved (k : Catalog) (d stop start : Nat) (ts : List Token) :
    tokenColumns k (stop + d) (start + d) (ts.map (Token.moved d)) =
      tokenColumns k stop start ts := by
  induction ts generalizing start with
  | nil =>
      rw [List.map_nil, tokenColumns, tokenColumns, Nat.add_sub_add_right]
  | cons t ts ih =>
      have hstop : (t.moved d).stop = t.stop + d := Nat.add_right_comm _ _ _
      have hstart : (t.moved d).start - (start + d) = t.start - start :=
        Nat.add_sub_add_right _ _ _
      rw [List.map_cons, tokenColumns, tokenColumns, hstop, hstart, ih]
      rfl

/-- Columns before moved tokens have no marks. -/
theorem tokenColumns_zero_moved (k : Catalog) (d stop : Nat) (ts : List Token) :
    tokenColumns k (stop + d) 0 (ts.map (Token.moved d)) =
      List.replicate d none ++ tokenColumns k stop 0 ts := by
  cases ts with
  | nil =>
      rw [List.map_nil, tokenColumns, tokenColumns, List.replicate_append_replicate, Nat.sub_zero,
        Nat.sub_zero, Nat.add_comm]
  | cons t ts =>
      have hstop : (t.moved d).stop = t.stop + d := Nat.add_right_comm _ _ _
      have hstart : (t.moved d).start - 0 = d + (t.start - 0) := Nat.add_comm _ _
      rw [List.map_cons, tokenColumns, tokenColumns, hstop, hstart, tokenColumns_moved,
        ← List.replicate_append_replicate, List.append_assoc, List.append_assoc,
        List.append_assoc]
      rfl

theorem lineColumns_blank_append (k : Catalog) {w : Text} (hw : ∀ c ∈ w, isBlank c = true)
    (s : Text) :
    lineColumns k (w ++ s) = List.replicate w.length none ++ lineColumns k s := by
  have htokens : tokenColumns k (w ++ s).length 0 (tokenize true (w ++ s)) =
      List.replicate w.length none ++ tokenColumns k s.length 0 (tokenize true s) := by
    rw [List.length_append, Nat.add_comm]
    exact (congrArg _ (allTokens_blank_append hw s)).trans
      (tokenColumns_zero_moved k w.length s.length _)
  rw [lineColumns, htokens, variableColumns_blank_append hw, pathColumns_blank_append hw,
    List.zip_append (by simp),
    List.zipWith_append (by simp), lineColumns]
  simp [columnMark_none]

theorem highlightLine_blank_append (k : Catalog) (number : Int) {w : Text}
    (hw : ∀ c ∈ w, isBlank c = true) (s : Text) :
    highlightLine k number (w ++ s) =
      (highlightLine k number s).map (Span.shifted w.length) := by
  have hnone : ∀ m ∈ List.replicate w.length (none : Option Mark), id m = none :=
    fun m hm => List.eq_of_mem_replicate hm
  rw [highlightLine, lineColumns_blank_append k hw, runsFrom_append_of_none hnone,
    List.length_replicate, runsFrom_add, List.map_map, highlightLine, List.map_map]
  refine List.map_congr_left fun r _ => ?_
  simp only [Function.comp_apply, spanOfRun, Span.shifted, Run.moved, Run.stop]
  congr 1
  omega

theorem Span.shifted_shifted (d e : Int) (p : Span) :
    (p.shifted d).shifted e = p.shifted (d + e) := by
  simp only [Span.shifted, Int.add_assoc]

/-- **Lines that differ in their first blanks** have the same spans, moved by the
difference. -/
theorem highlightLine_of_trimStart (k : Catalog) (number : Int) {s t : Text}
    (h : Text.trimStart t = Text.trimStart s) :
    highlightLine k number t =
      (highlightLine k number s).map
        (Span.shifted ((Text.blankPrefix t).length - (Text.blankPrefix s).length)) := by
  have hline (u : Text) : highlightLine k number u =
      (highlightLine k number (Text.trimStart u)).map
        (Span.shifted (Text.blankPrefix u).length) := by
    conv_lhs => rw [← Text.blankPrefix_append_trimStart u]
    exact highlightLine_blank_append k number (fun c => Text.isBlank_of_mem_blankPrefix) _
  rw [hline t, hline s, h, List.map_map]
  refine List.map_congr_left fun p _ => ?_
  rw [Function.comp_apply, Span.shifted_shifted]
  congr 1
  omega

/-! ### All lines -/

theorem blanksAt_cons_succ (l : Line) (ls : List Line) (i : Nat) :
    blanksAt (l :: ls) (i + 1) = blanksAt ls i := rfl

/-- The spans of lines are on these lines. -/
theorem number_le_of_mem_highlightFrom {k : Catalog} {number : Nat} {ls : List Line} {p : Span}
    (h : p ∈ highlightFrom k number ls) : (number : Int) ≤ p.line := by
  obtain ⟨n, l, -, hp⟩ := (mem_highlightFrom k number ls p).mp h
  rw [line_of_mem_highlightLine hp]
  omega

/-- **Texts whose lines differ in their first blanks** have the same spans, each moved by the
difference on its line. -/
theorem highlightFrom_of_trimStart (k : Catalog) (number : Nat) {ls ms : List Line}
    (h : List.Forall₂ (fun l m => Text.trimStart m.body = Text.trimStart l.body) ls ms) :
    highlightFrom k number ms =
      (highlightFrom k number ls).map fun p =>
        p.shifted (blanksAt ms (p.line - number).toNat - blanksAt ls (p.line - number).toNat) := by
  induction h generalizing number with
  | nil => rfl
  | @cons l m ls ms hlm hms ih =>
      rw [highlightFrom, highlightFrom, List.map_append, ih (number + 1),
        highlightLine_of_trimStart k number hlm]
      congr 1
      · refine List.map_congr_left fun p hp => ?_
        rw [line_of_mem_highlightLine hp, Int.sub_self]
        rfl
      · refine List.map_congr_left fun p hp => ?_
        have hle := number_le_of_mem_highlightFrom hp
        have hindex : (p.line - number).toNat = (p.line - (number + 1 : Nat)).toNat + 1 := by
          omega
        rw [hindex, blanksAt_cons_succ, blanksAt_cons_succ]

end SandboxProfile
