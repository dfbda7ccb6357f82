import SandboxProfile.Proofs.Highlight.Column

/-!
# What highlighting lists

The spans of a text are the longest stretches of columns with one mark, line by line and from
left to right. Together with the marks of the columns this leaves nothing open: two lists
with the same members that both stand in a strict order are the same.

## Main definitions

* `Span.Before` is the order in which spans are listed.
* `Span.Paints` says that a span is a longest stretch of one mark.

## Main results

* `mem_highlightLine` and `pairwise_highlightLine` — the spans of one line.
* `mem_highlightFrom` — the spans of lines are those of each line.
* `highlight_paints` — the spans of a text.
-/

namespace SandboxProfile

/-- The first span stands on an earlier line than the second, or ends on its line where the
second starts or before; spans that touch have different marks. -/
def Span.Before (p q : Span) : Prop :=
  p.line < q.line ∨
    (p.line = q.line ∧ p.stop ≤ q.start ∧ (p.stop = q.start → p.mark ≠ q.mark))

/-- The span is a longest stretch of columns with its mark, on a line of the text. -/
def Span.Paints (k : Catalog) (s : Text) (p : Span) : Prop :=
  ∃ (n a b : Nat) (l : Line), (splitLines s)[n]? = some l ∧ b ≤ l.body.length ∧
    MaximalRun (fun i => ColumnMark k l.body i p.mark) a b ∧ p = ⟨n + 1, a, b, p.mark⟩

/-! ### One line -/

/-- The computed mark of a column is the described one. -/
theorem keyAt_lineColumns (k : Catalog) {line : Text} (hfeed : '\n' ∉ line) {i : Nat} {m : Mark} :
    keyAt id (lineColumns k line) i = some m ↔ ColumnMark k line i m := by
  rw [← getElem?_lineColumns k hfeed, keyAt, Option.bind_eq_some_iff]
  simp

/-- The spans of a line are its longest stretches of columns with one mark. -/
theorem mem_highlightLine (k : Catalog) (number : Int) {line : Text} (hfeed : '\n' ∉ line)
    (p : Span) :
    p ∈ highlightLine k number line ↔
      ∃ a b : Nat, MaximalRun (fun i => ColumnMark k line i p.mark) a b ∧
        p = ⟨number, a, b, p.mark⟩ := by
  have hrun (m : Mark) (a b : Nat) :
      MaximalRun (fun i => keyAt id (lineColumns k line) i = some m) a b ↔
        MaximalRun (fun i => ColumnMark k line i m) a b :=
    maximalRun_congr fun _ => keyAt_lineColumns k hfeed
  constructor
  · intro h
    obtain ⟨r, hr, rfl⟩ := List.mem_map.mp h
    exact ⟨r.start, r.stop, (hrun r.key _ _).mp (maximalRun_of_mem_runsFrom hr), rfl⟩
  · rintro ⟨a, b, hmarked, hp⟩
    obtain ⟨r, hr, rfl, rfl, hmark⟩ :=
      exists_run_iff_maximalRun.mpr ((hrun p.mark a b).mpr hmarked)
    refine List.mem_map.mpr ⟨r, hr, ?_⟩
    rw [hp, spanOfRun, hmark]

/-- A column has a computed mark exactly if a span with the mark covers it. -/
theorem exists_mem_highlightLine_iff_keyAt (k : Catalog) (number : Int) (line : Text) {i : Nat}
    {m : Mark} :
    (∃ p ∈ highlightLine k number line, p.mark = m ∧ p.start ≤ i ∧ i < p.stop) ↔
      keyAt id (lineColumns k line) i = some m := by
  constructor
  · rintro ⟨p, hp, rfl, hstart, hstop⟩
    obtain ⟨r, hr, rfl⟩ := List.mem_map.mp hp
    exact keyAt_of_mem_runsFrom hr (Int.ofNat_le.mp hstart) (Int.ofNat_lt.mp hstop)
  · intro h
    obtain ⟨r, hr, rfl, hstart, hstop⟩ := exists_run_of_keyAt 0 h
    rw [Nat.zero_add] at hstart hstop
    exact ⟨spanOfRun number r, List.mem_map_of_mem hr, rfl, Int.ofNat_le.mpr hstart,
      Int.ofNat_lt.mpr hstop⟩

/-- A column has a mark exactly if a span with the mark covers it. -/
theorem exists_mem_highlightLine_iff (k : Catalog) (number : Int) {line : Text}
    (hfeed : '\n' ∉ line) {i : Nat} {m : Mark} :
    (∃ p ∈ highlightLine k number line, p.mark = m ∧ p.start ≤ i ∧ i < p.stop) ↔
      ColumnMark k line i m :=
  (exists_mem_highlightLine_iff_keyAt k number line).trans (keyAt_lineColumns k hfeed)

/-- The spans of a line stand in order. -/
theorem pairwise_highlightLine (k : Catalog) (number : Int) (line : Text) :
    (highlightLine k number line).Pairwise Span.Before := by
  refine List.pairwise_map.mpr ((pairwise_runsFrom id 0 _).imp fun {q r} h => ?_)
  refine .inr ⟨rfl, Int.ofNat_le.mpr h.1, fun htouch => h.2 ?_⟩
  exact Int.ofNat_inj.mp htouch

/-- The spans of a line bear its number. -/
theorem line_of_mem_highlightLine {k : Catalog} {number : Int} {line : Text} {p : Span}
    (h : p ∈ highlightLine k number line) : p.line = number := by
  obtain ⟨r, -, rfl⟩ := List.mem_map.mp h
  rfl

/-! ### All lines -/

/-- The spans of lines are those of each line. -/
theorem mem_highlightFrom (k : Catalog) (number : Nat) (ls : List Line) (p : Span) :
    p ∈ highlightFrom k number ls ↔
      ∃ n l, ls[n]? = some l ∧ p ∈ highlightLine k (number + n : Nat) l.body := by
  induction ls generalizing number with
  | nil => simp [highlightFrom]
  | cons l rest ih =>
      rw [highlightFrom, List.mem_append, ih (number + 1)]
      constructor
      · rintro (h | ⟨n, l', hn, h⟩)
        · exact ⟨0, l, rfl, h⟩
        · refine ⟨n + 1, l', hn, ?_⟩
          rwa [Nat.add_right_comm, Nat.add_assoc] at h
      · rintro ⟨n, l', hn, h⟩
        cases n with
        | zero =>
            obtain rfl : l = l' := Option.some.inj hn
            exact .inl h
        | succ n =>
            refine .inr ⟨n, l', hn, ?_⟩
            rwa [Nat.add_right_comm, Nat.add_assoc]

/-- The spans of lines stand in order. -/
theorem pairwise_highlightFrom (k : Catalog) (number : Nat) (ls : List Line) :
    (highlightFrom k number ls).Pairwise Span.Before := by
  induction ls generalizing number with
  | nil => exact List.Pairwise.nil
  | cons l rest ih =>
      refine List.pairwise_append.mpr
        ⟨pairwise_highlightLine k number l.body, ih (number + 1), fun p hp q hq => .inl ?_⟩
      obtain ⟨n, l', -, hq⟩ := (mem_highlightFrom k (number + 1) rest q).mp hq
      rw [line_of_mem_highlightLine hp, line_of_mem_highlightLine hq]
      omega

/-- The record of a line stands where the line does. -/
theorem getElem?_analyseFrom (k : Catalog) (offset : Int) (number : Nat) (ls : List Line)
    (i : Nat) :
    (analyseFrom k offset number ls)[i]? = ls[i]?.map fun l =>
      ⟨number + i, l.body, (tokenize true l.body).map k.classifyToken,
        indentFor offset l.body⟩ := by
  induction ls generalizing number i with
  | nil => rfl
  | cons l rest ih =>
      rw [analyseFrom]
      cases i with
      | zero => rfl
      | succ i =>
          have hnumber : number + 1 + i = number + (i + 1) := by omega
          rw [List.getElem?_cons_succ, ih, hnumber]
          rfl

/-- **Highlighting lists the longest stretches of columns with one mark**, line by line and
from left to right. -/
theorem highlight_paints (k : Catalog) (s : Text) :
    (highlight k s).Pairwise Span.Before ∧
      ∀ p, p ∈ highlight k s ↔ Span.Paints k s p := by
  refine ⟨pairwise_highlightFrom k 1 (splitLines s), fun p => ?_⟩
  rw [highlight, mem_highlightFrom]
  constructor
  · rintro ⟨n, l, hl, hp⟩
    have hfeed : '\n' ∉ l.body := feed_not_mem_of_mem_splitLines (List.mem_of_getElem? hl)
    obtain ⟨a, b, hrun, hp⟩ := (mem_highlightLine k _ hfeed p).mp hp
    refine ⟨n, a, b, l, hl, ?_, hrun, ?_⟩
    · have hlast := hrun.holds (b - 1) (by have := hrun.start_lt_stop; omega)
        (by have := hrun.start_lt_stop; omega)
      have hlt := hlast.lt_length
      omega
    · rw [hp, Nat.add_comm 1 n]
      rfl
  · rintro ⟨n, a, b, l, hl, -, hrun, hp⟩
    have hfeed : '\n' ∉ l.body := feed_not_mem_of_mem_splitLines (List.mem_of_getElem? hl)
    refine ⟨n, l, hl, (mem_highlightLine k _ hfeed p).mpr ⟨a, b, hrun, ?_⟩⟩
    rw [hp, Nat.add_comm 1 n]
    rfl

end SandboxProfile
