import Mathlib.Data.List.Basic
import Mathlib.Data.Prod.Lex
import SandboxProfile.Proofs.Report.Semantic

/-!
# Reading any spans back

The semantic token report can be read back for every list of spans, in whatever order, wherever
they stand and whatever they are. What is read are the spans with a label in the legend in their
*stable order*: by line and first column, and as they came where these are the same.

A stable order is told by its properties: two lists that are sorted by a key and have the same
members at each key, in the same order, are the same list. The report drops spans after sorting;
dropping them before gives a stable order of the same spans, so they leave no trace in the
distances.

## Main definitions

* `Report.StableOrder` says that a list is another one in stable order.
* `Report.placed` is the place, the length and the type of a span.

## Main results

* `eq_of_filter_key_eq` — a sorted list is told by its members at each key.
* `Report.StableOrder.unique` — there is one stable order.
* `Report.stableOrder_mergeSort` — sorting gives it.
* `Report.decode_encode_stableOrder` — what is read back.
-/

namespace SandboxProfile

/-! ### Sorted lists -/

/-- Lists with the same members at each key have the same members. -/
theorem mem_iff_of_filter_key_eq {α κ : Type} [DecidableEq κ] {key : α → κ} {as bs : List α}
    (h : ∀ k, as.filter (key · = k) = bs.filter (key · = k)) (a : α) : a ∈ as ↔ a ∈ bs := by
  have hkey : a ∈ as.filter (key · = key a) ↔ a ∈ bs.filter (key · = key a) := by
    rw [h (key a)]
  simpa using hkey

/-- **A sorted list is told by its members at each key**, in their order. -/
theorem eq_of_filter_key_eq {α κ : Type} [LinearOrder κ] (key : α → κ) {as bs : List α}
    (has : as.Pairwise fun a b => key a ≤ key b) (hbs : bs.Pairwise fun a b => key a ≤ key b)
    (h : ∀ k, as.filter (key · = k) = bs.filter (key · = k)) : as = bs := by
  induction as generalizing bs with
  | nil =>
      refine (List.eq_nil_iff_forall_not_mem.mpr fun b hb => ?_).symm
      cases (mem_iff_of_filter_key_eq h b).mpr hb
  | cons a as ih =>
      cases bs with
      | nil => cases (mem_iff_of_filter_key_eq h a).mp List.mem_cons_self
      | cons b bs =>
          -- Both first members have the smallest key, so they are the first ones at that key.
          have hle {c d : α} {l : List α} (hl : (c :: l).Pairwise fun a b => key a ≤ key b)
              (hd : d ∈ c :: l) : key c ≤ key d := by
            rcases List.mem_cons.mp hd with rfl | hd
            · exact le_rfl
            · exact List.rel_of_pairwise_cons hl hd
          have hkey : key b = key a :=
            le_antisymm (hle hbs ((mem_iff_of_filter_key_eq h a).mp List.mem_cons_self))
              (hle has ((mem_iff_of_filter_key_eq h b).mpr List.mem_cons_self))
          obtain rfl : a = b := by
            have hfirst := h (key a)
            rw [List.filter_cons_of_pos (by simp), List.filter_cons_of_pos (by simp [hkey])]
              at hfirst
            exact (List.cons.inj hfirst).1
          refine congrArg (a :: ·) (ih has.tail hbs.tail fun k => ?_)
          have hk := h k
          rw [List.filter_cons, List.filter_cons] at hk
          split at hk
          · exact (List.cons.inj hk).2
          · exact hk

namespace Report

/-! ### Stable order -/

/-- The first span does not stand behind the second. -/
def NotBehind (p q : Span) : Prop :=
  p.line < q.line ∨ (p.line = q.line ∧ p.start ≤ q.start)

/-- Does the span begin at the line and the column? -/
def beginsAt (line start : Int) (p : Span) : Bool :=
  p.line = line ∧ p.start = start

/-- The second list holds the spans of the first by line and first column, those at one place as
they come in the first. -/
structure StableOrder (ps qs : List Span) : Prop where
  /-- It holds the same spans, each as many times. -/
  perm : qs.Perm ps
  /-- They stand by line and first column. -/
  sorted : qs.Pairwise NotBehind
  /-- Those at one place stand as they came. -/
  stable : ∀ line start, qs.filter (beginsAt line start) = ps.filter (beginsAt line start)

/-- The place of a span, as it is compared. -/
def startPlace (p : Span) : ℤ ×ₗ ℤ :=
  toLex (p.line, p.start)

theorem startPlace_le_iff {p q : Span} : startPlace p ≤ startPlace q ↔ NotBehind p q :=
  Prod.Lex.toLex_le_toLex

theorem comesBefore_iff {p q : Span} :
    comesBefore p q = true ↔ startPlace p ≤ startPlace q := by
  rw [startPlace_le_iff, NotBehind, comesBefore]
  simp

/-- Spans at one place begin at its line and column. -/
theorem filter_startPlace (ps : List Span) (line start : Int) :
    (ps.filter fun p => startPlace p = toLex (line, start)) = ps.filter (beginsAt line start) := by
  refine List.filter_congr fun p _ => ?_
  simp [startPlace, beginsAt]

/-- **There is one stable order.** -/
theorem StableOrder.unique {ps qs qs' : List Span} (h : StableOrder ps qs)
    (h' : StableOrder ps qs') : qs = qs' := by
  refine eq_of_filter_key_eq startPlace (h.sorted.imp startPlace_le_iff.mpr)
    (h'.sorted.imp startPlace_le_iff.mpr) fun place => ?_
  obtain ⟨⟨line, start⟩, rfl⟩ := toLex.surjective place
  rw [filter_startPlace, filter_startPlace, h.stable, h'.stable]

/-- **Sorting gives the stable order.** -/
theorem stableOrder_mergeSort (ps : List Span) : StableOrder ps (ps.mergeSort comesBefore) := by
  have htrans (p q r : Span) (hpq : comesBefore p q = true) (hqr : comesBefore q r = true) :
      comesBefore p r = true :=
    comesBefore_iff.mpr (le_trans (comesBefore_iff.mp hpq) (comesBefore_iff.mp hqr))
  have htotal (p q : Span) : (comesBefore p q || comesBefore q p) = true := by
    rw [Bool.or_eq_true, comesBefore_iff, comesBefore_iff]
    exact le_total _ _
  have hperm := List.mergeSort_perm ps comesBefore
  refine ⟨hperm, (List.pairwise_mergeSort htrans htotal ps).imp fun h => ?_, fun line start => ?_⟩
  · exact startPlace_le_iff.mp (comesBefore_iff.mp h)
  · -- The spans at one place are in order already, so they stay a part of the sorted list.
    have hpair : (ps.filter (beginsAt line start)).Pairwise fun p q => comesBefore p q = true := by
      refine List.pairwise_of_forall_mem_list fun p hp q hq => ?_
      obtain ⟨hpline, hpstart⟩ := of_decide_eq_true (List.mem_filter.mp hp).2
      obtain ⟨hqline, hqstart⟩ := of_decide_eq_true (List.mem_filter.mp hq).2
      exact comesBefore_iff.mpr (startPlace_le_iff.mpr (.inr ⟨by omega, by omega⟩))
    have hsub := (List.sublist_mergeSort htrans htotal hpair List.filter_sublist).filter
      (beginsAt line start)
    rw [List.filter_filter] at hsub
    simp only [Bool.and_self] at hsub
    exact (hsub.eq_of_length (hperm.filter _).length_eq.symm).symm

theorem StableOrder.filter {ps qs : List Span} (h : StableOrder ps qs) (keep : Span → Bool) :
    StableOrder (ps.filter keep) (qs.filter keep) := by
  refine ⟨h.perm.filter keep, h.sorted.sublist List.filter_sublist, fun line start => ?_⟩
  rw [List.filter_comm, h.stable, List.filter_comm keep]

/-! ### What is read back -/

/-- The label of the span has a type. -/
def InLegend (p : Span) : Prop :=
  p.label ∈ tokenTypes

instance (p : Span) : Decidable (InLegend p) :=
  inferInstanceAs (Decidable (p.label ∈ tokenTypes))

/-- The place, the length and the type of a span. -/
def placed (p : Span) : Placed :=
  ⟨p.line, p.start, p.stop - p.start, tokenTypes.idxOf p.label⟩

/-- A span has a place in the report if its label has a type. -/
theorem place?_eq (p : Span) : place? p = if InLegend p then some (placed p) else none := by
  rw [place?, typeIndex?]
  split
  · rename_i hlabel
    have hindex : tokenTypes.findIdx? (· = p.label) = some (tokenTypes.idxOf p.label) :=
      List.findIdx?_eq_some_iff_findIdx_eq.mpr ⟨List.idxOf_lt_length_iff.mpr hlabel, rfl⟩
    rw [hindex, Option.map_some]
    rfl
  · rename_i hlabel
    have hindex : tokenTypes.findIdx? (· = p.label) = none := by
      refine List.findIdx?_eq_none_iff.mpr fun name hname => decide_eq_false ?_
      rintro rfl
      exact hlabel hname
    rw [hindex, Option.map_none]

theorem filterMap_place? (ps : List Span) :
    ps.filterMap place? = (ps.filter InLegend).map placed := by
  rw [← List.filterMap_eq_map, List.filterMap_filter]
  exact List.filterMap_congr fun p _ => by simp [place?_eq]

/-- Each span takes five integers. -/
theorem length_encodeFrom (line start : Int) (ps : List Placed) :
    (encodeFrom line start ps).length = 5 * ps.length := by
  induction ps generalizing line start with
  | nil => rfl
  | cons p rest ih =>
      simp only [encodeFrom, List.length_cons, ih]
      omega

/-- The report shows the spans with a type in stable order. -/
theorem placedSpans_eq_map {spans qs : List Span}
    (h : StableOrder (spans.filter InLegend) qs) : placedSpans spans = qs.map placed := by
  have hfilter := (stableOrder_mergeSort spans).filter InLegend
  rw [placedSpans, filterMap_place?, h.unique hfilter]

/-- **Every list of spans can be read back** as its spans with a type, in their stable order: none
of them is lost or read twice, and the others leave no trace. -/
theorem decode_encode_stableOrder (spans : List Span) :
    ∃ qs, (∀ qs', StableOrder (spans.filter InLegend) qs' ↔ qs' = qs) ∧
      decode (encode spans) = qs.map placed ∧
      (encode spans).length = 5 * qs.length ∧
      encode spans = encode (spans.filter InLegend) := by
  obtain ⟨qs, horder⟩ : ∃ qs, StableOrder (spans.filter InLegend) qs :=
    ⟨_, stableOrder_mergeSort _⟩
  have hplaced := placedSpans_eq_map horder
  refine ⟨qs, fun qs' => ⟨fun h => h.unique horder, ?_⟩, ?_, ?_, ?_⟩
  · rintro rfl
    exact horder
  · rw [decode_encode, hplaced]
  · rw [encode, length_encodeFrom, hplaced, List.length_map]
  · have htwice : (spans.filter InLegend).filter InLegend = spans.filter InLegend := by simp
    rw [encode, encode, hplaced, placedSpans_eq_map (htwice.symm ▸ horder)]

end Report

end SandboxProfile
