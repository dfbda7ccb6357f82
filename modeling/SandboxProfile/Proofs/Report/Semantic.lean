import SandboxProfile.Proofs.Highlight.Painting
import SandboxProfile.Proofs.Report.Reading

/-!
# The two reports agree

The span report lists all spans of a text, and the semantic token report shows the same spans
except those of plain words, as distances. What highlighting lists makes this work: the spans
stand in order, so sorting them changes nothing and no distance is negative; they do not overlap,
so on one line the distance to the next span is at least the length of this one; and each has a
label of the legend unless it is a plain word.

Distances are measured from the last span that is shown. So the order matters for the spans that
are left when plain words are dropped, not for neighbours in the list of all spans; it is
therefore stated for each two spans of the list.

## Main definitions

* `Report.TokenData` says when integers are tokens that do not overlap.
* `Report.TokensAgree` says that integers show the spans of a text.

## Main results

* `exists_of_mem_highlight` — where the spans of a text stand.
* `Report.tokenData_encodeFrom` — the integers for placed spans in order.
* `Report.reports_agree` — the two reports of profiles agree.
-/

namespace SandboxProfile

/-! ### The spans of a text -/

/-- A span of a text covers columns of the body of a line, and its mark is that of a column. -/
theorem exists_of_mem_highlight {k : Catalog} {s : Text} {p : Span} (h : p ∈ highlight k s) :
    ∃ (n : Nat) (l : Line), (splitLines s)[n]? = some l ∧ p.line = n + 1 ∧ 0 ≤ p.start ∧
      p.start < p.stop ∧ p.stop ≤ l.body.length ∧ ∃ i, ColumnMark k l.body i p.mark := by
  obtain ⟨n, l, hl, hp⟩ := (mem_highlightFrom k 1 (splitLines s) p).mp h
  have hfeed : '\n' ∉ l.body := feed_not_mem_of_mem_splitLines (List.mem_of_getElem? hl)
  have hline := line_of_mem_highlightLine hp
  obtain ⟨a, b, hrun, hspan⟩ := (mem_highlightLine k _ hfeed p).mp hp
  have hlt := hrun.start_lt_stop
  have hlast := hrun.holds (b - 1) (by omega) (by omega)
  have hlength := hlast.lt_length
  have hstart : p.start = a := by rw [hspan]
  have hstop : p.stop = b := by rw [hspan]
  exact ⟨n, l, hl, by omega, by omega, by omega, by omega, b - 1, hlast⟩

/-- The mark of a column has a name in the legend unless it is that of a plain word. -/
theorem typeIndex?_label_eq_none_iff {k : Catalog} {line : Text} {i : Nat} {m : Mark}
    (h : ColumnMark k line i m) : Report.typeIndex? m.label = none ↔ m.kind = .word := by
  cases h with
  | comment | envVar | path | word => decide
  | @keyword c => cases c <;> decide

namespace Report

/-! ### Placed spans -/

theorem getElem?_of_typeIndex? {label : String} {t : Nat} (h : typeIndex? label = some t) :
    tokenTypes[t]? = some label := by
  obtain ⟨ht, hlabel, -⟩ := List.findIdx?_eq_some_iff_getElem.mp h
  rw [List.getElem?_eq_getElem ht, of_decide_eq_true hlabel]

/-- The first placed span stands on an earlier line than the second, or ends before it. -/
def Placed.Before (p q : Placed) : Prop :=
  p.line < q.line ∨ (p.line = q.line ∧ p.start + p.length ≤ q.start)

/-- The placed span covers columns, and its type is in the legend. -/
structure Placed.WellFormed (p : Placed) : Prop where
  /-- Columns are counted from zero. -/
  start_nonneg : 0 ≤ p.start
  /-- There is at least one column. -/
  one_le_length : 1 ≤ p.length
  /-- The type is an index of the legend. -/
  type_lt : p.type < tokenTypes.length

/-- Integers are tokens: groups of a distance in lines, a distance in columns, a length, a type
below the given number and a zero. A token on the line of the one before it starts where that one
ends or later; the length of the one before the first is given. -/
inductive TokenData (types : Nat) : Option Int → List Int → Prop where
  /-- There may be no token at all. -/
  | nil {previous : Option Int} : TokenData types previous []
  /-- A token and those after it. -/
  | cons {previous : Option Int} {deltaLine deltaStart length type : Int} {rest : List Int} :
      0 ≤ deltaLine → 0 ≤ deltaStart → 1 ≤ length → 0 ≤ type → type < types →
      (deltaLine = 0 → ∀ n ∈ previous, n ≤ deltaStart) →
      TokenData types (some length) rest →
      TokenData types previous (deltaLine :: deltaStart :: length :: type :: 0 :: rest)

/-- **The integers for placed spans in order are tokens** that do not overlap. -/
theorem tokenData_encodeFrom {ps : List Placed} (horder : ps.Pairwise Placed.Before)
    (hps : ∀ p ∈ ps, p.WellFormed) (line start : Int) (previous : Option Int)
    (hprevious : 0 ≤ previous.getD 0)
    (hfirst : ∀ p ∈ ps, line < p.line ∨ (line = p.line ∧ start + previous.getD 0 ≤ p.start)) :
    TokenData tokenTypes.length previous (encodeFrom line start ps) := by
  induction ps generalizing line start previous with
  | nil => exact .nil
  | cons p rest ih =>
      obtain ⟨hp, hrest⟩ := List.forall_mem_cons.mp hps
      obtain ⟨hbefore, horder⟩ := List.pairwise_cons.mp horder
      have hstart := hp.start_nonneg
      have hlength := hp.one_le_length
      have htype := hp.type_lt
      have hhere := hfirst p List.mem_cons_self
      have htokens := ih horder hrest p.line p.start (some p.length) (by simp; omega) hbefore
      refine .cons ?_ ?_ hlength (Int.natCast_nonneg p.type) (Int.ofNat_lt.mpr htype) ?_ htokens
      · omega
      · split <;> omega
      · intro hline n hn
        obtain rfl := Option.mem_def.mp hn
        rw [if_pos hline]
        simp only [Option.getD_some] at hhere
        omega

/-! ### The spans of a text, placed -/

theorem place?_eq_some {p : Span} {q : Placed} (h : place? p = some q) :
    q.line = p.line ∧ q.start = p.start ∧ q.length = p.stop - p.start ∧
      tokenTypes[q.type]? = some p.label := by
  obtain ⟨t, ht, rfl⟩ := Option.map_eq_some_iff.mp h
  exact ⟨rfl, rfl, rfl, getElem?_of_typeIndex? ht⟩

/-- Sorting does not change the spans of a text. -/
theorem placedSpans_highlight (k : Catalog) (s : Text) :
    placedSpans (highlight k s) = (highlight k s).filterMap place? := by
  have horder : (highlight k s).Pairwise fun p q => comesBefore p q = true := by
    refine (pairwise_highlightFrom k 1 (splitLines s)).imp_of_mem fun {p q} hp _ hbefore => ?_
    obtain ⟨n, l, -, -, -, hlt, -, -⟩ := exists_of_mem_highlight hp
    simp only [comesBefore, Bool.or_eq_true, Bool.and_eq_true, decide_eq_true_eq]
    rcases hbefore with hline | ⟨hline, hstop, -⟩
    · exact .inl hline
    · exact .inr ⟨hline, by omega⟩
  rw [placedSpans, List.mergeSort_of_pairwise horder]

/-- The placed spans of a text stand in order. -/
theorem pairwise_placedSpans_highlight (k : Catalog) (s : Text) :
    (placedSpans (highlight k s)).Pairwise Placed.Before := by
  rw [placedSpans_highlight]
  refine List.Pairwise.filterMap place? (fun p q hbefore p' hp q' hq => ?_)
    (pairwise_highlightFrom k 1 (splitLines s))
  obtain ⟨hpline, hpstart, hplength, -⟩ := place?_eq_some hp
  obtain ⟨hqline, hqstart, -, -⟩ := place?_eq_some hq
  rcases hbefore with hline | ⟨hline, hstop, -⟩
  · exact .inl (by omega)
  · exact .inr ⟨by omega, by omega⟩

/-- The placed span lies in the body of a line of the text. -/
def Placed.InBody (s : Text) (p : Placed) : Prop :=
  ∃ (n : Nat) (l : Line), (splitLines s)[n]? = some l ∧ p.line = n + 1 ∧ 0 ≤ p.start ∧
    p.start + p.length ≤ l.body.length

/-- The placed spans of a text are well formed, and each lies in the body of a line. -/
theorem wellFormed_of_mem_placedSpans {k : Catalog} {s : Text} {q : Placed}
    (h : q ∈ placedSpans (highlight k s)) : q.WellFormed ∧ q.InBody s := by
  rw [placedSpans_highlight] at h
  obtain ⟨p, hp, hplace⟩ := List.mem_filterMap.mp h
  obtain ⟨n, l, hl, hline, hstart, hlt, hstop, -⟩ := exists_of_mem_highlight hp
  obtain ⟨hqline, hqstart, hqlength, hqtype⟩ := place?_eq_some hplace
  have htype : q.type < tokenTypes.length := (List.getElem?_eq_some_iff.mp hqtype).1
  exact ⟨⟨by omega, by omega, htype⟩, n, l, hl, by omega, by omega, by omega⟩

/-! ### Agreement -/

/-- A token as an editor shows it. -/
structure Shown where
  /-- The line, counted from one. -/
  line : Int
  /-- The first column, counted from zero. -/
  start : Int
  /-- The number of columns. -/
  length : Int
  /-- The name of its type. -/
  label : Option Text
  deriving DecidableEq, Repr

/-- A decoded token, its type named by the legend. -/
def shownToken (types : List Text) (p : Placed) : Shown :=
  ⟨p.line, p.start, p.length, types[p.type]?⟩

/-- A span under its category, or under its kind if it has none. -/
def shownSpan (p : Span) : Shown :=
  ⟨p.line, p.start, p.stop - p.start, some p.label.toList⟩

/-- Placed spans are shown as the spans that are not plain words. -/
theorem map_shownToken_filterMap {spans : List Span}
    (h : ∀ p ∈ spans, typeIndex? p.label = none ↔ p.mark.kind = .word) :
    (spans.filterMap place?).map (shownToken (tokenTypes.map String.toList)) =
      (spans.filter fun p => p.mark.kind ≠ .word).map shownSpan := by
  induction spans with
  | nil => rfl
  | cons p rest ih =>
      obtain ⟨hp, hrest⟩ := List.forall_mem_cons.mp h
      cases hplace : place? p with
      | none =>
          have hword : p.mark.kind = .word := hp.mp (Option.map_eq_none_iff.mp hplace)
          rw [List.filterMap_cons_none hplace, List.filter_cons_of_neg (by simp [hword]), ih hrest]
      | some q =>
          obtain ⟨hline, hstart, hlength, htype⟩ := place?_eq_some hplace
          have hword : p.mark.kind ≠ .word := by
            intro hword
            rw [place?, hp.mpr hword] at hplace
            cases hplace
          have hshown : shownToken (tokenTypes.map String.toList) q = shownSpan p := by
            rw [shownToken, shownSpan, hline, hstart, hlength, List.getElem?_map, htype,
              Option.map_some]
          rw [List.filterMap_cons_some hplace, List.filter_cons_of_pos (by simp [hword]),
            List.map_cons, List.map_cons, hshown, ih hrest]

/-- Decoding gives the placed spans. -/
theorem decode_encode (spans : List Span) : decode (encode spans) = placedSpans spans :=
  decodeFrom_encodeFrom 1 0 (placedSpans spans)

/-- Integers show the spans of a text, with the names of the types as given. -/
structure TokensAgree (types : List Text) (s : Text) (spans : List Span) (data : List Int) :
    Prop where
  /-- The integers are tokens that do not overlap. -/
  tokens : TokenData types.length none data
  /-- They stand for the spans that are not plain words, in order, under the same names. -/
  shown : (decode data).map (shownToken types) =
    (spans.filter fun p => p.mark.kind ≠ .word).map shownSpan
  /-- Each token lies in the body of a line of the text. -/
  inside : ∀ q ∈ decode data, q.InBody s

/-- The integers for the spans of a text show them. -/
theorem tokensAgree_highlight (k : Catalog) (s : Text) :
    TokensAgree (tokenTypes.map String.toList) s (highlight k s) (encode (highlight k s)) := by
  have hplaced : ∀ q ∈ placedSpans (highlight k s), q.WellFormed ∧ q.InBody s :=
    fun q hq => wellFormed_of_mem_placedSpans hq
  refine ⟨?_, ?_, ?_⟩
  · rw [List.length_map]
    refine tokenData_encodeFrom (pairwise_placedSpans_highlight k s) (fun q hq => (hplaced q hq).1)
      1 0 none (Int.le_refl 0) fun q hq => ?_
    obtain ⟨n, l, -, hline, hstart, -⟩ := (hplaced q hq).2
    have hzero : (0 : Int) + (none : Option Int).getD 0 = 0 := rfl
    rw [hzero]
    omega
  · rw [decode_encode, placedSpans_highlight]
    refine map_shownToken_filterMap fun p hp => ?_
    obtain ⟨n, l, -, -, -, -, -, i, hmark⟩ := exists_of_mem_highlight hp
    exact typeIndex?_label_eq_none_iff hmark
  · rw [decode_encode]
    exact fun q hq => (hplaced q hq).2

/-- A profile with the spans of its text. -/
def highlighted (k : Catalog) (path s : Text) : Highlighted :=
  ⟨path, s, highlight k s⟩

/-- **The two reports of profiles agree.** Both can be read; the one gives all spans of each
profile and the other tokens that show them, except the plain words. -/
theorem reports_agree (k : Catalog) (files : List (Text × Text)) :
    let results := files.map fun f => highlighted k f.1 f.2
    ReadsAs readSpans? (spansText results) (results.map fun h => (h.path, h.spans)) ∧
      ReadsAs readSemantic? (semanticText results) (semanticOf results) ∧
      ∀ h ∈ results, TokensAgree (semanticOf results).types h.text h.spans (encode h.spans) := by
  intro results
  refine ⟨⟨Json.isAscii_pretty _, ?_⟩, ⟨Json.isAscii_pretty _, ?_⟩, ?_⟩
  · rw [spansText, Json.read?_pretty]
    exact readSpans?_spans results
  · rw [semanticText, Json.read?_pretty]
    exact readSemantic?_semantic results
  · intro h hh
    obtain ⟨f, -, rfl⟩ := List.mem_map.mp hh
    exact tokensAgree_highlight k f.2

/-! ### Texts that are not too long -/

/-- Lines are not longer than their joined text, and there are not more of them than it has
characters. -/
theorem le_length_joinLines {ls : List Line} (h : AreLines ls) {n : Nat} {l : Line}
    (hl : ls[n]? = some l) :
    n + 1 ≤ (joinLines ls).length ∧ l.body.length ≤ (joinLines ls).length := by
  induction ls generalizing n with
  | nil => cases hl
  | cons m rest ih =>
      obtain ⟨hm, -, hrest⟩ := h
      have htext : m.text.length = m.body.length + m.ending.text.length := List.length_append
      have hne : 1 ≤ m.text.length := by
        cases he : m.ending with
        | none =>
            have hpos := List.length_pos_iff.mpr (hm.body_ne_nil he)
            omega
        | lf | crlf => simp [Line.text, he, LineEnding.text]
      rw [joinLines_cons, List.length_append]
      cases n with
      | zero =>
          obtain rfl : m = l := Option.some.inj hl
          omega
      | succ n =>
          obtain ⟨hn, hlength⟩ := ih hrest hl
          omega

/-- The integers for placed spans are no larger than what the spans are made of. -/
theorem lt_of_mem_encodeFrom (bound : Int) {ps : List Placed} (line start : Int) (hpos : 0 < bound)
    (hline : 0 ≤ line) (hstart : 0 ≤ start)
    (hps : ∀ p ∈ ps, 0 ≤ p.line ∧ 0 ≤ p.start ∧ p.line < bound ∧ p.start < bound ∧
      p.length < bound ∧ (p.type : Int) < bound) :
    ∀ i ∈ encodeFrom line start ps, i < bound := by
  induction ps generalizing line start with
  | nil => simp [encodeFrom]
  | cons p rest ih =>
      obtain ⟨⟨hpline, hpstart, hlt⟩, hrest⟩ := List.forall_mem_cons.mp hps
      have hlater := ih p.line p.start hpline hpstart hrest
      simp only [encodeFrom, List.forall_mem_cons]
      refine ⟨by omega, ?_, by omega, by omega, by omega, hlater⟩
      split <;> omega

/-- No integer of a token is negative. -/
theorem TokenData.nonneg {types : Nat} {previous : Option Int} {data : List Int}
    (h : TokenData types previous data) : ∀ i ∈ data, 0 ≤ i := by
  induction h with
  | nil => simp
  | cons hline hstart hlength htype _ _ _ ih =>
      simp only [List.forall_mem_cons]
      exact ⟨hline, hstart, by omega, htype, by omega, ih⟩

/-- **The reports of texts can always be written** as long as the number of characters of each
text can. -/
theorem render_highlighted (k : Catalog) {files : List (Text × Text)}
    (h : ∀ f ∈ files, f.2.length < Json.showLimit) :
    let results := files.map fun f => highlighted k f.1 f.2
    renderSpans results = .ok (spansText results) ∧
      renderSemantic results = .ok (semanticText results) := by
  intro results
  have hspans : ∀ r ∈ results, ∀ p ∈ r.spans, 1 ≤ p.line ∧ 0 ≤ p.start ∧ p.start < p.stop ∧
      p.line < Json.showLimit ∧ p.stop < Json.showLimit := by
    intro r hr p hp
    obtain ⟨f, hf, rfl⟩ := List.mem_map.mp hr
    obtain ⟨n, l, hl, hline, hstart, hlt, hstop, -⟩ := exists_of_mem_highlight hp
    have hlength := le_length_joinLines (areLines_splitLines f.2) hl
    rw [joinLines_splitLines] at hlength
    have hfile := h f hf
    omega
  have hshort : HasShortSpans results := by
    intro r hr p hp
    have hbounds := hspans r hr p hp
    simp only [IsShort]
    omega
  have hdata : HasShortData results := by
    intro r hr i hi
    have hspan := hspans r hr
    obtain ⟨f, -, rfl⟩ := List.mem_map.mp hr
    have hpos := (tokensAgree_highlight k f.2).tokens.nonneg i hi
    have htypes : tokenTypes.length = 10 := rfl
    have hten := Json.ten_le_showLimit
    have hlt := lt_of_mem_encodeFrom Json.showLimit 1 0 (by omega) (by omega)
      (by omega) (fun q hq => ?_) i hi
    · simp only [IsShort]
      omega
    · have htype := (wellFormed_of_mem_placedSpans hq).1.type_lt
      obtain ⟨p, hp, hplace⟩ := List.mem_filterMap.mp (placedSpans_highlight k f.2 ▸ hq)
      obtain ⟨hqline, hqstart, hqlength, -⟩ := place?_eq_some hplace
      have hbounds := hspan p hp
      omega
  exact ⟨Json.render_eq_ok_iff.mpr ⟨isShort_spans_iff.mpr hshort, rfl⟩,
    Json.render_eq_ok_iff.mpr ⟨isShort_semantic_iff.mpr hdata, rfl⟩⟩

end Report

end SandboxProfile
