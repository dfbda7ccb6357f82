import SandboxProfile.Proofs.Highlight.Painting
import SandboxProfile.Proofs.Keyword.Order
import SandboxProfile.Proofs.Token.Lexing

/-!
# Keywords that are added

The catalog is asked for the words of a line only, each by its whole text, and what it answers
marks the columns of that word and no others. Variables and paths do not depend on it. So a
catalog that agrees with a smaller one on the words of the smaller one differs on a line only
where a word of the line is new to it; there, nothing is stronger than the keyword.

A keyword that no line can hold as a word is never found: it must be made of word characters.

The results hold for every text, also for one with line feeds.

## Main definitions

* `markAt` is the mark that spans give a column.
* `Catalog.ExtendedBy` says that a catalog keeps the categories of another.
* `Token.IsNew` says that a token is a word that only the larger catalog knows.
* `Catalog.ShowsAsKeyword` says that a stretch of a line is highlighted as a keyword.

## Main results

* `getElem?_lineColumns_extension` — the columns that keep their marks.
* `highlightLine_of_isWord` — a keyword by itself is one span.
* `added_keywords_mark_own_words` — what keywords that are added change, and which can.
-/

namespace SandboxProfile

variable {k k' : Catalog} {s : Text} {i : Nat}

/-! ### Marks by spans -/

/-- The mark that spans give a column: that of the first span that covers it. -/
def markAt (ps : List Span) (i : Nat) : Option Mark :=
  (ps.find? fun p => p.start ≤ (i : Int) ∧ (i : Int) < p.stop).map Span.mark

/-- The spans of a line give each column its computed mark. -/
theorem markAt_highlightLine (k : Catalog) (number : Int) (s : Text) (i : Nat) :
    markAt (highlightLine k number s) i = keyAt id (lineColumns k s) i := by
  have hspans {m : Mark} := exists_mem_highlightLine_iff_keyAt k number s (i := i) (m := m)
  rw [markAt]
  cases hfind : (highlightLine k number s).find? fun p => p.start ≤ (i : Int) ∧ (i : Int) < p.stop with
  | some p =>
      have hcovers : p.start ≤ i ∧ i < p.stop := by simpa using List.find?_some hfind
      exact (hspans.mp ⟨p, List.mem_of_find?_eq_some hfind, rfl, hcovers⟩).symm
  | none =>
      rw [Option.map_none, eq_comm, Option.eq_none_iff_forall_ne_some]
      intro m hm
      obtain ⟨p, hp, -, hcovers⟩ := hspans.mpr hm
      exact List.find?_eq_none.mp hfind p hp (decide_eq_true hcovers)

/-! ### What a column takes from the catalog -/

/-- Variables and paths do not depend on the catalog. -/
theorem getElem?_lineColumns_congr (h : (tokenMarks k s)[i]? = (tokenMarks k' s)[i]?) :
    (lineColumns k s)[i]? = (lineColumns k' s)[i]? := by
  rw [lineColumns, lineColumns, List.getElem?_zipWith, List.getElem?_zipWith]
  rw [tokenMarks, tokenMarks] at h
  rw [tokenize, if_pos rfl, h]

/-- The marks from tokens change in tokens only. -/
theorem getElem?_tokenMarks_congr
    (h : ∀ t ∈ allTokens s, t.Covers i → k.tokenMark t = k'.tokenMark t) :
    (tokenMarks k s)[i]? = (tokenMarks k' s)[i]? := by
  by_cases hcover : ∃ t ∈ allTokens s, t.Covers i
  · obtain ⟨t, ht, hi⟩ := hcover
    rw [getElem?_tokenMarks_of_mem k ht hi.1 hi.2, getElem?_tokenMarks_of_mem k' ht hi.1 hi.2,
      h t ht hi]
  · have hnone (q : Catalog) (hi : i < s.length) : (tokenMarks q s)[i]? = some none :=
      getElem?_tokenColumns_of_not_mem q (tokensBetween_allTokens s)
        (fun t ht hcovers => hcover ⟨t, ht, hcovers⟩) (Nat.zero_le i) hi
    have hlen (q : Catalog) : (tokenMarks q s).length = s.length :=
      length_tokenColumns q (tokensBetween_allTokens s)
    by_cases hi : i < s.length
    · rw [hnone k hi, hnone k' hi]
    · rw [List.getElem?_eq_none (by rw [hlen]; omega), List.getElem?_eq_none (by rw [hlen]; omega)]

/-- The columns of a keyword are marked as such, whatever patterns run through them. -/
theorem keyAt_lineColumns_of_keyword {t : Token} (ht : t ∈ allTokens s) (hi : t.Covers i)
    {c : Category} (hmark : k.tokenMark t = some ⟨.keyword, some c⟩) :
    keyAt id (lineColumns k s) i = some ⟨.keyword, some c⟩ := by
  have hlt : i < s.length :=
    Nat.lt_of_lt_of_le hi.2 ((tokensBetween_allTokens s).stop_le t ht)
  obtain ⟨v, p, -, -, hget⟩ :=
    getElem?_lineColumns_of_lt k (getElem?_tokenMarks_of_mem k ht hi.1 hi.2) hlt
  rw [keyAt, hget, hmark, columnMark_keyword]
  rfl

theorem Catalog.tokenMark_of_classify {t : Token} (hkind : t.mark.kind = .word) {c : Category}
    (hclass : k.classify t.text = some c) : k.tokenMark t = some ⟨.keyword, some c⟩ := by
  rw [Catalog.tokenMark, hkind, hclass]

/-! ### A catalog with more keywords -/

/-- The second catalog classifies the words of the first as the first does. -/
def Catalog.ExtendedBy (k k' : Catalog) : Prop :=
  ∀ w ∈ k.words, k'.classify w = k.classify w

theorem Catalog.extendedBy_append (ds more : List Declaration) :
    (Catalog.ofDeclarations ds).ExtendedBy (Catalog.ofDeclarations (ds ++ more)) :=
  fun _ hw => classify_ofDeclarations_append (mem_words_ofDeclarations.mp hw) more

/-- The token is a word that the second catalog knows and the first does not. -/
structure Token.IsNew (k k' : Catalog) (t : Token) : Prop where
  /-- It is a word. -/
  kind_eq : t.mark.kind = .word
  /-- The second catalog knows it. -/
  mem : t.text ∈ k'.words
  /-- The first one does not. -/
  not_mem : t.text ∉ k.words

/-- A token that is not new keeps its mark. -/
theorem Catalog.ExtendedBy.tokenMark_eq (h : k.ExtendedBy k') {t : Token} (ht : t ∈ allTokens s)
    (hnew : ¬t.IsNew k k') : k.tokenMark t = k'.tokenMark t := by
  rcases (lexing_allTokens s).mark_eq t ht with hmark | hmark | hmark
  · rw [Catalog.tokenMark, Catalog.tokenMark, hmark]
  · have hclass : k'.classify t.text = k.classify t.text := by
      by_cases hk : t.text ∈ k.words
      · exact h _ hk
      · have hk' : t.text ∉ k'.words := fun hmem => hnew ⟨by rw [hmark], hmem, hk⟩
        rw [mem_words_iff, ← Option.ne_none_iff_exists', not_not] at hk hk'
        rw [hk, hk']
    rw [Catalog.tokenMark, Catalog.tokenMark, hclass]
  · rw [Catalog.tokenMark, Catalog.tokenMark, hmark]

/-- **Columns outside of new words keep their marks.** -/
theorem getElem?_lineColumns_extension (h : k.ExtendedBy k')
    (hnew : ∀ t ∈ allTokens s, t.IsNew k k' → ¬t.Covers i) :
    (lineColumns k s)[i]? = (lineColumns k' s)[i]? :=
  getElem?_lineColumns_congr <| getElem?_tokenMarks_congr fun t ht hi =>
    h.tokenMark_eq ht fun hisNew => hnew t ht hisNew hi

/-! ### Which keywords are found -/

/-- The text is made of word characters, of one at least. -/
def IsWord (w : Text) : Prop :=
  w ≠ [] ∧ ∀ c ∈ w, isWordChar c = true

/-- The text is that of a span of the line that is marked as a keyword. -/
def Catalog.ShowsAsKeyword (k : Catalog) (line w : Text) : Prop :=
  ∃ (number : Int) (a b : Nat) (m : Mark), m.kind = .keyword ∧
    ⟨number, a, b, m⟩ ∈ highlightLine k number line ∧ line.between a b = w

/-- The stronger of two marks is one of them. -/
theorem strongerMark_eq_or (m n : Option Mark) : strongerMark m n = m ∨ strongerMark m n = n := by
  cases m with
  | none => exact .inr rfl
  | some m =>
      cases n with
      | none => exact .inl rfl
      | some n =>
          rw [strongerMark]
          split
          · exact .inr rfl
          · exact .inl rfl

/-- Patterns make no keywords. -/
theorem eq_some_of_columnMark_keyword {token : Option Mark} {inVariable inPath : Bool} {m : Mark}
    (hmark : columnMark token inVariable inPath = some m) (hkind : m.kind = .keyword) :
    token = some m := by
  have hpattern (b : Bool) (n : Mark) (hn : n.kind ≠ .keyword) :
      (if b then some n else none) ≠ some m := by
    intro h
    obtain ⟨-, hnm⟩ := Option.ite_none_right_eq_some.mp h
    exact hn (Option.some.inj hnm ▸ hkind)
  rw [columnMark] at hmark
  rcases strongerMark_eq_or (strongerMark token (if inPath then some ⟨.path, none⟩ else none))
    (if inVariable then some ⟨.envVar, none⟩ else none) with h | h
  · rcases strongerMark_eq_or token (if inPath then some ⟨.path, none⟩ else none) with h' | h'
    · rwa [h, h'] at hmark
    · rw [h, h'] at hmark
      exact absurd hmark (hpattern _ _ (by decide))
  · rw [h] at hmark
    exact absurd hmark (hpattern _ _ (by decide))

/-- A column of a keyword holds a word character. -/
theorem hasWordChar_of_keyword {m : Mark} (hcolumn : keyAt id (lineColumns k s) i = some m)
    (hkind : m.kind = .keyword) : HasWordChar s i := by
  obtain ⟨column, hget, rfl⟩ := Option.bind_eq_some_iff.mp hcolumn
  have hlt := lt_length_of_getElem?_lineColumns hget
  -- Outside of the tokens only patterns mark a column.
  obtain ⟨t, ht, hi⟩ : ∃ t ∈ allTokens s, t.Covers i := by
    by_contra hnone
    have htoken : (tokenMarks k s)[i]? = some none :=
      getElem?_tokenColumns_of_not_mem k (tokensBetween_allTokens s)
        (fun t ht hi => hnone ⟨t, ht, hi⟩) (Nat.zero_le i) hlt
    obtain ⟨v, p, -, -, hmark⟩ := getElem?_lineColumns_of_lt k htoken hlt
    rw [hmark, Option.some.injEq] at hget
    cases eq_some_of_columnMark_keyword hget hkind
  obtain ⟨v, p, -, -, hmark⟩ :=
    getElem?_lineColumns_of_lt k (getElem?_tokenMarks_of_mem k ht hi.1 hi.2) hlt
  rw [hmark, Option.some.injEq] at hget
  have htoken := eq_some_of_columnMark_keyword hget hkind
  rcases (lexing_allTokens s).mark_eq t ht with hmark | hmark | hmark
  · rw [Catalog.tokenMark, hmark] at htoken
    cases htoken
    cases hkind
  · have hrun := ((lexing_allTokens s).words _ _).mp ⟨t, ht, by rw [hmark], rfl, rfl⟩
    exact (hrun.holds i hi.1 hi.2).2
  · rw [Catalog.tokenMark, hmark] at htoken
    cases htoken

/-- What a line shows as a keyword is made of word characters. -/
theorem isWord_of_showsAsKeyword {w : Text} (h : k.ShowsAsKeyword s w) : IsWord w := by
  obtain ⟨number, a, b, m, hkind, hp, rfl⟩ := h
  obtain ⟨r, hr, heq⟩ := List.mem_map.mp hp
  obtain ⟨-, ha, hb, rfl⟩ := Span.mk.inj heq
  obtain rfl : r.start = a := Int.ofNat_inj.mp ha
  obtain rfl : r.stop = b := Int.ofNat_inj.mp hb
  have hrun := maximalRun_of_mem_runsFrom hr
  have hword (i : Nat) (hle : r.start ≤ i) (hlt : i < r.stop) : HasWordChar s i :=
    hasWordChar_of_keyword (hrun.holds i hle hlt) hkind
  have hget (j : Nat) (hj : j < r.stop - r.start) :
      (s.between r.start r.stop)[j]? = s[r.start + j]? := by
    rw [Text.between, List.getElem?_take_of_lt hj, List.getElem?_drop]
  have hpos := hrun.start_lt_stop
  refine ⟨fun hnil => ?_, fun c hc => ?_⟩
  · obtain ⟨c, hc, -⟩ := hword r.start (Nat.le_refl _) hpos
    have hfirst := hget 0 (by omega)
    rw [hnil, Nat.add_zero, hc] at hfirst
    cases hfirst
  · obtain ⟨j, hj⟩ := List.mem_iff_getElem?.mp hc
    have hjlt : j < r.stop - r.start := by
      have hlen := (List.getElem?_eq_some_iff.mp hj).1
      rw [Text.between, List.length_take] at hlen
      omega
    rw [hget j hjlt] at hj
    obtain ⟨d, hd, hchar⟩ := hword (r.start + j) (Nat.le_add_right _ _) (by omega)
    obtain rfl : d = c := Option.some.inj (hd.symm.trans hj)
    exact hchar

/-- A text of word characters is one token. -/
theorem exists_token_of_isWord {w : Text} (hw : IsWord w) :
    ∃ t ∈ allTokens w, t.mark.kind = .word ∧ t.start = 0 ∧ t.stop = w.length := by
  have hchar (i : Nat) (hi : i < w.length) : HasWordChar w i :=
    ⟨w[i], List.getElem?_eq_getElem hi, hw.2 _ (List.getElem_mem hi)⟩
  -- A comment would begin with a number sign, which is no word character.
  have houtside (i : Nat) : OutsideComments (allTokens w) i := by
    intro t ht hkind
    have hsign := (lexing_allTokens w).comment_sign t ht hkind
    exact absurd (hw.2 '#' (List.mem_of_getElem? hsign)) (by decide)
  refine ((lexing_allTokens w).words 0 w.length).mpr
    ⟨List.length_pos_iff.mpr hw.1, fun i _ hi => ⟨houtside i, hchar i hi⟩, fun i hi => ?_, ?_⟩
  · omega
  · exact fun h => Nat.lt_irrefl _ h.2.lt_length

/-- **A keyword by itself is one span.** -/
theorem highlightLine_of_isWord (number : Int) {w : Text} (hw : IsWord w) {c : Category}
    (hclass : k.classify w = some c) :
    highlightLine k number w = [⟨number, 0, w.length, ⟨.keyword, some c⟩⟩] := by
  obtain ⟨t, ht, hkind, hstart, hstop⟩ := exists_token_of_isWord hw
  have htext : t.text = w := by
    rw [(lexing_allTokens w).text_eq t ht, hstart, hstop, Text.between_zero_length]
  have hmark : k.tokenMark t = some ⟨.keyword, some c⟩ :=
    Catalog.tokenMark_of_classify hkind (by rwa [htext])
  have hall : ∀ x ∈ lineColumns k w, x = some ⟨.keyword, some c⟩ := by
    intro x hx
    obtain ⟨i, hi⟩ := List.mem_iff_getElem?.mp hx
    have hlt := lt_length_of_getElem?_lineColumns hi
    have hcovers : t.Covers i := ⟨by omega, by omega⟩
    have hkey := keyAt_lineColumns_of_keyword ht hcovers hmark
    rwa [keyAt, hi, Option.bind_some] at hkey
  have hlen := length_lineColumns k w
  rw [highlightLine]
  cases hcolumns : lineColumns k w with
  | nil =>
      rw [hcolumns, List.length_nil, eq_comm, List.length_eq_zero_iff] at hlen
      exact absurd hlen hw.1
  | cons x rest =>
      rw [hcolumns] at hall hlen
      rw [runsFrom_eq_singleton id (hall x List.mem_cons_self)
        (fun y hy => hall y (List.mem_cons_of_mem x hy)) 0, List.map_singleton, spanOfRun, Run.stop,
        hlen, Nat.zero_add]
      rfl

/-! ### The whole -/

/-- **Keywords that are added act on their own words only.** Outside of the words of a text that
are new, each column keeps its kind and its category; the new words become keywords of the
category that they are added with. A word of a catalog can be highlighted exactly if it is made
of word characters, and then it is highlighted in the line that it is. -/
theorem added_keywords_mark_own_words {k k' : Catalog} (h : k.ExtendedBy k') :
    (∀ (number : Int) (s : Text) (i : Nat),
      (∀ t ∈ tokenize true s, t.IsNew k k' → ¬t.Covers i) →
        markAt (highlightLine k' number s) i = markAt (highlightLine k number s) i) ∧
      (∀ (number : Int) (s : Text), ∀ t ∈ tokenize true s, t.IsNew k k' →
        ∀ i, t.Covers i → ∃ c, k'.classify t.text = some c ∧
          markAt (highlightLine k' number s) i = some ⟨.keyword, some c⟩) ∧
      ∀ (q : Catalog), ∀ w ∈ q.words,
        ((∃ line, q.ShowsAsKeyword line w) ↔ IsWord w) ∧
          (IsWord w → ∀ number,
            highlightLine q number w = [⟨number, 0, w.length, ⟨.keyword, q.classify w⟩⟩]) := by
  have halone (q : Catalog) {w : Text} (hmem : w ∈ q.words) (hw : IsWord w) (number : Int) :
      highlightLine q number w = [⟨number, 0, w.length, ⟨.keyword, q.classify w⟩⟩] := by
    obtain ⟨c, hc⟩ := mem_words_iff.mp hmem
    rw [hc]
    exact highlightLine_of_isWord number hw hc
  refine ⟨fun number s i hnew => ?_, fun number s t ht hnew i hi => ?_, fun q w hmem => ?_⟩
  · rw [markAt_highlightLine, markAt_highlightLine, keyAt, keyAt,
      getElem?_lineColumns_extension h hnew]
  · obtain ⟨c, hc⟩ := mem_words_iff.mp hnew.mem
    refine ⟨c, hc, ?_⟩
    rw [markAt_highlightLine]
    exact keyAt_lineColumns_of_keyword ht hi (Catalog.tokenMark_of_classify hnew.kind_eq hc)
  · refine ⟨⟨?_, fun hw => ?_⟩, halone q hmem⟩
    · rintro ⟨line, hshows⟩
      exact isWord_of_showsAsKeyword hshows
    refine ⟨w, 1, 0, w.length, ⟨.keyword, q.classify w⟩, rfl, ?_, Text.between_zero_length w⟩
    rw [halone q hmem hw]
    exact List.mem_singleton.mpr rfl

/-- One keyword. -/
def netDeclared : List Declaration :=
  [("net".toList, .option)]

/-- A keyword that begins with a slash. -/
def deviceDeclared : List Declaration :=
  [("/eth0".toList, .directive)]

/-- A line with a path that runs through the second keyword and on. -/
def deviceLine : Text :=
  "net /eth0,/x /eth0x #/eth0".toList

/-- The path loses the columns of the keyword and keeps those behind it; the longer word and the
comment stay what they are. -/
theorem added_keywords_mark_own_words_deviceLine :
    (Catalog.ofDeclarations netDeclared).ExtendedBy
        (Catalog.ofDeclarations (netDeclared ++ deviceDeclared)) ∧
      highlightLine (Catalog.ofDeclarations netDeclared) 1 deviceLine =
        [⟨1, 0, 3, ⟨.keyword, some .option⟩⟩, ⟨1, 4, 12, ⟨.path, none⟩⟩,
          ⟨1, 13, 19, ⟨.path, none⟩⟩, ⟨1, 20, 26, ⟨.comment, none⟩⟩] ∧
      highlightLine (Catalog.ofDeclarations (netDeclared ++ deviceDeclared)) 1 deviceLine =
        [⟨1, 0, 3, ⟨.keyword, some .option⟩⟩, ⟨1, 4, 9, ⟨.keyword, some .directive⟩⟩,
          ⟨1, 9, 12, ⟨.path, none⟩⟩, ⟨1, 13, 19, ⟨.path, none⟩⟩,
          ⟨1, 20, 26, ⟨.comment, none⟩⟩] ∧
      ∀ i, ¬(4 ≤ i ∧ i < 9) →
        markAt (highlightLine (Catalog.ofDeclarations (netDeclared ++ deviceDeclared)) 1
            deviceLine) i =
          markAt (highlightLine (Catalog.ofDeclarations netDeclared) 1 deviceLine) i := by
  have hextended := Catalog.extendedBy_append netDeclared deviceDeclared
  have hnew : ∀ t ∈ tokenize true deviceLine, t.mark.kind = .word →
      t.text ∈ (Catalog.ofDeclarations (netDeclared ++ deviceDeclared)).words →
      t.text ∉ (Catalog.ofDeclarations netDeclared).words → 4 ≤ t.start ∧ t.stop ≤ 9 := by
    decide
  refine ⟨hextended, by decide, by decide, fun i hi => ?_⟩
  refine (added_keywords_mark_own_words hextended).1 1 deviceLine i fun t ht h hcovers => hi ?_
  obtain ⟨hstart, hstop⟩ := hnew t ht h.kind_eq h.mem h.not_mem
  exact ⟨Nat.le_trans hstart hcovers.1, Nat.lt_of_lt_of_le hcovers.2 hstop⟩

end SandboxProfile
