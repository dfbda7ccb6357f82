import Mathlib.Data.List.Pairwise
import SandboxProfile.Proofs.Highlight.Shift
import SandboxProfile.Proofs.Highlight.Word

/-!
# Tokens against spans

The tokens of a line are classified one by one, each by its own text. The spans of the line come
from its columns, where variables and paths are looked for in the whole line. Here the two are
compared, by what lies in the columns of each token.

Keywords and comments are never painted over, and two of them never merge: between two keywords
there is a column that belongs to no word. Variables can merge, but only inside of one word.

## Main definitions

* `TokenMark` says what the catalog makes of a token of a line.
* `TokensMatchSpans` says how tokens and spans agree.

## Main results

* `tokenMark_of_mem` — the tokens of a line are classified by what lies in their columns.
* `TokenMark.maximalRun` — keywords and comments are painted as they stand.
* `exists_token_of_envVar` — a column of a variable lies in a token that is one.
* `tokens_match_spans` — the tokens and the spans of a line agree.
-/

namespace SandboxProfile

/-! ### The marks of tokens -/

/-- What the catalog makes of a token, in terms of the columns of the line. -/
inductive TokenMark (k : Catalog) (s : Text) (t : Token) : Mark → Prop where
  /-- Comments stay comments. -/
  | comment : t.mark = ⟨.comment, none⟩ → TokenMark k s t ⟨.comment, none⟩
  /-- Punctuation stays punctuation. -/
  | punctuation : t.mark = ⟨.punctuation, none⟩ → TokenMark k s t ⟨.punctuation, none⟩
  /-- A word that the catalog knows is a keyword. -/
  | keyword {c : Category} : t.IsWordOf s → k.classify t.text = some c →
      TokenMark k s t ⟨.keyword, some c⟩
  /-- Another word is a variable if one lies in its columns. -/
  | envVar : t.IsWordOf s → k.classify t.text = none → (∃ i, t.Covers i ∧ InVariable s i) →
      TokenMark k s t ⟨.envVar, none⟩
  /-- Without variables, a word is a path only if one lies in its columns. -/
  | path : t.IsWordOf s → k.classify t.text = none → (∀ i, t.Covers i → ¬InVariable s i) →
      (∃ i, t.Covers i ∧ InPath s i) → TokenMark k s t ⟨.path, none⟩
  /-- Otherwise it is a plain word. -/
  | word : t.IsWordOf s → k.classify t.text = none → (∀ i, t.Covers i → ¬InVariable s i) →
      TokenMark k s t ⟨.word, none⟩

variable {k : Catalog} {s : Text} {t : Token} {m : Mark} {i : Nat}

/-- A token that is a word is a word of the line. -/
theorem isWordOf_of_mem (hfeed : '\n' ∉ s) (ht : t ∈ allTokens s)
    (hkind : t.mark.kind = .word) : t.IsWordOf s := by
  rcases (mem_allTokens_of_line hfeed).mp ht with ht | ht
  · exact isWordOf_of_mem_codeTokens ht hkind
  · rw [mark_of_mem_commentTokens ht] at hkind
    cases hkind

/-- **The tokens of a line are classified by what lies in their columns.** -/
theorem tokenMark_of_mem (k : Catalog) (hfeed : '\n' ∉ s) (ht : t ∈ allTokens s) :
    TokenMark k s t (k.classifyToken t).mark := by
  rw [Catalog.classifyToken, Catalog.markOf]
  rcases (lexing_allTokens s).mark_eq t ht with hmark | hmark | hmark
  · simpa [hmark] using TokenMark.comment hmark
  · have hword : t.IsWordOf s := isWordOf_of_mem hfeed ht (by rw [hmark])
    rw [hmark, if_neg (by simp)]
    cases hclass : k.classify t.text with
    | some c => exact .keyword hword hclass
    | none =>
        simp only [plainKind, hword.startsWith_eq_false]
        by_cases hvariable : holdsVariable t.text = true
        · simpa [hvariable] using TokenMark.envVar hword hclass
            (hword.holdsVariable_iff.mp hvariable)
        · have hnone : ∀ i, t.Covers i → ¬InVariable s i := fun i hi hin =>
            hvariable (hword.holdsVariable_iff.mpr ⟨i, hi, hin⟩)
          by_cases hpath : holdsPath t.text = true
          · simpa [hvariable, hpath] using TokenMark.path hword hclass hnone
              (hword.exists_inPath hpath)
          · simpa [hvariable, hpath] using TokenMark.word hword hclass hnone
  · simpa [hmark] using TokenMark.punctuation hmark

/-! ### Marks of tokens and marks of columns -/

/-- The columns of a word that the catalog does not know are in no keyword. -/
theorem not_inKeyword_of_covers (h : t.IsWordOf s) (hclass : k.classify t.text = none)
    (hi : t.Covers i) (c : Category) : ¬InKeyword k s i c := by
  intro hin
  rw [h.inKeyword_iff hi, hclass] at hin
  cases hin

/-- The columns of a comment are those of its token. -/
theorem inComment_iff_covers (hfeed : '\n' ∉ s) (ht : t ∈ allTokens s)
    (hmark : t.mark = ⟨.comment, none⟩) : InComment s i ↔ t.Covers i := by
  have hmem : t ∈ commentTokens s.code.length s.comment := by
    refine ((mem_allTokens_of_line hfeed).mp ht).resolve_left fun hcode => ?_
    exact kind_ne_of_mem_codeTokens (sign_not_mem_code s) hcode (by rw [hmark])
  rw [inComment_iff]
  constructor
  · rintro ⟨u, hu, hcovers⟩
    rwa [eq_of_mem_commentTokens hmem hu]
  · intro hcovers
    exact ⟨t, hmem, hcovers⟩

/-- A token covers the columns from its start up to its end, and it covers one. -/
theorem maximalRun_covers (ht : t ∈ allTokens s) : MaximalRun t.Covers t.start t.stop := by
  have hpos := List.length_pos_iff.mpr ((lexing_allTokens s).text_ne_nil t ht)
  refine ⟨Nat.lt_add_of_pos_right hpos, fun j hstart hstop => ⟨hstart, hstop⟩, ?_, ?_⟩
  · intro j hj hcovers
    have hstart := hcovers.1
    omega
  · intro hcovers
    exact Nat.lt_irrefl _ hcovers.2

/-- **Keywords and comments are painted as they stand**: their columns are a longest stretch with
their mark. -/
theorem TokenMark.maximalRun (hfeed : '\n' ∉ s) (ht : t ∈ allTokens s) (h : TokenMark k s t m)
    (hkind : m.kind = .keyword ∨ m.kind = .comment) :
    MaximalRun (fun i => ColumnMark k s i m) t.start t.stop := by
  cases h with
  | comment hmark =>
      have hiff (i : Nat) : ColumnMark k s i ⟨.comment, none⟩ ↔ t.Covers i := by
        rw [← inComment_iff_covers hfeed ht hmark]
        constructor
        · intro h
          cases h with
          | comment hin => exact hin
        · exact .comment
      exact (maximalRun_congr hiff).mpr (maximalRun_covers ht)
  | @keyword c hword hclass =>
      have hink {i : Nat} (h : ColumnMark k s i ⟨.keyword, some c⟩) : HasWordChar s i := by
        cases h with
        | keyword _ hin => exact hin.hasWordChar
      refine ⟨hword.run.start_lt_stop, fun i hstart hstop => ?_, fun i hi h => ?_, fun h => ?_⟩
      · have hi : t.Covers i := ⟨hstart, hstop⟩
        exact .keyword (hword.not_inComment hi) ((hword.inKeyword_iff hi).mpr hclass)
      · exact hword.run.not_before i hi (hink h)
      · exact hword.run.not_after (hink h)
  | punctuation | envVar | path | word => rcases hkind with hkind | hkind <;> cases hkind

/-- A variable or a path that a token is classified as is painted in one of its columns. -/
theorem TokenMark.exists_columnMark (h : TokenMark k s t m)
    (hkind : m.kind = .envVar ∨ m.kind = .path) : ∃ i, t.Covers i ∧ ColumnMark k s i m := by
  cases h with
  | envVar hword hclass hin =>
      obtain ⟨i, hi, hin⟩ := hin
      exact ⟨i, hi, .envVar (hword.not_inComment hi) (not_inKeyword_of_covers hword hclass hi) hin⟩
  | path hword hclass hnone hin =>
      obtain ⟨i, hi, hin⟩ := hin
      exact ⟨i, hi, .path (hword.not_inComment hi) (not_inKeyword_of_covers hword hclass hi)
        (hnone i hi) hin⟩
  | comment | punctuation | keyword | word => rcases hkind with hkind | hkind <;> cases hkind

/-- A column with a word character outside of comments and keywords lies in a word that the catalog
does not know. -/
theorem exists_token_of_hasWordChar (hfeed : '\n' ∉ s) (hcomment : ¬InComment s i)
    (hkeyword : ∀ c, ¬InKeyword k s i c) (hword : HasWordChar s i) :
    ∃ t ∈ allTokens s, t.Covers i ∧ t.IsWordOf s ∧
      ((k.classifyToken t).mark = ⟨.envVar, none⟩ ∨
        (¬InVariable s i ∧ ((k.classifyToken t).mark = ⟨.path, none⟩ ∨
          (k.classifyToken t).mark = ⟨.word, none⟩))) := by
  obtain ⟨t, ht, hkind, hword, hi⟩ :=
    exists_isWordOf hfeed (hword.lt_length_code hcomment) hword
  refine ⟨t, ht, hi, hword, ?_⟩
  have hmark := tokenMark_of_mem k hfeed ht
  generalize (k.classifyToken t).mark = m at hmark
  cases hmark with
  | comment hmark | punctuation hmark =>
      rw [hmark] at hkind
      cases hkind
  | @keyword c _ hclass => exact absurd ((hword.inKeyword_iff hi).mpr hclass) (hkeyword c)
  | envVar => exact .inl rfl
  | path _ _ hnone => exact .inr ⟨hnone i hi, .inl rfl⟩
  | word _ _ hnone => exact .inr ⟨hnone i hi, .inr rfl⟩

/-- **A column of a variable lies in a token that is one.** -/
theorem exists_token_of_envVar (hfeed : '\n' ∉ s) (h : ColumnMark k s i ⟨.envVar, none⟩) :
    ∃ t ∈ allTokens s, t.Covers i ∧ t.IsWordOf s ∧
      (k.classifyToken t).mark = ⟨.envVar, none⟩ := by
  cases h with
  | envVar hcomment hkeyword hin =>
      obtain ⟨t, ht, hi, hword, hmark | ⟨hnone, -⟩⟩ :=
        exists_token_of_hasWordChar hfeed hcomment hkeyword hin.hasWordChar
      · exact ⟨t, ht, hi, hword, hmark⟩
      · exact absurd hin hnone

/-- A column of a keyword or of a comment lies in a token that is one. -/
theorem exists_token_of_columnMark (hfeed : '\n' ∉ s) (h : ColumnMark k s i m)
    (hkind : m.kind = .keyword ∨ m.kind = .comment) :
    ∃ t ∈ allTokens s, t.Covers i ∧ (k.classifyToken t).mark = m := by
  cases h with
  | comment hin =>
      obtain ⟨t, ht, hi⟩ := inComment_iff.mp hin
      refine ⟨t, (mem_allTokens_of_line hfeed).mpr (.inr ht), hi, ?_⟩
      simp [Catalog.classifyToken, Catalog.markOf, mark_of_mem_commentTokens ht]
  | keyword hcomment hin =>
      obtain ⟨t, ht, hword, htword, hi⟩ :=
        exists_isWordOf hfeed (hin.hasWordChar.lt_length_code hcomment) hin.hasWordChar
      have hclass := (htword.inKeyword_iff hi).mp hin
      refine ⟨t, ht, hi, ?_⟩
      simp [Catalog.classifyToken, Catalog.markOf, hword, hclass]
  | envVar | path | word => rcases hkind with hkind | hkind <;> cases hkind

/-! ### Tokens and spans of a line -/

/-- How the tokens of a line agree with its spans. -/
structure TokensMatchSpans (number : Int) (ts : List Token) (ps : List Span) : Prop where
  /-- Keywords and comments are the same on both sides, one for one and in order. -/
  keywords_comments :
    ps.filter (fun p => p.mark.kind = .keyword ∨ p.mark.kind = .comment) =
      (ts.filter fun t => t.mark.kind = .keyword ∨ t.mark.kind = .comment).map
        fun t => ⟨number, t.start, t.stop, t.mark⟩
  /-- A token is a variable exactly if it is no keyword and a variable lies in its columns. -/
  envVar_iff : ∀ t ∈ ts, t.mark.kind = .envVar ↔ t.mark.kind ≠ .keyword ∧
    ∃ p ∈ ps, p.mark.kind = .envVar ∧ t.start ≤ p.start ∧ p.stop ≤ t.stop
  /-- Every variable lies in the columns of a token that is one. -/
  envVar_inside : ∀ p ∈ ps, p.mark.kind = .envVar →
    ∃ t ∈ ts, t.mark.kind = .envVar ∧ t.start ≤ p.start ∧ p.stop ≤ t.stop
  /-- A token that is a path has a column in a path. -/
  path_meets : ∀ t ∈ ts, t.mark.kind = .path →
    ∃ i, t.Covers i ∧ ∃ p ∈ ps, p.mark.kind = .path ∧ p.start ≤ i ∧ i < p.stop
  /-- Every column of a plain word lies in a token that is a word, a path or a variable. -/
  word_covered : ∀ p ∈ ps, p.mark.kind = .word → ∀ i : Nat, p.start ≤ i → i < p.stop →
    ∃ t ∈ ts, t.Covers i ∧
      (t.mark.kind = .word ∨ t.mark.kind = .path ∨ t.mark.kind = .envVar)

/-- Two tokens that share a column are the same. -/
theorem eq_of_covers {u : Token} (ht : t ∈ allTokens s) (hu : u ∈ allTokens s) (hi : t.Covers i)
    (hi' : u.Covers i) : t = u := by
  have hapart : (allTokens s).Pairwise fun t u => ∀ i, ¬(t.Covers i ∧ u.Covers i) := by
    refine (lexing_allTokens s).ordered.imp fun {t u} hle i hi => ?_
    have hstop := hi.1.2
    have hstart := hi.2.1
    omega
  have hsymm : Std.Symm fun t u : Token => ∀ i, ¬(t.Covers i ∧ u.Covers i) :=
    ⟨fun _ _ h i hi => h i hi.symm⟩
  by_contra hne
  exact hapart.forall ht hu hne i ⟨hi, hi'⟩

/-- The spans of a line begin one after the other. -/
theorem pairwise_start_highlightLine (k : Catalog) (number : Int) (hfeed : '\n' ∉ s) :
    (highlightLine k number s).Pairwise fun p q => p.start < q.start := by
  refine (pairwise_highlightLine k number s).imp_of_mem fun {p q} hp hq hbefore => ?_
  obtain ⟨a, b, hrun, heq⟩ := (mem_highlightLine k number hfeed p).mp hp
  have hlt : p.start < p.stop := by
    rw [heq]
    exact Int.ofNat_lt.mpr hrun.start_lt_stop
  rcases hbefore with hline | ⟨-, hle, -⟩
  · rw [line_of_mem_highlightLine hp, line_of_mem_highlightLine hq] at hline
    omega
  · omega

/-- **Keywords and comments are the same** among the tokens and the spans of a line. -/
theorem filter_highlightLine (k : Catalog) (number : Int) (hfeed : '\n' ∉ s) :
    (highlightLine k number s).filter
        (fun p => p.mark.kind = .keyword ∨ p.mark.kind = .comment) =
      (((allTokens s).map k.classifyToken).filter
        fun t => t.mark.kind = .keyword ∨ t.mark.kind = .comment).map
          fun t => ⟨number, t.start, t.stop, t.mark⟩ := by
  refine eq_of_pairwise_lt Span.start
    ((pairwise_start_highlightLine k number hfeed).filter _) ?_ ?_
  · have hlexing := lexing_allTokens s
    have htokens : ((allTokens s).map k.classifyToken).Pairwise fun t u => t.start < u.start :=
      List.pairwise_map.mpr (pairwise_start hlexing.ordered hlexing.text_ne_nil)
    exact List.pairwise_map.mpr ((htokens.filter _).imp fun h => Int.ofNat_lt.mpr h)
  · intro p
    simp only [List.mem_filter, List.mem_map, decide_eq_true_eq]
    constructor
    · rintro ⟨hp, hkind⟩
      obtain ⟨a, b, hrun, heq⟩ := (mem_highlightLine k number hfeed p).mp hp
      have hlt := hrun.start_lt_stop
      obtain ⟨t, ht, hi, hmark⟩ :=
        exists_token_of_columnMark hfeed (hrun.holds a (Nat.le_refl a) hlt) hkind
      have hrun' := (tokenMark_of_mem k hfeed ht).maximalRun hfeed ht (by rwa [hmark])
      rw [hmark] at hrun'
      obtain ⟨hstart, hstop⟩ := hrun'.unique hrun hi.1 hi.2 (Nat.le_refl a) hlt
      refine ⟨k.classifyToken t, ⟨⟨t, ht, rfl⟩, by rwa [hmark]⟩, ?_⟩
      rw [heq, ← hstart, ← hstop, hmark]
      rfl
    · rintro ⟨_, ⟨⟨t, ht, rfl⟩, hkind⟩, rfl⟩
      have hrun := (tokenMark_of_mem k hfeed ht).maximalRun hfeed ht hkind
      exact ⟨(mem_highlightLine k number hfeed _).mpr ⟨t.start, t.stop, hrun, rfl⟩, hkind⟩

/-- A span of a variable covers a column, and lies in the columns of a token that is one. -/
theorem exists_token_of_span {number : Int} (hfeed : '\n' ∉ s) {p : Span}
    (hp : p ∈ highlightLine k number s) (hkind : p.mark.kind = .envVar) :
    (∃ i : Nat, p.start ≤ i ∧ i < p.stop) ∧
      ∃ t ∈ allTokens s, (k.classifyToken t).mark = ⟨.envVar, none⟩ ∧
        t.start ≤ p.start ∧ p.stop ≤ t.stop := by
  obtain ⟨a, b, hrun, heq⟩ := (mem_highlightLine k number hfeed p).mp hp
  have hlt := hrun.start_lt_stop
  have hmark : p.mark = ⟨.envVar, none⟩ := by
    generalize p.mark = m at hkind hrun
    cases hrun.holds a (Nat.le_refl a) hlt with
    | envVar => rfl
    | comment | keyword | path | word => cases hkind
  rw [hmark] at hrun heq
  obtain ⟨t, ht, hi, hword, htmark⟩ :=
    exists_token_of_envVar hfeed (hrun.holds a (Nat.le_refl a) hlt)
  have hink (j : Nat) (ha : a ≤ j) (hb : j < b) : HasWordChar s j := by
    cases hrun.holds j ha hb with
    | envVar _ _ hin => exact hin.hasWordChar
  obtain ⟨hstart, hstop⟩ := hword.run.covers hink hi.1 hi.2 (Nat.le_refl a) hlt
  rw [heq]
  exact ⟨⟨a, Int.le_refl _, Int.ofNat_lt.mpr hlt⟩, t, ht, htmark, Int.ofNat_le.mpr hstart,
    Int.ofNat_le.mpr hstop⟩

/-- The tokens and the spans of a line agree. -/
theorem tokensMatchSpans_of_line (k : Catalog) (number : Int) (hfeed : '\n' ∉ s) :
    TokensMatchSpans number ((tokenize true s).map k.classifyToken) (highlightLine k number s) where
  keywords_comments := filter_highlightLine k number hfeed
  envVar_iff := by
    intro _ hmem
    obtain ⟨t, ht, rfl⟩ := List.mem_map.mp hmem
    constructor
    · intro hkind
      refine ⟨by simp [hkind], ?_⟩
      obtain ⟨i, hi, hcolumn⟩ :=
        (tokenMark_of_mem k hfeed ht).exists_columnMark (.inl hkind)
      obtain ⟨p, hp, hmark, hstart, hstop⟩ :=
        (exists_mem_highlightLine_iff k number hfeed).mpr hcolumn
      obtain ⟨-, u, hu, -, hle, hge⟩ := exists_token_of_span hfeed hp (by rwa [hmark])
      obtain rfl : t = u := eq_of_covers ht hu hi ⟨by omega, by omega⟩
      exact ⟨p, hp, by rwa [hmark], hle, hge⟩
    · rintro ⟨-, p, hp, hkind, hstart, hstop⟩
      obtain ⟨⟨i, hi, hi'⟩, u, hu, hmark, hle, hge⟩ := exists_token_of_span hfeed hp hkind
      have hcovers : t.Covers i := by
        change (t.start : Int) ≤ p.start at hstart
        change p.stop ≤ (t.stop : Int) at hstop
        exact ⟨by omega, by omega⟩
      rw [eq_of_covers ht hu hcovers ⟨by omega, by omega⟩, hmark]
  envVar_inside := by
    intro p hp hkind
    obtain ⟨-, t, ht, hmark, hinside⟩ := exists_token_of_span hfeed hp hkind
    exact ⟨k.classifyToken t, List.mem_map_of_mem ht, by rw [hmark], hinside⟩
  path_meets := by
    intro _ hmem hkind
    obtain ⟨t, ht, rfl⟩ := List.mem_map.mp hmem
    obtain ⟨i, hi, hcolumn⟩ := (tokenMark_of_mem k hfeed ht).exists_columnMark (.inr hkind)
    obtain ⟨p, hp, hmark, hcovers⟩ :=
      (exists_mem_highlightLine_iff k number hfeed).mpr hcolumn
    exact ⟨i, hi, p, hp, by rwa [hmark], hcovers⟩
  word_covered := by
    intro p hp hkind i hstart hstop
    have hcolumn : ColumnMark k s i p.mark :=
      (exists_mem_highlightLine_iff k number hfeed).mp ⟨p, hp, rfl, hstart, hstop⟩
    generalize p.mark = m at hkind hcolumn
    cases hcolumn with
    | word hcomment hkeyword _ _ _ hword =>
        obtain ⟨t, ht, hi, -, hmark⟩ :=
          exists_token_of_hasWordChar hfeed hcomment hkeyword hword
        refine ⟨k.classifyToken t, List.mem_map_of_mem ht, hi, ?_⟩
        rcases hmark with hmark | ⟨-, hmark | hmark⟩
        · exact .inr (.inr (by rw [hmark]))
        · exact .inr (.inl (by rw [hmark]))
        · exact .inl (by rw [hmark])
    | comment | keyword | envVar | path => cases hkind

/-! ### All lines -/

/-- The spans that bear the number of a line are those of the line. -/
theorem filter_highlightFrom (k : Catalog) (number : Nat) {ls : List Line} {n : Nat} {l : Line}
    (hl : ls[n]? = some l) :
    (highlightFrom k number ls).filter (fun p => p.line = ((number + n : Nat) : Int)) =
      highlightLine k (number + n : Nat) l.body := by
  induction ls generalizing number n with
  | nil => cases hl
  | cons m rest ih =>
      rw [highlightFrom, List.filter_append]
      cases n with
      | zero =>
          obtain rfl : m = l := Option.some.inj hl
          have hline : (highlightLine k number m.body).filter
              (fun p => p.line = ((number + 0 : Nat) : Int)) = highlightLine k number m.body :=
            List.filter_eq_self.mpr fun p hp => decide_eq_true (line_of_mem_highlightLine hp)
          have hrest : (highlightFrom k (number + 1) rest).filter
              (fun p => p.line = ((number + 0 : Nat) : Int)) = [] := by
            refine List.filter_eq_nil_iff.mpr fun p hp => ?_
            have hle := number_le_of_mem_highlightFrom hp
            simp only [decide_eq_true_eq]
            omega
          rw [hline, hrest, List.append_nil, Nat.add_zero]
      | succ n =>
          have hline : (highlightLine k number m.body).filter
              (fun p => p.line = ((number + (n + 1) : Nat) : Int)) = [] := by
            refine List.filter_eq_nil_iff.mpr fun p hp => ?_
            rw [line_of_mem_highlightLine hp, decide_eq_true_eq]
            omega
          have hnumber : number + (n + 1) = number + 1 + n := by omega
          rw [hline, List.nil_append, hnumber]
          exact ih (number + 1) hl

/-- **The tokens and the spans of a line agree**, for any line by itself and for the record and the
spans of each line of a text. -/
theorem tokens_match_spans (k : Catalog) :
    (∀ number line, '\n' ∉ line →
      TokensMatchSpans number ((tokenize true line).map k.classifyToken)
        (highlightLine k number line)) ∧
      ∀ offset s, ∀ r ∈ analyseLines k offset s,
        TokensMatchSpans r.number r.tokens
          ((highlight k s).filter fun p => p.line = r.number) := by
  refine ⟨fun number line hfeed => tokensMatchSpans_of_line k number hfeed, ?_⟩
  intro offset s r hr
  obtain ⟨i, hi⟩ := List.mem_iff_getElem?.mp hr
  rw [analyseLines, getElem?_analyseFrom] at hi
  obtain ⟨l, hl, rfl⟩ := Option.map_eq_some_iff.mp hi
  rw [highlight, filter_highlightFrom k 1 hl]
  exact tokensMatchSpans_of_line k _ (feed_not_mem_of_mem_splitLines (List.mem_of_getElem? hl))

/-- A catalog of one word. -/
def netOnly : Catalog :=
  Catalog.ofDeclarations [("net".toList, .option)]

/-- A line with a variable and a path in one word, and punctuation in the path. -/
def leavingPath : Text :=
  "net $\x7bA\x7d/b,c # d".toList

/-- A path goes on behind the word in which it begins, and keeps clear of the variable before it. -/
theorem tokens_match_spans_leavingPath :
    '\n' ∉ leavingPath ∧
      highlightLine netOnly 1 leavingPath =
        [⟨1, 0, 3, ⟨.keyword, some .option⟩⟩, ⟨1, 4, 8, ⟨.envVar, none⟩⟩,
          ⟨1, 8, 12, ⟨.path, none⟩⟩, ⟨1, 13, 16, ⟨.comment, none⟩⟩] ∧
      TokensMatchSpans 1 ((tokenize true leavingPath).map netOnly.classifyToken)
        (highlightLine netOnly 1 leavingPath) :=
  ⟨by decide, by decide, (tokens_match_spans netOnly).1 1 leavingPath (by decide)⟩

end SandboxProfile
