import Mathlib.Data.List.Sort
import SandboxProfile.Proofs.Token.Lexeme

/-!
# Cutting a text by its rules

A *lexing* of a text is a list of tokens that obeys the rules of the language: tokens in order,
everything between them blank, comments that begin where no earlier comment is, and words and
punctuation cut as long as possible outside of the comments of the list.

The rules speak about the comments of the list itself. That they leave no choice is seen from the
left: the first number sign of a line is covered by some token, only a comment can cover it, and
that comment cannot have begun before.

## Main definitions

* `Lexing` is a list of tokens that obeys the rules.

## Main results

* `Lexing.mem_iff` — the tokens of any lexing are the lexemes of the text.
* `lexing_allTokens` — the tokens of a text obey the rules.
* `lexing_iff` — a text has one lexing, and its tokens are that one.
-/

namespace SandboxProfile

/-- The position lies in a token. -/
def Token.Covers (t : Token) (i : Nat) : Prop :=
  t.start ≤ i ∧ i < t.stop

/-- The position lies in none of the comments of a list of tokens. -/
def OutsideComments (ts : List Token) (i : Nat) : Prop :=
  ∀ t ∈ ts, t.mark.kind = .comment → ¬t.Covers i

/-- The position holds a punctuation character. -/
def HasPunctuation (s : Text) (i : Nat) : Prop :=
  ∃ c, s[i]? = some c ∧ isPunctuation c = true

/-- A list of tokens that obeys the rules of the language. -/
structure Lexing (s : Text) (ts : List Token) : Prop where
  /-- Each token ends before the next ones begin. -/
  ordered : ts.Pairwise fun t u => t.stop ≤ u.start
  /-- No token is empty. -/
  text_ne_nil : ∀ t ∈ ts, t.text ≠ []
  /-- The text of a token is that between its offsets. -/
  text_eq : ∀ t ∈ ts, t.text = s.between t.start t.stop
  /-- Tokens are comments, words or punctuation, and have no category. -/
  mark_eq : ∀ t ∈ ts,
    t.mark = ⟨.comment, none⟩ ∨ t.mark = ⟨.word, none⟩ ∨ t.mark = ⟨.punctuation, none⟩
  /-- What no token covers is blank. -/
  blank : ∀ i c, s[i]? = some c → (∀ t ∈ ts, ¬t.Covers i) → isBlank c = true
  /-- A comment begins at a number sign. -/
  comment_sign : ∀ t ∈ ts, t.mark.kind = .comment → s[t.start]? = some '#'
  /-- That number sign is in no earlier comment. -/
  comment_start : ∀ t ∈ ts, t.mark.kind = .comment → ∀ u ∈ ts, u.mark.kind = .comment →
    u.start < t.start → ¬u.Covers t.start
  /-- A comment runs up to the next line feed or the end, less the carriage returns there. -/
  comment_text : ∀ t ∈ ts, t.mark.kind = .comment → t.text = commentAt s t.start
  /-- The words are the longest stretches of word characters outside of the comments. -/
  words : ∀ a b, (∃ t ∈ ts, t.mark.kind = .word ∧ t.start = a ∧ t.stop = b) ↔
    MaximalRun (fun i => OutsideComments ts i ∧ HasWordChar s i) a b
  /-- So it is with punctuation. -/
  punctuation : ∀ a b, (∃ t ∈ ts, t.mark.kind = .punctuation ∧ t.start = a ∧ t.stop = b) ↔
    MaximalRun (fun i => OutsideComments ts i ∧ HasPunctuation s i) a b

/-- Punctuation is neither blank nor a number sign. -/
theorem charClass_eq_punctuation {c : Char} :
    charClass c = some .punctuation ↔ isPunctuation c = true := by
  rw [charClass]
  by_cases hp : isPunctuation c = true
  · have hmem : c ∈ SandboxProfile.punctuation := by simpa [isPunctuation] using hp
    have hapart : SandboxProfile.punctuation.all (fun d => !isBlank d && d ≠ '#') = true := by
      decide +kernel
    have hc := List.all_eq_true.mp hapart c hmem
    rw [Bool.and_eq_true, Bool.not_eq_true', decide_eq_true_eq] at hc
    simp [hc, hp]
  · split
    · simp [hp]
    · split <;> simp [hp]

/-- Word characters are told by their class. -/
theorem hasWordChar_iff {s : Text} {i : Nat} :
    HasWordChar s i ↔ s[i]?.bind charClass = some .word := by
  simp only [HasWordChar, Option.bind_eq_some_iff, charClass_eq_word]

/-- So is punctuation. -/
theorem hasPunctuation_iff {s : Text} {i : Nat} :
    HasPunctuation s i ↔ s[i]?.bind charClass = some .punctuation := by
  simp only [HasPunctuation, Option.bind_eq_some_iff, charClass_eq_punctuation]

/-- The lexemes that are comments. -/
theorem lexeme_comment_iff {s : Text} {t : Token} (hkind : t.mark.kind = .comment) :
    Lexeme s t ↔
      OpensComment s t.start ∧ t.text = commentAt s t.start ∧ t.mark = ⟨.comment, none⟩ := by
  constructor
  · intro h
    cases h with
    | comment hopen => exact ⟨hopen, rfl, rfl⟩
    | code hcode => rcases hcode with rfl | rfl <;> cases hkind
  · rintro ⟨hopen, htext, hmark⟩
    obtain ⟨text, start, mark⟩ := t
    obtain rfl : text = commentAt s start := htext
    obtain rfl : mark = ⟨.comment, none⟩ := hmark
    exact .comment hopen

/-- A token of a stretch of code ends where the stretch does. -/
theorem stop_between {s : Text} {kind : TokenKind} {a b : Nat}
    (hrun : MaximalRun (InCode s kind) a b) (m : Mark) :
    Token.stop ⟨s.between a b, a, m⟩ = b := by
  have hlt := hrun.start_lt_stop
  -- The last place of the stretch is in the text.
  obtain ⟨c, hc, -⟩ := Option.bind_eq_some_iff.mp (hrun.holds (b - 1) (by omega) (by omega)).2
  have hlast := (List.getElem?_eq_some_iff.mp hc).1
  simp only [Token.stop, Text.between, List.length_take, List.length_drop]
  omega

/-- The lexemes that are words or punctuation. -/
theorem lexeme_code_iff {s : Text} {t : Token}
    (hkind : t.mark.kind = .word ∨ t.mark.kind = .punctuation) :
    Lexeme s t ↔ MaximalRun (InCode s t.mark.kind) t.start t.stop ∧
      t.text = s.between t.start t.stop ∧ t.mark = ⟨t.mark.kind, none⟩ := by
  constructor
  · intro h
    cases h with
    | comment => rcases hkind with hkind | hkind <;> cases hkind
    | code _ hrun =>
        rw [stop_between hrun]
        exact ⟨hrun, rfl, rfl⟩
  · rintro ⟨hrun, htext, hmark⟩
    have ht : t = ⟨s.between t.start t.stop, t.start, ⟨t.mark.kind, none⟩⟩ := by
      rw [← htext, ← hmark]
    rw [ht]
    exact .code hkind hrun

/-- The comments of the list are those that the text calls for. -/
def HasComments (s : Text) (ts : List Token) : Prop :=
  ∀ t, t.mark.kind = .comment → (t ∈ ts ↔ Lexeme s t)

/-- Such comments leave the same places to code as number signs do. -/
theorem HasComments.outside_iff {s : Text} {ts : List Token} (h : HasComments s ts) {i : Nat}
    {c : Char} (hc : s[i]? = some c) (hreturn : c ≠ '\r') :
    OutsideComments ts i ↔ ¬BehindSign s i := by
  rw [behindSign_iff_commentAt hc hreturn]
  constructor
  · rintro hout ⟨a, hopen, ha, hi⟩
    exact hout _ ((h _ rfl).mpr (.comment hopen)) rfl ⟨ha, hi⟩
  · rintro hnone t ht hkind ⟨hstart, hstop⟩
    obtain ⟨hopen, htext, -⟩ := (lexeme_comment_iff hkind).mp ((h t hkind).mp ht)
    rw [Token.stop, htext] at hstop
    exact hnone ⟨t.start, hopen, hstart, hstop⟩

/-- The longest stretches of one kind outside of such comments are those of the code. -/
theorem HasComments.maximalRun_iff {s : Text} {ts : List Token} (h : HasComments s ts)
    {kind : TokenKind} {a b : Nat} :
    MaximalRun (fun i => OutsideComments ts i ∧ s[i]?.bind charClass = some kind) a b ↔
      MaximalRun (InCode s kind) a b := by
  refine maximalRun_congr fun i => and_congr_left fun hclass => ?_
  obtain ⟨c, hc, hkind⟩ := Option.bind_eq_some_iff.mp hclass
  refine h.outside_iff hc ?_
  rintro rfl
  cases hkind

namespace Lexing

variable {s : Text} {ts : List Token}

/-- The first number sign of a line begins a comment of every lexing. -/
theorem exists_comment (h : Lexing s ts) {a : Nat} (hopen : OpensComment s a) :
    ∃ t ∈ ts, t.mark.kind = .comment ∧ t.start = a := by
  by_contra hnone
  -- The number sign is not blank, so a token covers it; it is no part of words or punctuation.
  have hcovered : ∃ t ∈ ts, t.Covers a := by
    by_contra hcovered
    push Not at hcovered
    exact absurd (h.blank a '#' hopen.1 hcovered) (by decide)
  obtain ⟨t, ht, hstart, hstop⟩ := hcovered
  rcases h.mark_eq t ht with hmark | hmark | hmark
  · have hkind : t.mark.kind = .comment := by rw [hmark]
    rcases Nat.eq_or_lt_of_le hstart with heq | hlt
    · exact hnone ⟨t, ht, hkind, heq⟩
    · -- A comment that begins earlier would have this number sign behind its own.
      refine hopen.2 (a - 1) (by omega) ⟨t.start, by omega, h.comment_sign t ht hkind, ?_⟩
      intro m hm hma
      have hlen := length_commentAt_le s t.start
      rw [Token.stop, h.comment_text t ht hkind] at hstop
      have hfeed := ne_feed_of_lt_restOfLine (s := s) (i := t.start) (m := m - t.start) (by omega)
      rwa [show t.start + (m - t.start) = m by omega] at hfeed
  · have hrun := (h.words t.start t.stop).mp ⟨t, ht, by rw [hmark], rfl, rfl⟩
    obtain ⟨-, c, hc, hword⟩ := hrun.holds a hstart hstop
    rw [hopen.1] at hc
    exact absurd (Option.some.inj hc ▸ hword) (by decide)
  · have hrun := (h.punctuation t.start t.stop).mp ⟨t, ht, by rw [hmark], rfl, rfl⟩
    obtain ⟨-, c, hc, hpunctuation⟩ := hrun.holds a hstart hstop
    rw [hopen.1] at hc
    exact absurd (Option.some.inj hc ▸ hpunctuation) (by decide)

/-- A comment of a lexing begins at the first number sign of its line. -/
theorem opensComment (h : Lexing s ts) {t : Token} (ht : t ∈ ts)
    (hkind : t.mark.kind = .comment) : OpensComment s t.start := by
  have hsign := h.comment_sign t ht hkind
  refine ⟨hsign, fun j hj hbehind => ?_⟩
  obtain ⟨a, ha, hopen, hfeed⟩ := behindSign_iff_opensComment.mp hbehind
  obtain ⟨u, hu, hukind, rfl⟩ := h.exists_comment hopen
  have hlt := lt_commentAt (a := u.start) hsign (by decide) (by omega) fun m hm hmt => by
    rcases Nat.eq_or_lt_of_le hmt with rfl | hmt
    · rw [hsign]
      decide
    · exact hfeed m hm (by omega)
  refine h.comment_start t ht hkind u hu hukind (by omega) ⟨by omega, ?_⟩
  rwa [Token.stop, h.comment_text u hu hukind]

/-- Tokens of a lexing have no category. -/
theorem mark_eq_kind (h : Lexing s ts) {t : Token} (ht : t ∈ ts) :
    t.mark = ⟨t.mark.kind, none⟩ := by
  rcases h.mark_eq t ht with hmark | hmark | hmark <;> rw [hmark]

/-- Two tokens of which one is in a lexing are the same if they agree in all but the category,
which the other must lack as well. -/
theorem mem_of_eq (h : Lexing s ts) {t u : Token} (hu : u ∈ ts) (htext : t.text = u.text)
    (hstart : t.start = u.start) (hkind : t.mark.kind = u.mark.kind)
    (hmark : t.mark = ⟨t.mark.kind, none⟩) : t ∈ ts := by
  have humark := h.mark_eq_kind hu
  obtain ⟨text, start, mark⟩ := t
  obtain ⟨text', start', mark'⟩ := u
  dsimp only at htext hstart hkind hmark humark
  rw [hmark, hkind, ← humark, htext, hstart]
  exact hu

/-- The comments of a lexing are those that the text calls for. -/
theorem hasComments (h : Lexing s ts) : HasComments s ts := by
  intro t hkind
  rw [lexeme_comment_iff hkind]
  constructor
  · intro ht
    exact ⟨h.opensComment ht hkind, h.comment_text t ht hkind, hkind ▸ h.mark_eq_kind ht⟩
  · rintro ⟨hopen, htext, hmark⟩
    obtain ⟨u, hu, hukind, hstart⟩ := h.exists_comment hopen
    have hutext := h.comment_text u hu hukind
    rw [hstart, ← htext] at hutext
    exact h.mem_of_eq hu hutext.symm hstart.symm (hkind.trans hukind.symm) (hkind ▸ hmark)

/-- The words and the punctuation of a lexing are the longest stretches of the code. -/
theorem code_iff (h : Lexing s ts) {kind : TokenKind} (hkind : kind = .word ∨ kind = .punctuation)
    (a b : Nat) :
    (∃ t ∈ ts, t.mark.kind = kind ∧ t.start = a ∧ t.stop = b) ↔
      MaximalRun (InCode s kind) a b := by
  rw [← h.hasComments.maximalRun_iff]
  rcases hkind with rfl | rfl
  · simpa only [hasWordChar_iff] using h.words a b
  · simpa only [hasPunctuation_iff] using h.punctuation a b

/-- **The tokens of any lexing are the lexemes of the text.** -/
theorem mem_iff (h : Lexing s ts) {t : Token} : t ∈ ts ↔ Lexeme s t := by
  by_cases hcomment : t.mark.kind = .comment
  · exact h.hasComments t hcomment
  constructor
  · intro ht
    have hkind : t.mark.kind = .word ∨ t.mark.kind = .punctuation := by
      rcases h.mark_eq t ht with hmark | hmark | hmark
      · exact absurd (by rw [hmark]) hcomment
      · exact .inl (by rw [hmark])
      · exact .inr (by rw [hmark])
    exact (lexeme_code_iff hkind).mpr ⟨(h.code_iff hkind _ _).mp ⟨t, ht, rfl, rfl, rfl⟩,
      h.text_eq t ht, h.mark_eq_kind ht⟩
  · intro hlexeme
    have hkind : t.mark.kind = .word ∨ t.mark.kind = .punctuation := by
      cases hlexeme with
      | comment => exact absurd rfl hcomment
      | code hkind => exact hkind
    obtain ⟨hrun, htext, hmark⟩ := (lexeme_code_iff hkind).mp hlexeme
    obtain ⟨u, hu, hukind, hstart, hstop⟩ := (h.code_iff hkind _ _).mpr hrun
    have hutext := h.text_eq u hu
    rw [hstart, hstop, ← htext] at hutext
    exact h.mem_of_eq hu hutext.symm hstart.symm hukind.symm hmark

end Lexing

/-! ### The lexing of a text -/

/-- Lists that stand in the strict order of a measure are told by their members alone. -/
theorem eq_of_pairwise_lt {α β : Type} [Preorder β] (f : α → β) {as bs : List α}
    (has : as.Pairwise fun a b => f a < f b) (hbs : bs.Pairwise fun a b => f a < f b)
    (hmem : ∀ a, a ∈ as ↔ a ∈ bs) : as = bs := by
  have hirrefl : Std.Irrefl fun a b => f a < f b := ⟨fun a => lt_irrefl (f a)⟩
  have hantisymm : Std.Antisymm fun a b => f a < f b := ⟨fun _ _ h h' => absurd h (lt_asymm h')⟩
  exact has.eq_of_mem_iff hbs hmem

/-- Tokens in order, none of them empty, begin one after the other. -/
theorem pairwise_start {ts : List Token} (h : ts.Pairwise fun t u => t.stop ≤ u.start)
    (hne : ∀ t ∈ ts, t.text ≠ []) : ts.Pairwise fun t u => t.start < u.start := by
  refine h.imp_of_mem fun {t u} ht _ hle => ?_
  have hlt : t.start < t.stop := Nat.lt_add_of_pos_right (List.length_pos_iff.mpr (hne t ht))
  omega

/-- Two lists of tokens in order, none of them empty, are the same if they have the same
members. -/
theorem eq_of_mem_iff {ts us : List Token} (hts : ts.Pairwise fun t u => t.stop ≤ u.start)
    (hus : us.Pairwise fun t u => t.stop ≤ u.start) (hne : ∀ t ∈ ts, t.text ≠ [])
    (hmem : ∀ t, t ∈ ts ↔ t ∈ us) : ts = us := by
  have hne' : ∀ t ∈ us, t.text ≠ [] := fun t ht => hne t ((hmem t).mpr ht)
  exact eq_of_pairwise_lt Token.start (pairwise_start hts hne) (pairwise_start hus hne') hmem

/-- No lexeme is empty. -/
theorem Lexeme.text_ne_nil {s : Text} {t : Token} (h : Lexeme s t) : t.text ≠ [] := by
  cases h with
  | comment hopen =>
      obtain ⟨rest, hcomment⟩ := commentAt_eq_cons hopen.1
      rw [hcomment]
      exact List.cons_ne_nil _ _
  | @code _ a b _ hrun =>
      intro (hnil : s.between a b = [])
      have hstop := stop_between hrun ⟨.word, none⟩
      have hlt := hrun.start_lt_stop
      simp only [Token.stop, hnil, List.length_nil] at hstop
      omega

/-- The text of a lexeme is that between its offsets. -/
theorem Lexeme.text_eq {s : Text} {t : Token} (h : Lexeme s t) :
    t.text = s.between t.start t.stop := by
  cases h with
  | @comment i _ =>
      obtain ⟨cut, hcut, -⟩ := Text.exists_dropEndWhile_append (· = '\r') (restOfLine s i)
      have hpre : commentAt s i <+: s.drop i :=
        (List.prefix_iff_exists_append_eq.mpr ⟨cut, hcut.symm⟩).trans (List.takeWhile_prefix _)
      rw [Text.between, Token.stop, Nat.add_sub_cancel_left]
      exact List.prefix_iff_eq_take.mp hpre
  | code _ hrun => rw [stop_between hrun]

/-- Every place of code lies in a token. -/
theorem exists_token_of_inCode {s : Text} {kind : TokenKind} {i : Nat} (h : InCode s kind i) :
    ∃ t ∈ allTokens s, t.Covers i := by
  have hne : kind ≠ .comment := by
    rcases h.kind with rfl | rfl <;> decide
  obtain ⟨r, hr, rfl, hstart, hstop⟩ :=
    exists_run_of_keyAt 0 ((keyAt_eq_of_ne_comment hne).mpr h)
  have hrun := (maximalRun_congr fun i => keyAt_eq_of_ne_comment hne).mp
    (maximalRun_of_mem_runsFrom hr)
  refine ⟨_, mem_allTokens_iff.mpr (.code h.kind hrun), ?_⟩
  rw [Token.Covers, stop_between hrun]
  rw [Nat.zero_add] at hstart hstop
  exact ⟨hstart, hstop⟩

/-- What no token of a text covers is blank. -/
theorem isBlank_of_not_covered {s : Text} {i : Nat} {c : Char} (hc : s[i]? = some c)
    (hnone : ∀ t ∈ allTokens s, ¬t.Covers i) : isBlank c = true := by
  by_contra hblank
  by_cases hbehind : BehindSign s i
  · have hreturn : c ≠ '\r' := by
      rintro rfl
      exact hblank (by decide)
    obtain ⟨a, hopen, ha, hlt⟩ := (behindSign_iff_commentAt hc hreturn).mp hbehind
    exact hnone _ (mem_allTokens_iff.mpr (.comment hopen)) ⟨ha, hlt⟩
  · obtain ⟨kind, hkind⟩ : ∃ kind, charClass c = some kind := by
      rw [charClass, if_neg hblank]
      split
      · exact ⟨_, rfl⟩
      · split <;> exact ⟨_, rfl⟩
    obtain ⟨t, ht, hcovers⟩ :=
      exists_token_of_inCode ⟨hbehind, Option.bind_eq_some_iff.mpr ⟨c, hc, hkind⟩⟩
    exact hnone t ht hcovers

/-- The tokens of a text obey the rules. -/
theorem lexing_allTokens (s : Text) : Lexing s (allTokens s) := by
  have hcomments : HasComments s (allTokens s) := fun t _ => mem_allTokens_iff
  have hcode {kind : TokenKind} (hkind : kind = .word ∨ kind = .punctuation) (a b : Nat) :
      (∃ t ∈ allTokens s, t.mark.kind = kind ∧ t.start = a ∧ t.stop = b) ↔
        MaximalRun (fun i => OutsideComments (allTokens s) i ∧
          s[i]?.bind charClass = some kind) a b := by
    rw [hcomments.maximalRun_iff]
    constructor
    · rintro ⟨t, ht, rfl, rfl, rfl⟩
      exact ((lexeme_code_iff hkind).mp (mem_allTokens_iff.mp ht)).1
    · intro hrun
      exact ⟨_, mem_allTokens_iff.mpr (.code hkind hrun), rfl, rfl, stop_between hrun _⟩
  have hcomment (t : Token) (ht : t ∈ allTokens s) (hkind : t.mark.kind = .comment) :=
    (lexeme_comment_iff hkind).mp (mem_allTokens_iff.mp ht)
  refine
    { ordered := (tokensBetween_allTokens s).pairwise
      text_ne_nil := fun t ht => (mem_allTokens_iff.mp ht).text_ne_nil
      text_eq := fun t ht => (mem_allTokens_iff.mp ht).text_eq
      mark_eq := fun t ht => ?_
      blank := fun i c hc hnone => isBlank_of_not_covered hc hnone
      comment_sign := fun t ht hkind => (hcomment t ht hkind).1.1
      comment_start := fun t ht hkind u hu hukind hlt hcovers => ?_
      comment_text := fun t ht hkind => (hcomment t ht hkind).2.1
      words := fun a b => by simpa only [hasWordChar_iff] using hcode (.inl rfl) a b
      punctuation := fun a b => by simpa only [hasPunctuation_iff] using hcode (.inr rfl) a b }
  · cases mem_allTokens_iff.mp ht with
    | comment => exact .inl rfl
    | code hkind =>
        rcases hkind with rfl | rfl
        · exact .inr (.inl rfl)
        · exact .inr (.inr rfl)
  · -- The place before the number sign would be in the earlier comment already.
    obtain ⟨hopen, htext, -⟩ := hcomment u hu hukind
    have hlen := length_commentAt_le s u.start
    have hstop := hcovers.2
    rw [Token.stop, htext] at hstop
    have hrun := maximalRun_behindSign_iff.mpr ⟨hopen, rfl⟩
    exact (hcomment t ht hkind).1.2 (t.start - 1) (by omega)
      (hrun.holds (t.start - 1) (by omega) (by omega)).2

/-- **A text has exactly one lexing**, which is the list of its tokens with the comments. The
tokens without the comments are the others of that list; the text alone says which they are, as
longest stretches of word characters and of punctuation that no number sign of their line
precedes. -/
theorem lexing_iff (s : Text) :
    (∀ ts, Lexing s ts ↔ ts = tokenize true s) ∧
      (tokenize false s = (tokenize true s).filter fun t => decide (t.mark.kind ≠ .comment)) ∧
      ∀ t, t ∈ tokenize false s ↔ ∃ kind a b, (kind = .word ∨ kind = .punctuation) ∧
        MaximalRun (InCode s kind) a b ∧ t = ⟨s.between a b, a, ⟨kind, none⟩⟩ := by
  refine ⟨fun ts => ⟨fun h => ?_, ?_⟩, rfl, fun t => ?_⟩
  · exact eq_of_mem_iff h.ordered (lexing_allTokens s).ordered h.text_ne_nil
      fun t => h.mem_iff.trans mem_allTokens_iff.symm
  · rintro rfl
    exact lexing_allTokens s
  · have hmem : t ∈ tokenize false s ↔ Lexeme s t ∧ t.mark.kind ≠ .comment := by
      rw [← mem_allTokens_iff]
      simp [tokenize]
    rw [hmem]
    constructor
    · rintro ⟨h, hkind⟩
      cases h with
      | comment => exact absurd rfl hkind
      | code hcode hrun => exact ⟨_, _, _, hcode, hrun, rfl⟩
    · rintro ⟨kind, a, b, hkind, hrun, rfl⟩
      refine ⟨.code hkind hrun, ?_⟩
      rcases hkind with rfl | rfl
      · exact nofun
      · exact nofun

end SandboxProfile
