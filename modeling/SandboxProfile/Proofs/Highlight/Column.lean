import SandboxProfile.Highlight.Line
import SandboxProfile.Proofs.Highlight.Pattern
import SandboxProfile.Proofs.Token.Lexer

/-!
# The mark of a column

`lineColumns` computes the marks of all columns of a line at once, from its tokens and from
two scans of the line. Here the mark of one column is described by what surrounds it, in the
order in which the rules take precedence, and the two are shown to agree.

## Main definitions

* `InComment`, `InKeyword` and `HasWordChar` say what surrounds a column.
* `ColumnMark` is the mark of a column.

## Main results

* `getElem?_lineColumns` — the computed marks are the described ones.
-/

namespace SandboxProfile

/-! ### What surrounds a column -/

/-- The column holds a character that can be part of a word. -/
def HasWordChar (s : Text) (i : Nat) : Prop :=
  ∃ c, s[i]? = some c ∧ isWordChar c = true

/-- The column lies at or after the first number sign and not in the carriage returns at the
end. -/
def InComment (s : Text) (i : Nat) : Prop :=
  s.code.length ≤ i ∧ i < (Text.dropEndWhile (· = '\r') s).length

/-- The column lies in a word that the catalog puts into a category. -/
def InKeyword (k : Catalog) (s : Text) (i : Nat) (c : Category) : Prop :=
  ∃ a b, MaximalRun (HasWordChar s) a b ∧ a ≤ i ∧ i < b ∧
    k.classify ((s.drop a).take (b - a)) = some c

/-- The mark of a column: that of the first rule that covers it. -/
inductive ColumnMark (k : Catalog) (s : Text) (i : Nat) : Mark → Prop where
  /-- Comments come first. -/
  | comment : InComment s i → ColumnMark k s i ⟨.comment, none⟩
  /-- Keywords come second. -/
  | keyword {c : Category} : ¬InComment s i → InKeyword k s i c →
      ColumnMark k s i ⟨.keyword, some c⟩
  /-- Variables come third. -/
  | envVar : ¬InComment s i → (∀ c, ¬InKeyword k s i c) → InVariable s i →
      ColumnMark k s i ⟨.envVar, none⟩
  /-- Paths come fourth. -/
  | path : ¬InComment s i → (∀ c, ¬InKeyword k s i c) → ¬InVariable s i → InPath s i →
      ColumnMark k s i ⟨.path, none⟩
  /-- Words in the code come last. -/
  | word : ¬InComment s i → (∀ c, ¬InKeyword k s i c) → ¬InVariable s i → ¬InPath s i →
      i < s.code.length → HasWordChar s i → ColumnMark k s i ⟨.word, none⟩

theorem HasWordChar.lt_length {s : Text} {i : Nat} (h : HasWordChar s i) : i < s.length := by
  obtain ⟨c, hc, -⟩ := h
  exact (List.getElem?_eq_some_iff.mp hc).1

/-- A word character is ink. -/
theorem HasWordChar.hasInk {s : Text} {i : Nat} (h : HasWordChar s i) : HasInk s i := by
  obtain ⟨c, hc, hword⟩ := h
  refine ⟨c, hc, ?_⟩
  simp only [isWordChar, Bool.and_eq_true, Bool.not_eq_true'] at hword
  exact hword.1.1

theorem InKeyword.hasWordChar {k : Catalog} {s : Text} {i : Nat} {c : Category}
    (h : InKeyword k s i c) : HasWordChar s i := by
  obtain ⟨a, b, hrun, ha, hb, -⟩ := h
  exact hrun.holds i ha hb

/-- A marked column lies in the line. -/
theorem ColumnMark.lt_length {k : Catalog} {s : Text} {i : Nat} {m : Mark}
    (h : ColumnMark k s i m) : i < s.length := by
  cases h with
  | comment h =>
      obtain ⟨cut, hs, -⟩ := Text.exists_dropEndWhile_append (· = '\r') s
      have hlen := congrArg List.length hs
      rw [List.length_append] at hlen
      have := h.2
      omega
  | keyword _ h => exact h.hasWordChar.lt_length
  | envVar _ _ h =>
      obtain ⟨before, v, after, hs, -, -, hlt⟩ := h
      have hlen := congrArg List.length hs
      simp only [List.length_append] at hlen
      omega
  | path _ _ _ h => exact h.hasInk.lt_length
  | word _ _ _ _ _ h => exact h.lt_length

/-! ### Tokens in order -/

/-- Tokens that stand in order between two columns. -/
structure TokensBetween (start stop : Nat) (ts : List Token) : Prop where
  /-- No token begins before the one before it ends. -/
  pairwise : ts.Pairwise fun t u => t.stop ≤ u.start
  /-- No token begins before the first column. -/
  start_le : ∀ t ∈ ts, start ≤ t.start
  /-- No token ends after the last column. -/
  stop_le : ∀ t ∈ ts, t.stop ≤ stop

/-- The tokens after the first one stand after it. -/
theorem TokensBetween.tail {start stop : Nat} {t : Token} {ts : List Token}
    (h : TokensBetween start stop (t :: ts)) : TokensBetween t.stop stop ts := by
  obtain ⟨hhead, htail⟩ := List.pairwise_cons.mp h.pairwise
  exact ⟨htail, hhead, fun u hu => h.stop_le u (List.mem_cons_of_mem _ hu)⟩

theorem Token.start_le_stop (t : Token) : t.start ≤ t.stop :=
  Nat.le_add_right _ _

/-- Every column up to the last one has a place. -/
theorem length_tokenColumns (k : Catalog) {start stop : Nat} {ts : List Token}
    (h : TokensBetween start stop ts) : (tokenColumns k stop start ts).length = stop - start := by
  induction ts generalizing start with
  | nil => simp [tokenColumns]
  | cons t ts ih =>
      have hstart := h.start_le t List.mem_cons_self
      have hstop := h.stop_le t List.mem_cons_self
      rw [tokenColumns, List.length_append, List.length_append, ih h.tail]
      simp only [List.length_replicate]
      rw [Token.stop] at hstop ⊢
      omega

/-- The columns of the first token and those before it end with the token. -/
theorem length_firstColumns (k : Catalog) {start : Nat} {t : Token} (h : start ≤ t.start) :
    (List.replicate (t.start - start) (none : Option Mark) ++
      List.replicate t.text.length (k.tokenMark t)).length = t.stop - start := by
  rw [List.length_append, List.length_replicate, List.length_replicate, Token.stop]
  omega

theorem getElem?_tokenColumns_cons (k : Catalog) {start stop i : Nat} {t : Token}
    {ts : List Token} (hstart : start ≤ t.start) (hi : t.stop ≤ i) :
    (tokenColumns k stop start (t :: ts))[i - start]? =
      (tokenColumns k stop t.stop ts)[i - t.stop]? := by
  have hlen := length_firstColumns k hstart
  have hle := t.start_le_stop
  rw [tokenColumns, List.getElem?_append_right (by omega), hlen,
    show i - start - (t.stop - start) = i - t.stop by omega]

/-- A token marks its columns. -/
theorem getElem?_tokenColumns_of_mem (k : Catalog) {start stop i : Nat} {ts : List Token}
    (h : TokensBetween start stop ts) {t : Token} (ht : t ∈ ts) (hstart : t.start ≤ i)
    (hstop : i < t.stop) :
    (tokenColumns k stop start ts)[i - start]? = some (k.tokenMark t) := by
  induction ts generalizing start with
  | nil => cases ht
  | cons u ts ih =>
      have hu := h.start_le u List.mem_cons_self
      rcases List.mem_cons.mp ht with rfl | ht
      · have hlen := length_firstColumns k hu
        rw [tokenColumns, List.getElem?_append_left (by omega),
          List.getElem?_append_right (by simp; omega), List.length_replicate]
        rw [Token.stop] at hstop
        exact List.getElem?_replicate_of_lt (by omega)
      · have hafter := h.tail.start_le t ht
        rw [getElem?_tokenColumns_cons k hu (by omega)]
        exact ih h.tail ht

/-- Columns outside of all tokens have no mark. -/
theorem getElem?_tokenColumns_of_not_mem (k : Catalog) {start stop i : Nat} {ts : List Token}
    (h : TokensBetween start stop ts) (hnone : ∀ t ∈ ts, ¬(t.start ≤ i ∧ i < t.stop))
    (hstart : start ≤ i) (hstop : i < stop) :
    (tokenColumns k stop start ts)[i - start]? = some none := by
  induction ts generalizing start with
  | nil => exact List.getElem?_replicate_of_lt (by omega)
  | cons u ts ih =>
      have hu := h.start_le u List.mem_cons_self
      have hle := u.start_le_stop
      have hout := hnone u List.mem_cons_self
      by_cases hi : i < u.start
      · have hlen := length_firstColumns k hu
        rw [tokenColumns, List.getElem?_append_left (by omega),
          List.getElem?_append_left (by simp; omega)]
        exact List.getElem?_replicate_of_lt (by omega)
      · rw [getElem?_tokenColumns_cons k hu (by omega)]
        exact ih h.tail (fun t ht => hnone t (List.mem_cons_of_mem _ ht)) (by omega)

/-! ### The tokens of a line -/

/-- A token leaves out characters of its run at most at the end. -/
theorem stop_tokenOfRun_le (r : Run (Char × Option TokenKind) TokenKind) :
    (tokenOfRun r).stop ≤ r.stop := by
  have hlen : (tokenOfRun r).text.length ≤ r.members.length := by
    simp only [tokenOfRun]
    split
    · obtain ⟨cut, hs, -⟩ :=
        Text.exists_dropEndWhile_append (· = '\r') (r.members.map Prod.fst)
      have hcut := congrArg List.length hs
      rw [List.length_append, List.length_map] at hcut
      omega
    · rw [List.length_map]
  exact Nat.add_le_add_left hlen r.start

/-- The tokens of a text stand in order and inside of it. -/
theorem tokensBetween_allTokens (s : Text) : TokensBetween 0 s.length (allTokens s) := by
  refine ⟨?_, fun t _ => Nat.zero_le _, fun t ht => ?_⟩
  · refine List.pairwise_map.mpr
      ((pairwise_runsFrom Prod.snd 0 (charClasses false s)).imp fun {q r} h => ?_)
    exact Nat.le_trans (stop_tokenOfRun_le q) h.1
  · obtain ⟨r, hr, rfl⟩ := List.mem_map.mp ht
    have hstop := stop_le_of_mem_runsFrom hr
    rw [length_charClasses, Nat.zero_add] at hstop
    exact Nat.le_trans (stop_tokenOfRun_le r) hstop

/-- Words are what is neither blank nor punctuation nor a number sign. -/
theorem charClass_eq_word {c : Char} : charClass c = some .word ↔ isWordChar c = true := by
  rw [charClass, isWordChar]
  by_cases hb : isBlank c = true
  · simp [hb]
  · by_cases hs : c = '#'
    · simp [hs]
    · by_cases hp : isPunctuation c = true
      · simp [hb, hs, hp]
      · simp [hb, hs, hp]

/-- Code has tokens of two kinds. -/
theorem kind_of_charClass {c : Char} {kind : TokenKind} (hc : c ≠ '#')
    (h : charClass c = some kind) : kind = .word ∨ kind = .punctuation := by
  rw [charClass, if_neg hc] at h
  split at h
  · cases h
  · split at h
    · exact .inr (Option.some.inj h).symm
    · exact .inl (Option.some.inj h).symm

/-- The class at a place of code. -/
theorem keyAt_code (code : Text) (i : Nat) :
    keyAt Prod.snd (code.map fun c => (c, charClass c)) i = code[i]?.bind charClass := by
  rw [keyAt, List.getElem?_map, Option.bind_map]
  rfl

/-- A token of code is a maximal stretch of characters of its class. -/
theorem maximalRun_of_mem_codeTokens {code : Text} (hsign : '#' ∉ code) {t : Token}
    (h : t ∈ codeTokens code) :
    MaximalRun (fun i => code[i]?.bind charClass = some t.mark.kind) t.start t.stop ∧
      t.text = (code.drop t.start).take (t.stop - t.start) := by
  obtain ⟨r, hr, rfl⟩ := List.mem_map.mp h
  have hrun := maximalRun_of_mem_runsFrom hr
  obtain ⟨c, hc⟩ : ∃ c ∈ code, charClass c = some r.key := by
    obtain ⟨a, members, hm⟩ := List.exists_cons_of_ne_nil (members_ne_nil_of_mem_runsFrom hr)
    obtain ⟨before, after, hl, -⟩ := exists_append_of_mem_runsFrom hr
    have ha : a ∈ code.map fun c => (c, charClass c) := by
      rw [hl, hm]
      simp
    obtain ⟨c, hc, rfl⟩ := List.mem_map.mp ha
    exact ⟨c, hc, Run.key_of_mem_runsFrom hr _ (hm ▸ List.mem_cons_self)⟩
  have hkey : r.key ≠ .comment := fun he =>
    charClass_ne_comment (fun hs => hsign (hs ▸ hc.1)) (he ▸ hc.2)
  have htext : (tokenOfRun r).text = r.members.map Prod.fst := if_neg hkey
  have hstop : (tokenOfRun r).stop = r.stop := by
    rw [Token.stop, htext, List.length_map]
    rfl
  rw [hstop, htext]
  refine ⟨(maximalRun_congr fun i => by rw [keyAt_code]; rfl).mp hrun, ?_⟩
  obtain ⟨before, after, hl, hs⟩ := exists_append_of_mem_runsFrom hr
  have hcode := congrArg (List.map Prod.fst) hl
  rw [List.map_map, List.map_append, List.map_append,
    show Prod.fst ∘ (fun c : Char => (c, charClass c)) = id from rfl, List.map_id] at hcode
  have hstart : (tokenOfRun r).start = (before.map Prod.fst).length := by
    rw [List.length_map, ← Nat.zero_add before.length]
    exact hs
  rw [hcode, hstart, List.drop_left, Run.stop]
  refine (List.take_left' ?_).symm
  rw [List.length_map, List.length_map]
  omega

/-- No token of code is a comment. -/
theorem kind_ne_of_mem_codeTokens {code : Text} (hsign : '#' ∉ code) {t : Token}
    (h : t ∈ codeTokens code) : t.mark.kind ≠ .comment := by
  obtain ⟨hrun, -⟩ := maximalRun_of_mem_codeTokens hsign h
  obtain ⟨c, hc, hkind⟩ :=
    Option.bind_eq_some_iff.mp (hrun.holds t.start (Nat.le_refl _) hrun.start_lt_stop)
  intro hcomment
  rw [hcomment] at hkind
  exact charClass_ne_comment (fun he => hsign (he ▸ List.mem_of_getElem? hc)) hkind

/-- Every place of code with a class lies in a token of that class. -/
theorem exists_codeToken {code : Text} (hsign : '#' ∉ code) {i : Nat} {kind : TokenKind}
    (h : code[i]?.bind charClass = some kind) :
    ∃ t ∈ codeTokens code, t.mark.kind = kind ∧ t.start ≤ i ∧ i < t.stop := by
  rw [← keyAt_code] at h
  obtain ⟨r, hr, hkey, hstart, hstop⟩ := exists_run_of_keyAt 0 h
  have ht : tokenOfRun r ∈ codeTokens code := List.mem_map_of_mem hr
  obtain ⟨hrun, -⟩ := maximalRun_of_mem_codeTokens hsign ht
  have hrun' : MaximalRun (fun i => code[i]?.bind charClass = some r.key) r.start r.stop :=
    (maximalRun_congr fun i => by rw [keyAt_code]).mp (maximalRun_of_mem_runsFrom hr)
  obtain ⟨-, hsame⟩ := hrun.unique hrun' (Nat.le_refl _) hrun.start_lt_stop (Nat.le_refl _)
    hrun'.start_lt_stop
  rw [Nat.zero_add] at hstart hstop
  exact ⟨_, ht, hkey, hstart, hsame ▸ hstop⟩

/-- A column lies in a comment exactly if it lies in the token of one. -/
theorem inComment_iff {s : Text} {i : Nat} :
    InComment s i ↔
      ∃ t ∈ commentTokens s.code.length s.comment, t.start ≤ i ∧ i < t.stop := by
  rcases comment_eq_nil_or_cons s with hnil | ⟨rest, hcons⟩
  · have hs : s.code = s := by
      conv_rhs => rw [← code_append_comment s, hnil, List.append_nil]
    obtain ⟨cut, hcut, -⟩ := Text.exists_dropEndWhile_append (· = '\r') s
    have hlen := congrArg List.length hcut
    rw [List.length_append] at hlen
    rw [hnil]
    refine iff_of_false (fun h => ?_) fun ⟨t, ht, _⟩ => nomatch ht
    rw [InComment, hs] at h
    omega
  · have hdrop : Text.dropEndWhile (· = '\r') s.comment ≠ [] := by
      rw [hcons, Text.dropEndWhile_cons (by decide)]
      exact List.cons_ne_nil _ _
    have hs : Text.dropEndWhile (· = '\r') s =
        s.code ++ Text.dropEndWhile (· = '\r') s.comment := by
      conv_lhs => rw [← code_append_comment s]
      exact Text.dropEndWhile_append hdrop s.code
    rw [InComment, hs, List.length_append, hcons, commentTokens]
    simp [Token.stop]

/-! ### The marks that tokens put on columns -/

/-- The mark of a word by itself. -/
def Catalog.wordMark (k : Catalog) (word : Text) : Mark :=
  match k.classify word with
  | some c => ⟨.keyword, some c⟩
  | none => ⟨.word, none⟩

/-- The marks of the columns of a line, patterns left aside. -/
def tokenMarks (k : Catalog) (s : Text) : List (Option Mark) :=
  tokenColumns k s.length 0 (allTokens s)

/-- A token marks its columns, wherever it stands in the line. -/
theorem getElem?_tokenMarks_of_mem (k : Catalog) {s : Text} {t : Token} (ht : t ∈ allTokens s)
    {i : Nat} (hstart : t.start ≤ i) (hstop : i < t.stop) :
    (tokenMarks k s)[i]? = some (k.tokenMark t) :=
  getElem?_tokenColumns_of_mem k (tokensBetween_allTokens s) ht hstart hstop

/-- Comments mark their columns. -/
theorem getElem?_tokenMarks_of_inComment (k : Catalog) {s : Text} (hfeed : '\n' ∉ s) {i : Nat}
    (h : InComment s i) : (tokenMarks k s)[i]? = some (some ⟨.comment, none⟩) := by
  obtain ⟨t, ht, hstart, hstop⟩ := inComment_iff.mp h
  have hmem : t ∈ allTokens s := (mem_allTokens_of_line hfeed).mpr (.inr ht)
  rw [getElem?_tokenMarks_of_mem k hmem hstart hstop, Catalog.tokenMark,
    mark_of_mem_commentTokens ht]

/-- Code is the start of its line. -/
theorem getElem?_code {s : Text} {i : Nat} (h : i < s.code.length) : s.code[i]? = s[i]? := by
  conv_rhs => rw [← code_append_comment s]
  exact (List.getElem?_append_left h).symm

/-- Where code ends, no word goes on. -/
theorem not_hasWordChar_length_code (s : Text) : ¬HasWordChar s s.code.length := by
  rintro ⟨c, hc, hword⟩
  have hget : s[s.code.length]? = s.comment[0]? := by
    have happend : (s.code ++ s.comment)[s.code.length]? = s.comment[0]? := by
      rw [List.getElem?_append_right (Nat.le_refl _), Nat.sub_self]
    rwa [code_append_comment] at happend
  rw [hget] at hc
  rcases comment_eq_nil_or_cons s with hnil | ⟨rest, hcons⟩
  · rw [hnil] at hc
    cases hc
  · rw [hcons] at hc
    obtain rfl : '#' = c := Option.some.inj hc
    exact absurd hword (by decide)

/-- Words of the code are those of the line. -/
theorem class_code_eq_word {s : Text} {i : Nat} (h : i ≤ s.code.length) :
    s.code[i]?.bind charClass = some .word ↔ HasWordChar s i := by
  rcases Nat.lt_or_eq_of_le h with hlt | rfl
  · rw [getElem?_code hlt, Option.bind_eq_some_iff, HasWordChar]
    simp only [charClass_eq_word]
  · refine iff_of_false ?_ (not_hasWordChar_length_code s)
    simp

/-- A stretch of word characters in the code is one in the line. -/
theorem maximalRun_hasWordChar {s : Text} {a b : Nat}
    (h : MaximalRun (fun i => s.code[i]?.bind charClass = some .word) a b) :
    b ≤ s.code.length ∧ MaximalRun (HasWordChar s) a b := by
  have hlt := h.start_lt_stop
  have hb : b ≤ s.code.length := by
    obtain ⟨c, hc, -⟩ := Option.bind_eq_some_iff.mp (h.holds (b - 1) (by omega) (by omega))
    have := (List.getElem?_eq_some_iff.mp hc).1
    omega
  refine ⟨hb, hlt, fun i ha hi => ?_, fun i hi hword => ?_, fun hword => ?_⟩
  · exact (class_code_eq_word (by omega)).mp (h.holds i ha hi)
  · exact h.not_before i hi ((class_code_eq_word (by omega)).mpr hword)
  · exact h.not_after ((class_code_eq_word hb).mpr hword)

/-- The token is a word of the line: a longest stretch of word characters before the first number
sign. -/
structure Token.IsWordOf (t : Token) (s : Text) : Prop where
  /-- Its columns are a longest stretch of word characters. -/
  run : MaximalRun (HasWordChar s) t.start t.stop
  /-- It ends before the first number sign. -/
  stop_le : t.stop ≤ s.code.length
  /-- Its characters are those of the line on its columns. -/
  text_eq : t.text = (s.drop t.start).take (t.stop - t.start)

/-- The tokens of code that are words are words of the line. -/
theorem isWordOf_of_mem_codeTokens {s : Text} {t : Token} (ht : t ∈ codeTokens s.code)
    (hkind : t.mark.kind = .word) : t.IsWordOf s := by
  obtain ⟨hrun, htext⟩ := maximalRun_of_mem_codeTokens (sign_not_mem_code s) ht
  rw [hkind] at hrun
  obtain ⟨hle, hrun'⟩ := maximalRun_hasWordChar hrun
  have hlt := hrun.start_lt_stop
  refine ⟨hrun', hle, ?_⟩
  conv_rhs => rw [← code_append_comment s]
  rw [List.drop_append_of_le_length (by omega),
    List.take_append_of_le_length (by rw [List.length_drop]; omega), htext]

/-- Every column of code with a word character lies in a word. -/
theorem exists_isWordOf {s : Text} (hfeed : '\n' ∉ s) {i : Nat} (hi : i < s.code.length)
    (hword : HasWordChar s i) :
    ∃ t ∈ allTokens s, t.mark.kind = .word ∧ t.IsWordOf s ∧ t.start ≤ i ∧ i < t.stop := by
  obtain ⟨t, ht, hkind, hstart, hstop⟩ := exists_codeToken (sign_not_mem_code s)
    ((class_code_eq_word (Nat.le_of_lt hi)).mpr hword)
  exact ⟨t, (mem_allTokens_of_line hfeed).mpr (.inl ht), hkind,
    isWordOf_of_mem_codeTokens ht hkind, hstart, hstop⟩

/-- Words mark their columns. -/
theorem getElem?_tokenMarks_of_word (k : Catalog) {s : Text} (hfeed : '\n' ∉ s) {i : Nat}
    (hi : i < s.code.length) (hword : HasWordChar s i) :
    ∃ a b, MaximalRun (HasWordChar s) a b ∧ a ≤ i ∧ i < b ∧
      (tokenMarks k s)[i]? = some (some (k.wordMark ((s.drop a).take (b - a)))) := by
  obtain ⟨t, ht, hkind, htword, hstart, hstop⟩ := exists_isWordOf hfeed hi hword
  refine ⟨t.start, t.stop, htword.run, hstart, hstop, ?_⟩
  rw [getElem?_tokenMarks_of_mem k ht hstart hstop, Catalog.tokenMark, hkind, ← htword.text_eq,
    Catalog.wordMark]
  cases k.classify t.text <;> rfl

/-- What is neither comment nor word has no mark from a token. -/
theorem getElem?_tokenMarks_of_neither (k : Catalog) {s : Text} (hfeed : '\n' ∉ s) {i : Nat}
    (hi : i < s.length) (hcomment : ¬InComment s i)
    (hword : ¬(i < s.code.length ∧ HasWordChar s i)) :
    (tokenMarks k s)[i]? = some none := by
  by_cases hcover : ∃ t ∈ allTokens s, t.start ≤ i ∧ i < t.stop
  · obtain ⟨t, ht, hstart, hstop⟩ := hcover
    rw [getElem?_tokenMarks_of_mem k ht hstart hstop]
    rcases (mem_allTokens_of_line hfeed).mp ht with ht | ht
    · obtain ⟨hrun, -⟩ := maximalRun_of_mem_codeTokens (sign_not_mem_code s) ht
      have hclass := hrun.holds i hstart hstop
      obtain ⟨c, hc, hkind⟩ := Option.bind_eq_some_iff.mp hclass
      have hmem := List.mem_of_getElem? hc
      have hlt := (List.getElem?_eq_some_iff.mp hc).1
      rcases kind_of_charClass (fun he => sign_not_mem_code s (he ▸ hmem)) hkind with hk | hk
      · rw [hk] at hclass
        exact absurd ⟨hlt, (class_code_eq_word (Nat.le_of_lt hlt)).mp hclass⟩ hword
      · rw [Catalog.tokenMark, hk]
    · exact absurd (inComment_iff.mpr ⟨t, ht, hstart, hstop⟩) hcomment
  · refine getElem?_tokenColumns_of_not_mem k (tokensBetween_allTokens s) (fun t ht hi => ?_)
      (Nat.zero_le i) hi
    exact hcover ⟨t, ht, hi⟩

/-! ### The strongest mark -/

/-- Nothing is stronger than a comment. -/
@[simp] theorem columnMark_comment (inVariable inPath : Bool) :
    columnMark (some ⟨.comment, none⟩) inVariable inPath = some ⟨.comment, none⟩ := by
  cases inVariable <;> cases inPath <;> rfl

/-- No pattern is stronger than a keyword. -/
@[simp] theorem columnMark_keyword (c : Category) (inVariable inPath : Bool) :
    columnMark (some ⟨.keyword, some c⟩) inVariable inPath = some ⟨.keyword, some c⟩ := by
  cases inVariable <;> cases inPath <;> rfl

/-- Patterns are stronger than a word. -/
theorem columnMark_word (inVariable inPath : Bool) :
    columnMark (some ⟨.word, none⟩) inVariable inPath =
      some (if inVariable then ⟨.envVar, none⟩ else if inPath then ⟨.path, none⟩
        else ⟨.word, none⟩) := by
  cases inVariable <;> cases inPath <;> rfl

/-- Patterns mark punctuation and blanks. -/
theorem columnMark_none (inVariable inPath : Bool) :
    columnMark none inVariable inPath =
      if inVariable then some ⟨.envVar, none⟩ else if inPath then some ⟨.path, none⟩
        else none := by
  cases inVariable <;> cases inPath <;> rfl

/-- Every character has a column. -/
@[simp] theorem length_lineColumns (k : Catalog) (s : Text) :
    (lineColumns k s).length = s.length := by
  have htokens : (tokenColumns k s.length 0 (tokenize true s)).length = s.length :=
    length_tokenColumns k (tokensBetween_allTokens s)
  simp [lineColumns, htokens]

/-- There is no column behind the line. -/
theorem lt_length_of_getElem?_lineColumns {k : Catalog} {s : Text} {i : Nat} {m : Option Mark}
    (h : (lineColumns k s)[i]? = some m) : i < s.length := by
  have hlt := (List.getElem?_eq_some_iff.mp h).1
  rwa [length_lineColumns] at hlt

/-- A column has the strongest of the three marks that it can have. -/
theorem getElem?_lineColumns_of_lt (k : Catalog) {s : Text} {i : Nat} {token : Option Mark}
    (htoken : (tokenMarks k s)[i]? = some token) (hi : i < s.length) :
    ∃ inVariable inPath, (inVariable = true ↔ InVariable s i) ∧ (inPath = true ↔ InPath s i) ∧
      (lineColumns k s)[i]? = some (columnMark token inVariable inPath) := by
  obtain ⟨v, hv⟩ : ∃ v, (variableColumns s)[i]? = some v :=
    ⟨_, List.getElem?_eq_getElem (by simpa using hi)⟩
  obtain ⟨p, hp⟩ : ∃ p, (pathColumns s)[i]? = some p :=
    ⟨_, List.getElem?_eq_getElem (by simpa using hi)⟩
  refine ⟨v, p, ?_, ?_, ?_⟩
  · rw [← getElem?_variableColumns, hv, Option.some.injEq]
  · rw [← getElem?_pathColumns, hp, Option.some.injEq]
  · have hzip : ((variableColumns s).zip (pathColumns s))[i]? = some (v, p) :=
      List.getElem?_zip_eq_some.mpr ⟨hv, hp⟩
    exact List.getElem?_zipWith_eq_some.mpr ⟨token, (v, p), htoken, hzip, rfl⟩

/-- Outside of comments, ink stands in the code: what a comment leaves out is blank. -/
theorem HasInk.lt_length_code {s : Text} {i : Nat} (h : HasInk s i) (hcomment : ¬InComment s i) :
    i < s.code.length := by
  by_contra hcode
  have hlen : (Text.dropEndWhile (· = '\r') s).length ≤ i := by
    by_contra hlt
    exact hcomment ⟨by omega, by omega⟩
  obtain ⟨cut, hs, hcut⟩ := Text.exists_dropEndWhile_append (· = '\r') s
  obtain ⟨d, hd, hink⟩ := h
  rw [hs, List.getElem?_append_right hlen] at hd
  have hreturn : d = '\r' := by simpa using hcut d (List.mem_of_getElem? hd)
  subst hreturn
  exact absurd hink (by decide)

theorem HasWordChar.lt_length_code {s : Text} {i : Nat} (h : HasWordChar s i)
    (hcomment : ¬InComment s i) : i < s.code.length :=
  h.hasInk.lt_length_code hcomment

/-- A column outside of comments and words lies in no keyword. -/
theorem not_inKeyword_of_neither {k : Catalog} {s : Text} {i : Nat} (hcomment : ¬InComment s i)
    (hword : ¬(i < s.code.length ∧ HasWordChar s i)) (c : Category) : ¬InKeyword k s i c := by
  intro h
  exact hword ⟨h.hasWordChar.lt_length_code hcomment, h.hasWordChar⟩

/-- Outside of comments and keywords, patterns come before words. -/
theorem columnMark_iff {k : Catalog} {s : Text} {i : Nat} (hcomment : ¬InComment s i)
    (hkeyword : ∀ c, ¬InKeyword k s i c) {m : Mark} :
    ColumnMark k s i m ↔
      (InVariable s i ∧ m = ⟨.envVar, none⟩) ∨
      (¬InVariable s i ∧ InPath s i ∧ m = ⟨.path, none⟩) ∨
      (¬InVariable s i ∧ ¬InPath s i ∧ (i < s.code.length ∧ HasWordChar s i) ∧
        m = ⟨.word, none⟩) := by
  constructor
  · intro h
    cases h with
    | comment h => exact absurd h hcomment
    | keyword _ h => exact absurd h (hkeyword _)
    | envVar _ _ h => exact .inl ⟨h, rfl⟩
    | path _ _ h h' => exact .inr (.inl ⟨h, h', rfl⟩)
    | word _ _ h h' hi hw => exact .inr (.inr ⟨h, h', ⟨hi, hw⟩, rfl⟩)
  · rintro (⟨h, rfl⟩ | ⟨h, h', rfl⟩ | ⟨h, h', ⟨hi, hw⟩, rfl⟩)
    · exact .envVar hcomment hkeyword h
    · exact .path hcomment hkeyword h h'
    · exact .word hcomment hkeyword h h' hi hw

/-- **The computed marks are the described ones.** -/
theorem getElem?_lineColumns (k : Catalog) {s : Text} (hfeed : '\n' ∉ s) {i : Nat} {m : Mark} :
    (lineColumns k s)[i]? = some (some m) ↔ ColumnMark k s i m := by
  by_cases hi : i < s.length
  swap
  · exact iff_of_false (fun h => hi (lt_length_of_getElem?_lineColumns h)) fun h => hi h.lt_length
  by_cases hcomment : InComment s i
  · obtain ⟨v, p, -, -, hget⟩ :=
      getElem?_lineColumns_of_lt k (getElem?_tokenMarks_of_inComment k hfeed hcomment) hi
    rw [hget, columnMark_comment, Option.some.injEq, Option.some.injEq]
    constructor
    · rintro rfl
      exact .comment hcomment
    · intro h
      cases h with
      | comment => rfl
      | keyword h | envVar h | path h | word h => exact absurd hcomment h
  by_cases hword : i < s.code.length ∧ HasWordChar s i
  · obtain ⟨a, b, hrun, ha, hb, htoken⟩ := getElem?_tokenMarks_of_word k hfeed hword.1 hword.2
    obtain ⟨v, p, hv, hp, hget⟩ := getElem?_lineColumns_of_lt k htoken hi
    have hsame {c : Category} (h : InKeyword k s i c) :
        k.classify ((s.drop a).take (b - a)) = some c := by
      obtain ⟨a', b', hrun', ha', hb', hclass⟩ := h
      obtain ⟨rfl, rfl⟩ := hrun.unique hrun' ha hb ha' hb'
      exact hclass
    rw [hget, Catalog.wordMark]
    cases hclass : k.classify ((s.drop a).take (b - a)) with
    | some c =>
        have hin : InKeyword k s i c := ⟨a, b, hrun, ha, hb, hclass⟩
        rw [columnMark_keyword, Option.some.injEq, Option.some.injEq]
        constructor
        · rintro rfl
          exact .keyword hcomment hin
        · intro h
          cases h with
          | comment h => exact absurd h hcomment
          | keyword _ h => rw [Option.some.inj (hclass.symm.trans (hsame h))]
          | envVar _ h | path _ h | word _ h => exact absurd hin (h c)
    | none =>
        have hnone (c : Category) : ¬InKeyword k s i c := fun h =>
          nomatch hclass.symm.trans (hsame h)
        rw [columnMark_iff hcomment hnone, columnMark_word, ← hv, ← hp]
        cases v <;> cases p <;> simp [hword, eq_comm]
  · obtain ⟨v, p, hv, hp, hget⟩ :=
      getElem?_lineColumns_of_lt k (getElem?_tokenMarks_of_neither k hfeed hi hcomment hword) hi
    rw [hget, columnMark_iff hcomment (not_inKeyword_of_neither hcomment hword), columnMark_none,
      ← hv, ← hp]
    cases v <;> cases p <;> simp [hword, eq_comm]

end SandboxProfile
