import SandboxProfile.Proofs.Highlight.Column

/-!
# Which tokens a text has

Tokens are computed from the classes of all characters at once. Here they are described by the
text around them. A *lexeme* is a token that the text calls for: a comment from the first number
sign of a line to the end of the line, or a longest stretch of word characters or of punctuation
that no number sign of its line precedes.

## Main definitions

* `BehindSign` and `OpensComment` say where comments are.
* `InCode` is the class of a place outside of comments.
* `Lexeme` is a token that the text calls for.

## Main results

* `maximalRun_behindSign_iff` — a comment reaches from the first number sign of a line to the end.
* `mem_allTokens_iff` — the tokens of a text are its lexemes.
-/

namespace SandboxProfile

/-! ### Comments -/

/-- The position is that of a number sign or lies behind one on the same line. -/
def BehindSign (s : Text) (i : Nat) : Prop :=
  ∃ j ≤ i, s[j]? = some '#' ∧ ∀ m, j ≤ m → m ≤ i → s[m]? ≠ some '\n'

/-- The position is that of the first number sign of its line. -/
def OpensComment (s : Text) (i : Nat) : Prop :=
  s[i]? = some '#' ∧ ∀ j, j + 1 = i → ¬BehindSign s j

/-- What stands from a position up to the end of the line. -/
def restOfLine (s : Text) (i : Nat) : Text :=
  (s.drop i).takeWhile (· ≠ '\n')

/-- The comment that begins at a position. The carriage returns at its end are left out. -/
def commentAt (s : Text) (i : Nat) : Text :=
  Text.dropEndWhile (· = '\r') (restOfLine s i)

/-- A position behind a number sign is no line feed. -/
theorem BehindSign.ne_feed {s : Text} {i : Nat} (h : BehindSign s i) : s[i]? ≠ some '\n' := by
  obtain ⟨j, hj, -, hfeed⟩ := h
  exact hfeed i hj (Nat.le_refl i)

/-- A number sign is behind itself. -/
theorem behindSign_self {s : Text} {i : Nat} (h : s[i]? = some '#') : BehindSign s i := by
  refine ⟨i, Nat.le_refl i, h, fun m hm hmi => ?_⟩
  obtain rfl : m = i := Nat.le_antisymm hmi hm
  rw [h]
  decide

/-- A position is behind a number sign exactly if one opens a comment before it on its line. -/
theorem behindSign_iff_opensComment {s : Text} {i : Nat} :
    BehindSign s i ↔
      ∃ a ≤ i, OpensComment s a ∧ ∀ m, a ≤ m → m ≤ i → s[m]? ≠ some '\n' := by
  constructor
  · rintro ⟨j, hj, hsign, hfeed⟩
    -- The first position from which the number sign is seen without a line feed between.
    induction j using Nat.strong_induction_on with
    | _ j ih =>
        by_cases hopen : OpensComment s j
        · exact ⟨j, hj, hopen, hfeed⟩
        · rw [OpensComment, not_and] at hopen
          have hbefore := hopen hsign
          push Not at hbefore
          obtain ⟨k, rfl, j', hj', hsign', hfeed'⟩ := hbefore
          refine ih j' (by omega) (by omega) hsign' fun m hm hmi => ?_
          rcases Nat.lt_or_ge k m with hlt | hle
          · exact hfeed m (by omega) hmi
          · exact hfeed' m hm hle
  · rintro ⟨a, ha, hopen, hfeed⟩
    exact ⟨a, ha, hopen.1, hfeed⟩

/-- Characters of the rest of a line stand in the text. -/
theorem getElem?_restOfLine {s : Text} {i m : Nat} (hm : m < (restOfLine s i).length) :
    s[i + m]? = (restOfLine s i)[m]? := by
  have hsplit : restOfLine s i ++ (s.drop i).dropWhile (· ≠ '\n') = s.drop i :=
    List.takeWhile_append_dropWhile
  rw [← List.getElem?_drop, ← hsplit, List.getElem?_append_left hm]

/-- The rest of a line holds no line feed. -/
theorem ne_feed_of_lt_restOfLine {s : Text} {i m : Nat} (hm : m < (restOfLine s i).length) :
    s[i + m]? ≠ some '\n' := by
  rw [getElem?_restOfLine hm]
  intro h
  simpa using List.mem_takeWhile_imp (List.mem_of_getElem? h)

/-- The text or the line ends behind the rest of a line. -/
theorem getElem?_length_restOfLine (s : Text) (i : Nat) :
    s.length ≤ i + (restOfLine s i).length ∨
      s[i + (restOfLine s i).length]? = some '\n' := by
  have hsplit : restOfLine s i ++ (s.drop i).dropWhile (· ≠ '\n') = s.drop i :=
    List.takeWhile_append_dropWhile
  have hhead := List.head?_dropWhile_not (fun c => decide (c ≠ '\n')) (s.drop i)
  rw [← List.getElem?_drop, ← hsplit, List.getElem?_append_right (Nat.le_refl _), Nat.sub_self]
  cases hrest : (s.drop i).dropWhile (· ≠ '\n') with
  | nil =>
      rw [hrest, List.append_nil] at hsplit
      have hlen := congrArg List.length hsplit
      rw [List.length_drop] at hlen
      exact .inl (by omega)
  | cons c rest =>
      rw [hrest] at hhead
      exact .inr (by simpa using hhead)

/-- **The stretches behind a number sign** begin where a comment opens and end with the line. -/
theorem maximalRun_behindSign_iff {s : Text} {a b : Nat} :
    MaximalRun (fun i => i < s.length ∧ BehindSign s i) a b ↔
      OpensComment s a ∧ b = a + (restOfLine s a).length := by
  have hmake (hopen : OpensComment s a) :
      MaximalRun (fun i => i < s.length ∧ BehindSign s i) a (a + (restOfLine s a).length) := by
    have hlt : a < s.length := (List.getElem?_eq_some_iff.mp hopen.1).1
    refine ⟨?_, fun i ha hi => ?_, fun i hi h => hopen.2 i hi h.2, fun h => ?_⟩
    · by_contra hlen
      have hzero : (restOfLine s a).length = 0 := by omega
      rcases getElem?_length_restOfLine s a with hend | hfeed
      · omega
      · rw [hzero, Nat.add_zero, hopen.1] at hfeed
        exact absurd hfeed (by decide)
    · have hfeed (m : Nat) (ham : a ≤ m) (hm : m ≤ i) : s[m]? ≠ some '\n' := by
        have := ne_feed_of_lt_restOfLine (s := s) (i := a) (m := m - a) (by omega)
        rwa [show a + (m - a) = m by omega] at this
      have hlast : i - a < (restOfLine s a).length := by omega
      have hget := getElem?_restOfLine hlast
      rw [show a + (i - a) = i by omega, List.getElem?_eq_getElem hlast] at hget
      exact ⟨(List.getElem?_eq_some_iff.mp hget).1, a, ha, hopen.1, hfeed⟩
    · rcases getElem?_length_restOfLine s a with hend | hfeed
      · exact absurd h.1 (by omega)
      · exact h.2.ne_feed hfeed
  constructor
  · intro h
    have hopen : OpensComment s a := by
      obtain ⟨hlt, j, hj, hsign, hfeed⟩ := h.holds a (Nat.le_refl a) h.start_lt_stop
      rcases Nat.eq_or_lt_of_le hj with rfl | hj
      · exact ⟨hsign, fun i hi hbehind => h.not_before i hi ⟨by omega, hbehind⟩⟩
      · refine absurd ⟨by omega, j, by omega, hsign, fun m hjm hm => ?_⟩
          (h.not_before (a - 1) (by omega))
        exact hfeed m hjm (by omega)
    have hsame := (hmake hopen).unique h (Nat.le_refl a) (hmake hopen).start_lt_stop
      (Nat.le_refl a) h.start_lt_stop
    exact ⟨hopen, hsame.2.symm⟩
  · rintro ⟨hopen, rfl⟩
    exact hmake hopen

/-- A comment is not longer than the rest of its line. -/
theorem length_commentAt_le (s : Text) (i : Nat) :
    (commentAt s i).length ≤ (restOfLine s i).length := by
  obtain ⟨cut, hcut, -⟩ := Text.exists_dropEndWhile_append (· = '\r') (restOfLine s i)
  have hlen := congrArg List.length hcut
  rw [List.length_append] at hlen
  rw [commentAt]
  omega

/-- Only carriage returns of the rest of a line are left out of the comment. -/
theorem lt_length_commentAt {s : Text} {i m : Nat} (hm : m < (restOfLine s i).length)
    (hreturn : s[i + m]? ≠ some '\r') : m < (commentAt s i).length := by
  obtain ⟨cut, hcut, hall⟩ := Text.exists_dropEndWhile_append (· = '\r') (restOfLine s i)
  by_contra hle
  rw [getElem?_restOfLine hm, hcut, List.getElem?_append_right (by
    rw [commentAt] at hle
    omega)] at hreturn
  have hlen := congrArg List.length hcut
  rw [List.length_append] at hlen
  rw [commentAt] at hle
  have hlt : m - (Text.dropEndWhile (· = '\r') (restOfLine s i)).length < cut.length := by omega
  rw [List.getElem?_eq_getElem hlt] at hreturn
  exact hreturn (congrArg some (of_decide_eq_true (hall _ (List.getElem_mem hlt))))

theorem commentAt_eq_cons {s : Text} {i : Nat} (h : s[i]? = some '#') :
    ∃ rest, commentAt s i = '#' :: rest := by
  obtain ⟨hlt, hget⟩ := List.getElem?_eq_some_iff.mp h
  refine ⟨Text.dropEndWhile (· = '\r') ((s.drop (i + 1)).takeWhile (· ≠ '\n')), ?_⟩
  rw [commentAt, restOfLine, List.drop_eq_getElem_cons hlt, hget,
    List.takeWhile_cons_of_pos (by decide), Text.dropEndWhile_cons (by decide)]

/-- What a position sees without a line feed between is in the rest of its line. -/
theorem lt_restOfLine {s : Text} {a i : Nat} (hi : i < s.length) (ha : a ≤ i)
    (hfeed : ∀ m, a ≤ m → m ≤ i → s[m]? ≠ some '\n') : i - a < (restOfLine s a).length := by
  by_contra hle
  rcases getElem?_length_restOfLine s a with hend | hend
  · omega
  · exact hfeed _ (Nat.le_add_right _ _) (by omega) hend

/-- Such a position is in the comment that begins there, unless it holds a carriage return. -/
theorem lt_commentAt {s : Text} {a i : Nat} {c : Char} (hc : s[i]? = some c) (hreturn : c ≠ '\r')
    (ha : a ≤ i) (hfeed : ∀ m, a ≤ m → m ≤ i → s[m]? ≠ some '\n') :
    i < a + (commentAt s a).length := by
  have hlt := lt_restOfLine (List.getElem?_eq_some_iff.mp hc).1 ha hfeed
  have hlen := lt_length_commentAt hlt (by
    rw [show a + (i - a) = i by omega, hc]
    exact fun he => hreturn (Option.some.inj he))
  omega

/-- **A character other than a carriage return is behind a number sign** exactly if it lies in a
comment that is opened on its line. -/
theorem behindSign_iff_commentAt {s : Text} {i : Nat} {c : Char} (hc : s[i]? = some c)
    (hreturn : c ≠ '\r') :
    BehindSign s i ↔ ∃ a, OpensComment s a ∧ a ≤ i ∧ i < a + (commentAt s a).length := by
  constructor
  · intro h
    obtain ⟨a, ha, hopen, hfeed⟩ := behindSign_iff_opensComment.mp h
    exact ⟨a, hopen, ha, lt_commentAt hc hreturn ha hfeed⟩
  · rintro ⟨a, hopen, ha, hlt⟩
    have hle := length_commentAt_le s a
    exact ((maximalRun_behindSign_iff.mpr ⟨hopen, rfl⟩).holds i ha (by omega)).2

/-! ### Classes of characters -/

/-- No line feed stands up to the position. -/
def NoFeedUpTo (s : Text) (i : Nat) : Prop :=
  ∀ m ≤ i, s[m]? ≠ some '\n'

/-- The position lies in a comment of the text, which may itself begin inside of one. -/
def Commented (inComment : Bool) (s : Text) (i : Nat) : Prop :=
  BehindSign s i ∨ (inComment = true ∧ NoFeedUpTo s i)

theorem noFeedUpTo_cons_succ {c : Char} {s : Text} {i : Nat} :
    NoFeedUpTo (c :: s) (i + 1) ↔ c ≠ '\n' ∧ NoFeedUpTo s i := by
  constructor
  · intro h
    exact ⟨fun hc => h 0 (Nat.zero_le _) (congrArg some hc), fun m hm => h (m + 1) (by omega)⟩
  · rintro ⟨hc, h⟩ m hm
    cases m with
    | zero => exact fun he => hc (Option.some.inj he)
    | succ m => exact h m (by omega)

/-- The first position is commented if a comment goes on or begins there. -/
theorem commented_cons_zero {inComment : Bool} {c : Char} {s : Text} :
    Commented inComment (c :: s) 0 ↔ c ≠ '\n' ∧ (inComment = true ∨ c = '#') := by
  constructor
  · rintro (⟨j, hj, hsign, hfeed⟩ | ⟨hcomment, hfeed⟩)
    · obtain rfl : j = 0 := Nat.le_zero.mp hj
      exact ⟨fun hc => hfeed 0 (Nat.le_refl 0) (Nat.le_refl 0) (congrArg some hc),
        .inr (Option.some.inj hsign)⟩
    · exact ⟨fun hc => hfeed 0 (Nat.le_refl 0) (congrArg some hc), .inl hcomment⟩
  · rintro ⟨hc, hcomment | rfl⟩
    · refine .inr ⟨hcomment, fun m hm => ?_⟩
      obtain rfl : m = 0 := Nat.le_zero.mp hm
      exact fun he => hc (Option.some.inj he)
    · exact .inl (behindSign_self rfl)

/-- A later position is commented if it is in what follows the first character, where a comment
goes on unless that character ends it. -/
theorem commented_cons_succ {inComment : Bool} {c : Char} {s : Text} {i : Nat} :
    Commented inComment (c :: s) (i + 1) ↔
      Commented (c ≠ '\n' && (inComment || c = '#')) s i := by
  have hflag : (decide (c ≠ '\n') && (inComment || decide (c = '#'))) = true ↔
      c ≠ '\n' ∧ (inComment = true ∨ c = '#') := by
    simp
  rw [Commented, Commented, hflag, noFeedUpTo_cons_succ]
  constructor
  · rintro (⟨j, hj, hsign, hfeed⟩ | ⟨hcomment, hc, hfeed⟩)
    · cases j with
      | zero =>
          have hc : c ≠ '\n' := fun hc => hfeed 0 (Nat.le_refl 0) hj (congrArg some hc)
          exact .inr ⟨⟨hc, .inr (Option.some.inj hsign)⟩,
            fun m hm => hfeed (m + 1) (Nat.zero_le _) (by omega)⟩
      | succ j =>
          exact .inl ⟨j, by omega, hsign, fun m hjm hm => hfeed (m + 1) (by omega) (by omega)⟩
    · exact .inr ⟨⟨hc, .inl hcomment⟩, hfeed⟩
  · rintro (⟨j, hj, hsign, hfeed⟩ | ⟨⟨hc, hcomment | rfl⟩, hfeed⟩)
    · refine .inl ⟨j + 1, by omega, hsign, fun m hjm hm => ?_⟩
      obtain ⟨m, rfl⟩ : ∃ n, m = n + 1 := ⟨m - 1, by omega⟩
      exact hfeed m (by omega) (by omega)
    · exact .inr ⟨hcomment, hc, hfeed⟩
    · exact .inl ⟨0, Nat.zero_le _, rfl, fun m _ hm => noFeedUpTo_cons_succ.mpr ⟨hc, hfeed⟩ m hm⟩

/-- The class of a character in a comment is comment, and else that of the character alone. -/
theorem keyAt_charClasses {inComment : Bool} {s : Text} {i : Nat} {kind : TokenKind} :
    keyAt Prod.snd (charClasses inComment s) i = some kind ↔
      (i < s.length ∧ Commented inComment s i ∧ kind = .comment) ∨
        (¬Commented inComment s i ∧ s[i]?.bind charClass = some kind) := by
  induction s generalizing inComment i with
  | nil => simp [charClasses, keyAt]
  | cons c rest ih =>
      cases i with
      | zero =>
          rw [commented_cons_zero]
          by_cases hc : c = '\n'
          · subst hc
            simp [charClasses, keyAt, charClass, isBlank]
          · by_cases hcomment : inComment = true ∨ c = '#'
            · have hflag : (inComment || decide (c = '#')) = true := by simpa using hcomment
              simp only [charClasses, if_neg hc, if_pos hflag, keyAt]
              simp [hc, hcomment, eq_comm]
            · have hflag : ¬(inComment || decide (c = '#')) = true := by simpa using hcomment
              simp only [charClasses, if_neg hc, if_neg hflag, keyAt]
              simp [hcomment]
      | succ i =>
          have hnext : keyAt Prod.snd (charClasses inComment (c :: rest)) (i + 1) =
              keyAt Prod.snd (charClasses (c ≠ '\n' && (inComment || c = '#')) rest) i := by
            rw [charClasses]
            by_cases hc : c = '\n'
            · simp [hc, keyAt]
            · by_cases hflag : (inComment || decide (c = '#')) = true
              · rw [if_neg hc, if_pos hflag, hflag]
                simp [hc, keyAt]
              · rw [if_neg hc, if_neg hflag, Bool.eq_false_iff.mpr hflag]
                simp [keyAt]
          rw [hnext, ih, commented_cons_succ, List.length_cons, Nat.add_lt_add_iff_right,
            List.getElem?_cons_succ]

/-- The position holds a character of a class and lies in no comment. -/
def InCode (s : Text) (kind : TokenKind) (i : Nat) : Prop :=
  ¬BehindSign s i ∧ s[i]?.bind charClass = some kind

/-- The places of comments have the class of comments. -/
theorem keyAt_eq_comment {s : Text} {i : Nat} :
    keyAt Prod.snd (charClasses false s) i = some .comment ↔ i < s.length ∧ BehindSign s i := by
  rw [keyAt_charClasses]
  constructor
  · rintro (⟨hi, hbehind | ⟨hflag, -⟩, -⟩ | ⟨hcode, hclass⟩)
    · exact ⟨hi, hbehind⟩
    · cases hflag
    · obtain ⟨c, hc, hclass⟩ := Option.bind_eq_some_iff.mp hclass
      refine absurd hclass (charClass_ne_comment fun hsign => hcode (.inl ?_))
      exact behindSign_self (hsign ▸ hc)
  · rintro ⟨hi, hbehind⟩
    exact .inl ⟨hi, .inl hbehind, rfl⟩

/-- The places of code have the class of their character. -/
theorem keyAt_eq_of_ne_comment {s : Text} {i : Nat} {kind : TokenKind} (hkind : kind ≠ .comment) :
    keyAt Prod.snd (charClasses false s) i = some kind ↔ InCode s kind i := by
  rw [keyAt_charClasses]
  constructor
  · rintro (⟨-, -, hcomment⟩ | ⟨hcode, hclass⟩)
    · exact absurd hcomment hkind
    · exact ⟨fun h => hcode (.inl h), hclass⟩
  · rintro ⟨hcode, hclass⟩
    refine .inr ⟨?_, hclass⟩
    rintro (h | ⟨hflag, -⟩)
    · exact hcode h
    · cases hflag

/-! ### Lexemes -/

/-- The part of a text between two positions. -/
def Text.between (s : Text) (a b : Nat) : Text :=
  (s.drop a).take (b - a)

/-- All of a text is the text. -/
@[simp] theorem Text.between_zero_length (s : Text) : s.between 0 s.length = s := by
  rw [Text.between, List.drop_zero, Nat.sub_zero, List.take_length]

/-- A token that the text around it calls for. -/
inductive Lexeme (s : Text) : Token → Prop where
  /-- The first number sign of a line begins a comment. -/
  | comment {i : Nat} : OpensComment s i → Lexeme s ⟨commentAt s i, i, ⟨.comment, none⟩⟩
  /-- A longest stretch of word characters or of punctuation outside of comments is a token. -/
  | code {kind : TokenKind} {a b : Nat} : kind = .word ∨ kind = .punctuation →
      MaximalRun (InCode s kind) a b → Lexeme s ⟨s.between a b, a, ⟨kind, none⟩⟩

/-- The members of a run are the part of the text that it stands for. -/
theorem map_fst_members {s : Text} {r : Run (Char × Option TokenKind) TokenKind}
    (h : r ∈ runsFrom Prod.snd 0 (charClasses false s)) :
    r.members.map Prod.fst = s.between r.start r.stop := by
  obtain ⟨before, after, hl, hs⟩ := exists_append_of_mem_runsFrom h
  have htext := congrArg (List.map Prod.fst) hl
  rw [map_fst_charClasses, List.map_append, List.map_append] at htext
  have hstart : r.start = (before.map Prod.fst).length := by
    rw [List.length_map]
    omega
  rw [Text.between, hstart, htext, List.drop_left, Run.stop, ← hstart]
  refine (List.take_left' ?_).symm
  rw [List.length_map]
  omega

/-- Only words and punctuation stand outside of comments. -/
theorem InCode.kind {s : Text} {kind : TokenKind} {i : Nat} (h : InCode s kind i) :
    kind = .word ∨ kind = .punctuation := by
  obtain ⟨hcode, hclass⟩ := h
  obtain ⟨c, hc, hclass⟩ := Option.bind_eq_some_iff.mp hclass
  exact kind_of_charClass (fun hsign => hcode (behindSign_self (hsign ▸ hc))) hclass

/-- The rest of a line is the part of the text up to its end. -/
theorem between_restOfLine (s : Text) (i : Nat) :
    s.between i (i + (restOfLine s i).length) = restOfLine s i := by
  rw [Text.between, Nat.add_sub_cancel_left]
  exact List.prefix_iff_eq_take.mp (List.takeWhile_prefix _) |>.symm

/-- **The tokens of a text are its lexemes.** -/
theorem mem_allTokens_iff {s : Text} {t : Token} : t ∈ allTokens s ↔ Lexeme s t := by
  constructor
  · intro h
    obtain ⟨r, hr, rfl⟩ := List.mem_map.mp h
    have hrun := maximalRun_of_mem_runsFrom hr
    have htext := map_fst_members hr
    by_cases hkind : r.key = .comment
    · simp only [hkind] at hrun
      obtain ⟨hopen, hstop⟩ :=
        maximalRun_behindSign_iff.mp ((maximalRun_congr fun i => keyAt_eq_comment).mp hrun)
      rw [hstop, between_restOfLine] at htext
      rw [tokenOfRun, if_pos hkind, htext, hkind]
      exact .comment hopen
    · have hcode := (maximalRun_congr fun i => keyAt_eq_of_ne_comment hkind).mp hrun
      rw [tokenOfRun, if_neg hkind, htext]
      exact .code (hcode.holds r.start (Nat.le_refl _) hcode.start_lt_stop).kind hcode
  · intro h
    cases h with
    | @comment i hopen =>
        obtain ⟨r, hr, hstart, hstop, hkey⟩ := exists_run_iff_maximalRun.mpr
          ((maximalRun_congr fun i => keyAt_eq_comment).mpr
            (maximalRun_behindSign_iff.mpr ⟨hopen, rfl⟩))
        refine List.mem_map.mpr ⟨r, hr, ?_⟩
        have htext := map_fst_members hr
        rw [hstart, hstop, between_restOfLine] at htext
        rw [tokenOfRun, if_pos hkey, htext, hstart, hkey]
        rfl
    | @code kind a b hkind hrun =>
        have hne : kind ≠ .comment := by
          rcases hkind with rfl | rfl <;> decide
        obtain ⟨r, hr, rfl, rfl, rfl⟩ := exists_run_iff_maximalRun.mpr
          ((maximalRun_congr fun i => keyAt_eq_of_ne_comment hne).mpr hrun)
        refine List.mem_map.mpr ⟨r, hr, ?_⟩
        rw [tokenOfRun, if_neg hne, map_fst_members hr]

end SandboxProfile
