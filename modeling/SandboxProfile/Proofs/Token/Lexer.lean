import SandboxProfile.Proofs.Runs
import SandboxProfile.Proofs.Text.Ends
import SandboxProfile.Proofs.Text.Line
import SandboxProfile.Token.Lexer

/-!
# Tokens of a text and tokens of its lines

A line feed ends every token, so the tokens of a text are those before a line feed and,
moved, those after it. Blanks at the start of a line only move its tokens, and a carriage
return at its end is part of no token. A line is code up to its first number sign and a
comment from there on.

## Main definitions

* `Token.moved` is a token further to the right, `Token.content` a token without its place.
* `Text.code` and `Text.comment` are the two parts of a line.
* `contents` are the tokens of a text without their places.

## Main results

* `allTokens_feed_append` — a line feed separates tokens.
* `allTokens_blank_append` — blanks at the start move tokens.
* `allTokens_of_line` — the tokens of a line are those of its code and its comment.
* `allTokens_text_append` — the tokens of a line with an ending come first.
* `contents_joinLines` — the tokens of a text are those of its lines.
-/

namespace SandboxProfile

/-! ### Classes of characters -/

/-- Every character has a class. -/
theorem map_fst_charClasses (inComment : Bool) (s : Text) :
    (charClasses inComment s).map Prod.fst = s := by
  induction s generalizing inComment with
  | nil => rfl
  | cons c rest ih =>
      rw [charClasses]
      split
      · rw [List.map_cons, ih]
      · split
        · rw [List.map_cons, ih]
        · rw [List.map_cons, ih]

@[simp] theorem length_charClasses (inComment : Bool) (s : Text) :
    (charClasses inComment s).length = s.length := by
  rw [← List.length_map, map_fst_charClasses]

/-- A line feed ends a comment, so what stands before it decides nothing after it. -/
theorem charClasses_feed_append (inComment : Bool) (s t : Text) :
    charClasses inComment (s ++ '\n' :: t) =
      charClasses inComment s ++ ('\n', none) :: charClasses false t := by
  induction s generalizing inComment with
  | nil => rfl
  | cons c rest ih =>
      rw [List.cons_append, charClasses, charClasses]
      split
      · rw [ih, List.cons_append]
      · split
        · rw [ih, List.cons_append]
        · rw [ih, List.cons_append]

theorem charClass_of_blank {c : Char} (h : isBlank c = true) : charClass c = none := by
  rw [charClass, if_pos h]

/-- A blank opens no comment. -/
theorem ne_sign_of_blank {c : Char} (h : isBlank c = true) : c ≠ '#' := by
  rintro rfl
  exact absurd h (by decide)

/-- Blanks belong to no token. -/
theorem charClasses_blank_append {w : Text} (hw : ∀ c ∈ w, isBlank c = true) (s : Text) :
    charClasses false (w ++ s) = w.map (fun c => (c, none)) ++ charClasses false s := by
  induction w with
  | nil => rfl
  | cons c w ih =>
      have hc := hw c List.mem_cons_self
      rw [List.cons_append, charClasses, ih fun d hd => hw d (List.mem_cons_of_mem _ hd)]
      simp [ne_sign_of_blank hc, charClass_of_blank hc]

/-! ### The two parts of a line -/

/-- What stands before the first number sign. -/
def Text.code (s : Text) : Text :=
  s.takeWhile (· ≠ '#')

/-- The first number sign and what follows it. -/
def Text.comment (s : Text) : Text :=
  s.dropWhile (· ≠ '#')

theorem code_append_comment (s : Text) : s.code ++ s.comment = s :=
  List.takeWhile_append_dropWhile

theorem sign_not_mem_code (s : Text) : '#' ∉ s.code := by
  intro h
  simpa using List.mem_takeWhile_imp h

/-- A comment begins with a number sign, if there is one. -/
theorem comment_eq_nil_or_cons (s : Text) :
    s.comment = [] ∨ ∃ rest, s.comment = '#' :: rest := by
  cases h : s.comment with
  | nil => exact .inl rfl
  | cons c rest =>
      have hc := List.head?_dropWhile_not (fun c => decide (c ≠ '#')) s
      rw [show s.dropWhile (fun c => decide (c ≠ '#')) = c :: rest from h] at hc
      obtain rfl : c = '#' := by simpa using hc
      exact .inr ⟨rest, rfl⟩

/-- A text without number signs is all code. -/
theorem code_of_not_mem {s : Text} (h : '#' ∉ s) : s.code = s ∧ s.comment = [] := by
  have hall : ∀ c ∈ s, decide (c ≠ '#') = true := fun c hc =>
    decide_eq_true fun he => h (he ▸ hc)
  exact ⟨List.takeWhile_eq_self_iff.mpr hall, List.dropWhile_eq_nil_iff.mpr hall⟩

/-- Code ends where the first number sign stands. -/
theorem code_append_sign {s : Text} (h : '#' ∉ s) (rest : Text) :
    Text.code (s ++ '#' :: rest) = s ∧ Text.comment (s ++ '#' :: rest) = '#' :: rest := by
  have hall : ∀ c ∈ s, decide (c ≠ '#') = true := fun c hc =>
    decide_eq_true fun he => h (he ▸ hc)
  constructor
  · rw [Text.code, List.takeWhile_append_of_pos hall, List.takeWhile_cons_of_neg (by simp),
      List.append_nil]
  · rw [Text.comment, List.dropWhile_append_of_pos hall, List.dropWhile_cons_of_neg (by simp)]

/-- The classes inside of a comment that no line feed ends. -/
theorem charClasses_comment {s : Text} (h : '\n' ∉ s) :
    charClasses true s = s.map fun c => (c, some .comment) := by
  induction s with
  | nil => rfl
  | cons c rest ih =>
      have hc : c ≠ '\n' := fun hc => h (hc ▸ List.mem_cons_self)
      rw [charClasses, if_neg hc, Bool.true_or, if_pos rfl,
        ih fun hn => h (List.mem_cons_of_mem _ hn)]
      rfl

/-- The classes of a line: those of its code one by one, and comment for the rest. -/
theorem charClasses_of_line {s : Text} (h : '\n' ∉ s) :
    charClasses false s =
      s.code.map (fun c => (c, charClass c)) ++ s.comment.map fun c => (c, some .comment) := by
  induction s with
  | nil => rfl
  | cons c rest ih =>
      have hc : c ≠ '\n' := fun hc => h (hc ▸ List.mem_cons_self)
      have hrest : '\n' ∉ rest := fun hn => h (List.mem_cons_of_mem _ hn)
      rw [charClasses, if_neg hc]
      by_cases hsign : c = '#'
      · subst hsign
        simp [Text.code, Text.comment, charClasses_comment hrest]
      · have hcode : Text.code (c :: rest) = c :: Text.code rest :=
          List.takeWhile_cons_of_pos (by simpa using hsign)
        have hcomment : Text.comment (c :: rest) = Text.comment rest :=
          List.dropWhile_cons_of_pos (by simpa using hsign)
        rw [hcode, hcomment, ih hrest]
        simp [hsign]

/-! ### Tokens -/

/-- The same token further to the right. -/
def Token.moved (d : Nat) (t : Token) : Token :=
  { t with start := t.start + d }

/-- A token without its place. -/
def Token.content (t : Token) : Text × TokenKind :=
  (t.text, t.mark.kind)

/-- Tokens of a text that begins further to the right. -/
theorem map_tokenOfRun_runsFrom (d : Nat) (l : List (Char × Option TokenKind)) :
    (runsFrom Prod.snd d l).map tokenOfRun =
      ((runsFrom Prod.snd 0 l).map tokenOfRun).map (Token.moved d) := by
  rw [← Nat.zero_add d, runsFrom_add, List.map_map, List.map_map, Nat.zero_add]
  rfl

/-- **A line feed separates tokens.** -/
theorem allTokens_feed_append (s t : Text) :
    allTokens (s ++ '\n' :: t) = allTokens s ++ (allTokens t).map (Token.moved (s.length + 1)) := by
  have hsep : Separated Prod.snd (charClasses false s)
      (('\n', none) :: charClasses false t) := by
    intro key _ h
    cases h
  rw [allTokens, charClasses_feed_append, runsFrom_append hsep, List.map_append,
    length_charClasses, Nat.zero_add]
  exact congrArg (_ ++ ·) (map_tokenOfRun_runsFrom (s.length + 1) _)

/-- **Blanks at the start move tokens.** -/
theorem allTokens_blank_append {w : Text} (hw : ∀ c ∈ w, isBlank c = true) (s : Text) :
    allTokens (w ++ s) = (allTokens s).map (Token.moved w.length) := by
  have hnone : ∀ a ∈ w.map fun c => (c, (none : Option TokenKind)), a.2 = none := by
    intro a ha
    obtain ⟨c, -, rfl⟩ := List.mem_map.mp ha
    rfl
  rw [allTokens, charClasses_blank_append hw, runsFrom_append_of_none hnone, List.length_map,
    Nat.zero_add, map_tokenOfRun_runsFrom]
  rfl

/-- The tokens of the code of a line. -/
def codeTokens (code : Text) : List Token :=
  (runsFrom Prod.snd 0 (code.map fun c => (c, charClass c))).map tokenOfRun

/-- The token of the comment of a line, which leaves out carriage returns at the end. -/
def commentTokens (start : Nat) : Text → List Token
  | [] => []
  | c :: rest => [⟨Text.dropEndWhile (· = '\r') (c :: rest), start, ⟨.comment, none⟩⟩]

/-- A comment is marked as one. -/
theorem mark_of_mem_commentTokens {start : Nat} {s : Text} {t : Token}
    (h : t ∈ commentTokens start s) : t.mark = ⟨.comment, none⟩ := by
  cases s with
  | nil => cases h
  | cons c rest => rw [List.mem_singleton.mp h]

/-- A line has one comment at most. -/
theorem eq_of_mem_commentTokens {start : Nat} {s : Text} {t u : Token}
    (ht : t ∈ commentTokens start s) (hu : u ∈ commentTokens start s) : t = u := by
  cases s with
  | nil => cases ht
  | cons c rest => rw [List.mem_singleton.mp ht, List.mem_singleton.mp hu]

theorem charClass_ne_comment {c : Char} (h : c ≠ '#') : charClass c ≠ some .comment := by
  rw [charClass]
  split
  · simp
  · split <;> simp

/-- **The tokens of a line** are those of its code and its comment. -/
theorem allTokens_of_line {s : Text} (h : '\n' ∉ s) :
    allTokens s = codeTokens s.code ++ commentTokens s.code.length s.comment := by
  have hsep : Separated Prod.snd (s.code.map fun c => (c, charClass c))
      (s.comment.map fun c => (c, some TokenKind.comment)) := by
    intro key hlast hhead
    obtain ⟨a, ha, hkey⟩ := Option.bind_eq_some_iff.mp hlast
    obtain ⟨c, hc, rfl⟩ := List.mem_map.mp (List.mem_of_getLast? ha)
    have hne : c ≠ '#' := fun he => sign_not_mem_code s (he ▸ hc)
    obtain ⟨b, hb, hbkey⟩ := Option.bind_eq_some_iff.mp hhead
    obtain ⟨d, -, rfl⟩ := List.mem_map.mp (List.mem_of_head? hb)
    exact charClass_ne_comment hne (hkey.trans hbkey.symm)
  rw [allTokens, charClasses_of_line h, runsFrom_append hsep, List.map_append, List.length_map,
    Nat.zero_add]
  congr 1
  cases s.comment with
  | nil => rfl
  | cons c rest =>
      have hall : ∀ b ∈ rest.map fun c => (c, some TokenKind.comment), b.2 = some .comment := by
        intro b hb
        obtain ⟨d, -, rfl⟩ := List.mem_map.mp hb
        rfl
      rw [List.map_cons, runsFrom_eq_singleton Prod.snd rfl hall]
      simp [commentTokens, tokenOfRun, Function.comp_def]

/-- A token of a line is one of its code or its comment. -/
theorem mem_allTokens_of_line {s : Text} (h : '\n' ∉ s) {t : Token} :
    t ∈ allTokens s ↔ t ∈ codeTokens s.code ∨ t ∈ commentTokens s.code.length s.comment := by
  rw [allTokens_of_line h, List.mem_append]

/-- A carriage return at the end of a line is part of no token. -/
theorem allTokens_concat_return {s : Text} (h : '\n' ∉ s) :
    allTokens (s ++ ['\r']) = allTokens s := by
  have h' : '\n' ∉ s ++ ['\r'] := by simpa using h
  rw [allTokens_of_line h, allTokens_of_line h']
  rcases comment_eq_nil_or_cons s with hnil | ⟨rest, hcons⟩
  · have hs : '#' ∉ s := by
      have hcode := sign_not_mem_code s
      rwa [← code_append_comment s, hnil, List.append_nil]
    have hs' : '#' ∉ s ++ ['\r'] := by simpa using hs
    obtain ⟨hcode, -⟩ := code_of_not_mem hs
    obtain ⟨hcode', hcomment'⟩ := code_of_not_mem hs'
    have hsep : Separated Prod.snd (s.map fun c => (c, charClass c))
        [('\r', charClass '\r')] := by
      intro key _ hkey
      cases hkey
    rw [hcode, hcode', hcomment', hnil, codeTokens, codeTokens, List.map_append,
      List.map_singleton, runsFrom_append hsep]
    simp [commentTokens, runsFrom, charClass_of_blank (show isBlank '\r' = true from rfl)]
  · have hs : s ++ ['\r'] = s.code ++ '#' :: (rest ++ ['\r']) := by
      conv_lhs => rw [← code_append_comment s, hcons]
      simp
    obtain ⟨hcode, hcomment⟩ := code_append_sign (sign_not_mem_code s) (rest ++ ['\r'])
    rw [hs, hcode, hcomment, hcons, commentTokens, commentTokens, ← List.cons_append,
      Text.dropEndWhile_concat rfl]

/-- The tokens of the body of a line come first if the line has an ending. -/
theorem allTokens_text_append {l : Line} (hl : '\n' ∉ l.body) (he : l.ending ≠ .none)
    (rest : Text) :
    allTokens (l.text ++ rest) =
      allTokens l.body ++ (allTokens rest).map (Token.moved l.text.length) := by
  obtain ⟨body, ending⟩ := l
  cases ending with
  | none => exact absurd rfl he
  | lf =>
      have htext : Line.text ⟨body, .lf⟩ ++ rest = body ++ '\n' :: rest := by
        simp [Line.text, LineEnding.text]
      have hlength : (Line.text ⟨body, .lf⟩).length = body.length + 1 := by
        simp [Line.text, LineEnding.text]
      rw [htext, hlength, allTokens_feed_append]
  | crlf =>
      have htext : Line.text ⟨body, .crlf⟩ ++ rest = (body ++ ['\r']) ++ '\n' :: rest := by
        simp [Line.text, LineEnding.text]
      have hlength : (Line.text ⟨body, .crlf⟩).length = (body ++ ['\r']).length + 1 := by
        simp [Line.text, LineEnding.text]
      rw [htext, hlength, allTokens_feed_append, allTokens_concat_return hl]

/-! ### Tokens without their places -/

/-- The tokens of a text without their places. -/
def contents (s : Text) : List (Text × TokenKind) :=
  (allTokens s).map Token.content

/-- The place of a token does not matter to its content. -/
theorem map_content_moved (d : Nat) (ts : List Token) :
    (ts.map (Token.moved d)).map Token.content = ts.map Token.content := by
  rw [List.map_map]
  rfl

/-- The contents of a line that has an ending come first. -/
theorem contents_text_append {l : Line} (hl : '\n' ∉ l.body) (he : l.ending ≠ .none)
    (rest : Text) : contents (l.text ++ rest) = contents l.body ++ contents rest := by
  rw [contents, allTokens_text_append hl he, List.map_append, map_content_moved]
  rfl

/-- **The tokens of a text are those of its lines.** -/
theorem contents_joinLines {ls : List Line} (h : AreLines ls) :
    contents (joinLines ls) = ls.flatMap fun l => contents l.body := by
  induction ls with
  | nil => rfl
  | cons l rest ih =>
      obtain ⟨hl, hlast, hrest⟩ := h
      rw [joinLines_cons, List.flatMap_cons, ← ih hrest]
      by_cases he : l.ending = .none
      · obtain rfl := hlast he
        simp [Line.text_of_none he, joinLines, contents, allTokens, charClasses, runsFrom]
      · exact contents_text_append hl.feed_not_mem he _

/-- Blanks at the start of a text add no tokens. -/
theorem contents_trimStart (s : Text) : contents (Text.trimStart s) = contents s := by
  conv_rhs => rw [← Text.blankPrefix_append_trimStart s]
  rw [contents, contents, allTokens_blank_append fun c => Text.isBlank_of_mem_blankPrefix,
    map_content_moved]

end SandboxProfile
