import SandboxProfile.Proofs.Highlight.Shift
import SandboxProfile.Proofs.Indent.Limits

/-!
# Cutting a text at a line feed

No rule looks past the end of a line, so a text can be cut behind any line feed, and what is
found in the two parts is what is found in the whole: the same lines, the same tokens and spans,
only that those of the second part stand further down, and the same indented text. Carriage
returns take part in this on the left of the cut alone, since the one directly before the line
feed belongs to the ending of its line.

Cutting behind every line feed gives the lines one by one. The tokens that are found in the body
of each line are therefore the tokens of the whole text, although the body lacks the carriage
return that the whole text has before the line feed.

## Main definitions

* `Span.lowered` is a span further down.
* `CutsAtFeed` says that what is found in a text is what is found in two parts of it.
* `lineStart` is the offset at which a line begins.

## Main results

* `splitLines_feed_append`, `tokenize_feed_append`, `highlight_feed_append` and
  `formatText_feed_append` — what is found in the two parts of a text.
* `flatMap_tokens_analyseLines` — the tokens of the lines are those of the text.
* `analysis_cuts` — both for all texts.
-/

namespace SandboxProfile

/-! ### Lines -/

theorem consToFirst_append (c : Char) {ls : List Line} (h : ls ≠ []) (ms : List Line) :
    consToFirst c (ls ++ ms) = consToFirst c ls ++ ms := by
  obtain ⟨l, rest, rfl⟩ := List.exists_cons_of_ne_nil h
  rfl

theorem splitLines_ne_nil {s : Text} (h : s ≠ []) : splitLines s ≠ [] := by
  intro hlines
  have hjoin := joinLines_splitLines s
  rw [hlines] at hjoin
  exact h hjoin.symm

/-- **A line feed separates lines.** -/
theorem splitLines_feed_append (a b : Text) :
    splitLines (a ++ '\n' :: b) = splitLines (a ++ ['\n']) ++ splitLines b := by
  fun_induction splitLines a with
  | case1 => simp [splitLines]
  | case2 rest ih => simpa [splitLines] using ih
  | case3 rest ih => simpa [splitLines] using ih
  | case4 c rest hfeed hcrlf ih =>
      by_cases hlast : c = '\r' ∧ rest = []
      · -- The carriage return belongs to the ending that the cut is made behind.
        obtain ⟨rfl, rfl⟩ := hlast
        simp [splitLines]
      · have hgrow (t : Text) : c = '\r' → (rest ++ '\n' :: t).head? ≠ some '\n' := by
          intro hreturn
          cases rest with
          | nil => exact absurd ⟨hreturn, rfl⟩ hlast
          | cons d rest =>
              intro hd
              have hd : d = '\n' := by simpa using hd
              exact hcrlf rest hreturn (by rw [hd])
        have hne : splitLines (rest ++ ['\n']) ≠ [] := splitLines_ne_nil (by simp)
        rw [List.cons_append, List.cons_append, splitLines_cons hfeed (hgrow b),
          splitLines_cons hfeed (hgrow []), ih, consToFirst_append c hne]

/-! ### Tokens -/

/-- A line feed at the end adds no token. -/
theorem allTokens_concat_feed (s : Text) : allTokens (s ++ ['\n']) = allTokens s := by
  rw [allTokens_feed_append]
  simp [allTokens, charClasses, runsFrom]

/-- **A line feed separates tokens**, with or without the comments. -/
theorem tokenize_feed_append (comments : Bool) (a b : Text) :
    tokenize comments (a ++ '\n' :: b) =
      tokenize comments (a ++ ['\n']) ++
        (tokenize comments b).map (Token.moved (a.length + 1)) := by
  have hall := allTokens_feed_append a b
  rw [← allTokens_concat_feed a] at hall
  cases comments with
  | true => exact hall
  | false =>
      have hkind : (fun t : Token => decide (t.mark.kind ≠ .comment)) ∘ Token.moved (a.length + 1) =
          fun t => decide (t.mark.kind ≠ .comment) := rfl
      simp only [tokenize, Bool.false_eq_true, if_false]
      rw [hall, List.filter_append, List.filter_map, hkind]

/-! ### Spans -/

/-- The same span further down. -/
def Span.lowered (d : Nat) (p : Span) : Span :=
  { p with line := p.line + d }

/-- The spans of a line that stands further down. -/
theorem highlightLine_add (k : Catalog) (number : Int) (d : Nat) (line : Text) :
    highlightLine k (number + d) line = (highlightLine k number line).map (Span.lowered d) := by
  rw [highlightLine, highlightLine, List.map_map]
  rfl

/-- The spans of lines that stand further down. -/
theorem highlightFrom_add (k : Catalog) (number d : Nat) (ls : List Line) :
    highlightFrom k (number + d) ls = (highlightFrom k number ls).map (Span.lowered d) := by
  induction ls generalizing number with
  | nil => rfl
  | cons l rest ih =>
      have hline := highlightLine_add k number d l.body
      rw [highlightFrom, highlightFrom, List.map_append, ← hline, ← ih (number + 1),
        Nat.add_right_comm number d 1]
      rfl

theorem highlightFrom_append (k : Catalog) (number : Nat) (ls ms : List Line) :
    highlightFrom k number (ls ++ ms) =
      highlightFrom k number ls ++ highlightFrom k (number + ls.length) ms := by
  induction ls generalizing number with
  | nil => rfl
  | cons l rest ih =>
      have hnumber : number + (l :: rest).length = number + 1 + rest.length := by
        rw [List.length_cons]
        omega
      rw [List.cons_append, highlightFrom, highlightFrom, ih (number + 1), hnumber,
        List.append_assoc]

/-- **A line feed separates spans.** -/
theorem highlight_feed_append (k : Catalog) (a b : Text) :
    highlight k (a ++ '\n' :: b) =
      highlight k (a ++ ['\n']) ++
        (highlight k b).map (Span.lowered (splitLines (a ++ ['\n'])).length) := by
  rw [highlight, splitLines_feed_append, highlightFrom_append, highlightFrom_add]
  rfl

/-! ### Indentation -/

theorem formatLines_append (style : IndentStyle) (ls ms : List Line) :
    formatLines style (ls ++ ms) = (do
      let first ← formatLines style ls
      let second ← formatLines style ms
      return first ++ second) := by
  induction ls with
  | nil =>
      rw [List.nil_append]
      cases formatLines style ms <;> rfl
  | cons l rest ih =>
      rw [List.cons_append, formatLines, formatLines, ih]
      cases formatLine style l.body with
      | error e => rfl
      | ok body =>
          cases formatLines style rest with
          | error e => rfl
          | ok first => cases formatLines style ms <;> rfl

/-- **The two parts of a text are indented by themselves.** Where one of them cannot be, the
whole cannot be for the same reason. -/
theorem formatText_feed_append (style : IndentStyle) (a b : Text) :
    formatText style (a ++ '\n' :: b) = (do
      let first ← formatText style (a ++ ['\n'])
      let second ← formatText style b
      return first ++ second) := by
  have hjoin (ls ms : List Line) : joinLines (ls ++ ms) = joinLines ls ++ joinLines ms :=
    List.flatMap_append
  rw [formatText, splitLines_feed_append, formatLines_append, formatText, formatText]
  cases formatLines style (splitLines (a ++ ['\n'])) with
  | error e => rfl
  | ok first =>
      cases formatLines style (splitLines b) with
      | error e => rfl
      | ok second => exact congrArg Except.ok (hjoin first second)

/-! ### Line by line -/

/-- The offset at which a line begins. Lines are numbered from one. -/
def lineStart (s : Text) (number : Nat) : Nat :=
  (joinLines ((splitLines s).take (number - 1))).length

theorem moved_moved (d e : Nat) (t : Token) : (t.moved d).moved e = t.moved (e + d) := by
  simp only [Token.moved]
  congr 1
  omega

/-- Records of lines bear their numbers. -/
theorem le_number_of_mem_analyseFrom {k : Catalog} {offset : Int} {number : Nat} {ls : List Line}
    {r : LineRecord} (h : r ∈ analyseFrom k offset number ls) : number ≤ r.number := by
  induction ls generalizing number with
  | nil => cases h
  | cons l rest ih =>
      rcases List.mem_cons.mp h with rfl | h
      · exact Nat.le_refl _
      · exact Nat.le_of_succ_le (ih h)

/-- The tokens of lines that begin at an offset, each moved to where it stands, are the tokens of
the joined text. -/
theorem flatMap_tokens_analyseFrom (k : Catalog) (offset : Int) (number start : Nat)
    {ls : List Line} (h : AreLines ls) :
    ((analyseFrom k offset number ls).flatMap fun r =>
        r.tokens.map (Token.moved (start + (joinLines (ls.take (r.number - number))).length))) =
      ((allTokens (joinLines ls)).map (Token.moved start)).map k.classifyToken := by
  induction ls generalizing number start with
  | nil => simp [analyseFrom, joinLines, allTokens, charClasses, runsFrom]
  | cons l rest ih =>
      obtain ⟨hl, hlast, hrest⟩ := h
      -- In the rest, the offset of a line is counted from behind the first line.
      have hlater : ((analyseFrom k offset (number + 1) rest).flatMap fun r => r.tokens.map
            (Token.moved (start + (joinLines ((l :: rest).take (r.number - number))).length))) =
          ((allTokens (joinLines rest)).map (Token.moved (start + l.text.length))).map
            k.classifyToken := by
        rw [← ih (number + 1) (start + l.text.length) hrest]
        refine List.flatMap_congr fun r hr => ?_
        have hle := le_number_of_mem_analyseFrom hr
        have hindex : r.number - number = r.number - (number + 1) + 1 := by omega
        rw [hindex, List.take_succ_cons, joinLines_cons, List.length_append, Nat.add_assoc]
      have hfirst : ((tokenize true l.body).map k.classifyToken).map (Token.moved start) =
          ((allTokens l.body).map (Token.moved start)).map k.classifyToken := by
        rw [List.map_map, List.map_map]
        rfl
      rw [analyseFrom, List.flatMap_cons, hlater, Nat.sub_self, List.take_zero]
      simp only [joinLines, List.flatMap_nil, List.length_nil, Nat.add_zero]
      rw [hfirst, List.flatMap_cons]
      by_cases he : l.ending = .none
      · obtain rfl := hlast he
        simp [Line.text_of_none he, allTokens, charClasses, runsFrom]
      · rw [allTokens_text_append hl.feed_not_mem he, List.map_append, List.map_append,
          List.map_map (g := Token.moved start)]
        have hmoved : Token.moved start ∘ Token.moved l.text.length =
            Token.moved (start + l.text.length) := funext fun t => moved_moved _ _ t
        rw [hmoved]

/-- **The tokens of the lines are those of the text**, each classified and moved from its place in
the line to its place in the text. -/
theorem flatMap_tokens_analyseLines (k : Catalog) (offset : Int) (s : Text) :
    ((analyseLines k offset s).flatMap fun r =>
        r.tokens.map (Token.moved (lineStart s r.number))) =
      (tokenize true s).map k.classifyToken := by
  have hlines := flatMap_tokens_analyseFrom k offset 1 0 (areLines_splitLines s)
  have hzero : (allTokens s).map (Token.moved 0) = allTokens s := List.map_id _
  rw [joinLines_splitLines, hzero] at hlines
  simp only [Nat.zero_add] at hlines
  exact hlines

/-! ### All that is found -/

/-- What is found in a text is what is found in its two parts, cut behind a line feed. -/
structure CutsAtFeed (k : Catalog) (a b : Text) : Prop where
  /-- The lines are those of the first part and those of the second part. -/
  lines : splitLines (a ++ '\n' :: b) = splitLines (a ++ ['\n']) ++ splitLines b
  /-- The tokens of the second part stand behind the first part. -/
  tokens : ∀ comments, tokenize comments (a ++ '\n' :: b) =
    tokenize comments (a ++ ['\n']) ++ (tokenize comments b).map (Token.moved (a.length + 1))
  /-- The spans of the second part stand below the lines of the first part. -/
  spans : highlight k (a ++ '\n' :: b) = highlight k (a ++ ['\n']) ++
    (highlight k b).map (Span.lowered (splitLines (a ++ ['\n'])).length)
  /-- The indented text consists of the two indented parts; the first part that cannot be
  indented is why the whole cannot. -/
  indented : ∀ style, formatText style (a ++ '\n' :: b) = (do
    let first ← formatText style (a ++ ['\n'])
    let second ← formatText style b
    return first ++ second)
  /-- The whole can be indented unless it has a line that takes the offset and the offset cannot
  be written. -/
  indents : ∀ style : IndentStyle, style.HasWidth →
    ((∃ t, formatText style (a ++ '\n' :: b) = .ok t) ↔
      (HasIndentedLine (a ++ '\n' :: b) → style.CanWrite style.offset))

/-- **Cutting a text at a line feed cuts all that is found in it**, and therefore the tokens that
are found line by line have the texts, the offsets and the order of those of the whole text. -/
theorem analysis_cuts (k : Catalog) :
    (∀ a b, CutsAtFeed k a b) ∧
      ∀ (offset : Int) (s : Text),
        ((analyseLines k offset s).flatMap fun r =>
            r.tokens.map (Token.moved (lineStart s r.number))) =
          (tokenize true s).map k.classifyToken := by
  refine ⟨fun a b => ?_, flatMap_tokens_analyseLines k⟩
  exact
    { lines := splitLines_feed_append a b
      tokens := fun comments => tokenize_feed_append comments a b
      spans := highlight_feed_append k a b
      indented := fun style => formatText_feed_append style a b
      indents := fun _ hwidth => formatText_ok_iff hwidth }

end SandboxProfile
