import SandboxProfile.Proofs.Highlight.Painting
import SandboxProfile.Proofs.Highlight.Word

/-!
# Comments and the code before them

Behind code a comment may begin with a number sign. Words end there, and a name of a variable holds
no number sign, so what the columns of the code are is decided by the code. With paths it is
different in one place: they are looked for in the whole line, and a number sign is not blank. A
slash at the very end of the code, which no path holds by itself, begins a path there, and where it
was marked as a plain word it is marked as a path. No other column of the code changes.

## Main definitions

* `LooseSlash` says that code ends in a slash that is a plain word.
* `commentSpan` is the span of a comment.
* `Span.upTo` cuts a span off.

## Main results

* `columnMark_append_sign` — the marks of the columns before a comment.
* `comment_after_code` — the spans of code with a comment behind it.
-/

namespace SandboxProfile

variable {k : Catalog} {code comment : Text} {i : Nat} {m : Mark}

/-! ### What surrounds a column of the code -/

theorem not_inComment_of_lt {s : Text} (hi : i < s.code.length) : ¬InComment s i := by
  intro h
  have hle := h.1
  omega

theorem hasWordChar_append (rest : Text) (hi : i < code.length) :
    HasWordChar (code ++ rest) i ↔ HasWordChar code i := by
  rw [HasWordChar, HasWordChar, List.getElem?_append_left hi]

theorem hasInk_append (rest : Text) (hi : i < code.length) :
    HasInk (code ++ rest) i ↔ HasInk code i := by
  rw [HasInk, HasInk, List.getElem?_append_left hi]

/-- The words of the code are those of the line, so the keywords are the same. -/
theorem inKeyword_append_sign (hsign : '#' ∉ code) (hi : i < code.length) (c : Category) :
    InKeyword k (code ++ '#' :: comment) i c ↔ InKeyword k code i c := by
  by_cases hword : HasWordChar code i
  · obtain ⟨c', hc', hink⟩ := hword
    have hclass : code[i]?.bind charClass = some .word :=
      Option.bind_eq_some_iff.mpr ⟨c', hc', charClass_eq_word.mpr hink⟩
    obtain ⟨t, ht, hkind, hstart, hstop⟩ := exists_codeToken hsign hclass
    have hline : t.IsWordOf (code ++ '#' :: comment) :=
      isWordOf_of_mem_codeTokens (by rwa [(code_append_sign hsign comment).1]) hkind
    have hcode : t.IsWordOf code :=
      isWordOf_of_mem_codeTokens (by rwa [(code_of_not_mem hsign).1]) hkind
    rw [hline.inKeyword_iff ⟨hstart, hstop⟩, hcode.inKeyword_iff ⟨hstart, hstop⟩]
  · refine iff_of_false (fun h => hword ?_) fun h => hword h.hasWordChar
    exact (hasWordChar_append _ hi).mp h.hasWordChar

/-- A variable holds no number sign, so the variables that begin in the code end there. -/
theorem inVariable_append_sign (hi : i < code.length) :
    InVariable (code ++ '#' :: comment) i ↔ InVariable code i := by
  constructor
  · rintro ⟨before, v, after, heq, hv, hle, hlt⟩
    have hsign : '#' ∉ v := fun hmem => absurd (isWordChar_of_isVariable hv '#' hmem) (by decide)
    rw [← List.append_assoc] at heq
    rcases List.append_eq_append_iff.mp heq.symm with ⟨rest, rfl, -⟩ | ⟨rest, hbv, hrest⟩
    · rw [List.append_assoc]
      exact ⟨before, v, rest, rfl, hv, hle, hlt⟩
    · -- The code ends inside of the variable or before it, which begins at the column or earlier.
      cases rest with
      | nil =>
          rw [List.append_nil] at hbv
          exact ⟨before, v, [], by rw [List.append_nil, hbv], hv, hle, hlt⟩
      | cons d rest =>
          obtain rfl : '#' = d := (List.cons.inj hrest).1
          exfalso
          have hv' : v = code.drop before.length ++ '#' :: rest := by
            rw [← List.drop_append_of_le_length (by omega), ← hbv, List.drop_left]
          exact hsign (hv' ▸ List.mem_append_right _ List.mem_cons_self)
  · intro h
    have hin := h.append [] ('#' :: comment)
    rwa [List.nil_append, List.length_nil, Nat.zero_add] at hin

/-- A path of the line that meets the code is one of the code, or begins with the slash at its
end. -/
theorem inPath_append_sign (hi : i < code.length) :
    InPath (code ++ '#' :: comment) i ↔
      InPath code i ∨ code[i]? = some '/' ∧ i + 1 = code.length := by
  constructor
  · rintro ⟨j, hj, hslash, hink, hnext⟩
    rw [List.getElem?_append_left (by omega)] at hslash
    have hcode : ∀ m, j ≤ m → m ≤ i → HasInk code m := fun m hjm hmi =>
      (hasInk_append _ (by omega)).mp (hink m hjm hmi)
    by_cases hend : j + 1 < code.length
    · exact .inl ⟨j, hj, hslash, hcode, (hasInk_append _ hend).mp hnext⟩
    · obtain rfl : j = i := by omega
      exact .inr ⟨hslash, by omega⟩
  · rintro (h | ⟨hslash, hend⟩)
    · have hin := h.append [] ('#' :: comment)
      rwa [List.nil_append, List.length_nil, Nat.zero_add] at hin
    · refine ⟨i, Nat.le_refl i, by rwa [List.getElem?_append_left hi], fun m hm hmi => ?_, ?_⟩
      · obtain rfl : m = i := by omega
        exact (hasInk_append _ hi).mpr ⟨'/', hslash, by decide⟩
      · refine ⟨'#', ?_, by decide⟩
        rw [hend, List.getElem?_append_right (Nat.le_refl _), Nat.sub_self]
        rfl

/-! ### The marks of the code -/

/-- Where the same surrounds two columns, the first rule that covers them is the same. Paths matter
only where keywords and variables leave them to decide. -/
theorem ColumnMark.transfer {s t : Text} (h : ColumnMark k s i m)
    (hs : i < s.code.length) (ht : i < t.code.length)
    (hword : HasWordChar s i → HasWordChar t i)
    (hkeyword : ∀ c, InKeyword k s i c ↔ InKeyword k t i c)
    (hvariable : InVariable s i ↔ InVariable t i)
    (hpath : (∀ c, ¬InKeyword k s i c) → ¬InVariable s i → (InPath s i ↔ InPath t i)) :
    ColumnMark k t i m := by
  have houtside := not_inComment_of_lt ht
  have hnone (hnot : ∀ c, ¬InKeyword k s i c) (c : Category) : ¬InKeyword k t i c :=
    fun hin => hnot c ((hkeyword c).mpr hin)
  cases h with
  | comment h => exact absurd h (not_inComment_of_lt hs)
  | keyword _ h => exact .keyword houtside ((hkeyword _).mp h)
  | envVar _ hnot h => exact .envVar houtside (hnone hnot) (hvariable.mp h)
  | path _ hnot hnotv h =>
      exact .path houtside (hnone hnot) (fun hin => hnotv (hvariable.mpr hin))
        ((hpath hnot hnotv).mp h)
  | word _ hnot hnotv hnotp _ hink =>
      exact .word houtside (hnone hnot) (fun hin => hnotv (hvariable.mpr hin))
        (fun hin => hnotp ((hpath hnot hnotv).mpr hin)) ht (hword hink)

/-- The text ends in a slash that is a plain word. -/
def LooseSlash (k : Catalog) (code : Text) : Prop :=
  ∃ i, i + 1 = code.length ∧ code[i]? = some '/' ∧ ColumnMark k code i ⟨.word, none⟩

/-- **A comment behind code changes no mark of it**, unless the code ends in a loose slash. -/
theorem columnMark_append_sign (hsign : '#' ∉ code) (hi : i < code.length)
    (hslash : LooseSlash k code → i + 1 < code.length) :
    ColumnMark k (code ++ '#' :: comment) i m ↔ ColumnMark k code i m := by
  have hline : i < (Text.code (code ++ '#' :: comment)).length := by
    rwa [(code_append_sign hsign comment).1]
  have hcode : i < (Text.code code).length := by
    rwa [(code_of_not_mem hsign).1]
  have hkeyword (c : Category) : InKeyword k (code ++ '#' :: comment) i c ↔ InKeyword k code i c :=
    inKeyword_append_sign hsign hi c
  have hvariable : InVariable (code ++ '#' :: comment) i ↔ InVariable code i :=
    inVariable_append_sign hi
  have hword := hasWordChar_append ('#' :: comment) hi
  have hpath (hnot : ∀ c, ¬InKeyword k code i c) (hnotv : ¬InVariable code i) :
      InPath (code ++ '#' :: comment) i ↔ InPath code i := by
    rw [inPath_append_sign hi]
    refine or_iff_left_of_imp fun ⟨hget, hend⟩ => ?_
    -- Otherwise the slash would be a plain word.
    by_contra hnotp
    have hloose : LooseSlash k code := ⟨i, hend, hget,
      .word (not_inComment_of_lt hcode) hnot hnotv hnotp hcode ⟨'/', hget, by decide⟩⟩
    have hlt := hslash hloose
    omega
  constructor
  · intro h
    refine h.transfer hline hcode hword.mp hkeyword hvariable fun hnot hnotv => ?_
    exact hpath (fun c hin => hnot c ((hkeyword c).mpr hin)) fun hin => hnotv (hvariable.mpr hin)
  · intro h
    exact h.transfer hcode hline hword.mpr (fun c => (hkeyword c).symm) hvariable.symm
      fun hnot hnotv => (hpath hnot hnotv).symm

/-- A loose slash begins a path with the number sign behind it. -/
theorem columnMark_looseSlash (hsign : '#' ∉ code) (hend : i + 1 = code.length)
    (hslash : code[i]? = some '/') (h : ColumnMark k code i ⟨.word, none⟩) :
    ColumnMark k (code ++ '#' :: comment) i ⟨.path, none⟩ := by
  have hi : i < code.length := by omega
  have hline : i < (Text.code (code ++ '#' :: comment)).length := by
    rwa [(code_append_sign hsign comment).1]
  cases h with
  | word _ hnot hnotv =>
      refine .path (not_inComment_of_lt hline) (fun c hin => hnot c ?_) (fun hin => hnotv ?_) ?_
      · exact (inKeyword_append_sign hsign hi c).mp hin
      · exact (inVariable_append_sign hi).mp hin
      · exact (inPath_append_sign hi).mpr (.inr ⟨hslash, hend⟩)

/-! ### The marks of the comment -/

/-- The characters of a comment that are highlighted: carriage returns at its end are not. -/
def commentText (comment : Text) : Text :=
  Text.dropEndWhile (· = '\r') ('#' :: comment)

theorem commentText_eq_cons (comment : Text) :
    commentText comment = '#' :: Text.dropEndWhile (· = '\r') comment :=
  Text.dropEndWhile_cons (by decide) comment

/-- The columns of the comment. -/
theorem inComment_append_sign (hsign : '#' ∉ code) :
    InComment (code ++ '#' :: comment) i ↔
      code.length ≤ i ∧ i < code.length + (commentText comment).length := by
  have hdrop : Text.dropEndWhile (· = '\r') ('#' :: comment) ≠ [] := by
    rw [← commentText, commentText_eq_cons]
    exact List.cons_ne_nil _ _
  rw [InComment, (code_append_sign hsign comment).1, Text.dropEndWhile_append hdrop,
    List.length_append, commentText]

/-- **Behind the code nothing but the comment is marked.** -/
theorem columnMark_behind_code (hsign : '#' ∉ code) (hi : code.length ≤ i) :
    ColumnMark k (code ++ '#' :: comment) i m ↔
      i < code.length + (commentText comment).length ∧ m = ⟨.comment, none⟩ := by
  have hcode : ¬i < (Text.code (code ++ '#' :: comment)).length := by
    rw [(code_append_sign hsign comment).1]
    omega
  constructor
  · intro h
    cases h with
    | comment h => exact ⟨((inComment_append_sign hsign).mp h).2, rfl⟩
    | keyword hout h => exact absurd (h.hasWordChar.lt_length_code hout) hcode
    | envVar hout _ h => exact absurd (h.hasWordChar.lt_length_code hout) hcode
    | path hout _ _ h => exact absurd (h.hasInk.lt_length_code hout) hcode
    | word _ _ _ _ h => exact absurd h hcode
  · rintro ⟨hlt, rfl⟩
    exact .comment ((inComment_append_sign hsign).mpr ⟨hi, hlt⟩)

/-! ### Columns -/

/-- Two columns that have the same marks by their surroundings have the same computed mark. -/
theorem getElem?_lineColumns_eq {s t : Text} (hs : '\n' ∉ s) (ht : '\n' ∉ t) (his : i < s.length)
    (hit : i < t.length) (h : ∀ m, ColumnMark k s i m ↔ ColumnMark k t i m) :
    (lineColumns k s)[i]? = (lineColumns k t)[i]? := by
  obtain ⟨x, hx⟩ : ∃ x, (lineColumns k s)[i]? = some x :=
    ⟨_, List.getElem?_eq_getElem (by simpa using his)⟩
  obtain ⟨y, hy⟩ : ∃ y, (lineColumns k t)[i]? = some y :=
    ⟨_, List.getElem?_eq_getElem (by simpa using hit)⟩
  have hxy : x = y := Option.ext fun m => by
    have hm := h m
    rwa [← getElem?_lineColumns k hs, ← getElem?_lineColumns k ht, hx, hy, Option.some.injEq,
      Option.some.injEq] at hm
  rw [hx, hy, hxy]

/-- The columns of a comment, which are marked up to the carriage returns at its end. -/
def commentColumns (comment : Text) : List (Option Mark) :=
  List.replicate (commentText comment).length (some ⟨.comment, none⟩) ++
    List.replicate (comment.length + 1 - (commentText comment).length) none

/-- No column of the comment is left out, and it takes no more than there are. -/
theorem length_commentText_le (comment : Text) :
    (commentText comment).length ≤ comment.length + 1 := by
  obtain ⟨cut, hs, -⟩ := Text.exists_dropEndWhile_append (· = '\r') ('#' :: comment)
  have hlen := congrArg List.length hs
  rw [List.length_append, ← commentText, List.length_cons] at hlen
  omega

/-- Code and a comment behind it are one line. -/
theorem feed_not_mem_append_sign (hcode : '\n' ∉ code) (hcomment : '\n' ∉ comment) :
    '\n' ∉ code ++ '#' :: comment := by
  rw [List.mem_append, List.mem_cons]
  rintro (h | h | h)
  · exact hcode h
  · exact absurd h (by decide)
  · exact hcomment h

/-- **The columns behind the code** are those of the comment. -/
theorem drop_lineColumns_append_sign (hsign : '#' ∉ code) (hcode : '\n' ∉ code)
    (hcomment : '\n' ∉ comment) :
    (lineColumns k (code ++ '#' :: comment)).drop code.length = commentColumns comment := by
  have hfeed := feed_not_mem_append_sign hcode hcomment
  have hle := length_commentText_le comment
  have hlen : (lineColumns k (code ++ '#' :: comment)).length =
      code.length + (comment.length + 1) := by
    rw [length_lineColumns, List.length_append, List.length_cons]
  refine List.ext_getElem? fun j => ?_
  rw [List.getElem?_drop, commentColumns]
  by_cases hshown : j < (commentText comment).length
  · have hmark : ColumnMark k (code ++ '#' :: comment) (code.length + j) ⟨.comment, none⟩ :=
      (columnMark_behind_code hsign (Nat.le_add_right _ j)).mpr ⟨by omega, rfl⟩
    rw [(getElem?_lineColumns k hfeed).mpr hmark, List.getElem?_append_left (by simpa using hshown),
      List.getElem?_replicate_of_lt hshown]
  · rw [List.getElem?_append_right (by simpa using hshown), List.length_replicate,
      List.getElem?_replicate]
    cases hget : (lineColumns k (code ++ '#' :: comment))[code.length + j]? with
    | none =>
        have hout := List.getElem?_eq_none_iff.mp hget
        rw [if_neg (by omega)]
    | some x =>
        have hin := (List.getElem?_eq_some_iff.mp hget).1
        rw [if_pos (by omega)]
        cases x with
        | none => rfl
        | some m =>
            have hmark := (getElem?_lineColumns k hfeed).mp hget
            have hlt := ((columnMark_behind_code hsign (Nat.le_add_right _ j)).mp hmark).1
            omega

/-- The columns of the code are marked as they are without the comment, unless the code ends in a
loose slash. -/
theorem take_lineColumns_append_sign (hsign : '#' ∉ code) (hcode : '\n' ∉ code)
    (hcomment : '\n' ∉ comment) {n : Nat} (hn : n ≤ code.length)
    (hslash : LooseSlash k code → n < code.length) :
    (lineColumns k (code ++ '#' :: comment)).take n = (lineColumns k code).take n := by
  have hfeed := feed_not_mem_append_sign hcode hcomment
  refine List.ext_getElem? fun j => ?_
  rw [List.getElem?_take, List.getElem?_take]
  split
  · refine getElem?_lineColumns_eq hfeed hcode ?_ (by omega) fun m => ?_
    · rw [List.length_append]
      omega
    · exact columnMark_append_sign hsign (by omega) fun h => by
        have hlt := hslash h
        omega
  · rfl

/-! ### Spans -/

/-- The span of a comment behind code. -/
def commentSpan (number : Int) (code comment : Text) : Span :=
  ⟨number, code.length, code.length + (commentText comment).length, ⟨.comment, none⟩⟩

/-- What is left of a span up to a column. -/
def Span.upTo (stop : Int) (p : Span) : Option Span :=
  if p.start < stop then some { p with stop := min p.stop stop } else none

/-- What is left of a run makes what is left of its span. -/
theorem map_spanOfRun_filterMap_upTo (number : Int) (stop : Nat)
    (rs : List (Run (Option Mark) Mark)) :
    (rs.filterMap (Run.upTo stop)).map (spanOfRun number) =
      (rs.map (spanOfRun number)).filterMap (Span.upTo stop) := by
  rw [List.map_filterMap, List.filterMap_map]
  refine List.filterMap_congr fun r _ => ?_
  rw [Run.upTo, Function.comp_apply, Span.upTo, spanOfRun]
  by_cases h : r.start < stop
  · rw [if_pos h, if_pos (Int.ofNat_lt.mpr h), Option.map_some, spanOfRun, Run.stop, Run.stop,
      List.length_take]
    have hstop : ((r.start + min (stop - r.start) r.members.length : Nat) : Int) =
        min ((r.start + r.members.length : Nat) : Int) stop := by omega
    rw [hstop]
  · rw [if_neg h, if_neg (fun h' => h (Int.ofNat_lt.mp h')), Option.map_none]

/-- The columns of a comment make one span. -/
theorem runsFrom_commentColumns (number : Int) (code comment : Text) :
    (runsFrom id code.length (commentColumns comment)).map (spanOfRun number) =
      [commentSpan number code comment] := by
  have hlen := congrArg List.length (commentText_eq_cons comment)
  rw [List.length_cons] at hlen
  have hnone : ∀ a ∈ List.replicate (comment.length + 1 - (commentText comment).length)
      (none : Option Mark), id a = none := fun a ha => (List.mem_replicate.mp ha).2
  have hsep : Separated id
      (List.replicate (commentText comment).length (some (⟨.comment, none⟩ : Mark)))
      (List.replicate (comment.length + 1 - (commentText comment).length) none) := by
    intro key _ hkey
    obtain ⟨a, ha, hkey⟩ := Option.bind_eq_some_iff.mp hkey
    rw [hnone a (List.mem_of_head? ha)] at hkey
    cases hkey
  rw [commentColumns, runsFrom_append hsep, runsFrom_eq_nil hnone, List.append_nil, hlen,
    List.replicate_succ, runsFrom_eq_singleton id rfl fun b hb => (List.mem_replicate.mp hb).2,
    List.map_singleton, spanOfRun, commentSpan, hlen]
  simp [Run.stop]

/-- **The spans of a line with a comment** are those of the columns before it, and that of the
comment. -/
theorem highlightLine_of_columns (number : Int) (hsign : '#' ∉ code) (hcode : '\n' ∉ code)
    (hcomment : '\n' ∉ comment) :
    highlightLine k number (code ++ '#' :: comment) =
      (runsFrom id 0 ((lineColumns k (code ++ '#' :: comment)).take code.length)).map
        (spanOfRun number) ++ [commentSpan number code comment] := by
  have hsep : Separated id ((lineColumns k (code ++ '#' :: comment)).take code.length)
      (commentColumns comment) := by
    intro key hlast hhead
    have hkey : key = ⟨.comment, none⟩ := by
      rw [commentColumns, commentText_eq_cons] at hhead
      exact (Option.some.inj hhead).symm
    obtain ⟨x, hx, hxkey⟩ := Option.bind_eq_some_iff.mp hlast
    obtain rfl : x = some key := hxkey
    obtain ⟨j, hj⟩ := List.mem_iff_getElem?.mp (List.mem_of_getLast? hx)
    rw [List.getElem?_take] at hj
    split at hj
    · rename_i hlt
      have hmark := (getElem?_lineColumns k (feed_not_mem_append_sign hcode hcomment)).mp hj
      rw [hkey] at hmark
      cases hmark with
      | comment hin =>
          have hle := ((inComment_append_sign hsign).mp hin).1
          omega
    · cases hj
  have hlen : ((lineColumns k (code ++ '#' :: comment)).take code.length).length =
      code.length := by
    simp
  rw [highlightLine, ← runsFrom_commentColumns number code comment, ← List.map_append]
  conv_lhs => rw [← List.take_append_drop code.length (lineColumns k (code ++ '#' :: comment))]
  rw [drop_lineColumns_append_sign hsign hcode hcomment, runsFrom_append hsep, hlen, Nat.zero_add]

/-- A path does not end directly before a loose slash. -/
theorem not_path_before_looseSlash {c : Nat} (hslash : code[c]? = some '/')
    (hword : ColumnMark k code c ⟨.word, none⟩) {key : Mark}
    (h : ((lineColumns k code).take c).getLast?.bind id = some key) (hcode : '\n' ∉ code) :
    key ≠ ⟨.path, none⟩ := by
  rintro rfl
  obtain ⟨x, hx, rfl⟩ := Option.bind_eq_some_iff.mp h
  have hlt := hword.lt_length
  have hlen : ((lineColumns k code).take c).length = c := by
    rw [List.length_take, length_lineColumns]
    omega
  rw [List.getLast?_eq_getElem?, hlen, List.getElem?_take] at hx
  split at hx
  · cases (getElem?_lineColumns k hcode).mp hx with
    | path _ _ _ hin =>
        cases hword with
        | word _ _ _ hnot =>
            refine hnot ?_
            have hgo := hin.succ (i := c - 1) ⟨'/', ?_, by decide⟩
            · rwa [Nat.sub_add_cancel (by omega)] at hgo
            · rwa [Nat.sub_add_cancel (by omega)]
  · cases hx

/-- **The spans of a line whose code ends in a loose slash**: the slash is taken off the word that it
ends, and is a path. -/
theorem highlightLine_of_looseSlash (number : Int) (hsign : '#' ∉ code) (hcode : '\n' ∉ code)
    (hcomment : '\n' ∉ comment) (hslash : LooseSlash k code) :
    highlightLine k number (code ++ '#' :: comment) =
      (highlightLine k number code).filterMap (Span.upTo (code.length - 1)) ++
        [⟨number, code.length - 1, code.length, ⟨.path, none⟩⟩,
          commentSpan number code comment] := by
  obtain ⟨c, hend, hget, hword⟩ := hslash
  have hfeed := feed_not_mem_append_sign hcode hcomment
  have hpath : (lineColumns k (code ++ '#' :: comment))[c]? = some (some ⟨.path, none⟩) :=
    (getElem?_lineColumns k hfeed).mpr (columnMark_looseSlash hsign hend hget hword)
  have hcolumns : (lineColumns k (code ++ '#' :: comment)).take code.length =
      (lineColumns k code).take c ++ [some ⟨.path, none⟩] := by
    rw [← hend, List.take_add_one, hpath,
      take_lineColumns_append_sign hsign hcode hcomment (by omega) fun _ => by omega]
    rfl
  have hsep : Separated id ((lineColumns k code).take c) [some (⟨.path, none⟩ : Mark)] := by
    intro key hlast hhead
    exact not_path_before_looseSlash hget hword hlast hcode (Option.some.inj hhead).symm
  have hlen : ((lineColumns k code).take c).length = c := by
    rw [List.length_take, length_lineColumns]
    omega
  rw [highlightLine_of_columns number hsign hcode hcomment, hcolumns, runsFrom_append hsep,
    runsFrom_take, List.map_append, map_spanOfRun_filterMap_upTo, hlen, List.append_assoc]
  have hcut : ((0 + c : Nat) : Int) = code.length - 1 := by omega
  have hspan : (runsFrom id (0 + c) [some (⟨.path, none⟩ : Mark)]).map (spanOfRun number) =
      [⟨number, code.length - 1, code.length, ⟨.path, none⟩⟩] := by
    have hstop : ((0 + c + 1 : Nat) : Int) = code.length := by omega
    have hrun : runsFrom id (0 + c) [some (⟨.path, none⟩ : Mark)] =
        [⟨0 + c, ⟨.path, none⟩, [some ⟨.path, none⟩]⟩] := rfl
    rw [hrun, List.map_singleton, spanOfRun, Run.stop, List.length_singleton, hcut, hstop]
  rw [hcut, hspan]
  rfl

/-- **A comment decides nothing about the code before it**, except that a loose slash at its end
becomes a path with the number sign. -/
theorem comment_after_code (k : Catalog) (number : Int) {code comment : Text}
    (hsign : '#' ∉ code) (hcode : '\n' ∉ code) (hcomment : '\n' ∉ comment) :
    (∀ p ∈ highlightLine k number code, p.mark.kind ≠ .comment) ∧
      (¬LooseSlash k code → highlightLine k number (code ++ '#' :: comment) =
        highlightLine k number code ++ [commentSpan number code comment]) ∧
      (LooseSlash k code → highlightLine k number (code ++ '#' :: comment) =
        (highlightLine k number code).filterMap (Span.upTo (code.length - 1)) ++
          [⟨number, code.length - 1, code.length, ⟨.path, none⟩⟩,
            commentSpan number code comment]) := by
  refine ⟨fun p hp hkind => ?_, fun hslash => ?_, fun hslash => ?_⟩
  · obtain ⟨a, b, hrun, -⟩ := (mem_highlightLine k number hcode p).mp hp
    have hmark := hrun.holds a (Nat.le_refl a) hrun.start_lt_stop
    have hlt := hmark.lt_length
    generalize p.mark = m at hkind hmark
    cases hmark with
    | comment hin =>
        refine not_inComment_of_lt ?_ hin
        rwa [(code_of_not_mem hsign).1]
    | keyword | envVar | path | word => cases hkind
  · have hall : (lineColumns k code).take code.length = lineColumns k code :=
      List.take_of_length_le (by simp)
    rw [highlightLine_of_columns number hsign hcode hcomment,
      take_lineColumns_append_sign hsign hcode hcomment (Nat.le_refl _) fun h => absurd h hslash,
      hall]
    rfl
  · exact highlightLine_of_looseSlash number hsign hcode hcomment hslash

/-- A path behind a keyword, and a slash behind it that is no path by itself. -/
def slashAlone : Text :=
  "/bin net /".toList

/-- The comment makes a path of the slash alone; what stands before it stays as it is. -/
theorem comment_after_code_slashAlone :
    ('#' ∉ slashAlone ∧ '\n' ∉ slashAlone ∧ '\n' ∉ " why".toList ∧
      LooseSlash (.ofDeclarations []) slashAlone) ∧
      highlightLine (.ofDeclarations []) 1 (slashAlone ++ '#' :: " why".toList) =
        [⟨1, 0, 4, ⟨.path, none⟩⟩, ⟨1, 5, 8, ⟨.word, none⟩⟩, ⟨1, 9, 10, ⟨.path, none⟩⟩,
          ⟨1, 10, 15, ⟨.comment, none⟩⟩] := by
  have hsign : '#' ∉ slashAlone := by decide
  have hcode : '\n' ∉ slashAlone := by decide
  have hcomment : '\n' ∉ " why".toList := by decide
  have hslash : LooseSlash (.ofDeclarations []) slashAlone :=
    ⟨9, rfl, rfl, (getElem?_lineColumns _ hcode).mp (by decide)⟩
  exact ⟨⟨hsign, hcode, hcomment, hslash⟩,
    ((comment_after_code _ 1 hsign hcode hcomment).2.2 hslash).trans (by decide)⟩

/-- A comment turns a slash alone in the code into a path. -/
theorem comment_changes_looseSlash :
    (highlightLine (.ofDeclarations []) 1 "/#x".toList).filter (fun p => p.mark.kind ≠ .comment) ≠
      highlightLine (.ofDeclarations []) 1 "/".toList := by
  decide

end SandboxProfile
