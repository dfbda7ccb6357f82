import Mathlib.Tactic.Common
import SandboxProfile.Highlight.Pattern

/-!
# Where variables and paths lie

`variableColumns` and `pathColumns` read a line once from left to right, and a variable that
was found is skipped as a whole. Here each column is described by itself: it lies in a
variable if some stretch around it has the form of one, and in a path if some slash before
it starts one. That no column is missed rests on the dollar sign, which no variable holds
beyond its first character, so that two variables never overlap.

## Main definitions

* `IsVariable` is the form of a variable.
* `InVariable` and `InPath` say that a column lies in a variable or in a path.

## Main results

* `getElem?_variableColumns` — the columns of variables are found.
* `getElem?_pathColumns` — the columns of paths are found.
* `InVariable.append` and `InPath.append` — what a part of a line holds, the line holds.
-/

namespace SandboxProfile

/-! ### Variables -/

/-- The form of a variable: a dollar sign and a name in braces. -/
def IsVariable (v : Text) : Prop :=
  ∃ c name, isNameStart c = true ∧ (∀ d ∈ name, isNameChar d = true) ∧
    v = '$' :: '\x7b' :: c :: (name ++ ['\x7d'])

/-- The column lies in a stretch that has the form of a variable. -/
def InVariable (s : Text) (i : Nat) : Prop :=
  ∃ before v after, s = before ++ (v ++ after) ∧ IsVariable v ∧ before.length ≤ i ∧
    i < before.length + v.length

theorem isNameChar_brace : isNameChar '\x7d' = false := by decide

/-- A name with its closing brace is measured. -/
theorem nameLength?_eq_some {s : Text} {n : Nat} :
    nameLength? s = some n ↔
      ∃ name rest, (∀ d ∈ name, isNameChar d = true) ∧ s = name ++ '\x7d' :: rest ∧
        n = name.length + 1 := by
  induction s generalizing n with
  | nil => simp [nameLength?]
  | cons c s ih =>
      rw [nameLength?]
      split
      · rename_i hc
        subst hc
        constructor
        · intro h
          exact ⟨[], s, List.forall_mem_nil _, rfl, (Option.some.inj h).symm⟩
        · rintro ⟨name, rest, hname, hs, rfl⟩
          cases name with
          | nil => rfl
          | cons d name =>
              have hd := hname d List.mem_cons_self
              rw [← (List.cons.inj hs).1, isNameChar_brace] at hd
              cases hd
      · rename_i hc
        split
        · rename_i hchar
          constructor
          · intro h
            obtain ⟨m, hm, rfl⟩ := Option.map_eq_some_iff.mp h
            obtain ⟨name, rest, hname, rfl, rfl⟩ := ih.mp hm
            refine ⟨c :: name, rest, fun d hd => ?_, rfl, rfl⟩
            rcases List.mem_cons.mp hd with rfl | hd
            · exact hchar
            · exact hname d hd
          · rintro ⟨name, rest, hname, hs, rfl⟩
            cases name with
            | nil => exact absurd (List.cons.inj hs).1 hc
            | cons d name =>
                have hrest := ih.mpr ⟨name, rest,
                  fun e he => hname e (List.mem_cons_of_mem _ he), (List.cons.inj hs).2, rfl⟩
                rw [hrest]
                rfl
        · rename_i hchar
          constructor
          · intro h
            cases h
          · rintro ⟨name, rest, hname, hs, rfl⟩
            cases name with
            | nil => exact absurd (List.cons.inj hs).1 hc
            | cons d name =>
                have hd := hname d List.mem_cons_self
                rw [← (List.cons.inj hs).1] at hd
                exact absurd hd hchar

/-- A variable at the start of a text is measured. -/
theorem variableLength?_eq_some {s : Text} {n : Nat} :
    variableLength? s = some n ↔ ∃ v rest, IsVariable v ∧ s = v ++ rest ∧ n = v.length := by
  constructor
  · intro h
    unfold variableLength? at h
    split at h
    · rename_i c rest
      split at h
      · rename_i hc
        obtain ⟨m, hm, rfl⟩ := Option.map_eq_some_iff.mp h
        obtain ⟨name, rest, hname, rfl, rfl⟩ := nameLength?_eq_some.mp hm
        exact ⟨'$' :: '\x7b' :: c :: (name ++ ['\x7d']), rest, ⟨c, name, hc, hname, rfl⟩,
          by simp, by simp⟩
      · cases h
    · cases h
  · rintro ⟨v, rest, ⟨c, name, hc, hname, rfl⟩, rfl, rfl⟩
    have hlen : nameLength? (name ++ '\x7d' :: rest) = some (name.length + 1) :=
      nameLength?_eq_some.mpr ⟨name, rest, hname, rfl, rfl⟩
    simp [variableLength?, hc, hlen]

/-- A text that does not start with a dollar sign does not start with a variable. -/
theorem variableLength?_cons_of_ne {c : Char} (hc : c ≠ '$') (rest : Text) :
    variableLength? (c :: rest) = none := by
  unfold variableLength?
  split
  · rename_i h
    exact absurd (List.cons.inj h).1 hc
  · rfl

/-- A variable holds its dollar sign at its start only. -/
theorem dollar_not_mem_tail {v : Text} (hv : IsVariable v) : '$' ∉ v.tail := by
  obtain ⟨c, name, hc, hname, rfl⟩ := hv
  rw [List.tail_cons, List.mem_cons, List.mem_cons, List.mem_append, List.mem_singleton]
  rintro (h | rfl | h | h)
  · exact absurd h (by decide)
  · exact absurd hc (by decide)
  · exact absurd (hname _ h) (by decide)
  · exact absurd h (by decide)

theorem length_pos_of_isVariable {v : Text} (hv : IsVariable v) : 0 < v.length := by
  obtain ⟨c, name, -, -, rfl⟩ := hv
  exact Nat.succ_pos _

/-- Characters of a variable that was found before come first. -/
theorem variableColumnsFrom_length_append (v s : Text) :
    variableColumnsFrom v.length (v ++ s) = List.replicate v.length true ++ variableColumns s := by
  induction v with
  | nil => rfl
  | cons c v ih =>
      rw [List.cons_append, List.length_cons, variableColumnsFrom, ih, List.replicate_succ,
        List.cons_append]

/-- A variable at the start is skipped as a whole. -/
theorem variableColumns_append {v : Text} (hv : IsVariable v) (s : Text) :
    variableColumns (v ++ s) = List.replicate v.length true ++ variableColumns s := by
  have hlen : variableLength? (v ++ s) = some v.length :=
    variableLength?_eq_some.mpr ⟨v, s, hv, rfl, rfl⟩
  cases v with
  | nil => exact absurd (length_pos_of_isVariable hv) (Nat.lt_irrefl 0)
  | cons c v =>
      rw [List.cons_append] at hlen
      rw [List.cons_append, variableColumns, variableColumnsFrom, hlen]
      exact congrArg (true :: ·) (variableColumnsFrom_length_append v s)

/-- A character that starts no variable is passed over. -/
theorem variableColumns_cons {c : Char} {rest : Text} (h : variableLength? (c :: rest) = none) :
    variableColumns (c :: rest) = false :: variableColumns rest := by
  rw [variableColumns, variableColumnsFrom, h]
  rfl

/-- Two variables at the start of one text are equally long. -/
theorem length_eq_of_isVariable {v w s t : Text} (hv : IsVariable v) (hw : IsVariable w)
    (h : v ++ s = w ++ t) : v.length = w.length := by
  have hlen : variableLength? (v ++ s) = some v.length :=
    variableLength?_eq_some.mpr ⟨v, s, hv, rfl, rfl⟩
  have hlen' : variableLength? (w ++ t) = some w.length :=
    variableLength?_eq_some.mpr ⟨w, t, hw, rfl, rfl⟩
  rw [h, hlen'] at hlen
  exact (Option.some.inj hlen).symm

theorem exists_eq_dollar_cons {v : Text} (hv : IsVariable v) : ∃ rest, v = '$' :: rest := by
  obtain ⟨c, name, -, -, rfl⟩ := hv
  exact ⟨_, rfl⟩

/-- Of the columns after a variable, those in a variable lie in one that starts after it. -/
theorem inVariable_append_iff {v : Text} (hv : IsVariable v) {s : Text} {i : Nat}
    (hi : v.length ≤ i) : InVariable (v ++ s) i ↔ InVariable s (i - v.length) := by
  constructor
  · rintro ⟨before, w, after, heq, hw, hle, hlt⟩
    rcases List.append_eq_append_iff.mp heq with ⟨skip, rfl, hs⟩ | ⟨skip, hskip, hws⟩
    · rw [List.length_append] at hle hlt
      exact ⟨skip, w, after, hs, hw, by omega, by omega⟩
    · -- The second variable begins inside of the first one, or directly after it.
      cases skip with
      | nil =>
          rw [List.append_nil] at hskip
          subst hskip
          exact ⟨[], w, after, hws.symm, hw, Nat.zero_le _, by rw [List.length_nil]; omega⟩
      | cons c skip =>
          exfalso
          cases before with
          | nil =>
              have hlen := length_eq_of_isVariable hv hw heq
              rw [List.length_nil] at hlt
              omega
          | cons d before =>
              obtain ⟨rest, rfl⟩ := exists_eq_dollar_cons hw
              have hc : '$' = c := (List.cons.inj hws).1
              refine dollar_not_mem_tail hv ?_
              rw [hskip, ← hc]
              exact List.mem_append_right _ List.mem_cons_self
  · rintro ⟨before, w, after, rfl, hw, hle, hlt⟩
    refine ⟨v ++ before, w, after, by simp, hw, ?_, ?_⟩
    · rw [List.length_append]
      omega
    · rw [List.length_append]
      omega

/-- A column of a variable at the start of a text lies in a variable. -/
theorem inVariable_of_lt {v : Text} (hv : IsVariable v) (s : Text) {i : Nat}
    (hi : i < v.length) : InVariable (v ++ s) i :=
  ⟨[], v, s, rfl, hv, Nat.zero_le _, by rw [List.length_nil]; omega⟩

/-- Where no variable starts, columns lie in variables that start later. -/
theorem inVariable_cons_iff {c : Char} {rest : Text} (h : variableLength? (c :: rest) = none)
    {i : Nat} : InVariable (c :: rest) i ↔ ∃ j, i = j + 1 ∧ InVariable rest j := by
  constructor
  · rintro ⟨before, v, after, heq, hv, hle, hlt⟩
    cases before with
    | nil =>
        rw [variableLength?_eq_some.mpr ⟨v, after, hv, heq, rfl⟩] at h
        cases h
    | cons d before =>
        rw [List.length_cons] at hle hlt
        exact ⟨i - 1, by omega, before, v, after, (List.cons.inj heq).2, hv, by omega, by omega⟩
  · rintro ⟨j, rfl, before, v, after, rfl, hv, hle, hlt⟩
    refine ⟨c :: before, v, after, rfl, hv, ?_, ?_⟩
    · rw [List.length_cons]
      omega
    · rw [List.length_cons]
      omega

/-- Every character has a column. -/
@[simp] theorem length_variableColumns (s : Text) : (variableColumns s).length = s.length := by
  have hfrom (n : Nat) (s : Text) : (variableColumnsFrom n s).length = s.length := by
    fun_induction variableColumnsFrom n s with
    | case1 => rfl
    | case2 n c rest ih => rw [List.length_cons, ih, List.length_cons]
    | case3 c rest n _ ih => rw [List.length_cons, ih, List.length_cons]
    | case4 c rest _ ih => rw [List.length_cons, ih, List.length_cons]
  exact hfrom 0 s

/-- **The columns of variables are found.** -/
theorem getElem?_variableColumns (s : Text) (i : Nat) :
    (variableColumns s)[i]? = some true ↔ InVariable s i := by
  induction hn : s.length using Nat.strongRecOn generalizing s i with
  | ind n ih =>
      cases s with
      | nil =>
          refine iff_of_false (by simp [variableColumns, variableColumnsFrom]) ?_
          rintro ⟨before, v, after, heq, hv, -, -⟩
          have hpos := length_pos_of_isVariable hv
          have hlen := congrArg List.length heq
          simp only [List.length_nil, List.length_append] at hlen
          omega
      | cons c rest =>
          cases h : variableLength? (c :: rest) with
          | none =>
              rw [variableColumns_cons h, inVariable_cons_iff h]
              cases i with
              | zero => simp
              | succ i =>
                  rw [List.getElem?_cons_succ, ih rest.length (by simp [← hn]) rest i rfl]
                  simp
          | some m =>
              obtain ⟨v, after, hv, heq, rfl⟩ := variableLength?_eq_some.mp h
              have hpos := length_pos_of_isVariable hv
              rw [heq, List.length_append] at hn
              rw [heq, variableColumns_append hv]
              by_cases hi : i < v.length
              · refine iff_of_true ?_ (inVariable_of_lt hv after hi)
                rw [List.getElem?_append_left (by simpa using hi)]
                simp [hi]
              · rw [List.getElem?_append_right (by simpa using Nat.le_of_not_lt hi),
                  inVariable_append_iff hv (Nat.le_of_not_lt hi), List.length_replicate]
                exact ih after.length (by omega) after _ rfl

/-! ### Paths -/

/-- The column holds a character that is not blank. -/
def HasInk (s : Text) (i : Nat) : Prop :=
  ∃ c, s[i]? = some c ∧ isBlank c = false

/-- The column lies in a path: there is a slash at it or before it, directly followed by a
character that is not blank, and no blank from the slash up to the column. -/
def InPath (s : Text) (i : Nat) : Prop :=
  ∃ j ≤ i, s[j]? = some '/' ∧ (∀ m, j ≤ m → m ≤ i → HasInk s m) ∧ HasInk s (j + 1)

theorem HasInk.lt_length {s : Text} {i : Nat} (h : HasInk s i) : i < s.length := by
  obtain ⟨c, hc, -⟩ := h
  exact (List.getElem?_eq_some_iff.mp hc).1

theorem InPath.hasInk {s : Text} {i : Nat} (h : InPath s i) : HasInk s i := by
  obtain ⟨j, hj, -, hink, -⟩ := h
  exact hink i hj (Nat.le_refl i)

/-- A path goes on through ink. -/
theorem InPath.succ {s : Text} {i : Nat} (h : InPath s i) (hink : HasInk s (i + 1)) :
    InPath s (i + 1) := by
  obtain ⟨j, hj, hslash, hall, hnext⟩ := h
  refine ⟨j, by omega, hslash, fun m hm hmi => ?_, hnext⟩
  rcases Nat.lt_or_eq_of_le hmi with hlt | rfl
  · exact hall m hm (by omega)
  · exact hink

theorem startsInk_iff (s : Text) : startsInk s = true ↔ HasInk s 0 := by
  cases s with
  | nil => simp [startsInk, HasInk]
  | cons c rest => simp [startsInk, HasInk]

@[simp] theorem hasInk_cons_succ (c : Char) (rest : Text) (i : Nat) :
    HasInk (c :: rest) (i + 1) ↔ HasInk rest i := by
  rw [HasInk, HasInk, List.getElem?_cons_succ]

@[simp] theorem hasInk_cons_zero (c : Char) (rest : Text) :
    HasInk (c :: rest) 0 ↔ isBlank c = false := by
  simp [HasInk]

theorem inPath_cons_zero (c : Char) (rest : Text) :
    InPath (c :: rest) 0 ↔ c = '/' ∧ startsInk rest = true := by
  rw [startsInk_iff]
  constructor
  · rintro ⟨j, hj, hslash, -, hink⟩
    obtain rfl : j = 0 := by omega
    exact ⟨by simpa using hslash, (hasInk_cons_succ c rest 0).mp hink⟩
  · rintro ⟨rfl, hink⟩
    refine ⟨0, Nat.le_refl 0, rfl, fun m _ hm => ?_, (hasInk_cons_succ _ rest 0).mpr hink⟩
    obtain rfl : m = 0 := by omega
    exact (hasInk_cons_zero _ _).mpr (by decide)

/-- A later column lies in a path that starts at the first character or later. -/
theorem inPath_cons_succ (c : Char) (rest : Text) (i : Nat) :
    InPath (c :: rest) (i + 1) ↔
      ((c = '/' ∧ startsInk rest = true) ∧ ∀ m ≤ i, HasInk rest m) ∨ InPath rest i := by
  constructor
  · rintro ⟨j, hj, hslash, hink, hnext⟩
    cases j with
    | zero =>
        refine .inl ⟨⟨by simpa using hslash, ?_⟩, fun m hm => ?_⟩
        · exact (startsInk_iff rest).mpr ((hasInk_cons_succ c rest 0).mp hnext)
        · exact (hasInk_cons_succ c rest m).mp (hink (m + 1) (Nat.zero_le _) (by omega))
    | succ j =>
        refine .inr ⟨j, by omega, by simpa using hslash, fun m hjm hmi => ?_, ?_⟩
        · exact (hasInk_cons_succ c rest m).mp (hink (m + 1) (by omega) (by omega))
        · exact (hasInk_cons_succ c rest (j + 1)).mp hnext
  · rintro (⟨⟨rfl, hstart⟩, hink⟩ | ⟨j, hj, hslash, hink, hnext⟩)
    · refine ⟨0, Nat.zero_le _, rfl, fun m _ hm => ?_, ?_⟩
      · cases m with
        | zero => exact (hasInk_cons_zero _ _).mpr (by decide)
        | succ m => exact (hasInk_cons_succ _ rest m).mpr (hink m (by omega))
      · exact (hasInk_cons_succ _ rest 0).mpr ((startsInk_iff rest).mp hstart)
    · refine ⟨j + 1, by omega, by simpa using hslash, fun m hjm hmi => ?_, ?_⟩
      · obtain ⟨m, rfl⟩ : ∃ k, m = k + 1 := ⟨m - 1, by omega⟩
        exact (hasInk_cons_succ c rest m).mpr (hink m (by omega) (by omega))
      · exact (hasInk_cons_succ c rest (j + 1)).mpr hnext

/-- Ink up to a later column is ink in the first one and in those that follow. -/
theorem forall_hasInk_cons (c : Char) (rest : Text) (i : Nat) :
    (∀ m ≤ i + 1, HasInk (c :: rest) m) ↔ isBlank c = false ∧ ∀ m ≤ i, HasInk rest m := by
  constructor
  · intro h
    refine ⟨(hasInk_cons_zero c rest).mp (h 0 (Nat.zero_le _)), fun m hm => ?_⟩
    exact (hasInk_cons_succ c rest m).mp (h (m + 1) (by omega))
  · rintro ⟨hc, h⟩ m hm
    cases m with
    | zero => exact (hasInk_cons_zero c rest).mpr hc
    | succ m => exact (hasInk_cons_succ c rest m).mpr (h m (by omega))

/-- Is a column in a path, given whether the one before is? -/
def pathHere (inPath : Bool) (c : Char) (rest : Text) : Bool :=
  if inPath then !isBlank c else c = '/' && startsInk rest

/-- The first column decides about the second. -/
theorem pathColumnsFrom_cons (inPath : Bool) (c : Char) (rest : Text) :
    pathColumnsFrom inPath (c :: rest) =
      pathHere inPath c rest :: pathColumnsFrom (pathHere inPath c rest) rest := rfl

/-- A path goes on through ink, and else starts at a slash before ink. -/
theorem pathHere_eq_true (inPath : Bool) (c : Char) (rest : Text) :
    pathHere inPath c rest = true ↔
      (inPath = true ∧ isBlank c = false) ∨ (c = '/' ∧ startsInk rest = true) := by
  cases inPath with
  | false => simp [pathHere]
  | true =>
      have hslash : c = '/' → isBlank c = false := by
        rintro rfl
        decide
      simpa [pathHere] using fun hc _ => hslash hc

/-- The columns of paths, whether the character before the text lies in one or not. -/
theorem getElem?_pathColumnsFrom (inPath : Bool) (s : Text) (i : Nat) :
    (pathColumnsFrom inPath s)[i]? = some true ↔
      (inPath = true ∧ ∀ m ≤ i, HasInk s m) ∨ InPath s i := by
  induction s generalizing inPath i with
  | nil =>
      have hink (m : Nat) : ¬HasInk [] m := fun ⟨c, hc, _⟩ => nomatch hc
      refine iff_of_false (by simp [pathColumnsFrom]) ?_
      rintro (⟨-, h⟩ | ⟨j, -, -, -, h⟩)
      · exact hink 0 (h 0 (Nat.zero_le _))
      · exact hink (j + 1) h
  | cons c rest ih =>
      rw [pathColumnsFrom_cons]
      cases i with
      | zero =>
          rw [List.getElem?_cons_zero, Option.some.injEq, pathHere_eq_true, inPath_cons_zero]
          simp
      | succ i =>
          rw [List.getElem?_cons_succ, ih, pathHere_eq_true, inPath_cons_succ,
            forall_hasInk_cons]
          tauto

/-- **The columns of paths are found.** -/
theorem getElem?_pathColumns (s : Text) (i : Nat) :
    (pathColumns s)[i]? = some true ↔ InPath s i := by
  rw [pathColumns, getElem?_pathColumnsFrom]
  simp

/-- Every character has a column. -/
@[simp] theorem length_pathColumns (s : Text) : (pathColumns s).length = s.length := by
  have hfrom (inPath : Bool) (s : Text) : (pathColumnsFrom inPath s).length = s.length := by
    induction s generalizing inPath with
    | nil => rfl
    | cons c rest ih => rw [pathColumnsFrom_cons, List.length_cons, ih, List.length_cons]
  exact hfrom false s

/-! ### Blanks at the start -/

theorem variableColumns_blank_append {w : Text} (hw : ∀ c ∈ w, isBlank c = true) (s : Text) :
    variableColumns (w ++ s) = List.replicate w.length false ++ variableColumns s := by
  induction w with
  | nil => rfl
  | cons c w ih =>
      have hc : c ≠ '$' := by
        rintro rfl
        exact absurd (hw '$' List.mem_cons_self) (by decide)
      rw [List.cons_append, variableColumns_cons (variableLength?_cons_of_ne hc _),
        ih fun d hd => hw d (List.mem_cons_of_mem _ hd)]
      rfl

theorem pathColumns_blank_append {w : Text} (hw : ∀ c ∈ w, isBlank c = true) (s : Text) :
    pathColumns (w ++ s) = List.replicate w.length false ++ pathColumns s := by
  induction w with
  | nil => rfl
  | cons c w ih =>
      have hc : c ≠ '/' := by
        rintro rfl
        exact absurd (hw '/' List.mem_cons_self) (by decide)
      have hhere : pathHere false c (w ++ s) = false := by simp [pathHere, hc]
      rw [List.cons_append, pathColumns, pathColumnsFrom_cons, hhere]
      exact congrArg (false :: ·) (ih fun d hd => hw d (List.mem_cons_of_mem _ hd))

/-! ### Parts of a line -/

theorem holdsVariable_iff (s : Text) : holdsVariable s = true ↔ ∃ i, InVariable s i := by
  rw [holdsVariable, List.contains_iff_mem, List.mem_iff_getElem?]
  exact exists_congr fun i => getElem?_variableColumns s i

theorem holdsPath_iff (s : Text) : holdsPath s = true ↔ ∃ i, InPath s i := by
  rw [holdsPath, List.contains_iff_mem, List.mem_iff_getElem?]
  exact exists_congr fun i => getElem?_pathColumns s i

/-- A variable of a part of a text is one of the text. -/
theorem InVariable.append {s : Text} {i : Nat} (h : InVariable s i) (left right : Text) :
    InVariable (left ++ (s ++ right)) (left.length + i) := by
  obtain ⟨before, v, after, rfl, hv, hle, hlt⟩ := h
  refine ⟨left ++ before, v, after ++ right, by simp, hv, ?_, ?_⟩
  · rw [List.length_append]
    omega
  · rw [List.length_append]
    omega

/-- Ink of a part of a text is ink of the text. -/
theorem HasInk.append {s : Text} {i : Nat} (h : HasInk s i) (left right : Text) :
    HasInk (left ++ (s ++ right)) (left.length + i) := by
  obtain ⟨c, hc, hblank⟩ := h
  have hlt := (List.getElem?_eq_some_iff.mp hc).1
  refine ⟨c, ?_, hblank⟩
  rw [List.getElem?_append_right (Nat.le_add_right _ _), Nat.add_sub_cancel_left,
    List.getElem?_append_left hlt, hc]

/-- A path of a part of a text is one of the text, where it may go on. -/
theorem InPath.append {s : Text} {i : Nat} (h : InPath s i) (left right : Text) :
    InPath (left ++ (s ++ right)) (left.length + i) := by
  obtain ⟨j, hj, hslash, hink, hnext⟩ := h
  have hlt := (List.getElem?_eq_some_iff.mp hslash).1
  refine ⟨left.length + j, by omega, ?_, fun m hm hmi => ?_, hnext.append left right⟩
  · rw [List.getElem?_append_right (Nat.le_add_right _ _), Nat.add_sub_cancel_left,
      List.getElem?_append_left hlt, hslash]
  · obtain ⟨n, rfl⟩ := Nat.exists_eq_add_of_le (Nat.le_trans (Nat.le_add_right _ _) hm)
    exact (hink n (by omega) (by omega)).append left right

end SandboxProfile
