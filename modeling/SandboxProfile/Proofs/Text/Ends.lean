import Mathlib.Data.List.TakeWhile
import Mathlib.Tactic.Common
import SandboxProfile.Text.Blank

/-!
# The two ends of a text

What is cut off at the start and at the end of a text, and what is left.

## Main definitions

* `Text.blankPrefix` are the blanks that a text starts with.

## Main results

* `Text.blankPrefix_append_trimStart` — a text is its first blanks and the rest.
* `Text.exists_dropEndWhile_append` — a text is what is left of it and its last characters.
-/

namespace SandboxProfile

namespace Text

/-! ### Blanks at the start -/

/-- The blanks that a text starts with. -/
def blankPrefix (s : Text) : Text :=
  s.takeWhile isBlank

theorem blankPrefix_append_trimStart (s : Text) : blankPrefix s ++ trimStart s = s :=
  List.takeWhile_append_dropWhile

theorem isBlank_of_mem_blankPrefix {s : Text} {c : Char} (h : c ∈ blankPrefix s) :
    isBlank c = true :=
  List.mem_takeWhile_imp h

theorem trimStart_append {w : Text} (hw : ∀ c ∈ w, isBlank c = true) (s : Text) :
    trimStart (w ++ s) = trimStart s :=
  List.dropWhile_append_of_pos hw

theorem blankPrefix_append {w : Text} (hw : ∀ c ∈ w, isBlank c = true) {c : Char}
    (hc : isBlank c = false) (rest : Text) : blankPrefix (w ++ c :: rest) = w := by
  rw [blankPrefix, List.takeWhile_append_of_pos hw, List.takeWhile_cons_of_neg (by simp [hc]),
    List.append_nil]

/-- What is left does not start with a blank. -/
theorem isBlank_eq_false_of_trimStart {s rest : Text} {c : Char}
    (h : trimStart s = c :: rest) : isBlank c = false := by
  have hc := List.head?_dropWhile_not isBlank s
  rw [show s.dropWhile isBlank = c :: rest from h] at hc
  simpa using hc

/-- Without blanks at the start there is nothing more to leave out. -/
theorem trimStart_cons_of_ink {c : Char} (hc : isBlank c = false) (rest : Text) :
    trimStart (c :: rest) = c :: rest := by
  rw [trimStart, List.dropWhile_cons_of_neg (by simp [hc])]

theorem trimStart_trimStart (s : Text) : trimStart (trimStart s) = trimStart s := by
  cases h : trimStart s with
  | nil => rfl
  | cons c rest => exact trimStart_cons_of_ink (isBlank_eq_false_of_trimStart h) rest

/-! ### Characters at the end -/

/-- A text is what is left of it and characters that were cut off. -/
theorem exists_dropEndWhile_append (p : Char → Bool) (s : Text) :
    ∃ cut, s = dropEndWhile p s ++ cut ∧ ∀ c ∈ cut, p c = true := by
  induction s with
  | nil => exact ⟨[], rfl, fun _ h => nomatch h⟩
  | cons c rest ih =>
      obtain ⟨cut, hrest, hcut⟩ := ih
      rw [dropEndWhile]
      cases hkept : dropEndWhile p rest with
      | cons d kept =>
          rw [hkept] at hrest
          exact ⟨cut, congrArg (c :: ·) hrest, hcut⟩
      | nil =>
          rw [hkept, List.nil_append] at hrest
          subst hrest
          by_cases hc : p c = true
          · refine ⟨c :: rest, by simp [hc], fun d hd => ?_⟩
            rcases List.mem_cons.mp hd with rfl | hd
            · exact hc
            · exact hcut d hd
          · exact ⟨rest, by simp [hc], hcut⟩

/-- Characters of the kind that is cut off may be added at the end. -/
theorem dropEndWhile_concat {p : Char → Bool} {c : Char} (hc : p c = true) (s : Text) :
    dropEndWhile p (s ++ [c]) = dropEndWhile p s := by
  induction s with
  | nil => simp [dropEndWhile, hc]
  | cons d rest ih => rw [List.cons_append, dropEndWhile, dropEndWhile, ih]

/-- What stands before a character that stays is not touched. -/
theorem dropEndWhile_append {p : Char → Bool} {t : Text} (ht : dropEndWhile p t ≠ [])
    (s : Text) : dropEndWhile p (s ++ t) = s ++ dropEndWhile p t := by
  induction s with
  | nil => rfl
  | cons c rest ih =>
      rw [List.cons_append, dropEndWhile, ih]
      cases h : rest ++ dropEndWhile p t with
      | nil => exact absurd (List.append_eq_nil_iff.mp h).2 ht
      | cons d kept => rw [List.cons_append, h]

/-- A first character that is not of the kind stays. -/
theorem dropEndWhile_cons {p : Char → Bool} {c : Char} (hc : p c = false) (rest : Text) :
    dropEndWhile p (c :: rest) = c :: dropEndWhile p rest := by
  rw [dropEndWhile]
  cases dropEndWhile p rest with
  | nil => simp [hc]
  | cons d kept => rfl

end Text

end SandboxProfile
