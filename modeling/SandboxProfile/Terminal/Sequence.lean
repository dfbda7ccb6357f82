import SandboxProfile.Text.Basic

/-!
# Control sequences

A control sequence begins with an escape character and an opening bracket, goes on with
digits, semicolons and question marks, and ends with a letter. Text that is printed as it
is must not control the terminal, so such sequences are left out of it.

## Main definitions

* `Terminal.stripSequences` leaves the control sequences out of a text.

## Main results

* `Terminal.stripSequences_of_not_mem` — a text without escape characters stays as it is.
-/

namespace SandboxProfile

namespace Terminal

/-- The character that control sequences begin with. -/
def escape : Char := '\x1b'

/-- Can the character stand inside of a control sequence? -/
def isParameter (c : Char) : Bool :=
  c = ';' || c = '?' || c.isDigit

/-- The text after a control sequence whose first two characters have been read. -/
def afterSequence? (s : Text) : Option Text :=
  match s.dropWhile isParameter with
  | c :: rest => if c.isAlpha then some rest else none
  | [] => none

/-- What follows a control sequence is shorter than the text that it begins. -/
theorem length_afterSequence?_lt {s rest : Text} (h : afterSequence? s = some rest) :
    rest.length < s.length := by
  unfold afterSequence? at h
  split at h
  · rename_i c tail hs
    split at h
    · have hlen : (c :: tail).length ≤ s.length := hs ▸ (List.dropWhile_sublist _).length_le
      rw [← Option.some.inj h]
      exact Nat.lt_of_lt_of_le (Nat.lt_succ_self _) hlen
    · contradiction
  · contradiction

/-- A text without its control sequences. -/
def stripSequences : Text → Text
  | '\x1b' :: '[' :: body =>
    match h : afterSequence? body with
    | some after =>
      have := length_afterSequence?_lt h
      stripSequences after
    | none => '\x1b' :: '[' :: stripSequences body
  | c :: rest => c :: stripSequences rest
  | [] => []
termination_by s => s.length

/-- A text without escape characters stays as it is. -/
theorem stripSequences_of_not_mem {s : Text} (h : escape ∉ s) : stripSequences s = s := by
  fun_induction stripSequences s with
  | case1 body after => exact absurd List.mem_cons_self h
  | case2 body => exact absurd List.mem_cons_self h
  | case3 c rest _ ih => rw [ih fun hr => h (List.mem_cons_of_mem _ hr)]
  | case4 => rfl

end Terminal

end SandboxProfile
