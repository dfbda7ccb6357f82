import Mathlib.Tactic.SplitIfs
import SandboxProfile.Json.Printer
import SandboxProfile.Json.Reader

/-!
# Strings and integers are read back

A character is written as itself, as an escape of one letter, or as one or two escapes by code
unit. Reading undoes this in two steps, and so does the argument: first the escapes give the
UTF-16 units of the characters, whatever follows them, and then the units are put together. The
second step needs that a character is never a surrogate, since a high surrogate would take the
unit behind it.

An integer is read up to the first character that is no digit, so it is read back in front of
such a character only.

## Main definitions

* `Json.unitsOf` are the UTF-16 units of a character.
* `Json.WrittenAs` lists the ways in which a character is written inside a string.
* `Json.NoDigitAhead` says that a text does not go on with a digit.

## Main results

* `Json.readString?_quoted` — a string is read back.
* `Json.readNat?_ofNat` — a natural number is read back.
* `Json.isAscii_quotedText` — a string is written in ASCII.
-/

namespace SandboxProfile

namespace Json

/-! ### Hexadecimal digits -/

theorem hexDigit?_digitChar {d : Nat} (h : d < 16) : Text.hexDigit? (Nat.digitChar d) = some d := by
  have hall : ∀ d < 16, Text.hexDigit? (Nat.digitChar d) = some d := by decide
  exact hall d h

theorem hex_four (n : Nat) :
    Text.hex 4 n = [Nat.digitChar (n / 16 / 16 / 16 % 16), Nat.digitChar (n / 16 / 16 % 16),
      Nat.digitChar (n / 16 % 16), Nat.digitChar (n % 16)] := by
  simp [Text.hex]

/-- Four hexadecimal digits are read back. -/
theorem unit?_digitChar {n : Nat} (h : n < 0x10000) :
    unit? (Nat.digitChar (n / 16 / 16 / 16 % 16)) (Nat.digitChar (n / 16 / 16 % 16))
      (Nat.digitChar (n / 16 % 16)) (Nat.digitChar (n % 16)) = some n := by
  have hdigit (m : Nat) : Text.hexDigit? (Nat.digitChar (m % 16)) = some (m % 16) :=
    hexDigit?_digitChar (Nat.mod_lt m (by omega))
  have hvalue : Text.ofDigits 16 [n / 16 / 16 / 16 % 16, n / 16 / 16 % 16, n / 16 % 16, n % 16] =
      n := by
    simp only [Text.ofDigits, List.foldl_cons, List.foldl_nil]
    omega
  simp only [unit?, hdigit, hvalue, Option.bind_eq_bind, Option.bind_some, Option.pure_def]

/-! ### Units -/

/-- The UTF-16 units of a character. -/
def unitsOf (c : Char) : List Nat :=
  if c.toNat < 0x10000 then [c.toNat]
  else [0xd800 + (c.toNat - 0x10000) / 0x400, 0xdc00 + (c.toNat - 0x10000) % 0x400]

/-- No character is a surrogate, and none is beyond the last code point. -/
theorem isValid_toNat (c : Char) : c.toNat < 0xd800 ∨ 0xdfff < c.toNat ∧ c.toNat < 0x110000 :=
  c.valid

theorem char?_toNat (c : Char) : Text.char? c.toNat = some c := by
  have hvalid : c.toNat.isValidChar := c.valid
  have hchar : Char.ofNatAux c.toNat hvalid = c := Char.ext (UInt32.toNat_inj.mp rfl)
  rw [Text.char?, dif_pos hvalid, hchar]

/-- The units of a character are put together to the character. -/
theorem joinUnits?_unitsOf (c : Char) (rest : List Nat) :
    joinUnits? (unitsOf c ++ rest) = (joinUnits? rest).map (c :: ·) := by
  have hvalid := isValid_toNat c
  by_cases hsmall : c.toNat < 0x10000
  · have hlone : ¬ (0xd800 ≤ c.toNat ∧ c.toNat ≤ 0xdbff) := by omega
    rw [unitsOf, if_pos hsmall, List.singleton_append, joinUnits?.eq_def]
    simp only [if_neg hlone, char?_toNat]
    cases joinUnits? rest <;> rfl
  · have hhigh : 0xd800 ≤ 0xd800 + (c.toNat - 0x10000) / 0x400 ∧
        0xd800 + (c.toNat - 0x10000) / 0x400 ≤ 0xdbff := by omega
    have hlow : 0xdc00 ≤ 0xdc00 + (c.toNat - 0x10000) % 0x400 ∧
        0xdc00 + (c.toNat - 0x10000) % 0x400 ≤ 0xdfff := by omega
    have hvalue : 0x10000 + (0xd800 + (c.toNat - 0x10000) / 0x400 - 0xd800) * 0x400 +
        (0xdc00 + (c.toNat - 0x10000) % 0x400 - 0xdc00) = c.toNat := by omega
    rw [unitsOf, if_neg hsmall, List.cons_append, List.singleton_append, joinUnits?,
      if_pos hhigh]
    simp only [if_pos hlow, hvalue, Char.ofNat_toNat]

/-- The units of the characters of a text are put together to the text. -/
theorem joinUnits?_flatMap_unitsOf (s : Text) : joinUnits? (s.flatMap unitsOf) = some s := by
  induction s with
  | nil => rfl
  | cons c rest ih => rw [List.flatMap_cons, joinUnits?_unitsOf, ih, Option.map_some]

/-! ### Escapes -/

/-- Some units are read before the others. -/
def precededBy (units : List Nat) (r : Option (List Nat × Text)) : Option (List Nat × Text) :=
  r.map fun (others, after) => (units ++ others, after)

/-- An escape by code unit gives the unit. -/
theorem readUnits?_unitEscape {n : Nat} (h : n < 0x10000) (rest : Text) :
    readUnits? (unitEscape n ++ rest) = precededBy [n] (readUnits? rest) := by
  rw [unitEscape, hex_four]
  simp only [List.cons_append, List.nil_append, readUnits?, unit?_digitChar h]
  cases readUnits? rest <;> rfl

/-- An escape of one letter gives the unit that the letter stands for. -/
theorem readUnits?_letterEscape {c : Char} {n : Nat} (h : letterEscape? c = some n) (rest : Text) :
    readUnits? ('\\' :: c :: rest) = precededBy [n] (readUnits? rest) := by
  have hletter : c ≠ 'u' := by
    rintro rfl
    simp [letterEscape?] at h
  rw [readUnits?]
  · rw [h]
    cases readUnits? rest <;> rfl
  · intro a b c d rest hu
    exact absurd hu hletter

/-- A character that is written as itself gives its code point. -/
theorem readUnits?_plain {c : Char} (hquote : c ≠ '"') (hslash : c ≠ '\\') (h : 0x20 ≤ c.toNat)
    (rest : Text) : readUnits? (c :: rest) = precededBy [c.toNat] (readUnits? rest) := by
  have hplain : ¬ (c = '\\' ∨ c.toNat < 0x20) := by
    rintro (hc | hc)
    · exact hslash hc
    · omega
  rw [readUnits?]
  · rw [if_neg hplain]
    rfl
  all_goals simp_all

/-- How a character is written inside a string. -/
inductive WrittenAs (c : Char) : Text → Prop where
  /-- As an escape of one letter. -/
  | letter {d : Char} {n : Nat} : letterEscape? d = some n → unitsOf c = [n] →
      WrittenAs c ['\\', d]
  /-- As itself. -/
  | plain : c ≠ '"' → c ≠ '\\' → 0x20 ≤ c.toNat → c.toNat ≤ 0x7e → WrittenAs c [c]
  /-- As an escape by code unit. -/
  | unit : c.toNat < 0x10000 → WrittenAs c (unitEscape c.toNat)
  /-- As two escapes by code unit. -/
  | pair : ¬c.toNat < 0x10000 → WrittenAs c
      (unitEscape (0xd800 + (c.toNat - 0x10000) / 0x400) ++
        unitEscape (0xdc00 + (c.toNat - 0x10000) % 0x400))

/-- A character is written in one of these ways. -/
theorem writtenAs_escapedChar (c : Char) : WrittenAs c (escapedChar c) := by
  have hunits {n : Nat} (hc : c.toNat = n) (hn : n < 0x10000) : unitsOf c = [n] := by
    rw [unitsOf, hc, if_pos hn]
  unfold escapedChar
  dsimp only
  split_ifs with hquote hslash hprintable hb hf hn hr ht hsmall
  · exact .letter rfl (hunits (congrArg Char.toNat hquote) (by decide))
  · exact .letter rfl (hunits (congrArg Char.toNat hslash) (by decide))
  · exact .plain hquote hslash hprintable.1 hprintable.2
  · exact .letter rfl (hunits hb (by decide))
  · exact .letter rfl (hunits hf (by decide))
  · exact .letter rfl (hunits (congrArg Char.toNat hn) (by decide))
  · exact .letter rfl (hunits (congrArg Char.toNat hr) (by decide))
  · exact .letter rfl (hunits (congrArg Char.toNat ht) (by decide))
  · exact .unit hsmall
  · exact .pair hsmall

/-- **A character inside a string gives its units**, whichever way it is written. -/
theorem WrittenAs.readUnits?_append {c : Char} {written : Text} (h : WrittenAs c written)
    (rest : Text) : readUnits? (written ++ rest) = precededBy (unitsOf c) (readUnits? rest) := by
  cases h with
  | letter hletter hunits =>
      rw [hunits]
      exact readUnits?_letterEscape hletter rest
  | plain hquote hslash hlow hhigh =>
      have hunits : unitsOf c = [c.toNat] := if_pos (by omega)
      rw [hunits]
      exact readUnits?_plain hquote hslash hlow rest
  | unit hsmall =>
      have hunits : unitsOf c = [c.toNat] := if_pos hsmall
      rw [hunits]
      exact readUnits?_unitEscape hsmall rest
  | pair hlarge =>
      have hvalid := isValid_toNat c
      have hunits : unitsOf c = [0xd800 + (c.toNat - 0x10000) / 0x400,
          0xdc00 + (c.toNat - 0x10000) % 0x400] := if_neg hlarge
      rw [hunits, List.append_assoc, readUnits?_unitEscape (by omega),
        readUnits?_unitEscape (by omega)]
      cases readUnits? rest <;> rfl

/-- The characters of a string give their units, up to the closing quote. -/
theorem readUnits?_flatMap_escapedChar (s rest : Text) :
    readUnits? (s.flatMap escapedChar ++ '"' :: rest) = some (s.flatMap unitsOf, rest) := by
  induction s with
  | nil => rfl
  | cons c s ih =>
      rw [List.flatMap_cons, List.append_assoc, (writtenAs_escapedChar c).readUnits?_append, ih]
      rfl

/-- **A string is read back**, up to its closing quote. -/
theorem readString?_quoted (s rest : Text) :
    readString? (s.flatMap escapedChar ++ '"' :: rest) = some (s, rest) := by
  simp only [readString?, readUnits?_flatMap_escapedChar, joinUnits?_flatMap_unitsOf,
    Option.bind_eq_bind, Option.bind_some, Option.pure_def]

/-! ### ASCII -/

/-- All characters of the text are ASCII. -/
def IsAscii (s : Text) : Prop :=
  ∀ c ∈ s, c.toNat < 0x80

theorem isAscii_append {s t : Text} : IsAscii (s ++ t) ↔ IsAscii s ∧ IsAscii t :=
  List.forall_mem_append

@[simp]
theorem isAscii_cons {c : Char} {s : Text} : IsAscii (c :: s) ↔ c.toNat < 0x80 ∧ IsAscii s :=
  List.forall_mem_cons

@[simp]
theorem isAscii_nil : IsAscii [] := by
  rintro c hc
  cases hc

/-- Digits of a base up to sixteen are ASCII. -/
theorem toNat_digitChar_lt {d : Nat} (h : d < 16) : (Nat.digitChar d).toNat < 0x80 := by
  have hall : ∀ d < 16, (Nat.digitChar d).toNat < 0x80 := by decide
  exact hall d h

/-- An escape by code unit is ASCII. -/
theorem isAscii_unitEscape (n : Nat) : IsAscii (unitEscape n) := by
  have hdigit (m : Nat) : (Nat.digitChar (m % 16)).toNat < 0x80 :=
    toNat_digitChar_lt (Nat.mod_lt m (by omega))
  rw [unitEscape, hex_four]
  simp [hdigit]

/-- The letter of an escape is ASCII. -/
theorem toNat_lt_of_letterEscape? {d : Char} {n : Nat} (h : letterEscape? d = some n) :
    d.toNat < 0x80 := by
  unfold letterEscape? at h
  split at h
  all_goals first
    | decide
    | cases h

/-- A character is written in ASCII, whichever way. -/
theorem WrittenAs.isAscii {c : Char} {written : Text} (h : WrittenAs c written) :
    IsAscii written := by
  cases h with
  | letter hletter _ => simp [toNat_lt_of_letterEscape? hletter]
  | plain _ _ _ hhigh =>
      have hascii : c.toNat < 0x80 := by omega
      simp [hascii]
  | unit _ => exact isAscii_unitEscape _
  | pair _ => exact isAscii_append.mpr ⟨isAscii_unitEscape _, isAscii_unitEscape _⟩

/-- **A string is written in ASCII.** -/
theorem isAscii_quotedText (s : Text) : IsAscii (quotedText s) := by
  have hbody : IsAscii (s.flatMap escapedChar) := by
    intro c hc
    obtain ⟨d, -, hd⟩ := List.mem_flatMap.mp hc
    exact (writtenAs_escapedChar d).isAscii c hd
  simp [quotedText, isAscii_append, hbody]

/-- An integer is written in ASCII. -/
theorem isAscii_ofInt (i : Int) : IsAscii (Text.ofInt i) := by
  have hnat (n : Nat) : IsAscii (Text.ofNat n) := by
    intro c hc
    have hdigit : c.isDigit = true := Nat.isDigit_of_mem_toDigits (by omega) (by omega) hc
    simp only [Char.isDigit, Bool.and_eq_true, decide_eq_true_eq] at hdigit
    have hnine : c.toNat ≤ 0x39 := hdigit.2
    omega
  cases i with
  | ofNat n => exact hnat n
  | negSucc n => exact isAscii_cons.mpr ⟨by decide, hnat (n + 1)⟩

/-! ### Integers -/

/-- The text does not go on with a digit. -/
def NoDigitAhead (s : Text) : Prop :=
  ∀ c rest, s = c :: rest → c.isDigit = false

theorem noDigitAhead_cons {c : Char} (h : c.isDigit = false) (s : Text) :
    NoDigitAhead (c :: s) := by
  rintro d rest hd
  obtain ⟨rfl, -⟩ := List.cons.inj hd
  exact h

theorem noDigitAhead_nil : NoDigitAhead [] := by
  rintro c rest hc
  cases hc

/-- Digits end where no digit follows. -/
theorem span_digits {ds rest : Text} (h : ∀ c ∈ ds, c.isDigit = true) (hrest : NoDigitAhead rest) :
    (ds ++ rest).takeWhile Char.isDigit = ds ∧ (ds ++ rest).dropWhile Char.isDigit = rest := by
  have hend : rest.takeWhile Char.isDigit = [] ∧ rest.dropWhile Char.isDigit = rest := by
    cases rest with
    | nil => exact ⟨rfl, rfl⟩
    | cons c rest =>
        have hc : c.isDigit = false := hrest c rest rfl
        simp [hc]
  rw [List.takeWhile_append_of_pos h, List.dropWhile_append_of_pos h, hend.1, hend.2]
  exact ⟨List.append_nil ds, rfl⟩

/-- A number of more than one digit does not begin with a zero. -/
theorem toDigits_ne_zero_cons (n : Nat) (c : Char) (rest : Text) :
    Nat.toDigits 10 n ≠ '0' :: c :: rest := by
  induction n using Nat.strongRecOn generalizing c rest with
  | ind n ih =>
      rw [Nat.toDigits_eq_if (by omega)]
      split
      · simp
      · rename_i hlarge
        have hsmaller : n / 10 < n := by omega
        intro heq
        -- The last digit can only be the second one if the others are a single zero.
        cases hdigits : Nat.toDigits 10 (n / 10) with
        | nil => exact Nat.toDigits_ne_nil hdigits
        | cons d ds =>
            rw [hdigits, List.cons_append] at heq
            obtain ⟨rfl, heq⟩ := List.cons.inj heq
            cases ds with
            | cons e es => exact ih (n / 10) hsmaller e es hdigits
            | nil =>
                have hzero := congrArg (fun s => Nat.ofDigitChars 10 s 0) hdigits
                simp only [Nat.ofDigitChars_ten_toDigits] at hzero
                have hvalue : Nat.ofDigitChars 10 ['0'] 0 = 0 := by decide
                omega

/-- The digits of a number stand for it. -/
theorem ofDigits_toDigits (n : Nat) :
    Text.ofDigits 10 ((Text.ofNat n).map fun c => c.toNat - '0'.toNat) = n := by
  rw [Text.ofDigits, List.foldl_map, Text.ofNat]
  have hfold := Nat.ofDigitChars_ten_toDigits (n := n)
  rw [Nat.ofDigitChars_eq_foldl] at hfold
  simpa only [Nat.mul_comm] using hfold

/-- **A natural number is read back** in front of a character that is no digit. -/
theorem readNat?_ofNat (n : Nat) {rest : Text} (h : NoDigitAhead rest) :
    readNat? (Text.ofNat n ++ rest) = some (n, rest) := by
  have hdigits : ∀ c ∈ Text.ofNat n, c.isDigit = true :=
    fun c hc => Nat.isDigit_of_mem_toDigits (by omega) (by omega) hc
  obtain ⟨htake, hdrop⟩ := span_digits hdigits h
  rw [readNat?, htake, hdrop]
  split
  · rename_i hnil
    exact absurd hnil Nat.toDigits_ne_nil
  · rename_i hzero
    exact absurd hzero (toDigits_ne_zero_cons n _ _)
  · rw [ofDigits_toDigits]

end Json

end SandboxProfile
