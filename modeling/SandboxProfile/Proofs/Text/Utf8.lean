import SandboxProfile.Proofs.Except
import SandboxProfile.Text.Utf8

/-!
# Writing a text as bytes and reading it

The bytes of every text can be read, and they are read as that text. Reading goes byte by
byte, so the law is shown for the bytes of one character with more bytes behind them; the
bounds on the second byte are met because no character is a surrogate or overlong.

## Main results

* `Utf8.decode_encode` — what was written is read.
-/

namespace SandboxProfile

namespace Utf8

theorem toNat_byte {n : Nat} (h : n < 0x100) : (byte n).toNat = n := by
  rw [byte, UInt8.toNat_ofNat', Nat.mod_eq_of_lt h]

/-- A byte below `0x80` is a character. -/
theorem decodeFrom_ascii (offset : Nat) {n : Nat} (h : n < 0x80) (rest : List UInt8) :
    decodeFrom offset none (byte n :: rest) =
      (decodeFrom (offset + 1) none rest).map (Char.ofNat n :: ·) := by
  have hn : (byte n).toNat = n := toNat_byte (by omega)
  rw [decodeFrom, hn, if_pos h]

/-- A lead byte opens a sequence. -/
theorem decodeFrom_lead (offset : Nat) {n : Nat} (hlow : 0x80 ≤ n) (hn : n < 0x100) {o : Opened}
    (h : open? offset (byte n) = some o) (rest : List UInt8) :
    decodeFrom offset none (byte n :: rest) = decodeFrom (offset + 1) (some o) rest := by
  rw [decodeFrom, toNat_byte hn, if_neg (by omega), h]

/-- A byte that is not the last one continues its sequence. -/
theorem decodeFrom_next (offset : Nat) {o : Opened} {v : Nat} (hv : v < 0x40)
    (hlow : o.low ≤ 0x80 + v) (hhigh : 0x80 + v ≤ o.high) (hmissing : o.missing ≠ 1)
    (rest : List UInt8) :
    decodeFrom offset (some o) (byte (0x80 + v) :: rest) =
      decodeFrom (offset + 1) (some ⟨o.offset, o.lead, o.length + 1, o.value * 0x40 + v,
        o.missing - 1, 0x80, 0xbf⟩) rest := by
  rw [decodeFrom, toNat_byte (by omega), if_pos ⟨hlow, hhigh⟩]
  simp only [if_neg hmissing, Nat.add_sub_cancel_left]

/-- The last byte of a sequence completes its character. -/
theorem decodeFrom_last (offset : Nat) {o : Opened} {v : Nat} (hv : v < 0x40)
    (hlow : o.low ≤ 0x80 + v) (hhigh : 0x80 + v ≤ o.high) (hmissing : o.missing = 1)
    (rest : List UInt8) :
    decodeFrom offset (some o) (byte (0x80 + v) :: rest) =
      (decodeFrom (offset + 1) none rest).map (Char.ofNat (o.value * 0x40 + v) :: ·) := by
  rw [decodeFrom, toNat_byte (by omega), if_pos ⟨hlow, hhigh⟩]
  simp only [if_pos hmissing, Nat.add_sub_cancel_left]

/-- What a lead byte opens, by its number. -/
theorem open?_byte (offset : Nat) {n : Nat} (hn : n < 0x100) :
    open? offset (byte n) =
      if n < 0xc2 then none
      else if n < 0xe0 then some ⟨offset, byte n, 1, n - 0xc0, 1, 0x80, 0xbf⟩
      else if n < 0xf0 then
        some ⟨offset, byte n, 1, n - 0xe0, 2, if n = 0xe0 then 0xa0 else 0x80,
          if n = 0xed then 0x9f else 0xbf⟩
      else if n < 0xf5 then
        some ⟨offset, byte n, 1, n - 0xf0, 3, if n = 0xf0 then 0x90 else 0x80,
          if n = 0xf4 then 0x8f else 0xbf⟩
      else none := by
  simp only [open?, toNat_byte hn]

/-- Characters are code points that are no surrogates. -/
theorem toNat_range (c : Char) :
    c.toNat < 0xd800 ∨ (0xdfff < c.toNat ∧ c.toNat < 0x110000) :=
  c.valid

/-- The bytes of a character are read as the character. -/
theorem decodeFrom_encodeChar (c : Char) (offset : Nat) (rest : List UInt8) :
    decodeFrom offset none (encodeChar c ++ rest) =
      (decodeFrom (offset + (encodeChar c).length) none rest).map (c :: ·) := by
  have hc : Char.ofNat c.toNat = c := Char.ofNat_toNat c
  have hrange := toNat_range c
  rw [encodeChar]
  generalize c.toNat = n at hc hrange
  split
  · rename_i h
    rw [List.singleton_append, decodeFrom_ascii offset h, hc]
    rfl
  · split
    · rename_i h80 h
      have hopen := open?_byte offset (n := 0xc0 + n / 0x40) (by omega)
      rw [if_neg (by omega), if_pos (by omega)] at hopen
      have hvalue : (0xc0 + n / 0x40 - 0xc0) * 0x40 + n % 0x40 = n := by omega
      simp only [List.cons_append, List.nil_append]
      rw [decodeFrom_lead offset (by omega) (by omega) hopen,
        decodeFrom_last (offset + 1) (by omega) (by simp) (by simp only; omega) rfl]
      simp only [hvalue, hc, List.length_cons, List.length_nil]
    · split
      · rename_i h800 h
        have hopen := open?_byte offset (n := 0xe0 + n / 0x1000) (by omega)
        rw [if_neg (by omega), if_neg (by omega), if_pos (by omega)] at hopen
        have hvalue : ((0xe0 + n / 0x1000 - 0xe0) * 0x40 + n / 0x40 % 0x40) * 0x40 +
            n % 0x40 = n := by omega
        simp only [List.cons_append, List.nil_append]
        rw [decodeFrom_lead offset (by omega) (by omega) hopen,
          decodeFrom_next (offset + 1) (by omega) (by simp only; split <;> omega)
            (by simp only; split <;> omega) (by simp),
          decodeFrom_last (offset + 1 + 1) (by omega) (by simp) (by simp only; omega) rfl]
        simp only [hvalue, hc, List.length_cons, List.length_nil]
      · rename_i h10000
        have hopen := open?_byte offset (n := 0xf0 + n / 0x40000) (by omega)
        rw [if_neg (by omega), if_neg (by omega), if_neg (by omega), if_pos (by omega)] at hopen
        have hvalue : (((0xf0 + n / 0x40000 - 0xf0) * 0x40 + n / 0x1000 % 0x40) * 0x40 +
            n / 0x40 % 0x40) * 0x40 + n % 0x40 = n := by omega
        simp only [List.cons_append, List.nil_append]
        rw [decodeFrom_lead offset (by omega) (by omega) hopen,
          decodeFrom_next (offset + 1) (by omega) (by simp only; split <;> omega)
            (by simp only; split <;> omega) (by simp),
          decodeFrom_next (offset + 1 + 1) (by omega) (by simp) (by simp only; omega) (by simp),
          decodeFrom_last (offset + 1 + 1 + 1) (by omega) (by simp) (by simp only; omega) rfl]
        simp only [hvalue, hc, List.length_cons, List.length_nil]

/-- The bytes of a text are read as the text, wherever they stand. -/
theorem decodeFrom_encode (s : Text) (offset : Nat) :
    decodeFrom offset none (encode s) = .ok s := by
  induction s generalizing offset with
  | nil => rfl
  | cons c rest ih =>
      have hcons : encode (c :: rest) = encodeChar c ++ encode rest := List.flatMap_cons
      rw [hcons, decodeFrom_encodeChar, ih]
      rfl

/-- **What was written is read.** -/
theorem decode_encode (s : Text) : decode (encode s) = .ok s :=
  decodeFrom_encode s 0

end Utf8

end SandboxProfile
