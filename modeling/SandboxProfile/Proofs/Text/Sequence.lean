import Mathlib.Data.List.Basic
import SandboxProfile.Proofs.Text.Utf8

/-!
# Which bytes are a text

Bytes are a text if they can be cut into sequences that each stand for one character. How many bytes
a sequence has is told by its first byte. The second byte is restricted after some first bytes, so
that no character has a form that is longer than it has to be, no surrogate has a form at all, and
nothing lies beyond the last character.

Reading goes through the bytes with an open sequence, so the law for reading says of every state
what has to follow. What is read is written as it was, since every sequence is the form of a
character and texts are read from their own bytes.

## Main definitions

* `Utf8.IsSequence` and `Utf8.IsText` are the bytes of one character and of a text.

## Main results

* `Utf8.isText_iff` — the bytes of texts are what texts are written as.
* `Utf8.decode_eq_ok_iff` — a text is read from its own bytes only.
* `Utf8.decode_ok_iff` — bytes can be read exactly if they are a text.
-/

namespace SandboxProfile

namespace Utf8

/-- The byte continues a sequence. -/
def Continues (b : UInt8) : Prop :=
  0x80 ≤ b.toNat ∧ b.toNat ≤ 0xbf

/-- The bytes that stand for one character. -/
inductive IsSequence : List UInt8 → Prop where
  /-- One byte below `0x80`. -/
  | one {a : UInt8} : a.toNat ≤ 0x7f → IsSequence [a]
  /-- Two bytes; `0xc0` and `0xc1` begin nothing, as one byte would have been enough. -/
  | two {a b : UInt8} : 0xc2 ≤ a.toNat → a.toNat ≤ 0xdf → Continues b → IsSequence [a, b]
  /-- Three bytes; after `0xe0` two would have been enough for a small second byte, and after `0xed`
  a great one would make a surrogate. -/
  | three {a b c : UInt8} : 0xe0 ≤ a.toNat → a.toNat ≤ 0xef → Continues b → Continues c →
      (a.toNat = 0xe0 → 0xa0 ≤ b.toNat) → (a.toNat = 0xed → b.toNat ≤ 0x9f) →
      IsSequence [a, b, c]
  /-- Four bytes; after `0xf0` three would have been enough for a small second byte, and after
  `0xf4` a great one would lead beyond the last character. -/
  | four {a b c d : UInt8} : 0xf0 ≤ a.toNat → a.toNat ≤ 0xf4 → Continues b → Continues c →
      Continues d → (a.toNat = 0xf0 → 0x90 ≤ b.toNat) → (a.toNat = 0xf4 → b.toNat ≤ 0x8f) →
      IsSequence [a, b, c, d]

/-- The bytes of a text: one sequence after another. -/
inductive IsText : List UInt8 → Prop where
  | nil : IsText []
  | cons {q rest : List UInt8} : IsSequence q → IsText rest → IsText (q ++ rest)

/-! ### Writing -/

theorem byte_eq {n : Nat} {b : UInt8} (h : n = b.toNat) : byte n = b := by
  rw [h, byte, UInt8.ofNat_toNat]

/-- Every number that is no surrogate and not too large is that of a character. -/
theorem exists_toNat_eq {n : Nat} (h : n < 0xd800 ∨ (0xdfff < n ∧ n < 0x110000)) :
    ∃ c : Char, c.toNat = n :=
  ⟨Char.ofNatAux n h, rfl⟩

/-- A character is written as a sequence. -/
theorem isSequence_encodeChar (c : Char) : IsSequence (encodeChar c) := by
  have hrange := toNat_range c
  rw [encodeChar]
  generalize c.toNat = n at hrange
  have hcontinues {m : Nat} (h : m < 0x40) : Continues (byte (0x80 + m)) := by
    rw [Continues, toNat_byte (by omega)]
    omega
  split
  · exact .one (by rw [toNat_byte (by omega)]; omega)
  · split
    · have ha : (byte (0xc0 + n / 0x40)).toNat = 0xc0 + n / 0x40 := toNat_byte (by omega)
      exact .two (by omega) (by omega) (hcontinues (by omega))
    · split
      · have ha : (byte (0xe0 + n / 0x1000)).toNat = 0xe0 + n / 0x1000 := toNat_byte (by omega)
        have hb : (byte (0x80 + n / 0x40 % 0x40)).toNat = 0x80 + n / 0x40 % 0x40 :=
          toNat_byte (by omega)
        exact .three (by omega) (by omega) (hcontinues (by omega)) (hcontinues (by omega))
          (by omega) (by omega)
      · have ha : (byte (0xf0 + n / 0x40000)).toNat = 0xf0 + n / 0x40000 := toNat_byte (by omega)
        have hb : (byte (0x80 + n / 0x1000 % 0x40)).toNat = 0x80 + n / 0x1000 % 0x40 :=
          toNat_byte (by omega)
        exact .four (by omega) (by omega) (hcontinues (by omega)) (hcontinues (by omega))
          (hcontinues (by omega)) (by omega) (by omega)

/-- Every sequence is what a character is written as. -/
theorem exists_encodeChar {q : List UInt8} (h : IsSequence q) : ∃ c, encodeChar c = q := by
  cases h with
  | @one a ha =>
      obtain ⟨c, hc⟩ := exists_toNat_eq (n := a.toNat) (by omega)
      refine ⟨c, ?_⟩
      simp only [encodeChar, hc]
      rw [if_pos (by omega), byte_eq rfl]
  | @two a b ha ha' hb =>
      obtain ⟨hb, hb'⟩ := hb
      obtain ⟨c, hc⟩ := exists_toNat_eq (n := (a.toNat - 0xc0) * 0x40 + (b.toNat - 0x80)) (by omega)
      refine ⟨c, ?_⟩
      simp only [encodeChar, hc]
      rw [if_neg (by omega), if_pos (by omega), byte_eq (b := a) (by omega),
        byte_eq (b := b) (by omega)]
  | @three a b d ha ha' hb hd hlong hsurrogate =>
      obtain ⟨hb, hb'⟩ := hb
      obtain ⟨hd, hd'⟩ := hd
      obtain ⟨c, hc⟩ := exists_toNat_eq
        (n := (a.toNat - 0xe0) * 0x1000 + (b.toNat - 0x80) * 0x40 + (d.toNat - 0x80)) (by omega)
      refine ⟨c, ?_⟩
      simp only [encodeChar, hc]
      rw [if_neg (by omega), if_neg (by omega), if_pos (by omega), byte_eq (b := a) (by omega),
        byte_eq (b := b) (by omega), byte_eq (b := d) (by omega)]
  | @four a b d e ha ha' hb hd he hlong hlast =>
      obtain ⟨hb, hb'⟩ := hb
      obtain ⟨hd, hd'⟩ := hd
      obtain ⟨he, he'⟩ := he
      obtain ⟨c, hc⟩ := exists_toNat_eq (n := (a.toNat - 0xf0) * 0x40000 +
        (b.toNat - 0x80) * 0x1000 + (d.toNat - 0x80) * 0x40 + (e.toNat - 0x80)) (by omega)
      refine ⟨c, ?_⟩
      simp only [encodeChar, hc]
      rw [if_neg (by omega), if_neg (by omega), if_neg (by omega), byte_eq (b := a) (by omega),
        byte_eq (b := b) (by omega), byte_eq (b := d) (by omega), byte_eq (b := e) (by omega)]

/-- **The bytes of texts are what texts are written as.** -/
theorem isText_iff {bytes : List UInt8} : IsText bytes ↔ ∃ s, encode s = bytes := by
  constructor
  · intro h
    induction h with
    | nil => exact ⟨[], rfl⟩
    | cons hq _ ih =>
        obtain ⟨c, rfl⟩ := exists_encodeChar hq
        obtain ⟨s, rfl⟩ := ih
        exact ⟨c :: s, List.flatMap_cons⟩
  · rintro ⟨s, rfl⟩
    induction s with
    | nil => exact .nil
    | cons c s ih => exact .cons (isSequence_encodeChar c) ih

/-! ### Reading -/

/-- What has to follow in a state of reading: a text, or the bytes that are missing in the open
sequence and then a text. -/
def Follows : Option Opened → List UInt8 → Prop
  | none, bytes => IsText bytes
  | some o, bytes => ∃ b q rest, bytes = b :: (q ++ rest) ∧ o.low ≤ b.toNat ∧ b.toNat ≤ o.high ∧
      q.length + 1 = o.missing ∧ (∀ c ∈ q, Continues c) ∧ IsText rest

/-- The bytes of a sequence have been opened by its first byte. -/
theorem isText_of_open? {offset : Nat} {a : UInt8} {o : Opened} (h : open? offset a = some o)
    {bytes : List UInt8} (hbytes : Follows (some o) bytes) : IsText (a :: bytes) := by
  obtain ⟨b, q, rest, rfl, hlow, hhigh, hmissing, hq, hrest⟩ := hbytes
  unfold open? at h
  dsimp only at h
  split at h
  · cases h
  · split at h
    · obtain rfl := Option.some.inj h
      obtain rfl : q = [] := List.length_eq_zero_iff.mp (Nat.succ.inj hmissing)
      exact .cons (.two (by omega) (by omega) ⟨hlow, hhigh⟩) hrest
    · split at h
      · obtain rfl := Option.some.inj h
        obtain ⟨c, rfl⟩ := List.length_eq_one_iff.mp (Nat.succ.inj hmissing)
        have hc : Continues c := hq c List.mem_cons_self
        dsimp only at hlow hhigh
        refine .cons (.three (by omega) (by omega) ?_ hc ?_ ?_) hrest
        · constructor
          · split at hlow <;> omega
          · split at hhigh <;> omega
        · intro ha
          rwa [if_pos ha] at hlow
        · intro ha
          rwa [if_pos ha] at hhigh
      · split at h
        · obtain rfl := Option.some.inj h
          obtain ⟨c, d, rfl⟩ := List.length_eq_two.mp (Nat.succ.inj hmissing)
          have hc : Continues c := hq c List.mem_cons_self
          have hd : Continues d := hq d (List.mem_cons_of_mem _ List.mem_cons_self)
          dsimp only at hlow hhigh
          refine .cons (.four (by omega) (by omega) ?_ hc hd ?_ ?_) hrest
          · constructor
            · split at hlow <;> omega
            · split at hhigh <;> omega
          · intro ha
            rwa [if_pos ha] at hlow
          · intro ha
            rwa [if_pos ha] at hhigh
        · cases h

/-- **What can be read** is what has to follow. -/
theorem follows_of_decodeFrom {offset : Nat} {state : Option Opened} {bytes : List UInt8} {s : Text}
    (h : decodeFrom offset state bytes = .ok s) : Follows state bytes := by
  have hmap {x : Except Fault Text} {f : Text → Text} {s : Text} (h : x.map f = .ok s) :
      ∃ s', x = .ok s' := by
    cases x with
    | error e => cases h
    | ok s' => exact ⟨s', rfl⟩
  induction bytes generalizing offset state s with
  | nil =>
      cases state with
      | none => exact .nil
      | some o => cases h
  | cons b rest ih =>
      cases state with
      | none =>
          rw [decodeFrom] at h
          split at h
          · rename_i hb
            obtain ⟨s', h⟩ := hmap h
            have hrest : IsText rest := ih h
            exact .cons (.one (by omega)) hrest
          · split at h
            · rename_i o hopen
              exact isText_of_open? hopen (ih h)
            · cases h
      | some o =>
          rw [decodeFrom] at h
          split at h
          · rename_i hb
            dsimp only at h
            split at h
            · rename_i hmissing
              obtain ⟨s', h⟩ := hmap h
              exact ⟨b, [], rest, rfl, hb.1, hb.2, hmissing.symm, List.forall_mem_nil _, ih h⟩
            · rename_i hmissing
              obtain ⟨b', q, rest', rfl, hlow, hhigh, hlength, hq, hrest⟩ := ih h
              refine ⟨b, b' :: q, rest', rfl, hb.1, hb.2, ?_, ?_, hrest⟩
              · dsimp only at hlength
                rw [List.length_cons]
                omega
              · exact List.forall_mem_cons.mpr ⟨⟨hlow, hhigh⟩, hq⟩
          · cases h

/-- **A text is read from its own bytes only.** -/
theorem decode_eq_ok_iff {bytes : List UInt8} {s : Text} :
    decode bytes = .ok s ↔ encode s = bytes := by
  constructor
  · intro h
    have htext : IsText bytes := follows_of_decodeFrom h
    obtain ⟨t, rfl⟩ := isText_iff.mp htext
    rw [decode_encode] at h
    rw [Except.ok.inj h]
  · rintro rfl
    exact decode_encode s

/-- **Bytes can be read exactly if they are a text.** -/
theorem decode_ok_iff {bytes : List UInt8} : (∃ s, decode bytes = .ok s) ↔ IsText bytes := by
  rw [isText_iff]
  exact exists_congr fun s => decode_eq_ok_iff

end Utf8

end SandboxProfile
