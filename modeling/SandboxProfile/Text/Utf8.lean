import SandboxProfile.Text.Basic

/-!
# UTF-8

Files and standard input hold bytes; a profile is a text. Bytes are read one at a time: a
lead byte opens a sequence and says how many bytes follow and between which bounds the next
one lies, and each further byte either continues the sequence or is a fault. The bounds
exclude overlong forms, surrogates and code points beyond the last one, so that a sequence
is well formed exactly when every byte lies within its bounds.

A fault names the offset of the sequence that cannot be read, the bytes of it that were
still acceptable, and the reason.

## Main definitions

* `Utf8.encode` writes a text as bytes.
* `Utf8.decode` reads bytes as a text or locates the first fault.
* `Utf8.decodeStream` reads bytes that arrive block by block, so that a fault is located
  within its block.
* `Utf8.Fault.message` words a fault.
-/

namespace SandboxProfile

namespace Utf8

/-- Why a sequence of bytes stands for no character. -/
inductive Reason where
  /-- No sequence starts with this byte. -/
  | start
  /-- The byte that follows does not continue the sequence. -/
  | continuation
  /-- The input ends inside the sequence. -/
  | unfinished
  deriving DecidableEq, Repr

/-- The wording of a reason. -/
def Reason.message : Reason → String
  | .start => "invalid start byte"
  | .continuation => "invalid continuation byte"
  | .unfinished => "unexpected end of data"

/-- The first place where bytes are not UTF-8. -/
structure Fault where
  /-- The offset of the first byte of the sequence. -/
  offset : Nat
  /-- The first byte of the sequence. -/
  lead : UInt8
  /-- The number of bytes of the sequence that could be read, the first one included. -/
  length : Nat
  /-- What is wrong with it. -/
  reason : Reason
  deriving DecidableEq, Repr

/-- The wording of a fault: one byte is shown, several are only located. -/
def Fault.message (f : Fault) : Text :=
  let place :=
    if f.length = 1 then
      "byte 0x".toList ++ Text.hex 2 f.lead.toNat ++ " in position ".toList ++ Text.ofNat f.offset
    else
      "bytes in position ".toList ++ Text.ofNat f.offset ++ "-".toList ++
        Text.ofNat (f.offset + f.length - 1)
  "'utf-8' codec can't decode ".toList ++ place ++ ": ".toList ++ f.reason.message.toList

/-! ### Writing -/

/-- The byte whose value is `n` modulo 256. -/
def byte (n : Nat) : UInt8 :=
  UInt8.ofNat n

/-- The bytes of one character. -/
def encodeChar (c : Char) : List UInt8 :=
  let n := c.toNat
  if n < 0x80 then [byte n]
  else if n < 0x800 then [byte (0xc0 + n / 0x40), byte (0x80 + n % 0x40)]
  else if n < 0x10000 then
    [byte (0xe0 + n / 0x1000), byte (0x80 + n / 0x40 % 0x40), byte (0x80 + n % 0x40)]
  else
    [byte (0xf0 + n / 0x40000), byte (0x80 + n / 0x1000 % 0x40), byte (0x80 + n / 0x40 % 0x40),
      byte (0x80 + n % 0x40)]

/-- The bytes of a text. -/
def encode (s : Text) : List UInt8 :=
  s.flatMap encodeChar

/-- The number of bytes of a text. -/
def size (s : Text) : Nat :=
  (encode s).length

/-! ### Reading -/

/-- A sequence that has been opened and not finished. -/
structure Opened where
  /-- The offset of its first byte. -/
  offset : Nat
  /-- Its first byte. -/
  lead : UInt8
  /-- The number of bytes read so far. -/
  length : Nat
  /-- The bits read so far. -/
  value : Nat
  /-- The number of bytes that must follow. -/
  missing : Nat
  /-- The least byte that may follow. -/
  low : Nat
  /-- The greatest byte that may follow. -/
  high : Nat
  deriving DecidableEq, Repr

/-- The fault that this sequence is, for the given reason. -/
def Opened.fault (o : Opened) (reason : Reason) : Fault :=
  ⟨o.offset, o.lead, o.length, reason⟩

/-- What a lead byte opens. Bytes below `0x80` are characters by themselves and do not come
here; bytes that start nothing give `none`. -/
def open? (offset : Nat) (b : UInt8) : Option Opened :=
  let n := b.toNat
  if n < 0xc2 then none
  else if n < 0xe0 then some ⟨offset, b, 1, n - 0xc0, 1, 0x80, 0xbf⟩
  else if n < 0xf0 then
    some ⟨offset, b, 1, n - 0xe0, 2, if n = 0xe0 then 0xa0 else 0x80,
      if n = 0xed then 0x9f else 0xbf⟩
  else if n < 0xf5 then
    some ⟨offset, b, 1, n - 0xf0, 3, if n = 0xf0 then 0x90 else 0x80,
      if n = 0xf4 then 0x8f else 0xbf⟩
  else none

/-- Read bytes from the given offset on, inside the opened sequence if there is one. -/
def decodeFrom : Nat → Option Opened → List UInt8 → Except Fault Text
  | _, none, [] => .ok []
  | _, some o, [] => .error (o.fault .unfinished)
  | offset, none, b :: rest =>
    if b.toNat < 0x80 then
      (decodeFrom (offset + 1) none rest).map (Char.ofNat b.toNat :: ·)
    else
      match open? offset b with
      | some o => decodeFrom (offset + 1) (some o) rest
      | none => .error ⟨offset, b, 1, .start⟩
  | offset, some o, b :: rest =>
    if o.low ≤ b.toNat ∧ b.toNat ≤ o.high then
      let value := o.value * 0x40 + (b.toNat - 0x80)
      if o.missing = 1 then
        (decodeFrom (offset + 1) none rest).map (Char.ofNat value :: ·)
      else
        decodeFrom (offset + 1)
          (some ⟨o.offset, o.lead, o.length + 1, value, o.missing - 1, 0x80, 0xbf⟩) rest
    else .error (o.fault .continuation)

/-- The text that the bytes stand for, or the first fault. -/
def decode (bytes : List UInt8) : Except Fault Text :=
  decodeFrom 0 none bytes

/-- The number of bytes in a block of a stream. -/
def blockLength : Nat := 8192

/-- Are these the first two bytes of a surrogate? -/
def opensSurrogate : List UInt8 → Bool
  | [lead, second] => lead = 0xed && 0xa0 ≤ second && second ≤ 0xbf
  | _ => false

/-- Can the next block still continue the sequence that ends this one? A surrogate of which
the last byte is yet to come waits for it, although no byte can complete it. -/
def awaitsMore (block : List UInt8) (f : Fault) : Bool :=
  f.reason = .unfinished || opensSurrogate (block.drop f.offset)

/-- The text of an input that is read block by block. A sequence that a block leaves unfinished
is put in front of the next block, or stands alone at the end of the input; offsets count
from the start of what is decoded together. -/
def decodeBlocks (unfinished : List UInt8) (bytes : List UInt8) : Except Fault Text :=
  if _more : bytes = [] then decode unfinished
  else
    let block := unfinished ++ bytes.take blockLength
    let rest := bytes.drop blockLength
    match decode block with
    | .ok s => (decodeBlocks [] rest).map (s ++ ·)
    | .error f =>
      if awaitsMore block f then do
        let s ← decode (block.take f.offset)
        return s ++ (← decodeBlocks (block.drop f.offset) rest)
      else .error f
termination_by bytes.length
decreasing_by
  all_goals
    have := List.length_pos_iff.mpr _more
    simp only [List.length_drop, blockLength]
    omega

/-- The text of an input that is read as a stream. -/
def decodeStream (bytes : List UInt8) : Except Fault Text :=
  decodeBlocks [] bytes

end Utf8

end SandboxProfile
