import Primitives.Text.Basic

/-!
# The UTF-8 encoding

A character below `0x80` is one byte; the others are a lead byte, which tells the number of
continuation bytes, and continuation bytes with six bits each. The first continuation byte of some
leads has a narrower range, which excludes overlong forms, surrogates and values beyond Unicode. The
decoder reads byte by byte and reports the first sequence that is not well formed.

## Main definitions

* `Utf8.encodeChar`, `Utf8.encode`: characters to bytes.
* `Utf8.decode`: bytes to characters, or the fault and where it lies.
-/

namespace Primitives

/-- A sequence of bytes. -/
abbrev Bytes := List UInt8

namespace Utf8

/-! ### Encoding -/

/-- A continuation byte that carries the six lowest bits of a number. -/
def continuation (n : Nat) : UInt8 :=
  UInt8.ofNat (0x80 + n % 64)

/-- The bytes of a character. -/
def encodeChar (c : Char) : Bytes :=
  let n := c.toNat
  if n < 0x80 then [UInt8.ofNat n]
  else if n < 0x800 then [UInt8.ofNat (0xc0 + n / 64), continuation n]
  else if n < 0x10000 then
    [UInt8.ofNat (0xe0 + n / 4096), continuation (n / 64), continuation n]
  else
    [UInt8.ofNat (0xf0 + n / 262144), continuation (n / 4096), continuation (n / 64),
      continuation n]

def encode (s : Text) : Bytes :=
  s.flatMap encodeChar

/-! ### Decoding -/

/-- What is wrong with a sequence of bytes. -/
inductive Fault where
  | start
  | continuation
  | truncated
deriving DecidableEq

/-- A character that has begun: the bytes read, the bytes still expected, the range of the next one
and the bits collected. -/
structure Partial where
  seen : Nat
  missing : Nat
  low : UInt8
  high : UInt8
  bits : Nat

/-- What a lead byte begins, none when it is not a lead byte. -/
def ofLead? (b : UInt8) : Option Partial :=
  if b < 0xc2 then none
  else if b < 0xe0 then some ⟨1, 1, 0x80, 0xbf, b.toNat - 0xc0⟩
  else if b < 0xf0 then
    some ⟨1, 2, if b = 0xe0 then 0xa0 else 0x80, if b = 0xed then 0x9f else 0xbf, b.toNat - 0xe0⟩
  else if b < 0xf5 then
    some ⟨1, 3, if b = 0xf0 then 0x90 else 0x80, if b = 0xf4 then 0x8f else 0xbf, b.toNat - 0xf0⟩
  else none

/-- The bits with those of a continuation byte behind them. -/
def Partial.extend (p : Partial) (b : UInt8) : Nat :=
  64 * p.bits + (b.toNat - 0x80)

/-- Decodes from a position on, where a character may have begun before it. A fault comes with the
positions of the first byte of its sequence and of the byte behind it. -/
def decodeFrom (position : Nat) : Option Partial → Bytes → Except (Fault × Nat × Nat) Text
  | none, [] => .ok []
  | some p, [] => .error (.truncated, position - p.seen, position)
  | none, b :: bytes =>
    if b < 0x80 then (decodeFrom (position + 1) none bytes).map (Char.ofNat b.toNat :: ·)
    else
      match ofLead? b with
      | none => .error (.start, position, position + 1)
      | some p => decodeFrom (position + 1) (some p) bytes
  | some p, b :: bytes =>
    if p.low ≤ b ∧ b ≤ p.high then
      if p.missing = 1 then
        (decodeFrom (position + 1) none bytes).map (Char.ofNat (p.extend b) :: ·)
      else
        decodeFrom (position + 1) (some ⟨p.seen + 1, p.missing - 1, 0x80, 0xbf, p.extend b⟩) bytes
    else .error (.continuation, position - p.seen, position)

def decode (bytes : Bytes) : Except (Fault × Nat × Nat) Text :=
  decodeFrom 0 none bytes

end Utf8

end Primitives
