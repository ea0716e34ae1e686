import Primitives.Codec.Utf8

/-!
# The base 64 encoding

Four characters of an alphabet of 64 stand for three bytes. The last group may be shorter, and is then
filled up with equals signs, behind which everything is ignored. Characters outside of the alphabet are
ignored everywhere, and so are equals signs that do not fill up a group.

## Main definitions

* `Base64.digit?`: the number of a character.
* `Base64.decode?`: characters to bytes.
-/

namespace Primitives.Base64

/-- The characters that stand for the numbers below 64, in order. -/
def alphabet : Text :=
  "ABCDEFGHIJKLMNOPQRSTUVWXYZabcdefghijklmnopqrstuvwxyz0123456789+/"

/-- The number that a character stands for. -/
def digit? (c : Char) : Option Nat :=
  alphabet.idxOf? c

/-- The whole bytes in a group of digits, of six bits each. -/
def groupBytes : List Nat → Bytes
  | [a, b] => [UInt8.ofNat (a * 4 + b / 16)]
  | [a, b, c] => [UInt8.ofNat (a * 4 + b / 16), UInt8.ofNat (b % 16 * 16 + c / 4)]
  | [a, b, c, d] =>
    [UInt8.ofNat (a * 4 + b / 16), UInt8.ofNat (b % 16 * 16 + c / 4), UInt8.ofNat (c % 4 * 64 + d)]
  | _ => []

/-- Decodes with the digits of a group that has begun, and the number of equals signs behind them. -/
def decodeFrom? (group : List Nat) (fill : Nat) : Text → Option Bytes
  | [] => if group.isEmpty then some [] else none
  | c :: s =>
    if c = '=' then
      if group.length < 2 then decodeFrom? group fill s
      else if 4 ≤ group.length + fill + 1 then some (groupBytes group)
      else decodeFrom? group (fill + 1) s
    else
      match digit? c with
      | none => decodeFrom? group fill s
      | some d =>
        if group.length = 3 then (decodeFrom? [] 0 s).map (groupBytes (group ++ [d]) ++ ·)
        else decodeFrom? (group ++ [d]) 0 s

/-- The bytes that characters stand for, none if the last group is not filled up. -/
def decode? (s : Text) : Option Bytes :=
  decodeFrom? [] 0 s

end Primitives.Base64
