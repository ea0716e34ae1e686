import Primitives.Codec.Charset
import Primitives.Number.Numeral
import Primitives.Text.Ascii
import Primitives.Text.Quoted

/-!
# Standard character sets

Three character sets are known to every host: ASCII and Latin-1 with one byte for each character, and
UTF-8. Each of them tells which characters or bytes it has no counterpart for. They make up a small
registry, together with an encoding of bytes by hexadecimal digits, which does not apply to texts. Names
are compared without regard to case and punctuation, and a few alternative names are known. The registries
of hosts hold many more encodings; the small one serves to run the primitives and to give examples.

## Main definitions

* `StandardCharset`: the three sets.
* `StandardCharset.encode`, `StandardCharset.decode`: conversion, or the fault that prevents it.
* `StandardCharset.toCharset`: one of the three as a character set.
* `Encoding.standard?`: the encoding of a name in the small registry.
-/

namespace Primitives

/-- The three sets. -/
inductive StandardCharset where
  | ascii
  | latin1
  | utf8
deriving DecidableEq

/-! ### Faults -/

/-- A run of characters that a character set has no bytes for. -/
structure EncodeFault where
  charset : StandardCharset
  start : Nat
  stop : Nat
  first : Char
deriving DecidableEq

/-- A run of bytes that stand for no character. -/
structure DecodeFault where
  charset : StandardCharset
  reason : Option Utf8.Fault
  start : Nat
  stop : Nat
  first : UInt8
deriving DecidableEq

/-- The name of a character set in fault texts. -/
def StandardCharset.name : StandardCharset → Text
  | ascii => "ascii"
  | latin1 => "latin-1"
  | utf8 => "utf-8"

/-- The number of characters of a set with one byte each. -/
def StandardCharset.size : StandardCharset → Nat
  | ascii => 128
  | _ => 256

/-- What a single-byte set says of a character or byte outside its range. -/
def StandardCharset.outOfRange (charset : StandardCharset) : Text :=
  "ordinal not in range(" ++ Numeral.ofNat 10 charset.size ++ ")"

/-- The place of a run: its one element, named by `shown`, or its first and last position. -/
def runPlace (noun : Text) (shown : Text) (start stop : Nat) : Text :=
  if stop = start + 1 then
    noun ++ " " ++ shown ++ " in position " ++ Numeral.ofNat 10 start
  else
    noun ++ "s in position " ++ Numeral.ofNat 10 start ++ "-" ++ Numeral.ofNat 10 (stop - 1)

/-- The escape that shows a character. -/
def escapedChar (c : Char) : Text :=
  if c.toNat < 0x100 then "\\x" ++ Text.hexDigits 2 c.toNat
  else if c.toNat < 0x10000 then "\\u" ++ Text.hexDigits 4 c.toNat
  else "\\U" ++ Text.hexDigits 8 c.toNat

def EncodeFault.message (fault : EncodeFault) : Text :=
  "'" ++ fault.charset.name ++ "' codec can't encode "
    ++ runPlace "character" ("'" ++ escapedChar fault.first ++ "'") fault.start fault.stop
    ++ ": " ++ fault.charset.outOfRange

def DecodeFault.message (fault : DecodeFault) : Text :=
  let reason : Text :=
    match fault.reason with
    | none => fault.charset.outOfRange
    | some .start => "invalid start byte"
    | some .continuation => "invalid continuation byte"
    | some .truncated => "unexpected end of data"
  "'" ++ fault.charset.name ++ "' codec can't decode "
    ++ runPlace "byte" ("0x" ++ Text.hexDigits 2 fault.first.toNat) fault.start fault.stop
    ++ ": " ++ reason

/-! ### Conversion -/

namespace StandardCharset

/-- Writes each character below `size` as one byte. -/
def encodeSingle (charset : StandardCharset) (s : Text) : Except EncodeFault Bytes :=
  let inside := fun (c : Char) => decide (c.toNat < charset.size)
  let good := s.takeWhile inside
  match s.dropWhile inside with
  | [] => .ok (good.map fun c => UInt8.ofNat c.toNat)
  | c :: rest =>
    let run := 1 + (rest.takeWhile fun c => !inside c).length
    .error ⟨charset, good.length, good.length + run, c⟩

/-- Reads each byte below `size` as one character. -/
def decodeSingle (charset : StandardCharset) (bytes : Bytes) : Except DecodeFault Text :=
  let inside := fun (b : UInt8) => decide (b.toNat < charset.size)
  let good := bytes.takeWhile inside
  match bytes.dropWhile inside with
  | [] => .ok (good.map fun b => Char.ofNat b.toNat)
  | b :: _ => .error ⟨charset, none, good.length, good.length + 1, b⟩

def encode (charset : StandardCharset) (s : Text) : Except EncodeFault Bytes :=
  match charset with
  | utf8 => .ok (Utf8.encode s)
  | _ => charset.encodeSingle s

def decode (charset : StandardCharset) (bytes : Bytes) : Except DecodeFault Text :=
  match charset with
  | utf8 =>
    (Utf8.decode bytes).mapError fun (reason, start, stop) =>
      ⟨utf8, some reason, start, stop, bytes.getD start 0⟩
  | _ => charset.decodeSingle bytes

/-- One of the three as a character set, with the wordings of its faults. -/
def toCharset (charset : StandardCharset) : Charset where
  encode s := (charset.encode s).mapError EncodeFault.message
  decode bytes := (charset.decode bytes).mapError DecodeFault.message
  decode_nil := by cases charset <;> rfl

end StandardCharset

/-! ### Names -/

namespace Encoding

/-- A name in small letters, each run of other characters replaced by one underscore, and none at the
ends; `pending` tells that a run has just been skipped. -/
def normalizeFrom (begun pending : Bool) : Text → Text
  | [] => []
  | c :: s =>
    if Text.isLetter c || Text.isDigit c || c == '.' then
      (if begun && pending then ['_'] else [])
        ++ Text.lowerChar c :: normalizeFrom true false s
    else normalizeFrom begun true s

def normalize (name : Text) : Text :=
  normalizeFrom false false name

open StandardCharset in
/-- The encodings of the small registry with their normalized names. -/
def standardNames : List (Encoding × List String) :=
  [(.text ascii.toCharset, ["ascii", "646", "ansi_x3.4_1968", "ansi_x3_4_1968", "ansi_x3.4_1986",
      "cp367", "csascii", "ibm367", "iso646_us", "iso_646.irv_1991", "iso_ir_6", "us", "us_ascii"]),
    (.text latin1.toCharset, ["latin_1", "8859", "cp819", "csisolatin1", "ibm819", "iso8859",
      "iso8859_1", "iso_8859_1", "iso_8859_1_1987", "iso_ir_100", "l1", "latin", "latin1"]),
    (.text utf8.toCharset, ["utf_8", "u8", "utf", "utf8", "utf8_ucs2", "utf8_ucs4", "cp65001"]),
    (.other, ["hex", "hex_codec"])]

/-- The encoding of a name in the small registry. -/
def standard? (name : Text) : Option Encoding :=
  (standardNames.find? fun (_, known) => known.any (·.toList == normalize name)).map Prod.fst

end Encoding

end Primitives
