import Primitives.Codec.Utf8

/-!
# Character sets and encodings

A character set turns texts into bytes and back, or tells why it cannot. Encodings are registered under
names. Not every registered encoding is for texts: others turn bytes into bytes or texts into texts, and
have no part in writing a text as bytes.

## Main definitions

* `Charset`: character sets.
* `Encoding`: what a registry knows under a name.
-/

namespace Primitives

/-- A way to write texts as bytes and to read them again. Instead of a result there is the wording of the
fault; a character set has no other way to fail. No bytes are always read as the empty text. -/
structure Charset where
  encode : Text → Except Text Bytes
  decode : Bytes → Except Text Text
  decode_nil : decode [] = .ok []

/-- A registered encoding: a character set, or one that is not for texts. -/
inductive Encoding where
  | text (charset : Charset)
  | other

end Primitives
