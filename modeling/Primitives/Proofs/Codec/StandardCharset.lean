import Mathlib.Data.List.TakeWhile
import Primitives.Codec.StandardCharset
import Primitives.Proofs.Codec.Utf8
import Primitives.Proofs.Outcomes

/-!
# Round trips through character sets

A character set is lossless if a text that it encodes is decoded from its bytes. The standard sets are, and
with them bytes that are decoded are the encoding of the result as well. A set with one byte for each
character takes the characters and the bytes below its size, so that every byte string is a text of
Latin-1; UTF-8 takes all characters.

## Main definitions

* `Charset.IsLossless`: character sets by which no text is lost.

## Main results

* `StandardCharset.decode_of_encode`: a text that is encoded is decoded from its bytes.
* `StandardCharset.encode_of_decode`: bytes that are decoded are the encoding of the result.
* `StandardCharset.encode_append_ok_iff`: texts behind each other are encoded one by one.
* `StandardCharset.exists_decode_latin1`: Latin-1 decodes all bytes.
* `StandardCharset.isLossless`: the standard sets are lossless.
-/

namespace Primitives

namespace StandardCharset

variable {charset : StandardCharset} {s : Text} {bytes : Bytes}

/-! ### Sets with one byte for each character -/

theorem size_le (charset : StandardCharset) : charset.size ≤ 256 := by
  cases charset <;> decide

/-- A text is encoded if its characters are below the size of the set, each as the byte of its code. -/
theorem encodeSingle_ok_iff :
    charset.encodeSingle s = .ok bytes ↔
      (∀ c ∈ s, c.toNat < charset.size) ∧ bytes = s.map fun c => UInt8.ofNat c.toNat := by
  unfold encodeSingle
  by_cases hall : ∀ c ∈ s, c.toNat < charset.size
  · have hinside : ∀ c ∈ s, decide (c.toNat < charset.size) = true := by simpa using hall
    simp only [List.dropWhile_eq_nil_iff.2 hinside, List.takeWhile_eq_self_iff.2 hinside,
      Except.ok.injEq]
    exact ⟨fun h => ⟨hall, h.symm⟩, fun h => h.2.symm⟩
  · have hrest : s.dropWhile (fun c => decide (c.toNat < charset.size)) ≠ [] := by
      rw [ne_eq, List.dropWhile_eq_nil_iff]
      simpa using hall
    obtain ⟨c, rest, hrest⟩ := List.exists_cons_of_ne_nil hrest
    simp [hrest, hall]

/-- Bytes are decoded if they are below the size of the set, each as the character of its code. -/
theorem decodeSingle_ok_iff :
    charset.decodeSingle bytes = .ok s ↔
      (∀ b ∈ bytes, b.toNat < charset.size) ∧ s = bytes.map fun b => Char.ofNat b.toNat := by
  unfold decodeSingle
  by_cases hall : ∀ b ∈ bytes, b.toNat < charset.size
  · have hinside : ∀ b ∈ bytes, decide (b.toNat < charset.size) = true := by simpa using hall
    simp only [List.dropWhile_eq_nil_iff.2 hinside, List.takeWhile_eq_self_iff.2 hinside,
      Except.ok.injEq]
    exact ⟨fun h => ⟨hall, h.symm⟩, fun h => h.2.symm⟩
  · have hrest : bytes.dropWhile (fun b => decide (b.toNat < charset.size)) ≠ [] := by
      rw [ne_eq, List.dropWhile_eq_nil_iff]
      simpa using hall
    obtain ⟨b, rest, hrest⟩ := List.exists_cons_of_ne_nil hrest
    simp [hrest, hall]

theorem toNat_ofNat_byte (b : UInt8) : (Char.ofNat b.toNat).toNat = b.toNat := by
  have hlt := b.toNat_lt
  exact Utf8.toNat_ofNat (.inl (by omega))

/-- A character below the size of a set has a byte of its own. -/
theorem toNat_byte_of_lt {c : Char} (h : c.toNat < charset.size) :
    (UInt8.ofNat c.toNat).toNat = c.toNat := by
  have hsize := charset.size_le
  exact UInt8.toNat_ofNat_of_lt' (show c.toNat < 256 by omega)

theorem decodeSingle_of_encodeSingle (h : charset.encodeSingle s = .ok bytes) :
    charset.decodeSingle bytes = .ok s := by
  obtain ⟨hall, rfl⟩ := encodeSingle_ok_iff.1 h
  refine decodeSingle_ok_iff.2 ⟨?_, ?_⟩
  · intro b hb
    obtain ⟨c, hc, rfl⟩ := List.mem_map.1 hb
    rw [toNat_byte_of_lt (hall c hc)]
    exact hall c hc
  · have hself : ∀ c ∈ s, Char.ofNat (UInt8.ofNat c.toNat).toNat = c := by
      intro c hc
      rw [toNat_byte_of_lt (hall c hc), Char.ofNat_toNat]
    rw [List.map_map]
    exact ((List.map_congr_left hself).trans (List.map_id' s)).symm

theorem encodeSingle_of_decodeSingle (h : charset.decodeSingle bytes = .ok s) :
    charset.encodeSingle s = .ok bytes := by
  obtain ⟨hall, rfl⟩ := decodeSingle_ok_iff.1 h
  refine encodeSingle_ok_iff.2 ⟨?_, ?_⟩
  · intro c hc
    obtain ⟨b, hb, rfl⟩ := List.mem_map.1 hc
    rw [toNat_ofNat_byte]
    exact hall b hb
  · have hself : ∀ b ∈ bytes, UInt8.ofNat (Char.ofNat b.toNat).toNat = b := by
      intro b _
      rw [toNat_ofNat_byte, UInt8.ofNat_toNat]
    rw [List.map_map]
    exact ((List.map_congr_left hself).trans (List.map_id' bytes)).symm

/-! ### All sets -/

/-- A text that is encoded is decoded from its bytes. -/
theorem decode_of_encode (h : charset.encode s = .ok bytes) : charset.decode bytes = .ok s := by
  cases charset with
  | utf8 =>
    obtain rfl : Utf8.encode s = bytes := Except.ok.inj h
    simp [decode, Utf8.decode_encode]
  | _ => exact decodeSingle_of_encodeSingle h

/-- Bytes that are decoded are the encoding of the result. -/
theorem encode_of_decode (h : charset.decode bytes = .ok s) : charset.encode s = .ok bytes := by
  cases charset with
  | utf8 =>
    cases hdecode : Utf8.decode bytes with
    | error fault => simp [decode, hdecode] at h
    | ok s' =>
      obtain rfl : s' = s := by simpa [decode, hdecode] using h
      rw [encode, Utf8.encode_of_decode hdecode]
  | _ => exact encodeSingle_of_decodeSingle h

/-- Texts behind each other are encoded as their bytes behind each other. -/
theorem encode_append_ok_iff {t : Text} :
    charset.encode (s ++ t) = .ok bytes ↔
      ∃ front back, charset.encode s = .ok front ∧ charset.encode t = .ok back ∧ bytes = front ++ back := by
  cases charset with
  | utf8 => simp [encode, Utf8.encode, eq_comm]
  | _ =>
    simp only [encode, encodeSingle_ok_iff, List.forall_mem_append, List.map_append]
    constructor
    · rintro ⟨⟨hs, ht⟩, rfl⟩
      exact ⟨_, _, ⟨hs, rfl⟩, ⟨ht, rfl⟩, rfl⟩
    · rintro ⟨front, back, ⟨hs, rfl⟩, ⟨ht, rfl⟩, rfl⟩
      exact ⟨⟨hs, ht⟩, rfl⟩

/-- Latin-1 decodes all bytes. -/
theorem exists_decode_latin1 (bytes : Bytes) : ∃ s, latin1.decode bytes = .ok s :=
  ⟨_, decodeSingle_ok_iff.2 ⟨fun b _ => b.toNat_lt, rfl⟩⟩

/-- An encoding in Latin-1 has as many bytes as the text has characters. -/
theorem length_of_encode_latin1 (h : latin1.encode s = .ok bytes) : bytes.length = s.length := by
  obtain ⟨-, rfl⟩ := encodeSingle_ok_iff.1 h
  exact List.length_map _

/-! ### As character sets -/

@[simp] theorem toCharset_encode_ok_iff : charset.toCharset.encode s = .ok bytes ↔ charset.encode s = .ok bytes :=
  Outcome.mapError_eq_ok_iff

@[simp] theorem toCharset_decode_ok_iff : charset.toCharset.decode bytes = .ok s ↔ charset.decode bytes = .ok s :=
  Outcome.mapError_eq_ok_iff

end StandardCharset

/-- A character set that reads the text again of which it writes the bytes. -/
def Charset.IsLossless (charset : Charset) : Prop :=
  ∀ s bytes, charset.encode s = .ok bytes → charset.decode bytes = .ok s

/-- The standard sets are lossless. -/
theorem StandardCharset.isLossless (charset : StandardCharset) : charset.toCharset.IsLossless :=
  fun _ _ h => toCharset_decode_ok_iff.2 (decode_of_encode (toCharset_encode_ok_iff.1 h))

end Primitives
