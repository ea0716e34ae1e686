import Primitives.Codec.Utf8
import Primitives.Proofs.Outcomes

/-!
# The UTF-8 round trip

Every text is decoded from its encoding, and bytes that are decoded are the encoding of the result. So the
decoder accepts exactly the encodings of texts: overlong forms, cut sequences and surrogates have none.

The decoder works through a character of several bytes from a lead byte on. A character that has begun
*covers* a number if its bits are those of the number without what is still expected, and its range holds
the byte that is expected next. The bytes expected are then the continuation bytes of the number, in both
directions: these are accepted, and what is accepted is of this form.

## Main definitions

* `Utf8.tail`: the last continuation bytes of a number.
* `Utf8.Partial.Covers`: the numbers that a character that has begun may become.

## Main results

* `Utf8.decode_encode`: a text is decoded from its encoding.
* `Utf8.encode_of_decode`: decoded bytes are the encoding of the result.
-/

namespace Primitives.Utf8

/-! ### Bytes of a number -/

/-- The last `count` continuation bytes of a number. -/
def tail : (count : Nat) → Nat → Bytes
  | 0, _ => []
  | count + 1, n => continuation (n / 64 ^ count) :: tail count n

theorem div_pow_succ (n count : Nat) : n / 64 ^ (count + 1) = n / 64 ^ count / 64 := by
  rw [Nat.pow_succ, Nat.div_div_eq_div_mul]

@[simp] theorem length_tail (count n : Nat) : (tail count n).length = count := by
  induction count with
  | zero => rfl
  | succ count ih => simp [tail, ih]

theorem toNat_continuation (n : Nat) : (continuation n).toNat = 0x80 + n % 64 := by
  rw [continuation, UInt8.toNat_ofNat']
  omega

/-- A byte in the range of continuation bytes is that of its six bits. -/
theorem continuation_eq {b : UInt8} (hlow : 0x80 ≤ b) {n : Nat} (hn : n % 64 = b.toNat - 0x80) :
    continuation n = b := by
  have hnat : 0x80 ≤ b.toNat := hlow
  rw [← UInt8.toNat_inj, toNat_continuation, hn]
  omega

theorem continuation_mem_range (n : Nat) : 0x80 ≤ continuation n ∧ continuation n ≤ 0xbf := by
  rw [UInt8.le_iff_toNat_le, UInt8.le_iff_toNat_le, toNat_continuation]
  have hlow : (0x80 : UInt8).toNat = 0x80 := rfl
  have hhigh : (0xbf : UInt8).toNat = 0xbf := rfl
  omega

theorem toNat_ofNat {n : Nat} (h : n.isValidChar) : (Char.ofNat n).toNat = n := by
  have hchar : Char.ofNat n = Char.ofNatAux n h := dif_pos h
  rw [hchar]
  rfl

/-! ### Characters that have begun -/

namespace Partial

/-- At least one byte is expected, and it is a continuation byte. -/
structure Expects (p : Partial) : Prop where
  missing : 1 ≤ p.missing
  low : 0x80 ≤ p.low
  high : p.high ≤ 0xbf

/-- A number with the bits of a character that has begun, whose next byte is in the range. -/
structure Covers (p : Partial) (n : Nat) : Prop where
  bits : p.bits = n / 64 ^ p.missing
  low : p.low ≤ continuation (n / 64 ^ (p.missing - 1))
  high : continuation (n / 64 ^ (p.missing - 1)) ≤ p.high

/-- The character with one further byte that is not its last. -/
def next (p : Partial) (b : UInt8) : Partial :=
  ⟨p.seen + 1, p.missing - 1, 0x80, 0xbf, p.extend b⟩

/-- A byte in the range adds its six bits. -/
theorem extend_continuation {p : Partial} {n count : Nat} (hcovers : p.Covers n)
    (hmissing : p.missing = count + 1) : p.extend (continuation (n / 64 ^ count)) = n / 64 ^ count := by
  unfold extend
  rw [toNat_continuation, hcovers.bits, hmissing, div_pow_succ n count]
  generalize n / 64 ^ count = m
  omega

theorem Covers.next {p : Partial} {n count : Nat} (hcovers : p.Covers n)
    (hmissing : p.missing = count + 2) : (p.next (continuation (n / 64 ^ (count + 1)))).Covers n where
  bits := by
    rw [Partial.next, extend_continuation hcovers hmissing, hmissing]
    rfl
  low := (continuation_mem_range _).1
  high := (continuation_mem_range _).2

/-- A number is covered before a byte if it is covered behind it. -/
theorem covers_of_extend {p : Partial} (hp : p.Expects) {b : UInt8} (hlow : p.low ≤ b)
    (hhigh : b ≤ p.high) {n count : Nat} (hmissing : p.missing = count + 1)
    (hn : n / 64 ^ count = p.extend b) : p.Covers n ∧ continuation (n / 64 ^ count) = b := by
  have hfrom := UInt8.le_trans hp.low hlow
  have hto := UInt8.le_trans hhigh hp.high
  have hnat : 0x80 ≤ b.toNat ∧ b.toNat ≤ 0xbf := ⟨hfrom, hto⟩
  have hbyte : continuation (n / 64 ^ count) = b := by
    refine continuation_eq hfrom ?_
    rw [hn]
    unfold extend
    omega
  refine ⟨⟨?_, ?_, ?_⟩, hbyte⟩
  · rw [hmissing, div_pow_succ n count, hn]
    unfold extend
    omega
  · rwa [hmissing, Nat.add_sub_cancel, hbyte]
  · rwa [hmissing, Nat.add_sub_cancel, hbyte]

end Partial

variable {p : Partial} {position : Nat} {bytes : Bytes}

/-- The bytes that a covered number ends with are accepted. -/
theorem decodeFrom_tail {n count : Nat} (hmissing : p.missing = count + 1) (hcovers : p.Covers n) :
    decodeFrom position (some p) (tail (count + 1) n ++ bytes) =
      (decodeFrom (position + (count + 1)) none bytes).map (Char.ofNat n :: ·) := by
  have hrange : p.low ≤ continuation (n / 64 ^ count) ∧ continuation (n / 64 ^ count) ≤ p.high := by
    have hlow := hcovers.low
    have hhigh := hcovers.high
    rw [hmissing, Nat.add_sub_cancel] at hlow hhigh
    exact ⟨hlow, hhigh⟩
  induction count generalizing p position with
  | zero =>
    have hextend := Partial.extend_continuation hcovers hmissing
    simp only [tail, List.cons_append, List.nil_append, decodeFrom, hrange, hmissing, and_self, if_true,
      hextend]
    simp
  | succ count ih =>
    have hnext := hcovers.next hmissing
    rw [tail, List.cons_append, decodeFrom, if_pos hrange, if_neg (by omega)]
    refine (ih (p := p.next _) (by simp [Partial.next, hmissing]) hnext
      (continuation_mem_range _)).trans ?_
    rw [Nat.add_right_comm, Nat.add_assoc]

/-- What is accepted behind the beginning of a character are the bytes that a covered number ends with. -/
theorem exists_tail_of_decodeFrom {count : Nat} {s : Text} (hp : p.Expects)
    (hmissing : p.missing = count + 1) (h : decodeFrom position (some p) bytes = .ok s) :
    ∃ n rest s', p.Covers n ∧ bytes = tail (count + 1) n ++ rest ∧ s = Char.ofNat n :: s' ∧
      decodeFrom (position + (count + 1)) none rest = .ok s' := by
  induction count generalizing p position bytes with
  | zero =>
    cases bytes with
    | nil => simp [decodeFrom] at h
    | cons b bytes =>
      unfold decodeFrom at h
      split at h
      · next hrange =>
        obtain ⟨hcovers, hbyte⟩ := Partial.covers_of_extend (n := p.extend b) hp hrange.1 hrange.2
          hmissing (by simp)
        cases hrest : decodeFrom (position + 1) none bytes with
        | error fault => simp [hrest] at h
        | ok s' =>
          rw [hrest] at h
          exact ⟨p.extend b, bytes, s', hcovers, by simpa [tail] using hbyte.symm, (Except.ok.inj h).symm, hrest⟩
      · cases h
  | succ count ih =>
    cases bytes with
    | nil => simp [decodeFrom] at h
    | cons b bytes =>
      unfold decodeFrom at h
      split at h
      · next hrange =>
        rw [if_neg (by omega)] at h
        have hnext : (p.next b).Expects := ⟨by simp [Partial.next, hmissing], UInt8.le_refl _, UInt8.le_refl _⟩
        obtain ⟨n, rest, s', hcovers, rfl, hs, hrest⟩ :=
          ih (p := p.next b) hnext (by simp [Partial.next, hmissing]) h
        have hbits : n / 64 ^ (count + 1) = p.extend b := by
          have hbits := hcovers.bits
          simp only [Partial.next, hmissing, Nat.add_sub_cancel] at hbits
          exact hbits.symm
        obtain ⟨hcovers, hbyte⟩ :=
          Partial.covers_of_extend hp hrange.1 hrange.2 hmissing hbits
        refine ⟨n, rest, s', hcovers, ?_, hs, ?_⟩
        · rw [tail.eq_def (count + 1 + 1)]
          simp [hbyte]
        · rwa [Nat.add_right_comm, Nat.add_assoc] at hrest
      · cases h

/-! ### Encodings of single characters -/

theorem encodeChar_one {n : Nat} (h : n < 0x80) : encodeChar (Char.ofNat n) = [UInt8.ofNat n] := by
  have hvalid : n.isValidChar := .inl (by omega)
  simp [encodeChar, toNat_ofNat hvalid, h]

theorem encodeChar_two {n : Nat} (h : 0x80 ≤ n) (h' : n < 0x800) :
    encodeChar (Char.ofNat n) = UInt8.ofNat (0xc0 + n / 64) :: tail 1 n := by
  have hvalid : n.isValidChar := .inl (by omega)
  simp [encodeChar, toNat_ofNat hvalid, Nat.not_lt.2 h, h', tail]

theorem encodeChar_three {n : Nat} (hvalid : n.isValidChar) (h : 0x800 ≤ n) (h' : n < 0x10000) :
    encodeChar (Char.ofNat n) = UInt8.ofNat (0xe0 + n / 64 ^ 2) :: tail 2 n := by
  have hlong : ¬ n < 0x80 := by omega
  simp [encodeChar, toNat_ofNat hvalid, hlong, Nat.not_lt.2 h, h', tail]

theorem encodeChar_four {n : Nat} (hvalid : n.isValidChar) (h : 0x10000 ≤ n) :
    encodeChar (Char.ofNat n) = UInt8.ofNat (0xf0 + n / 64 ^ 3) :: tail 3 n := by
  have hlong : ¬ n < 0x80 ∧ ¬ n < 0x800 := by omega
  simp [encodeChar, toNat_ofNat hvalid, hlong, Nat.not_lt.2 h, tail]

/-! ### Lead bytes -/

/-- What a byte begins depends on where its number lies. -/
theorem ofLead?_eq {b : UInt8} {m : Nat} (hm : b.toNat = m) :
    ofLead? b =
      if m < 0xc2 then none
      else if m < 0xe0 then some ⟨1, 1, 0x80, 0xbf, m - 0xc0⟩
      else if m < 0xf0 then
        some ⟨1, 2, if m = 0xe0 then 0xa0 else 0x80, if m = 0xed then 0x9f else 0xbf, m - 0xe0⟩
      else if m < 0xf5 then
        some ⟨1, 3, if m = 0xf0 then 0x90 else 0x80, if m = 0xf4 then 0x8f else 0xbf, m - 0xf0⟩
      else none := by
  subst hm
  simp only [ofLead?, UInt8.lt_iff_toNat_lt, ← UInt8.toNat_inj]
  rfl

theorem ofLead?_two {k : Nat} (hk : 2 ≤ k) (hk' : k < 32) :
    ofLead? (UInt8.ofNat (0xc0 + k)) = some ⟨1, 1, 0x80, 0xbf, k⟩ := by
  have hbyte : (UInt8.ofNat (0xc0 + k)).toNat = 0xc0 + k :=
    UInt8.toNat_ofNat_of_lt' (show 0xc0 + k < 256 by omega)
  rw [ofLead?_eq hbyte, if_neg (by omega), if_pos (by omega),
    Nat.add_sub_cancel_left]

theorem ofLead?_three {k : Nat} (hk : k < 16) :
    ofLead? (UInt8.ofNat (0xe0 + k)) =
      some ⟨1, 2, if k = 0 then 0xa0 else 0x80, if k = 13 then 0x9f else 0xbf, k⟩ := by
  have hover : 0xe0 + k = 0xe0 ↔ k = 0 := by omega
  have hsurrogate : 0xe0 + k = 0xed ↔ k = 13 := by omega
  have hbyte : (UInt8.ofNat (0xe0 + k)).toNat = 0xe0 + k :=
    UInt8.toNat_ofNat_of_lt' (show 0xe0 + k < 256 by omega)
  rw [ofLead?_eq hbyte, if_neg (by omega), if_neg (by omega), if_pos (by omega),
    Nat.add_sub_cancel_left]
  simp only [hover, hsurrogate]

theorem ofLead?_four {k : Nat} (hk : k < 5) :
    ofLead? (UInt8.ofNat (0xf0 + k)) =
      some ⟨1, 3, if k = 0 then 0x90 else 0x80, if k = 4 then 0x8f else 0xbf, k⟩ := by
  have hover : 0xf0 + k = 0xf0 ↔ k = 0 := by omega
  have hbeyond : 0xf0 + k = 0xf4 ↔ k = 4 := by omega
  have hbyte : (UInt8.ofNat (0xf0 + k)).toNat = 0xf0 + k :=
    UInt8.toNat_ofNat_of_lt' (show 0xf0 + k < 256 by omega)
  rw [ofLead?_eq hbyte, if_neg (by omega), if_neg (by omega), if_neg (by omega),
    if_pos (by omega), Nat.add_sub_cancel_left]
  simp only [hover, hbeyond]

/-- A lead byte begins characters of two, three or four bytes. -/
theorem ofLead?_cases {b : UInt8} (h : ofLead? b = some p) :
    (∃ k, 2 ≤ k ∧ k < 32 ∧ b = UInt8.ofNat (0xc0 + k) ∧ p = ⟨1, 1, 0x80, 0xbf, k⟩) ∨
    (∃ k < 16, b = UInt8.ofNat (0xe0 + k) ∧
      p = ⟨1, 2, if k = 0 then 0xa0 else 0x80, if k = 13 then 0x9f else 0xbf, k⟩) ∨
    ∃ k < 5, b = UInt8.ofNat (0xf0 + k) ∧
      p = ⟨1, 3, if k = 0 then 0x90 else 0x80, if k = 4 then 0x8f else 0xbf, k⟩ := by
  have hbyte : UInt8.ofNat b.toNat = b := UInt8.ofNat_toNat
  have hshift : ∀ m ≤ b.toNat, UInt8.ofNat (m + (b.toNat - m)) = b := by
    intro m hm
    rw [Nat.add_sub_cancel' hm, hbyte]
  by_cases htwo : 0xc2 ≤ b.toNat ∧ b.toNat < 0xe0
  · have hlead := ofLead?_two (k := b.toNat - 0xc0) (by omega) (by omega)
    rw [hshift 0xc0 (by omega), h] at hlead
    exact .inl ⟨_, by omega, by omega, (hshift 0xc0 (by omega)).symm, Option.some.inj hlead⟩
  by_cases hthree : 0xe0 ≤ b.toNat ∧ b.toNat < 0xf0
  · have hlead := ofLead?_three (k := b.toNat - 0xe0) (by omega)
    rw [hshift 0xe0 (by omega), h] at hlead
    exact .inr (.inl ⟨_, by omega, (hshift 0xe0 (by omega)).symm, Option.some.inj hlead⟩)
  by_cases hfour : 0xf0 ≤ b.toNat ∧ b.toNat < 0xf5
  · have hlead := ofLead?_four (k := b.toNat - 0xf0) (by omega)
    rw [hshift 0xf0 (by omega), h] at hlead
    exact .inr (.inr ⟨_, by omega, (hshift 0xf0 (by omega)).symm, Option.some.inj hlead⟩)
  · -- The bytes that remain lead nothing.
    rw [ofLead?_eq rfl] at h
    by_cases hsmall : b.toNat < 0xc2
    · rw [if_pos hsmall] at h
      exact nomatch h
    · rw [if_neg hsmall, if_neg (by omega), if_neg (by omega), if_neg (by omega)] at h
      exact nomatch h

theorem Partial.expects_of_lead {b : UInt8} (h : ofLead? b = some p) : p.Expects := by
  rcases ofLead?_cases h with ⟨k, -, -, -, rfl⟩ | ⟨k, -, -, rfl⟩ | ⟨k, -, -, rfl⟩
  · exact ⟨by simp, by simp, by simp⟩
  · refine ⟨by simp, ?_, ?_⟩ <;> dsimp only <;> split <;> decide
  · refine ⟨by simp, ?_, ?_⟩ <;> dsimp only <;> split <;> decide

/-- The bounds of the second byte depend on the first one. -/
theorem ite_le_continuation_iff {c : Prop} [Decidable c] {a b : UInt8} {m : Nat} :
    (if c then a else b) ≤ continuation m ↔
      (c → a.toNat ≤ 0x80 + m % 64) ∧ (¬ c → b.toNat ≤ 0x80 + m % 64) := by
  rw [UInt8.le_iff_toNat_le, toNat_continuation]
  split <;> simp [*]

theorem continuation_le_ite_iff {c : Prop} [Decidable c] {a b : UInt8} {m : Nat} :
    continuation m ≤ (if c then a else b) ↔
      (c → 0x80 + m % 64 ≤ a.toNat) ∧ (¬ c → 0x80 + m % 64 ≤ b.toNat) := by
  rw [UInt8.le_iff_toNat_le, toNat_continuation]
  split <;> simp [*]

/-- What the range of the second byte says for the numbers of three bytes: no overlong forms and no
surrogates. -/
theorem covers_three_iff {n k : Nat} :
    Partial.Covers ⟨1, 2, if k = 0 then 0xa0 else 0x80, if k = 13 then 0x9f else 0xbf, k⟩ n ↔
      k = n / 4096 ∧ (k = 0 → 32 ≤ n / 64 % 64) ∧ (k = 13 → n / 64 % 64 < 32) := by
  constructor
  · rintro ⟨hbits, hlow, hhigh⟩
    have hover : k = 0 → 0xa0 ≤ 0x80 + n / 64 ^ 1 % 64 := (ite_le_continuation_iff.1 hlow).1
    have hsurrogate : k = 13 → 0x80 + n / 64 ^ 1 % 64 ≤ 0x9f := (continuation_le_ite_iff.1 hhigh).1
    exact ⟨hbits, by omega, by omega⟩
  · rintro ⟨hbits, hover, hsurrogate⟩
    have hlow : (k = 0 → 0xa0 ≤ 0x80 + n / 64 ^ 1 % 64) ∧ (¬ k = 0 → 0x80 ≤ 0x80 + n / 64 ^ 1 % 64) := by
      omega
    have hhigh : (k = 13 → 0x80 + n / 64 ^ 1 % 64 ≤ 0x9f) ∧
        (¬ k = 13 → 0x80 + n / 64 ^ 1 % 64 ≤ 0xbf) := by
      omega
    exact ⟨hbits, ite_le_continuation_iff.2 hlow, continuation_le_ite_iff.2 hhigh⟩

/-- What the range of the second byte says for the numbers of four bytes: no overlong forms and nothing
beyond Unicode. -/
theorem covers_four_iff {n k : Nat} :
    Partial.Covers ⟨1, 3, if k = 0 then 0x90 else 0x80, if k = 4 then 0x8f else 0xbf, k⟩ n ↔
      k = n / 262144 ∧ (k = 0 → 16 ≤ n / 4096 % 64) ∧ (k = 4 → n / 4096 % 64 < 16) := by
  constructor
  · rintro ⟨hbits, hlow, hhigh⟩
    have hover : k = 0 → 0x90 ≤ 0x80 + n / 64 ^ 2 % 64 := (ite_le_continuation_iff.1 hlow).1
    have hbeyond : k = 4 → 0x80 + n / 64 ^ 2 % 64 ≤ 0x8f := (continuation_le_ite_iff.1 hhigh).1
    exact ⟨hbits, by omega, by omega⟩
  · rintro ⟨hbits, hover, hbeyond⟩
    have hlow : (k = 0 → 0x90 ≤ 0x80 + n / 64 ^ 2 % 64) ∧ (¬ k = 0 → 0x80 ≤ 0x80 + n / 64 ^ 2 % 64) := by
      omega
    have hhigh : (k = 4 → 0x80 + n / 64 ^ 2 % 64 ≤ 0x8f) ∧
        (¬ k = 4 → 0x80 + n / 64 ^ 2 % 64 ≤ 0xbf) := by
      omega
    exact ⟨hbits, ite_le_continuation_iff.2 hlow, continuation_le_ite_iff.2 hhigh⟩

/-- A lead byte is the first byte of the encodings of the numbers that it begins. -/
theorem encodeChar_of_lead {b : UInt8} {n : Nat} (h : ofLead? b = some p) (hcovers : p.Covers n) :
    encodeChar (Char.ofNat n) = b :: tail p.missing n := by
  rcases ofLead?_cases h with ⟨k, hk, hk', rfl, rfl⟩ | ⟨k, hk, rfl, rfl⟩ | ⟨k, hk, rfl, rfl⟩
  · obtain rfl : k = n / 64 := by simpa using hcovers.bits
    exact encodeChar_two (by omega) (by omega)
  · obtain ⟨rfl, hover, hsurrogate⟩ := covers_three_iff.1 hcovers
    have hvalid : n.isValidChar := by
      unfold Nat.isValidChar
      omega
    exact encodeChar_three hvalid (by omega) (by omega)
  · obtain ⟨rfl, hover, hbeyond⟩ := covers_four_iff.1 hcovers
    have hvalid : n.isValidChar := by
      unfold Nat.isValidChar
      omega
    exact encodeChar_four hvalid (by omega)

/-- A character of several bytes has a lead byte. -/
theorem exists_lead {n : Nat} (hvalid : n.isValidChar) (h : 0x80 ≤ n) :
    ∃ b p, ofLead? b = some p ∧ p.Covers n := by
  have hcases : n < 0xd800 ∨ 0xdfff < n ∧ n < 0x110000 := hvalid
  by_cases htwo : n < 0x800
  · exact ⟨_, _, ofLead?_two (k := n / 64) (by omega) (by omega), by simp, (continuation_mem_range _).1,
      (continuation_mem_range _).2⟩
  by_cases hthree : n < 0x10000
  · exact ⟨_, _, ofLead?_three (k := n / 4096) (by omega), covers_three_iff.2 (by omega)⟩
  · exact ⟨_, _, ofLead?_four (k := n / 262144) (by omega), covers_four_iff.2 (by omega)⟩

/-! ### Texts -/

/-- A byte that begins a character is no character by itself. -/
theorem not_lt_of_lead {b : UInt8} (h : ofLead? b = some p) : ¬ b < 0x80 := by
  intro hlt
  have hsmall : b < 0xc2 := UInt8.lt_trans hlt (by decide)
  simp [ofLead?, hsmall] at h

/-- The encoding of a character is decoded to it, and what follows is decoded behind it. -/
theorem decodeFrom_encodeChar (c : Char) :
    decodeFrom position none (encodeChar c ++ bytes) =
      (decodeFrom (position + (encodeChar c).length) none bytes).map (c :: ·) := by
  obtain ⟨n, hvalid, rfl⟩ : ∃ n : Nat, n.isValidChar ∧ c = Char.ofNat n :=
    ⟨c.toNat, c.valid, (Char.ofNat_toNat c).symm⟩
  by_cases hsingle : n < 0x80
  · have hbyte : (UInt8.ofNat n).toNat = n := UInt8.toNat_ofNat_of_lt' (show n < 256 by omega)
    have hlt : UInt8.ofNat n < 0x80 := UInt8.lt_iff_toNat_lt.2 (hbyte.symm ▸ hsingle)
    rw [encodeChar_one hsingle, List.singleton_append, decodeFrom, if_pos hlt, hbyte]
    rfl
  · obtain ⟨b, p, hlead, hcovers⟩ := exists_lead hvalid (Nat.not_lt.1 hsingle)
    obtain ⟨count, hmissing⟩ := Nat.exists_eq_add_of_le' (Partial.expects_of_lead hlead).missing
    have htail : decodeFrom (position + 1) (some p) (tail (count + 1) n ++ bytes) =
        (decodeFrom (position + 1 + (count + 1)) none bytes).map (Char.ofNat n :: ·) :=
      decodeFrom_tail hmissing hcovers
    rw [encodeChar_of_lead hlead hcovers, List.cons_append, decodeFrom, if_neg (not_lt_of_lead hlead),
      hlead, hmissing]
    dsimp only
    rw [htail, List.length_cons, length_tail, Nat.add_right_comm]
    rfl

theorem decodeFrom_encode (s : Text) : decodeFrom position none (encode s) = .ok s := by
  induction s generalizing position with
  | nil => rfl
  | cons c s ih =>
    rw [encode, List.flatMap_cons, decodeFrom_encodeChar]
    exact congrArg (Except.map (c :: ·)) ih

/-- A text is decoded from its encoding. -/
theorem decode_encode (s : Text) : decode (encode s) = .ok s :=
  decodeFrom_encode s

/-- Bytes that are decoded begin with the encoding of the first character of the result. -/
theorem exists_encodeChar_of_decodeFrom {b : UInt8} {s : Text}
    (h : decodeFrom position none (b :: bytes) = .ok s) :
    ∃ c rest s', b :: bytes = encodeChar c ++ rest ∧ s = c :: s' ∧
      decodeFrom (position + (encodeChar c).length) none rest = .ok s' := by
  unfold decodeFrom at h
  split at h
  · next hlt =>
    have hsingle : b.toNat < 0x80 := UInt8.lt_iff_toNat_lt.1 hlt
    have hencode := encodeChar_one hsingle
    rw [UInt8.ofNat_toNat] at hencode
    cases hrest : decodeFrom (position + 1) none bytes with
    | error fault => simp [hrest] at h
    | ok s' =>
      rw [hrest] at h
      exact ⟨Char.ofNat b.toNat, bytes, s', by rw [hencode]; rfl, (Except.ok.inj h).symm, by rwa [hencode]⟩
  · cases hlead : ofLead? b with
    | none => simp [hlead] at h
    | some p =>
      rw [hlead] at h
      have hexpects := Partial.expects_of_lead hlead
      obtain ⟨count, hmissing⟩ := Nat.exists_eq_add_of_le' hexpects.missing
      obtain ⟨n, rest, s', hcovers, rfl, rfl, hrest⟩ := exists_tail_of_decodeFrom hexpects hmissing h
      have hencode := encodeChar_of_lead hlead hcovers
      refine ⟨Char.ofNat n, rest, s', ?_, rfl, ?_⟩
      · rw [hencode, hmissing, List.cons_append]
      · rwa [hencode, hmissing, List.length_cons, length_tail, Nat.add_comm _ 1, ← Nat.add_assoc]

theorem encode_of_decodeFrom {s : Text} (h : decodeFrom position none bytes = .ok s) :
    encode s = bytes := by
  induction s generalizing position bytes with
  | nil =>
    cases bytes with
    | nil => rfl
    | cons b bytes =>
      obtain ⟨c, rest, s', -, hs, -⟩ := exists_encodeChar_of_decodeFrom h
      cases hs
  | cons c s ih =>
    cases bytes with
    | nil => cases h
    | cons b bytes =>
      obtain ⟨c', rest, s', hbytes, hs, hrest⟩ := exists_encodeChar_of_decodeFrom h
      obtain ⟨rfl, rfl⟩ := List.cons.inj hs
      rw [hbytes, encode, List.flatMap_cons]
      exact congrArg (encodeChar c ++ ·) (ih hrest)

/-- Bytes that are decoded are the encoding of the result. -/
theorem encode_of_decode {s : Text} (h : decode bytes = .ok s) : encode s = bytes :=
  encode_of_decodeFrom h

end Primitives.Utf8
