import Mathlib.Data.Nat.Digits.Defs
import Primitives.Proofs.Number.IntegerTexts

/-!
# Parsed integers

A text is parsed as an integer if it is a sign and digits between blanks, the digits are within the limit of
numerals, and the number that they stand for in base ten has 64 bits with that sign. The limit counts digits and not
the size of the number, so zeros in front of the digits leave the number alone until they exceed it.

## Main definitions

* `SpellsInteger`: texts that spell an integer.
* `Text.insertZeros`: zeros in front of the first digit of a text.

## Main results

* `Numeral.value_eq_ofDigits`: the number that digits stand for, in positional notation.
* `parseInt_eq_some_iff`, `parseInt_spelled`: the texts that are parsed, and their values.
* `parseInt_insertZeros`, `parseInt_insertZeros_iff`: zeros in front.
-/

namespace Primitives

open Text

variable {s digits : Text} {sign : Sign} {v : Int}

/-- Digits stand for a number in positional notation, the last one for the units. -/
theorem Numeral.value_eq_ofDigits (digits : Text) :
    value digits = Nat.ofDigits 10 (digits.reverse.map digitValue) := by
  induction digits with
  | nil => rfl
  | cons c digits ih =>
    rw [value_cons, ih, List.reverse_cons, List.map_append, Nat.ofDigits_append, List.length_map,
      List.length_reverse, List.map_singleton, Nat.ofDigits_singleton, Nat.mul_comm, Nat.add_comm]

/-! ### Texts that are parsed -/

/-- A text that spells an integer: a sign and digits between blanks, at most as many as a numeral may have, with the
number that the digits stand for. -/
def SpellsInteger (s : Text) (v : Int) : Prop :=
  ∃ (sign : Sign) (digits : Text), IsBetweenBlanks (sign.text ++ digits) s ∧ digits ≠ [] ∧
    digits.length ≤ 4300 ∧ (∀ c ∈ digits, isDigit c) ∧
    v = sign.apply (Nat.ofDigits 10 (digits.reverse.map Numeral.digitValue))

/-- A text that is parsed is a sign and digits between blanks. -/
theorem exists_digits_of_parseInt (h : parseInt s = some v) :
    ∃ (sign : Sign) (digits : Text), IsBetweenBlanks (sign.text ++ digits) s ∧ digits ≠ [] ∧
      ∀ c ∈ digits, isDigit c := by
  obtain ⟨sign, htext, -⟩ := exists_sign (trim s)
  have hbetween := isBetweenBlanks_trim s
  rw [htext] at hbetween
  have hclass : consistsOf isDigit (takeSign (trim s)).2 := by
    by_contra hclass
    simp [parseInt, hclass] at h
  exact ⟨sign, _, hbetween, consistsOf_iff.1 hclass⟩

/-- A text is parsed if it spells an integer of 64 bits. -/
theorem parseInt_eq_some_iff : parseInt s = some v ↔ SpellsInteger s v ∧ int64Min ≤ v ∧ v ≤ int64Max := by
  constructor
  · intro h
    obtain ⟨sign, digits, hs, hne, hdigits⟩ := exists_digits_of_parseInt h
    rw [parseInt_signed hs hne hdigits, Option.ite_none_right_eq_some] at h
    obtain ⟨⟨hlength, hrange⟩, hvalue⟩ := h
    obtain rfl := Option.some.inj hvalue
    refine ⟨⟨sign, digits, hs, hne, hlength, hdigits, ?_⟩, hrange⟩
    rw [Numeral.value_eq_ofDigits]
  · rintro ⟨⟨sign, digits, hs, hne, hlength, hdigits, rfl⟩, hrange⟩
    rw [← Numeral.value_eq_ofDigits] at hrange ⊢
    rw [parseInt_signed hs hne hdigits, if_pos ⟨hlength, hrange⟩]

/-- **Integers are parsed exactly if they are spelled and have 64 bits.** The value of a text is the integer that a
sign and one to 4300 digits between blanks stand for, if it has 64 bits; every other text has no value. -/
theorem parseInt_spelled (s : Text) :
    (∀ v, parseInt s = some v ↔ SpellsInteger s v ∧ -2 ^ 63 ≤ v ∧ v ≤ 2 ^ 63 - 1) ∧
      (parseInt s = none ↔ ¬ ∃ v, SpellsInteger s v ∧ -2 ^ 63 ≤ v ∧ v ≤ 2 ^ 63 - 1) := by
  have hsome : ∀ v, parseInt s = some v ↔ SpellsInteger s v ∧ -2 ^ 63 ≤ v ∧ v ≤ 2 ^ 63 - 1 :=
    fun v => parseInt_eq_some_iff
  refine ⟨hsome, fun hnone => ?_, fun h => ?_⟩
  · rintro ⟨v, hv⟩
    exact nomatch hnone.symm.trans ((hsome v).2 hv)
  · exact Option.eq_none_iff_forall_ne_some.2 fun v hv => h ⟨v, (hsome v).1 hv⟩

example : parseInt " -9223372036854775808\n".toList = some (-2 ^ 63) ∧
    parseInt "9223372036854775808".toList = none ∧ parseInt "- 1".toList = none := by
  decide

/-! ### Zeros in front -/

/-- The text with zeros directly in front of its first digit. -/
def Text.insertZeros (zeros : Nat) (s : Text) : Text :=
  s.takeWhile (!isDigit ·) ++ (List.replicate zeros '0' ++ s.dropWhile (!isDigit ·))

/-- Zeros in front of the first digit stand behind the sign. -/
theorem isBetweenBlanks_insertZeros (hs : IsBetweenBlanks (sign.text ++ digits) s) (hne : digits ≠ [])
    (hdigits : ∀ c ∈ digits, isDigit c) (zeros : Nat) :
    IsBetweenBlanks (sign.text ++ (List.replicate zeros '0' ++ digits)) (insertZeros zeros s) := by
  obtain ⟨u, w, hu, hw, rfl⟩ := hs
  refine ⟨u, w, hu, hw, ?_⟩
  have hfront : ∀ c ∈ u ++ sign.text, (!isDigit c) = true := by
    intro c hc
    rw [Bool.not_eq_true']
    rcases List.mem_append.1 hc with hc | hc
    · exact isDigit_of_isBlank (hu c hc)
    · exact Sign.isDigit_of_mem_text hc
  have hhead : ∀ c ∈ (digits ++ w).head?, (!isDigit c) = false := by
    intro c hc
    obtain ⟨first, rest, rfl⟩ := List.exists_cons_of_ne_nil hne
    obtain rfl : first = c := Option.some.inj hc
    simpa using hdigits first List.mem_cons_self
  have happend : u ++ (sign.text ++ digits) ++ w = (u ++ sign.text) ++ (digits ++ w) := by
    simp only [List.append_assoc]
  obtain ⟨htake, hdrop⟩ := takeWhile_dropWhile_append hfront hhead
  rw [happend, insertZeros, htake, hdrop]
  simp only [List.append_assoc]

/-- Zeros in front of the first digit keep the value until there are too many digits. -/
theorem parseInt_insertZeros (h : parseInt s = some v) (zeros : Nat) :
    parseInt (insertZeros zeros s) = if s.countP isDigit + zeros ≤ Numeral.digitLimit then some v else none := by
  obtain ⟨sign, digits, hs, hne, hdigits⟩ := exists_digits_of_parseInt h
  have hzeros : ∀ c ∈ List.replicate zeros '0' ++ digits, isDigit c := by
    intro c hc
    rcases List.mem_append.1 hc with hc | hc
    · rw [List.eq_of_mem_replicate hc]
      rfl
    · exact hdigits c hc
  have hlength : (List.replicate zeros '0' ++ digits).length = s.countP isDigit + zeros := by
    rw [List.length_append, List.length_replicate, countP_isDigit hs hdigits, Nat.add_comm]
  rw [parseInt_signed hs hne hdigits, Option.ite_none_right_eq_some] at h
  obtain ⟨⟨-, hrange⟩, hvalue⟩ := h
  rw [parseInt_signed (isBetweenBlanks_insertZeros hs hne hdigits zeros) (List.append_ne_nil_of_right_ne_nil _ hne)
    hzeros, Numeral.value_zeros_append, hlength, hvalue]
  simp only [hrange, and_true]

/-- **Zeros in front of an integer do not matter within the limit of numerals.** They keep its value as long as the
text has no more than 4300 digits with them, and with more digits the text has no value. -/
theorem parseInt_insertZeros_iff (h : parseInt s = some v) (zeros : Nat) :
    (parseInt (insertZeros zeros s) = some v ↔ s.countP isDigit + zeros ≤ 4300) ∧
      (parseInt (insertZeros zeros s) = none ↔ 4300 < s.countP isDigit + zeros) := by
  have hlimit : Numeral.digitLimit = 4300 := rfl
  rw [parseInt_insertZeros h, hlimit]
  by_cases hle : s.countP isDigit + zeros ≤ 4300
  · rw [if_pos hle]
    exact ⟨iff_of_true rfl hle, iff_of_false (by simp) (Nat.not_lt.2 hle)⟩
  · rw [if_neg hle]
    exact ⟨iff_of_false (by simp) hle, iff_of_true rfl (Nat.not_le.1 hle)⟩

/-- A number of one digit has no value behind 4300 zeros. -/
theorem parseInt_insertZeros_iff_beyond :
    parseInt " -7".toList = some (-7) ∧ parseInt (insertZeros 4299 " -7".toList) = some (-7) ∧
      parseInt (insertZeros 4300 " -7".toList) = none := by
  have hparse : parseInt " -7".toList = some (-7) := by decide
  exact ⟨hparse, (parseInt_insertZeros_iff hparse 4299).1.2 (by decide),
    (parseInt_insertZeros_iff hparse 4300).2.2 (by decide)⟩

end Primitives
