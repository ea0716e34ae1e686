import Mathlib.Data.List.TakeWhile
import Primitives.Number.Numeral

/-!
# Decimal numerals

Writing a number in decimal and reading it back gives the number again. A written number has digits
only, does not begin with a zero unless it is zero, and has at most as many digits as the limit allows
exactly when it is below the power of ten of that limit.

## Main results

* `Numeral.value_ofNat`: reading what was written.
* `Numeral.value_append`: digits behind digits.
* `Numeral.value_lt`: a bound by the number of digits.
* `Numeral.read_ofNat`: reading within the limit.
-/

namespace Primitives.Numeral

open Text

/-! ### Digits -/

theorem isDigit_iff (c : Char) : isDigit c = true ↔ 48 ≤ c.toNat ∧ c.toNat ≤ 57 := by
  simp only [isDigit, Bool.and_eq_true, decide_eq_true_eq, Char.le_def, UInt32.le_iff_toNat_le]
  exact Iff.rfl

theorem digitValue_lt {c : Char} (h : isDigit c) : digitValue c < 10 := by
  have hc := (isDigit_iff c).1 h
  have hzero : '0'.toNat = 48 := rfl
  unfold digitValue
  omega

/-- Only the digit zero stands for zero. -/
theorem digitValue_pos {c : Char} (h : isDigit c) (hne : c ≠ '0') : 0 < digitValue c := by
  have hc := (isDigit_iff c).1 h
  have hcode : c.toNat ≠ 48 := fun heq => hne (Char.toNat_inj.1 heq)
  have hzero : '0'.toNat = 48 := rfl
  unfold digitValue
  omega

theorem isDigit_of_mem_ofNat {n : Nat} {c : Char} (h : c ∈ ofNat 10 n) : isDigit c := by
  have hdigit : c.isDigit := Nat.isDigit_of_mem_toDigits (by decide) (by decide) h
  simpa [isDigit, Char.isDigit, Char.le_def] using hdigit

/-! ### Values -/

theorem value_cons (c : Char) (digits : Text) :
    value (c :: digits) = digitValue c * 10 ^ digits.length + value digits := by
  have h : Nat.ofDigitChars 10 digits (digitValue c) =
      10 ^ digits.length * digitValue c + Nat.ofDigitChars 10 digits 0 :=
    Nat.ofDigitChars_eq_ofDigitChars_zero
  simpa [value, Nat.ofDigitChars, digitValue, Nat.mul_comm] using h

/-- Digits stand for a number below the power of ten of their number. -/
theorem value_lt {digits : Text} (h : ∀ c ∈ digits, isDigit c) :
    value digits < 10 ^ digits.length := by
  induction digits with
  | nil => simp [value]
  | cons c digits ih =>
    have hfirst := digitValue_lt (h c List.mem_cons_self)
    have hrest := ih fun d hd => h d (List.mem_cons_of_mem _ hd)
    rw [value_cons, List.length_cons, Nat.pow_succ]
    have hmul : digitValue c * 10 ^ digits.length ≤ 9 * 10 ^ digits.length :=
      Nat.mul_le_mul_right _ (by omega)
    omega

theorem value_append (s t : Text) : value (s ++ t) = value s * 10 ^ t.length + value t := by
  induction s with
  | nil => simp [value]
  | cons c s ih =>
    rw [List.cons_append, value_cons, ih, value_cons, List.length_append, Nat.pow_add, Nat.add_mul,
      Nat.mul_assoc, Nat.add_assoc]

theorem value_zeros (n : Nat) : value (List.replicate n '0') = 0 := by
  induction n with
  | zero => rfl
  | succ n ih =>
    have hzero : digitValue '0' = 0 := rfl
    rw [List.replicate_succ, value_cons, ih, hzero, Nat.zero_mul]

/-- Zeros behind digits multiply by a power of ten. -/
theorem value_append_zeros (s : Text) (n : Nat) :
    value (s ++ List.replicate n '0') = value s * 10 ^ n := by
  rw [value_append, value_zeros, List.length_replicate, Nat.add_zero]

/-- Zeros in front of digits do not count. -/
theorem value_zeros_append (n : Nat) (s : Text) : value (List.replicate n '0' ++ s) = value s := by
  rw [value_append, value_zeros, Nat.zero_mul, Nat.zero_add]

/-- Digits that do not begin with a zero stand for a number other than zero. -/
theorem value_pos {c : Char} {digits : Text} (hc : isDigit c) (hne : c ≠ '0') :
    0 < value (c :: digits) := by
  rw [value_cons]
  have hpos : 0 < digitValue c * 10 ^ digits.length :=
    Nat.mul_pos (digitValue_pos hc hne) (Nat.pow_pos (by decide))
  omega

@[simp] theorem value_ofNat (n : Nat) : value (ofNat 10 n) = n :=
  Nat.ofDigitChars_toDigits (by decide) (by decide)

theorem ofNat_ne_nil (n : Nat) : ofNat 10 n ≠ [] :=
  Nat.toDigits_ne_nil

/-- A number other than zero is written without zeros in front. -/
theorem head?_ofNat {n : Nat} (hn : 0 < n) : (ofNat 10 n).head? ≠ some '0' := by
  induction n using Nat.strong_induction_on with
  | _ n ih =>
    by_cases hlt : n < 10
    · have hdigits : ofNat 10 n = [n.digitChar] := Nat.toDigits_of_lt_base hlt
      rw [hdigits]
      simpa using Nat.ne_of_gt hn
    · have hdigits : ofNat 10 n = ofNat 10 (n / 10) ++ [(n % 10).digitChar] :=
        Nat.toDigits_of_base_le (by decide) (by omega)
      have hhead := ih (n / 10) (by omega) (by omega)
      obtain ⟨c, rest, hrest⟩ := List.exists_cons_of_ne_nil (ofNat_ne_nil (n / 10))
      simpa [hdigits, hrest] using hhead

/-! ### The limit -/

theorem length_ofNat_le_iff (n : Nat) :
    (ofNat 10 n).length ≤ digitLimit ↔ n < 10 ^ digitLimit :=
  Nat.length_toDigits_le_iff (by decide) (by decide)

/-- A number within the limit is read back. -/
theorem read_ofNat {n : Nat} (h : n < 10 ^ digitLimit) : read (ofNat 10 n) = .ok n := by
  rw [read, if_pos ((length_ofNat_le_iff n).2 h), value_ofNat]

/-- Digits within the limit stand for a number within the limit. -/
theorem value_lt_of_read {digits : Text} {n : Nat} (hdigits : ∀ c ∈ digits, isDigit c)
    (h : read digits = .ok n) : n = value digits ∧ n < 10 ^ digitLimit := by
  unfold read at h
  split at h
  · next hlength =>
    obtain rfl : value digits = n := by simpa using h
    exact ⟨rfl, (value_lt hdigits).trans_le (Nat.pow_le_pow_right (by decide) hlength)⟩
  · simp at h

theorem decimal_natCast {n : Nat} (h : n < 10 ^ digitLimit) : decimal n = .ok (ofNat 10 n) := by
  have hneg : ¬ (n : Int) < 0 := by omega
  rw [decimal, Int.natAbs_natCast, if_pos h, ofInt, if_neg hneg, Int.natAbs_natCast]

end Primitives.Numeral
