import Primitives.Proofs.Number.IntegerTexts

/-!
# Numerals of other bases

The digits of a base up to 16 are read in either case. Reading a sign, a mark and digits gives back the number
whose digits were written, whatever zeros stand in front of them.

## Main definitions

* `Numeral.padded`: the digits of a number with zeros in front.
* `Numeral.valueIn`: the number that digits of a base stand for.
* `Numeral.readSigned?`: reading a sign, a mark and digits, without regard to spaces.

## Main results

* `Numeral.valueIn_map_ofNat`: the digits of a number stand for it.
* `Numeral.readSigned?_eq`: a sign, a mark and the digits of a number are read back.
-/

namespace Primitives.Numeral

open Text

/-! ### Reading -/

/-- The digits of the greatest base. -/
def baseDigits : Text :=
  "0123456789abcdef"

/-- The number that a digit stands for, in either case; no other character stands for one below 16. -/
def baseDigitValue (c : Char) : Nat :=
  baseDigits.idxOf (lowerChar c)

/-- The number that digits of a base stand for. -/
def valueIn (base : Nat) (digits : Text) : Nat :=
  digits.foldl (fun n c => base * n + baseDigitValue c) 0

/-- Reads digits of a base, at least one. -/
def readIn? (base : Nat) (digits : Text) : Option Nat :=
  if consistsOf (baseDigitValue · < base) digits then some (valueIn base digits) else none

/-- Reads a sign, a mark and digits of a base, without regard to spaces. -/
def readSigned? (base : Nat) (mark s : Text) : Option Int :=
  let (negative, body) := takeSign (s.filter (· != ' '))
  if mark.isPrefixOf body then
    (readIn? base (body.drop mark.length)).map fun n => if negative then -(n : Int) else n
  else none

/-! ### Digits -/

/-- The digits of a number in a base, each written as a letter tells, with zeros in front. -/
def padded (letter : Char → Char) (base zeros n : Nat) : Text :=
  List.replicate zeros '0' ++ (ofNat base n).map letter

theorem replicate_append_padded (letter : Char → Char) (base zeros zeros' n : Nat) :
    List.replicate zeros '0' ++ padded letter base zeros' n = padded letter base (zeros + zeros') n := by
  rw [padded, padded, ← List.append_assoc, List.replicate_append_replicate]

/-- A way to write the digits that keeps what they stand for. -/
def KeepsDigits (letter : Char → Char) : Prop :=
  ∀ d < 16, baseDigitValue (letter d.digitChar) = d

theorem keepsDigits_id : KeepsDigits id := by
  unfold KeepsDigits
  decide

theorem keepsDigits_upperChar : KeepsDigits upperChar := by
  unfold KeepsDigits
  decide

variable {base : Nat} {letter : Char → Char}

/-- Signs and spaces are no digits. -/
theorem ne_of_baseDigitValue_lt {c : Char} (h : baseDigitValue c < 16) : c ≠ '-' ∧ c ≠ '+' ∧ c ≠ ' ' := by
  refine ⟨?_, ?_, ?_⟩ <;>
    · rintro rfl
      exact absurd h (by decide)

theorem valueIn_append_singleton (digits : Text) (c : Char) :
    valueIn base (digits ++ [c]) = base * valueIn base digits + baseDigitValue c := by
  simp [valueIn, List.foldl_append]

/-- The last digit of a number is its remainder, and the others are those of the quotient. -/
theorem ofNat_of_base_le (hbase : 1 < base) {n : Nat} (h : base ≤ n) :
    ofNat base n = ofNat base (n / base) ++ [(n % base).digitChar] :=
  Nat.toDigits_of_base_le hbase h

theorem ofNat_of_lt_base {n : Nat} (h : n < base) : ofNat base n = [n.digitChar] :=
  Nat.toDigits_of_lt_base h

theorem baseDigitValue_zero : baseDigitValue '0' = 0 := by
  decide

/-- Zeros in front of digits do not count. -/
theorem valueIn_zeros_append (zeros : Nat) (digits : Text) :
    valueIn base (List.replicate zeros '0' ++ digits) = valueIn base digits := by
  have hzeros : (List.replicate zeros '0').foldl (fun n c => base * n + baseDigitValue c) 0 = 0 := by
    induction zeros with
    | zero => rfl
    | succ zeros ih => rwa [List.replicate_succ, List.foldl_cons, baseDigitValue_zero]
  rw [valueIn, List.foldl_append, hzeros, ← valueIn]

section Written

variable (hletter : KeepsDigits letter) (hbase : 1 < base) (hle : base ≤ 16)

include hletter hbase hle

/-- The digits of a number stand for it. -/
theorem valueIn_map_ofNat (n : Nat) : valueIn base ((ofNat base n).map letter) = n := by
  induction n using Nat.strong_induction_on with
  | _ n ih =>
    by_cases hlt : n < base
    · have hdigit := hletter n (by omega)
      simp [ofNat_of_lt_base hlt, valueIn, hdigit]
    · have hge : base ≤ n := Nat.not_lt.1 hlt
      have hdigit := hletter (n % base) ((Nat.mod_lt n (by omega)).trans_le hle)
      have hquotient := ih (n / base) (Nat.div_lt_self (by omega) hbase)
      rw [ofNat_of_base_le hbase hge, List.map_append, List.map_singleton, valueIn_append_singleton,
        hquotient, hdigit, Nat.div_add_mod]

/-- The digits of a number are digits of the base. -/
theorem baseDigitValue_lt_of_mem {n : Nat} {c : Char} (h : c ∈ (ofNat base n).map letter) :
    baseDigitValue c < base := by
  induction n using Nat.strong_induction_on with
  | _ n ih =>
    by_cases hlt : n < base
    · obtain rfl : c = letter n.digitChar := by simpa [ofNat_of_lt_base hlt] using h
      rwa [hletter n (by omega)]
    · have hge : base ≤ n := Nat.not_lt.1 hlt
      rw [ofNat_of_base_le hbase hge, List.map_append, List.map_singleton, List.mem_append,
        List.mem_singleton] at h
      rcases h with h | rfl
      · exact ih (n / base) (Nat.div_lt_self (by omega) hbase) h
      · have hmod := Nat.mod_lt n (show 0 < base by omega)
        rwa [hletter _ (hmod.trans_le hle)]

theorem baseDigitValue_lt_of_mem_padded {zeros n : Nat} {c : Char} (h : c ∈ padded letter base zeros n) :
    baseDigitValue c < base := by
  rcases List.mem_append.1 h with h | h
  · rw [List.eq_of_mem_replicate h, baseDigitValue_zero]
    omega
  · exact baseDigitValue_lt_of_mem hletter hbase hle h

theorem readIn?_padded (zeros n : Nat) : readIn? base (padded letter base zeros n) = some n := by
  have hne : padded letter base zeros n ≠ [] := by simp [padded, ofNat]
  have hclass : consistsOf (baseDigitValue · < base) (padded letter base zeros n) :=
    consistsOf_iff.2 ⟨hne, fun c hc => decide_eq_true (baseDigitValue_lt_of_mem_padded hletter hbase hle hc)⟩
  rw [readIn?, if_pos hclass, padded, valueIn_zeros_append, valueIn_map_ofNat hletter hbase hle]

/-! ### Signs, marks and digits -/

/-- A sign, a mark and the digits of a number are read back, with zeros in front of the digits and with spaces
anywhere. -/
theorem readSigned?_eq {s mark : Text} (hmark : ∀ c ∈ mark, c ≠ '-' ∧ c ≠ '+') {sign : Sign} {zeros n : Nat}
    (hs : s.filter (· != ' ') = sign.text ++ (mark ++ padded letter base zeros n)) :
    readSigned? base mark s = some (sign.apply n) := by
  have hhead : ∀ c ∈ (mark ++ padded letter base zeros n).head?, c ≠ '-' ∧ c ≠ '+' := by
    intro c hc
    rcases List.mem_append.1 (List.mem_of_head? hc) with hc | hc
    · exact hmark c hc
    · have hdigit := baseDigitValue_lt_of_mem_padded hletter hbase hle hc
      obtain ⟨hminus, hplus, -⟩ := ne_of_baseDigitValue_lt (hdigit.trans_le hle)
      exact ⟨hminus, hplus⟩
  simp only [readSigned?, hs, takeSign_append sign hhead]
  rw [if_pos (by simp), List.drop_left, readIn?_padded hletter hbase hle]
  rfl

end Written

end Primitives.Numeral
