import Primitives.Number.Literal
import Primitives.Proofs.Number.Numerals
import Primitives.Proofs.Text.Ascii

/-!
# Integers read from texts

A text may begin with one sign. Between blanks, a sign and decimal digits are read as the number that the digits
stand for with that sign, unless there are too many of them or the number does not have 64 bits.

## Main definitions

* `Sign`: a sign that is not written, or written as one of two characters.

## Main results

* `takeSign_append`, `exists_sign`: signs are taken from the front of a text.
* `parseInt_signed`: the value of a sign and digits between blanks.
-/

namespace Primitives

open Text

/-! ### Signs -/

/-- A sign in front of digits. -/
inductive Sign where
  | absent
  | plus
  | minus
deriving DecidableEq

namespace Sign

/-- The characters of a sign. -/
def text : Sign → Text
  | absent => []
  | plus => ['+']
  | minus => ['-']

def isNegative : Sign → Bool
  | minus => true
  | _ => false

/-- A number with a sign in front. -/
def apply (sign : Sign) (n : Nat) : Int :=
  if sign.isNegative then -(n : Int) else n

theorem of_mem_text {sign : Sign} {c : Char} (h : c ∈ sign.text) : c = '+' ∨ c = '-' := by
  cases sign with
  | absent => exact nomatch h
  | plus => exact .inl (List.mem_singleton.1 h)
  | minus => exact .inr (List.mem_singleton.1 h)

theorem isBlank_of_mem_text {sign : Sign} {c : Char} (h : c ∈ sign.text) : isBlank c = false := by
  rcases of_mem_text h with rfl | rfl <;> rfl

theorem isDigit_of_mem_text {sign : Sign} {c : Char} (h : c ∈ sign.text) : isDigit c = false := by
  rcases of_mem_text h with rfl | rfl <;> rfl

end Sign

/-- A sign is taken from the front of a text that does not begin with another one. -/
theorem takeSign_append (sign : Sign) {s : Text} (hs : ∀ c ∈ s.head?, c ≠ '-' ∧ c ≠ '+') :
    takeSign (sign.text ++ s) = (sign.isNegative, s) := by
  cases sign with
  | plus => rfl
  | minus => rfl
  | absent =>
    cases s with
    | nil => rfl
    | cons c s =>
      obtain ⟨hminus, hplus⟩ := hs c rfl
      simp [Sign.text, Sign.isNegative, takeSign, hminus, hplus]

/-- What is taken from the front of a text is a sign. -/
theorem exists_sign (s : Text) :
    ∃ sign : Sign, s = sign.text ++ (takeSign s).2 ∧ sign.isNegative = (takeSign s).1 := by
  unfold takeSign
  split
  · exact ⟨.minus, rfl, rfl⟩
  · exact ⟨.plus, rfl, rfl⟩
  · exact ⟨.absent, rfl, rfl⟩

theorem ne_sign_of_isDigit {c : Char} (h : isDigit c) : c ≠ '-' ∧ c ≠ '+' := by
  constructor <;>
    · rintro rfl
      exact absurd h (by decide)

/-- A sign with digits has no blanks. -/
theorem isBlank_of_mem_signed {sign : Sign} {digits : Text} (hdigits : ∀ c ∈ digits, isDigit c) {c : Char}
    (hc : c ∈ sign.text ++ digits) : isBlank c = false := by
  rcases List.mem_append.1 hc with hc | hc
  · exact Sign.isBlank_of_mem_text hc
  · exact isBlank_of_isDigit (hdigits c hc)

/-- The digits between blanks are all digits of a text. -/
theorem countP_isDigit {s digits : Text} {sign : Sign} (hs : IsBetweenBlanks (sign.text ++ digits) s)
    (hdigits : ∀ c ∈ digits, isDigit c) : s.countP isDigit = digits.length := by
  obtain ⟨u, w, hu, hw, rfl⟩ := hs
  have hnone : ∀ t : Text, (∀ c ∈ t, isDigit c = false) → t.countP isDigit = 0 := fun t ht =>
    List.countP_eq_zero.2 fun c hc => Bool.eq_false_iff.1 (ht c hc)
  have hfront : u.countP isDigit = 0 := hnone u fun c hc => isDigit_of_isBlank (hu c hc)
  have hbehind : w.countP isDigit = 0 := hnone w fun c hc => isDigit_of_isBlank (hw c hc)
  have hsign : sign.text.countP isDigit = 0 := hnone _ fun c hc => Sign.isDigit_of_mem_text hc
  rw [List.countP_append, List.countP_append, List.countP_append, hfront, hbehind, hsign,
    List.countP_eq_length.2 hdigits]
  omega

/-! ### Integers -/

/-- A sign and digits between blanks are read as the number that they stand for, unless there are too many of them
or the number does not have 64 bits. -/
theorem parseInt_signed {s digits : Text} {sign : Sign} (hs : IsBetweenBlanks (sign.text ++ digits) s)
    (hne : digits ≠ []) (hdigits : ∀ c ∈ digits, isDigit c) :
    parseInt s =
      if digits.length ≤ Numeral.digitLimit ∧ int64Min ≤ sign.apply (Numeral.value digits) ∧
          sign.apply (Numeral.value digits) ≤ int64Max then
        some (sign.apply (Numeral.value digits))
      else none := by
  have htrim : trim s = sign.text ++ digits := hs.trim_eq fun c => isBlank_of_mem_signed hdigits
  have hsign : takeSign (sign.text ++ digits) = (sign.isNegative, digits) :=
    takeSign_append sign fun c hc => ne_sign_of_isDigit (hdigits c (List.mem_of_head? hc))
  have hclass : consistsOf isDigit digits := consistsOf_iff.2 ⟨hne, hdigits⟩
  rw [parseInt, htrim, hsign]
  by_cases hlength : digits.length ≤ Numeral.digitLimit
  · simp only [hclass, if_true, Numeral.read, hlength, true_and]
    rfl
  · simp only [hclass, if_true, Numeral.read, hlength, false_and, if_false]

end Primitives
