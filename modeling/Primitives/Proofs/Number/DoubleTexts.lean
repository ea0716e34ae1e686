import Primitives.Proofs.Number.DecimalTexts
import Primitives.Proofs.Number.Decimals

/-!
# Texts of doubles

The shortest text of a double is read as the same double. A positive magnitude is written as a decimal literal:
digits, a point with digits behind it, and an exponent, of which the last two may be missing. Reading a literal
finds the same parts again, and the layout of the digits, around a point or with an exponent, does not change
the value of the form that they stand for.

## Main definitions

* `DecimalLiteral`: the parts of a literal, with its text and its form.

## Main results

* `DecimalLiteral.literalText`: such a text is a decimal literal with this form.
* `Double.ofDecimal_layout`: layouts around a point keep the value.
* `Double.exists_literal`: the text of a positive magnitude is a literal with its value.
* `parseDouble_text`: reading the text of a double.
-/

namespace Primitives

open Text Numeral

/-! ### Literals -/

/-- The parts of a decimal literal without a sign. -/
structure DecimalLiteral where
  whole : Text
  fraction : Option Text
  exponent : Option Int

namespace DecimalLiteral

variable {l : DecimalLiteral}

/-- The digits of a literal are digits, and there are some in front of the point. -/
structure WellFormed (l : DecimalLiteral) : Prop where
  whole_ne_nil : l.whole ≠ []
  isDigit_whole : ∀ c ∈ l.whole, isDigit c
  isDigit_fraction : ∀ digits ∈ l.fraction, ∀ c ∈ digits, isDigit c

/-- The point of a literal and what stands behind it. -/
def fractionText (l : DecimalLiteral) : Text :=
  l.fraction.elim [] ('.' :: ·)

/-- The exponent of a literal with its mark. -/
def exponentPart (l : DecimalLiteral) : Text :=
  l.exponent.elim [] fun e => 'e' :: exponentText e

def text (l : DecimalLiteral) : Text :=
  l.whole ++ (l.fractionText ++ l.exponentPart)

/-- The form that a literal stands for. -/
def form (l : DecimalLiteral) : Decimal :=
  ⟨value (l.whole ++ l.fraction.getD []), l.exponent.getD 0 - (l.fraction.getD []).length⟩

/-! ### Reading -/

/-- The exponent of a literal behind its mark is one that is read. -/
theorem exponentText_marked (e : Int) : ExponentText ('e' :: exponentText e) e := by
  have hdigits : consistsOf isDigit (List.replicate (2 - (ofNat 10 e.natAbs).length) '0' ++ ofNat 10 e.natAbs) := by
    refine consistsOf_iff.2 ⟨by simp [ofNat_ne_nil], fun c hc => ?_⟩
    rcases List.mem_append.1 hc with hc | hc
    · rw [List.eq_of_mem_replicate hc]
      decide
    · exact isDigit_of_mem_ofNat hc
  obtain ⟨sign, htext, happly⟩ : ∃ sign : Sign, exponentText e = sign.text ++
      (List.replicate (2 - (ofNat 10 e.natAbs).length) '0' ++ ofNat 10 e.natAbs) ∧ sign.apply e.natAbs = e := by
    by_cases hneg : e < 0
    · refine ⟨.minus, by simp [exponentText, hneg, Sign.text], ?_⟩
      simp only [Sign.apply, Sign.isNegative, if_true]
      omega
    · refine ⟨.plus, by simp [exponentText, hneg, Sign.text], ?_⟩
      simp only [Sign.apply, Sign.isNegative, Bool.false_eq_true, if_false]
      omega
  have hmarked := ExponentText.marked (.inl rfl) sign hdigits
  rwa [value_zeros_append, value_ofNat, happly, ← htext] at hmarked

/-- The parts of a literal make up a decimal literal with its form. -/
theorem literalText (h : l.WellFormed) : DecimalLiteralText l.text l.form := by
  have hwhole : consistsOf isDigit l.whole := consistsOf_iff.2 ⟨h.whole_ne_nil, h.isDigit_whole⟩
  have hexponent : ExponentText l.exponentPart (l.exponent.getD 0) := by
    rw [exponentPart]
    cases l.exponent with
    | none => exact .none
    | some e => exact exponentText_marked e
  rw [text, ← List.append_assoc]
  refine .mk ?_ hexponent
  rw [fractionText]
  cases hfraction : l.fraction with
  | none =>
    rw [Option.elim_none, List.append_nil]
    exact .whole hwhole
  | some digits => exact .pointed hwhole (h.isDigit_fraction digits hfraction)

/-- The text of a literal with a sign in front if it is negative. -/
def signedText (negative : Bool) (l : DecimalLiteral) : Text :=
  if negative then '-' :: l.text else l.text

/-- A literal with a sign has the value of its form. -/
theorem parseDouble_signedText (h : l.WellFormed) (negative : Bool) :
    parseDouble (l.signedText negative) = .ok (decimalValue negative l.form) := by
  have hread (sign : Sign) : parseDouble (sign.text ++ l.text) = .ok (decimalValue sign.isNegative l.form) :=
    (literalText h).parseDouble_eq ⟨[], [], by simp, by simp, by simp⟩
  cases negative with
  | true => exact hread .minus
  | false => exact hread .absent

end DecimalLiteral

/-! ### Layout -/

/-- Digits are followed by the zeros at their end. -/
theorem exists_append_zeros (digits : Text) :
    ∃ zeros, digits = withoutTrailingZeros digits ++ List.replicate zeros '0' := by
  have hzeros : ∀ c ∈ digits.reverse.takeWhile (· == '0'), c = '0' := fun c hc => by
    simpa using List.mem_takeWhile_imp hc
  refine ⟨(digits.reverse.takeWhile (· == '0')).length, ?_⟩
  have hsplit := congrArg List.reverse (List.takeWhile_append_dropWhile (p := (· == '0')) (l := digits.reverse))
  rw [List.reverse_append, List.reverse_reverse, List.eq_replicate_of_mem hzeros, List.reverse_replicate] at hsplit
  rw [withoutTrailingZeros]
  simpa using hsplit.symm

namespace Double

/-- The significant digits of a form other than zero, with the exponent of the first one, have its value. -/
theorem significant_spec {d : Decimal} (h : d.digits ≠ 0) (negative : Bool) :
    (significant d).1 ≠ [] ∧ (∀ c ∈ (significant d).1, isDigit c) ∧
      ofDecimal negative ⟨value (significant d).1, (significant d).2 + 1 - (significant d).1.length⟩ =
        ofDecimal negative d := by
  obtain ⟨zeros, hzeros⟩ := exists_append_zeros (ofNat 10 d.digits)
  simp only [significant]
  generalize hdigits : withoutTrailingZeros (ofNat 10 d.digits) = digits at hzeros
  have hvalue : value digits * 10 ^ zeros = d.digits := by
    rw [← value_append_zeros, ← hzeros, value_ofNat]
  refine ⟨?_, ?_, ?_⟩
  · rintro rfl
    exact h (by simpa [value] using hvalue.symm)
  · intro c hc
    refine isDigit_of_mem_ofNat (n := d.digits) ?_
    rw [hzeros]
    exact List.mem_append_left _ hc
  · have hexponent : d.exponent + (ofNat 10 d.digits).length - 1 + 1 - digits.length = d.exponent + zeros := by
      rw [hzeros, List.length_append, List.length_replicate]
      push_cast
      omega
    rw [hexponent, ← ofDecimal_shift, hvalue]

/-- The parts of a layout around a point are digits, some of them in front of the point. -/
theorem isDigit_layout {digits : Text} (h : ∀ c ∈ digits, isDigit c) (hne : digits ≠ []) (exponent : Int) :
    (wholeAndFraction digits exponent).1 ≠ [] ∧ (∀ c ∈ (wholeAndFraction digits exponent).1, isDigit c) ∧
      ∀ c ∈ (wholeAndFraction digits exponent).2, isDigit c := by
  have hzeros (n : Nat) : ∀ c ∈ List.replicate n '0', isDigit c = true := fun c hc => by
    rw [List.eq_of_mem_replicate hc]
    decide
  unfold wholeAndFraction
  split
  · refine ⟨by simp, hzeros 1, fun c hc => ?_⟩
    rcases List.mem_append.1 hc with hc | hc
    · exact hzeros _ c hc
    · exact h c hc
  · refine ⟨by simp [hne], fun c hc => ?_, fun c hc => h c (List.mem_of_mem_drop hc)⟩
    rcases List.mem_append.1 hc with hc | hc
    · exact h c (List.mem_of_mem_take hc)
    · exact hzeros _ c hc

/-- A layout around a point keeps the value of the digits. -/
theorem ofDecimal_layout (negative : Bool) (digits : Text) (exponent : Int) :
    ofDecimal negative ⟨value ((wholeAndFraction digits exponent).1 ++ (wholeAndFraction digits exponent).2),
        -(wholeAndFraction digits exponent).2.length⟩ =
      ofDecimal negative ⟨value digits, exponent + 1 - digits.length⟩ := by
  unfold wholeAndFraction
  split
  · next hneg =>
    have hvalue : value (['0'] ++ (List.replicate (-exponent - 1).toNat '0' ++ digits)) = value digits := by
      rw [← List.append_assoc, value_append, show ['0'] = List.replicate 1 '0' from rfl,
        List.replicate_append_replicate, value_zeros, Nat.zero_mul, Nat.zero_add]
    dsimp only
    rw [hvalue]
    congr 2
    rw [List.length_append, List.length_replicate]
    omega
  · next hnonneg =>
    dsimp only
    by_cases hshort : digits.length ≤ exponent.toNat + 1
    · rw [List.take_of_length_le hshort, List.drop_of_length_le hshort, List.append_nil, value_append_zeros,
        ofDecimal_shift]
      congr 2
      simp only [List.length_nil]
      omega
    · have hgap : exponent.toNat + 1 - digits.length = 0 := by omega
      rw [hgap, List.replicate_zero, List.append_nil, List.take_append_drop]
      congr 2
      rw [List.length_drop]
      omega

/-- Digits with a point among them are a literal; a zero stands behind the point if nothing else does. -/
theorem exists_literal_of_point {whole fraction : Text} (hne : whole ≠ []) (hwhole : ∀ c ∈ whole, isDigit c)
    (hfraction : ∀ c ∈ fraction, isDigit c) : ∃ l : DecimalLiteral, l.WellFormed ∧
      whole ++ ['.'] ++ (if fraction.isEmpty then ['0'] else fraction) = l.text ∧
      ∀ negative, ofDecimal negative l.form = ofDecimal negative ⟨value (whole ++ fraction), -fraction.length⟩ := by
  cases fraction with
  | nil =>
    refine ⟨⟨whole, some ['0'], none⟩, ⟨hne, hwhole, ?_⟩, ?_, fun negative => ?_⟩
    · rintro _ ⟨⟩
      exact List.forall_mem_singleton.2 rfl
    · simp [DecimalLiteral.text, DecimalLiteral.fractionText, DecimalLiteral.exponentPart]
    · -- The digit behind the point is a zero, which moves to the exponent.
      have hshift := ofDecimal_shift negative (value whole) 1 (-1)
      rw [← value_append_zeros] at hshift
      simpa [DecimalLiteral.form] using hshift
  | cons c fraction =>
    refine ⟨⟨whole, some (c :: fraction), none⟩, ⟨hne, hwhole, ?_⟩, ?_, fun negative => ?_⟩
    · rintro _ ⟨⟩
      exact hfraction
    · simp [DecimalLiteral.text, DecimalLiteral.fractionText, DecimalLiteral.exponentPart]
    · simp [DecimalLiteral.form]

/-- Digits with a point behind the first one, unless it is the last, and an exponent are a literal. -/
theorem exists_literal_of_exponent {digits : Text} (hne : digits ≠ []) (hdigits : ∀ c ∈ digits, isDigit c)
    (exponent : Int) : ∃ l : DecimalLiteral, l.WellFormed ∧
      digits.take 1 ++ (if (digits.drop 1).isEmpty then [] else '.' :: digits.drop 1) ++ ['e'] ++
        exponentText exponent = l.text ∧
      l.form = ⟨value digits, exponent + 1 - digits.length⟩ := by
  obtain ⟨c, rest, rfl⟩ := List.exists_cons_of_ne_nil hne
  refine ⟨⟨[c], if rest.isEmpty then none else some rest, some exponent⟩, ⟨by simp, ?_, ?_⟩, ?_, ?_⟩
  · exact List.forall_mem_singleton.2 (hdigits c List.mem_cons_self)
  · intro fraction hfraction d hd
    refine hdigits d ?_
    split at hfraction
    · cases hfraction
    · obtain rfl : rest = fraction := Option.some.inj hfraction
      exact List.mem_cons_of_mem _ hd
  · cases rest <;> simp [DecimalLiteral.text, DecimalLiteral.fractionText, DecimalLiteral.exponentPart]
  · have hrest : (if rest.isEmpty then none else some rest).getD [] = rest := by cases rest <;> rfl
    simp only [DecimalLiteral.form, hrest, Option.getD_some, List.singleton_append, List.length_cons]
    congr 1
    push_cast
    omega

/-- The text of a positive magnitude is a literal with the value of its shortest form. -/
theorem exists_literal {units : Nat} (h : (shortest units).digits ≠ 0) : ∃ l : DecimalLiteral, l.WellFormed ∧
    magnitudeText units = l.text ∧
      ∀ negative, ofDecimal negative l.form = ofDecimal negative (shortest units) := by
  have hspec := significant_spec h
  unfold magnitudeText
  generalize significant (shortest units) = parts at hspec ⊢
  obtain ⟨digits, exponent⟩ := parts
  obtain ⟨hne, hdigits, -⟩ := hspec false
  have hvalue (negative : Bool) := (hspec negative).2.2
  dsimp only at hne hdigits hvalue ⊢
  split
  case isTrue =>
    obtain ⟨hwhole, hdigitsWhole, hdigitsFraction⟩ := isDigit_layout hdigits hne exponent
    obtain ⟨l, hl, htext, hform⟩ := exists_literal_of_point hwhole hdigitsWhole hdigitsFraction
    refine ⟨l, hl, htext, fun negative => ?_⟩
    rw [hform, ofDecimal_layout, hvalue]
  case isFalse =>
    obtain ⟨l, hl, htext, hform⟩ := exists_literal_of_exponent hne hdigits exponent
    refine ⟨l, hl, htext, fun negative => ?_⟩
    rw [hform, hvalue]

end Double

/-! ### Reading what was written -/

/-- The text of a finite double is the literal of a form that is read as this double, with its sign. -/
theorem Double.exists_literal_text (negative : Bool) (m : Magnitude) : ∃ l : DecimalLiteral, l.WellFormed ∧
    (finite negative m).text = l.signedText negative ∧ ofDecimal negative l.form = finite negative m ∧
      (l.form.digits = 0 ∨ m.units ≠ 0) := by
  by_cases hzero : m.units = 0
  · have hdigit : ∀ c ∈ ['0'], isDigit c := List.forall_mem_singleton.2 rfl
    refine ⟨⟨['0'], some ['0'], none⟩, ⟨by simp, hdigit, ?_⟩, ?_, ?_, .inl (by decide)⟩
    · rintro _ ⟨⟩
      exact hdigit
    · simp only [text, hzero, if_true]
      cases negative <;> rfl
    · obtain ⟨units, hunits⟩ := m
      obtain rfl : units = 0 := hzero
      exact ofDecimal_of_eq_zero negative (by decide)
  · have hreads := readsBack_shortest m.representable hzero
    have hdigits := digits_ne_zero_of_readsBack m.representable hzero hreads
    obtain ⟨l, hl, htext, hvalue⟩ := exists_literal hdigits
    refine ⟨l, hl, ?_, ?_, .inr hzero⟩
    · simp only [text, hzero, if_false, htext, DecimalLiteral.signedText]
    · rw [hvalue, ofDecimal_withSign, (readsBack_iff m.representable).1 hreads]
      rfl

/-- The text of a double is read as this double. -/
theorem parseDouble_text (x : Double) : parseDouble x.text = .ok (some x) := by
  cases x with
  | finite negative m =>
    obtain ⟨l, hl, htext, hread, hdigits⟩ := Double.exists_literal_text negative m
    have hkept : (Double.isZero (.finite negative m) && l.form.digits != 0) = false := by
      rcases hdigits with hdigits | hunits
      · simp [hdigits]
      · simp [Double.isZero, hunits]
    rw [htext, DecimalLiteral.parseDouble_signedText hl, decimalValue, hread]
    simp only [Double.isInfinite, Bool.false_or, hkept, Bool.false_eq_true, if_false]
  | infinite negative => cases negative <;> decide
  | nan => decide

end Primitives
