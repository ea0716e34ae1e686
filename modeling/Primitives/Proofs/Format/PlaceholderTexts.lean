import Primitives.Proofs.Format.Printing
import Primitives.Proofs.Session.Formatting

/-!
# Texts of one placeholder

A template that is one placeholder is a percent sign, flags, the digits of a width, a point with the digits of
a precision, and a conversion. It is parsed as the placeholder with these flags and with the numbers that the
digits stand for, and so it formats an argument as this placeholder renders it.

## Main definitions

* `PlaceholderText`: the parts of such a template, as they are written.
* `PlaceholderText.source`, `PlaceholderText.placeholder`: the template and its placeholder.

## Main results

* `PlaceholderText.parse_source`: the template is parsed as its placeholder.
* `PlaceholderText.formatted_source_iff`: the arguments that it formats, and their texts.
* `Placeholder.render_int`: an integer is laid out by the directive of its placeholder.
-/

namespace Primitives

open Text Template

/-- The parts of a template that is one placeholder. The width does not begin with a zero, which would be a
flag. -/
structure PlaceholderText where
  flags : Text
  width : Text
  precision : Option Text
  conversion : Char
  isFlag_of_mem : ∀ c ∈ flags, isFlag c
  isDigit_of_mem_width : ∀ c ∈ width, isDigit c
  head?_width : width.head? ≠ some '0'
  isDigit_of_mem_precision : ∀ digits ∈ precision, ∀ c ∈ digits, isDigit c
  mem_conversions : conversion ∈ Template.conversions
  mem_alternateConversions : '#' ∈ flags → conversion ∈ Template.alternateConversions

namespace PlaceholderText

variable (f : PlaceholderText)

/-- The template text. -/
def source : Text :=
  '%' :: (f.flags ++ (f.width ++ (precisionText f.precision ++ [f.conversion])))

/-- The placeholder that the template text stands for. -/
def placeholder : Placeholder where
  conversion := [f.conversion]
  flags := f.flags
  width := if f.width = [] then none else some (Numeral.value f.width : Int)
  precision := f.precision.map fun digits => (Numeral.value digits : Int)
  offset := 0

/-- The least number of characters, zero without a width. -/
def leastWidth : Nat :=
  Numeral.value f.width

/-- The least number of digits, zero without a precision. -/
def leastDigits : Nat :=
  Numeral.value (f.precision.getD [])

/-- The numbers have no more digits than a numeral may have. -/
structure Readable : Prop where
  width : f.width.length ≤ Numeral.digitLimit
  precision : ∀ digits ∈ f.precision, digits.length ≤ Numeral.digitLimit

variable {f}

/-! ### Parsing -/

/-- Digits within the limit are read as the number they stand for. -/
theorem readNumber?_of_length_le {digits : Text} (h : digits.length ≤ Numeral.digitLimit) :
    readNumber? digits = .ok (if digits = [] then none else some (Numeral.value digits : Int)) := by
  cases digits with
  | nil => rfl
  | cons c digits => rw [readNumber?, if_neg (by simp), Numeral.read, if_pos h, if_neg (by simp)]

theorem readPrecision?_precision (h : f.Readable) :
    readPrecision? f.precision = .ok f.placeholder.precision := by
  cases hprecision : f.precision with
  | none => simp [readPrecision?, placeholder, hprecision]
  | some digits =>
    rw [readPrecision?, readNumber?_of_length_le (h.precision digits hprecision)]
    cases digits <;> simp [placeholder, hprecision, Numeral.value]

/-- The text of one placeholder is parsed as this placeholder. -/
theorem parse_source (h : f.Readable) : parse f.source = .ok ⟨f.source, [.placeholder f.placeholder]⟩ := by
  have hparts : Parts.ofText (f.flags ++ (f.width ++ (precisionText f.precision ++ [f.conversion]))) =
      ⟨f.flags, f.width, f.precision, [f.conversion]⟩ :=
    Parts.ofText_append f.isFlag_of_mem f.isDigit_of_mem_width f.head?_width f.isDigit_of_mem_precision
      f.mem_conversions
  have hpercent : (f.flags ++ (f.width ++ (precisionText f.precision ++ [f.conversion]))).head? ≠ some '%' :=
    fun hhead => percent_notMem_parts f.isFlag_of_mem f.isDigit_of_mem_width f.isDigit_of_mem_precision
      f.mem_conversions (List.mem_of_head? hhead)
  have hmake : makePlaceholder ⟨f.flags, f.width, f.precision, [f.conversion]⟩ f.conversion 0 =
      .ok f.placeholder :=
    makePlaceholder_ok_iff.2 ⟨f.mem_conversions, f.mem_alternateConversions, _, _,
      readNumber?_of_length_le h.width, readPrecision?_precision h, rfl⟩
  rw [parse, source, parseFrom_percent hpercent 0 (by rw [hparts]), hparts, hmake]
  simp [parseFrom_nil]

theorem wellFormed_placeholder (h : f.Readable) : f.placeholder.WellFormed :=
  wellFormed_of_mem (normal_of_parse (parse_source h)) List.mem_cons_self

/-! ### Rendering -/

/-- The text of one placeholder formats the arguments that the placeholder takes, as it renders them. -/
theorem formatted_source_iff (h : f.Readable) {v : Value} {s : Text} :
    formatted f.source [v] = .ok s ↔ Takes f.placeholder v ∧ f.placeholder.render v = .ok s := by
  have hcheck : check ⟨f.source, [.placeholder f.placeholder]⟩ [v] = .ok () ↔ Takes f.placeholder v := by
    rw [check_ok_iff]
    simp [arity, placeholders]
  have hsegments : renderSegments [.placeholder f.placeholder] [v] = .ok s ↔ f.placeholder.render v = .ok s := by
    rw [renderSegments]
    cases hrender : f.placeholder.render v <;> simp [hrender, renderSegments]
  rw [formatted_ok_iff, parse_source h, ← hcheck, ← hsegments]
  simp only [Except.ok.injEq, exists_eq_left', render_ok_iff]

/-! ### Directives

The directive of the placeholder has the numbers that are written. -/

theorem width_directive (c : Char) : (f.placeholder.directive c).width = f.leastWidth := by
  unfold Placeholder.directive placeholder leastWidth
  split
  · next hwidth => simp [hwidth, Numeral.value]
  · simp

theorem forall_width_lt_iff {bound : Nat} (hbound : 0 < bound) :
    (∀ w ∈ f.placeholder.width, w < bound) ↔ f.leastWidth < bound := by
  unfold leastWidth
  by_cases hnone : f.width = []
  · simp [placeholder, hnone, Numeral.value, hbound]
  · simp [placeholder, hnone]

theorem forall_precision_lt_iff {bound : Nat} :
    (∀ n ∈ f.placeholder.precision, n < bound) ↔ ∀ digits ∈ f.precision, Numeral.value digits < bound := by
  simp [placeholder]

end PlaceholderText

namespace Placeholder

section Integers

variable {p : Placeholder} {c : Char} (hc : p.conversion = [c]) (hmem : c ∈ integerConversions)

include hc hmem

/-- The conversions for integers are none of the others. -/
theorem forIntegers_of_mem : p.forIntegers ∧ p.forDoubles = false ∧ Directive.isConversion c := by
  have hall : integerConversions.all fun c => Text.includes integerConversions [c] &&
      !Text.includes doubleConversions [c] && Directive.isConversion c := by decide
  rw [forIntegers, forDoubles, hc]
  simpa [and_assoc] using List.all_eq_true.1 hall c hmem

theorem takes_int (n : Int) : Takes p (.int n) := by
  obtain ⟨hintegers, hdoubles, -⟩ := forIntegers_of_mem hc hmem
  simp [Takes, accepts, isTooLarge, hintegers, hdoubles]

/-- An integer is laid out by the directive of the placeholder. -/
theorem render_int (hp : p.WellFormed) (hfits : p.Fits) (n : Int) :
    p.render (.int n) = ((p.directive c).layoutInt n).mapError .directive := by
  obtain ⟨hintegers, hdoubles, hconversion⟩ := forIntegers_of_mem hc hmem
  obtain ⟨hs, hb, hcharacter⟩ := conversion_ne_of_numbers (.inr hintegers)
  have hlayout : layout ('%' :: specTail p) (.int n) = ((p.directive c).layoutInt n).mapError .directive := by
    rw [layout, List.drop_one, List.tail_cons, ofText_of_fits hp hc hconversion hfits]
    cases hresult : (p.directive c).layoutInt n <;> simp [hresult]
  rw [render, if_neg (by simp [hs, hb]), if_neg (by simp [hcharacter]), spec_eq hp, numeral_ok,
    Outcome.ok_bind, if_neg (by simp [hdoubles])]
  exact hlayout

end Integers

end Placeholder

end Primitives
