import Primitives.Proofs.Format.PlaceholderTexts
import Primitives.Proofs.Number.BaseNumerals

/-!
# Integers in fields

A placeholder for integers shows a sign, the mark of its base and at least as many digits as its precision asks
for. A narrow text is filled up to the width: behind it with the flag `-`, otherwise with zeros in front of the
digits with the flag `0`, otherwise in front. Whatever flags are given, the integer can be read back.

## Main definitions

* `PlaceholderText.intCore`: the sign, the mark and the digits of an integer.
* `PlaceholderText.intField`: this text filled up to the width.
* `PlaceholderText.AdmitsInt`: the limits within which an integer is shown.

## Main results

* `PlaceholderText.formatted_int`: formatting gives the field.
* `PlaceholderText.length_intField`: the length of a field.
* `PlaceholderText.readSigned?_intField`, `PlaceholderText.parseInt_intField`: reading a field.
-/

namespace Primitives

open Text

namespace PlaceholderText

variable (f : PlaceholderText) (n : Int)

/-! ### Fields -/

/-- The base that the conversion shows integers in. -/
def base : Nat :=
  if f.conversion = 'x' ∨ f.conversion = 'X' then 16 else if f.conversion = 'o' then 8 else 10

/-- The sign of an integer. -/
def intSign : Text :=
  if n < 0 then ['-'] else if '+' ∈ f.flags then ['+'] else if ' ' ∈ f.flags then [' '] else []

/-- The mark in front of the digits. -/
def intMark : Text :=
  if '#' ∈ f.flags then ['0', f.conversion] else []

/-- How the conversion writes a digit. -/
def digitLetter : Char → Char :=
  if f.conversion = 'X' then upperChar else id

/-- The digits of the magnitude, at least as many as the precision asks for. -/
def intDigits : Text :=
  Numeral.padded f.digitLetter f.base (f.leastDigits - (Numeral.ofNat f.base n.natAbs).length) n.natAbs

/-- The sign, the mark and the digits of an integer. -/
def intCore : Text :=
  f.intSign n ++ f.intMark ++ f.intDigits n

/-- The text of an integer, filled up to the width. -/
def intField : Text :=
  let gap := f.leastWidth - (f.intCore n).length
  if '-' ∈ f.flags then f.intCore n ++ List.replicate gap ' '
  else if '0' ∈ f.flags then f.intSign n ++ f.intMark ++ List.replicate gap '0' ++ f.intDigits n
  else List.replicate gap ' ' ++ f.intCore n

/-- An integer has a text if the written numbers are within the limits of the host, and its own digits are if
they are decimal. -/
structure AdmitsInt : Prop where
  readable : f.Readable
  width : f.leastWidth < Directive.widthLimit
  precision : f.leastDigits ≤ Directive.precisionLimit - 4
  digits : f.base = 10 → n.natAbs < 10 ^ Numeral.digitLimit

/-- A field is as wide as asked for, or as long as its contents. -/
theorem length_intField : (f.intField n).length = max f.leastWidth (f.intCore n).length := by
  unfold intField
  split
  · rw [List.length_append, List.length_replicate]
    omega
  · split
    · have hcore : (f.intCore n).length =
          (f.intSign n).length + f.intMark.length + (f.intDigits n).length := by
        simp [intCore, Nat.add_assoc]
      simp only [List.length_append, List.length_replicate]
      omega
    · rw [List.length_append, List.length_replicate]
      omega

/-! ### Formatting -/

variable {f n}

/-! The directive of the placeholder has the digits that are asked for, and the base of the conversion. -/

theorem precision_directive : (f.placeholder.directive f.conversion).precision.getD 0 = f.leastDigits := by
  unfold Placeholder.directive placeholder leastDigits
  cases f.precision <;> simp [Numeral.value]

theorem base_directive : (f.placeholder.directive f.conversion).base = f.base := by
  simp [Directive.base, Placeholder.directive, base]

theorem fits_placeholder (h : f.AdmitsInt n) : f.placeholder.Fits := by
  refine ⟨(forall_width_lt_iff (Nat.two_pow_pos _)).2 h.width, forall_precision_lt_iff.2 fun digits hdigits => ?_⟩
  have hprecision := h.precision
  rw [leastDigits, hdigits, Option.getD_some, Directive.precisionLimit] at hprecision
  rw [Directive.precisionLimit]
  omega

/-- The digits of an admitted integer are those of its base. -/
theorem intDigits_directive (h : f.AdmitsInt n) :
    (f.placeholder.directive f.conversion).intDigits n.natAbs = .ok (Numeral.ofNat f.base n.natAbs) := by
  rw [Directive.intDigits, base_directive]
  split
  · next hbase => rw [hbase, Numeral.decimal_natCast (h.digits hbase)]
  · rfl

/-- A sign, a mark and digits are filled up to the width. -/
theorem fillNumber_directive :
    (f.placeholder.directive f.conversion).fillNumber (n < 0) f.intMark (f.intDigits n) = f.intField n := by
  have hflags : (f.placeholder.directive f.conversion).flags = .ofText f.flags := rfl
  have hsign : (if decide (n < 0) then ['-'] else
      if (Flags.ofText f.flags).plus then ['+'] else if (Flags.ofText f.flags).blank then [' '] else []) =
      f.intSign n := by
    simp [Flags.ofText, intSign]
  simp only [Directive.fillNumber, Directive.fill, hflags, hsign, width_directive, intField, intCore]
  by_cases hleft : '-' ∈ f.flags <;> by_cases hzeros : '0' ∈ f.flags <;>
    simp [Flags.ofText, hleft, hzeros, Nat.add_assoc]

variable (hf : f.conversion ∈ Placeholder.integerConversions)

include hf

/-- The alternate form is one of hexadecimal numbers. -/
theorem base_of_alternate (h : '#' ∈ f.flags) : f.base = 16 := by
  have halternate := f.mem_alternateConversions h
  have hletters : Placeholder.integerConversions.all fun c =>
      !Template.alternateConversions.contains c || (c == 'x' || c == 'X') := by decide
  have hletter := List.all_eq_true.1 hletters _ hf
  simp only [List.contains_iff_mem.2 halternate, Bool.not_true, Bool.false_or, Bool.or_eq_true,
    beq_iff_eq] at hletter
  rw [base, if_pos hletter]

theorem baseMark_directive : (f.placeholder.directive f.conversion).baseMark = f.intMark := by
  have hflag : (f.placeholder.directive f.conversion).flags.alternate = f.flags.contains '#' := rfl
  rw [Directive.baseMark, intMark, hflag, base_directive]
  by_cases h : '#' ∈ f.flags
  · have hbase := base_of_alternate hf h
    rw [if_pos h, if_pos (by simp [h, hbase])]
    rfl
  · rw [if_neg h, if_neg (by simp [h])]

/-- The directive of an integer placeholder lays out the field. -/
theorem layoutInt_directive (h : f.AdmitsInt n) :
    (f.placeholder.directive f.conversion).layoutInt n = .ok (f.intField n) := by
  have hdigits : (if (f.placeholder.directive f.conversion).conversion == 'X' then
      upper (Numeral.ofNat f.base n.natAbs) else Numeral.ofNat f.base n.natAbs) =
      (Numeral.ofNat f.base n.natAbs).map f.digitLetter := by
    simp only [digitLetter, Placeholder.directive, upper, beq_iff_eq]
    split <;> simp
  rw [Directive.layoutInt, precision_directive, if_neg (Nat.not_lt.2 h.precision), intDigits_directive h,
    baseMark_directive hf]
  simp only [hdigits]
  rw [List.length_map, ← Numeral.padded, ← intDigits, fillNumber_directive]

/-- The text of an integer placeholder formats an integer as its field. -/
theorem formatted_int (h : f.AdmitsInt n) : Template.formatted f.source [.int n] = .ok (f.intField n) := by
  refine (formatted_source_iff h.readable).2 ⟨Placeholder.takes_int rfl hf n, ?_⟩
  rw [Placeholder.render_int rfl hf (wellFormed_placeholder h.readable) (fits_placeholder h),
    layoutInt_directive hf h]
  rfl

omit hf

/-! ### Reading -/

/-- The sign that stands in a field if its spaces are not counted. -/
def shownSign (f : PlaceholderText) (n : Int) : Sign :=
  if n < 0 then .minus else if '+' ∈ f.flags then .plus else .absent

theorem apply_shownSign : (f.shownSign n).apply n.natAbs = n := by
  unfold shownSign
  split
  · simp only [Sign.apply, Sign.isNegative, if_true]
    omega
  · split <;>
      · simp only [Sign.apply, Sign.isNegative, Bool.false_eq_true, if_false]
        omega

/-- A sign is shown behind at most one space. -/
theorem exists_intSign_eq : ∃ spaces, f.intSign n = List.replicate spaces ' ' ++ (f.shownSign n).text := by
  unfold intSign shownSign
  split
  · exact ⟨0, rfl⟩
  · split
    · exact ⟨0, rfl⟩
    · split
      · exact ⟨1, rfl⟩
      · exact ⟨0, rfl⟩

/-- A field is a sign, the mark and digits of the magnitude behind zeros, with spaces around. -/
theorem exists_intField_eq (f : PlaceholderText) (n : Int) : ∃ front behind zeros,
    f.intField n = List.replicate front ' ' ++
      ((f.shownSign n).text ++ (f.intMark ++ Numeral.padded f.digitLetter f.base zeros n.natAbs)) ++
        List.replicate behind ' ' := by
  obtain ⟨spaces, hsign⟩ := exists_intSign_eq (f := f) (n := n)
  unfold intField
  generalize f.leastWidth - (f.intCore n).length = gap
  rw [intCore, hsign, intDigits]
  generalize f.leastDigits - (Numeral.ofNat f.base n.natAbs).length = zeros
  split
  · exact ⟨spaces, gap, zeros, by simp only [List.append_assoc]⟩
  · split
    · refine ⟨spaces, 0, gap + zeros, ?_⟩
      rw [← Numeral.replicate_append_padded]
      simp only [List.append_assoc, List.replicate_zero, List.append_nil]
    · refine ⟨gap + spaces, 0, zeros, ?_⟩
      rw [← List.replicate_append_replicate]
      simp only [List.append_assoc, List.replicate_zero, List.append_nil]

theorem keepsDigits_digitLetter : Numeral.KeepsDigits f.digitLetter := by
  unfold digitLetter
  split
  · exact Numeral.keepsDigits_upperChar
  · exact Numeral.keepsDigits_id

theorem base_bounds : 1 < f.base ∧ f.base ≤ 16 := by
  unfold base
  split
  · decide
  · split <;> decide

include hf

/-- A mark consists of a zero and a letter. -/
theorem ne_of_mem_intMark {c : Char} (h : c ∈ f.intMark) : c ≠ '-' ∧ c ≠ '+' ∧ c ≠ ' ' := by
  have hall : Placeholder.integerConversions.all fun c => c != '-' && c != '+' && c != ' ' := by decide
  unfold intMark at h
  split at h
  · rcases List.mem_cons.1 h with rfl | h
    · decide
    · rw [List.mem_singleton.1 h]
      simpa [and_assoc] using List.all_eq_true.1 hall _ hf
  · exact nomatch h

/-- A field is read back if its spaces are not counted. -/
theorem readSigned?_intField (n : Int) : Numeral.readSigned? f.base f.intMark (f.intField n) = some n := by
  obtain ⟨front, behind, zeros, hfield⟩ := exists_intField_eq f n
  obtain ⟨hbase, hle⟩ := f.base_bounds
  have hspaces : ∀ count, (List.replicate count ' ').filter (· != ' ') = [] := by simp
  have hinner : ((f.shownSign n).text ++ (f.intMark ++ Numeral.padded f.digitLetter f.base zeros n.natAbs)).filter
      (· != ' ') = (f.shownSign n).text ++ (f.intMark ++ Numeral.padded f.digitLetter f.base zeros n.natAbs) := by
    refine List.filter_eq_self.2 fun c hc => ?_
    rw [bne_iff_ne]
    rcases List.mem_append.1 hc with hc | hc
    · rcases Sign.of_mem_text hc with rfl | rfl <;> decide
    · rcases List.mem_append.1 hc with hc | hc
      · exact (ne_of_mem_intMark hf hc).2.2
      · have hdigit := Numeral.baseDigitValue_lt_of_mem_padded keepsDigits_digitLetter hbase hle hc
        exact (Numeral.ne_of_baseDigitValue_lt (hdigit.trans_le hle)).2.2
  rw [Numeral.readSigned?_eq keepsDigits_digitLetter hbase hle
    (fun c hc => ⟨(ne_of_mem_intMark hf hc).1, (ne_of_mem_intMark hf hc).2.1⟩)
    (by rw [hfield, List.filter_append, List.filter_append, hspaces, hspaces, hinner, List.nil_append,
      List.append_nil]), apply_shownSign]

omit hf

/-- A decimal field is a sign and digits of the magnitude between blanks. -/
theorem exists_digits_of_decimal (hdecimal : f.conversion = 'd' ∨ f.conversion = 'i') (n : Int) : ∃ digits : Text,
    IsBetweenBlanks ((f.shownSign n).text ++ digits) (f.intField n) ∧ digits ≠ [] ∧ (∀ c ∈ digits, isDigit c) ∧
      Numeral.value digits = n.natAbs := by
  obtain ⟨front, behind, zeros, hfield⟩ := exists_intField_eq f n
  have hmark : f.intMark = [] := by
    unfold intMark
    split
    · next halternate =>
      have hletter := f.mem_alternateConversions halternate
      rcases hdecimal with h | h <;> rw [h] at hletter <;> exact absurd hletter (by decide)
    · rfl
  have hdigits : Numeral.padded f.digitLetter f.base zeros n.natAbs =
      List.replicate zeros '0' ++ Numeral.ofNat 10 n.natAbs := by
    rcases hdecimal with h | h <;> simp [Numeral.padded, digitLetter, base, h]
  have hblank : ∀ count, ∀ c ∈ List.replicate count ' ', isBlank c := fun count c hc => by
    rw [List.eq_of_mem_replicate hc]
    decide
  rw [hmark, List.nil_append, hdigits] at hfield
  refine ⟨_, ⟨_, _, hblank front, hblank behind, hfield⟩, by simp [Numeral.ofNat_ne_nil], fun c hc => ?_, ?_⟩
  · rcases List.mem_append.1 hc with hc | hc
    · rw [List.eq_of_mem_replicate hc]
      decide
    · exact Numeral.isDigit_of_mem_ofNat hc
  · rw [Numeral.value_zeros_append, Numeral.value_ofNat]

/-- A decimal field is parsed as its integer, if this has 64 bits and not too many digits are shown. -/
theorem parseInt_intField (hdecimal : f.conversion = 'd' ∨ f.conversion = 'i') (hmin : int64Min ≤ n)
    (hmax : n ≤ int64Max) (hshown : (f.intField n).countP isDigit ≤ Numeral.digitLimit) :
    parseInt (f.intField n) = some n := by
  obtain ⟨digits, hfield, hne, hclass, hvalue⟩ := exists_digits_of_decimal hdecimal n
  have hlength : digits.length ≤ Numeral.digitLimit := by
    rwa [countP_isDigit hfield hclass] at hshown
  rw [parseInt_signed hfield hne hclass, hvalue, apply_shownSign, if_pos ⟨hlength, hmin, hmax⟩]

end PlaceholderText

namespace Action

/-- Formatting an integer with one placeholder gives its field, in every session: the sign, the mark and the
digits, filled up to the width as the flags tell. The field is as long as the width or as these contents, gives
the integer back when it is read without its spaces, and is parsed as the integer if it is decimal and both have
a size that is parsed. -/
theorem formatText_integer_field {session : Session} (h : session.templates.Sound) (f : PlaceholderText)
    (hf : f.conversion ∈ Placeholder.integerConversions) (n : Int) (hn : f.AdmitsInt n) :
    ((formatText f.source [.int n]).runOn session).1 = .ok (f.intField n) ∧
      (f.intField n).length = max f.leastWidth (f.intCore n).length ∧
      Numeral.readSigned? f.base f.intMark (f.intField n) = some n ∧
      ((f.conversion = 'd' ∨ f.conversion = 'i') → int64Min ≤ n → n ≤ int64Max →
        (f.intField n).countP isDigit ≤ Numeral.digitLimit → parseInt (f.intField n) = some n) :=
  ⟨(formatText_ok_iff h).2 (f.formatted_int hf hn), f.length_intField n, f.readSigned?_intField hf n,
    f.parseInt_intField⟩

/-- The flag for the left side wins over the one for zeros, and a precision may have zeros in front. -/
theorem formatText_integer_field_left :
    ((formatText "%0-+9.004d".toList [.int 42]).runOn (.fresh ⟨.empty, .root⟩)).1 = .ok "+0042    ".toList ∧
      parseInt "+0042    ".toList = some 42 := by
  let f : PlaceholderText := {
    flags := "0-+".toList
    width := "9".toList
    precision := some "004".toList
    conversion := 'd'
    isFlag_of_mem := List.all_eq_true.1 rfl
    isDigit_of_mem_width := List.all_eq_true.1 rfl
    head?_width := by decide
    isDigit_of_mem_precision := by
      rintro digits ⟨⟩
      exact List.all_eq_true.1 rfl
    mem_conversions := by decide
    mem_alternateConversions := by decide }
  have hsource : f.source = "%0-+9.004d".toList := rfl
  have hfield : f.intField 42 = "+0042    ".toList := by
    simp only [f]
    decide +kernel
  have hadmits : f.AdmitsInt 42 :=
    ⟨⟨by decide, by decide⟩, by decide, by decide, fun _ => by decide +kernel⟩
  have hsound : (Session.fresh ⟨.empty, .root⟩).templates.Sound := TemplateCache.Sound.empty
  obtain ⟨hformat, -, -, hparse⟩ := formatText_integer_field hsound f (by decide) 42 hadmits
  rw [hsource, hfield] at hformat
  rw [hfield] at hparse
  exact ⟨hformat, hparse (.inl rfl) (by decide) (by decide) (by decide)⟩

end Action

end Primitives
