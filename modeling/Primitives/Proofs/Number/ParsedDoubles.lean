import Primitives.Proofs.Number.DecimalTexts
import Primitives.Proofs.Number.Nearest

/-!
# Parsed doubles

A text is parsed as a double exactly if, between blanks and behind a sign, it is a decimal literal in the range of
doubles or one of the words for infinity and for the value that is not a number, in any letter case. The exact value
of a literal decides whether it is in range, and its double is the nearest one, however long the literal is. Texts
with the letters that a word takes for a plain `i` are not considered here.

## Main definitions

* `Decimal.toRat`: the exact value of a decimal form.
* `Text.IsBetweenBlanks`: texts with blanks around them.

## Main results

* `decimalValue_cases`: literals in range and out of range.
* `DoubleLiteral.ofText?_append`: literals and words behind a sign.
* `parseDouble_nearest`: the texts that are parsed, and their values.
-/

namespace Primitives

open Text DoubleLiteral

/-! ### Values of decimal forms -/

/-- The exact value of a decimal form. -/
def Decimal.toRat (d : Decimal) : ℚ :=
  d.digits * 10 ^ d.exponent

namespace Decimal

variable (d : Decimal)

theorem ratio_div : (d.ratio.1 : ℚ) / d.ratio.2 = d.toRat := by
  have hsplit : d.exponent = d.exponent.toNat - (-d.exponent).toNat := by omega
  have hpower : (10 : ℚ) ^ d.exponent = 10 ^ d.exponent.toNat / 10 ^ (-d.exponent).toNat := by
    rw [← zpow_natCast, ← zpow_natCast, ← zpow_sub₀ (by norm_num), ← hsplit]
  rw [toRat, ratio, hpower]
  push_cast
  exact mul_div_assoc ..

theorem ratio_pos : 0 < d.ratio.2 :=
  Nat.pow_pos (by decide)

theorem toRat_nonneg : 0 ≤ d.toRat :=
  mul_nonneg (Nat.cast_nonneg _) (zpow_nonneg (by norm_num) _)

theorem toRat_pos_iff : 0 < d.toRat ↔ d.digits ≠ 0 := by
  have hpower : (0 : ℚ) < 10 ^ d.exponent := zpow_pos (by norm_num) _
  rw [toRat, mul_pos_iff_of_pos_right hpower, Nat.cast_pos, Nat.pos_iff_ne_zero]

end Decimal

/-- The values out of the range of doubles: those with a magnitude from the middle between the greatest double and
`2 ^ 1024` on, and those that are not zero and have a magnitude of at most half of the least positive double. -/
def OutOfRange (v : ℚ) : Prop :=
  2 ^ 1024 - 2 ^ 970 ≤ |v| ∨ 0 < |v| ∧ |v| ≤ 1 / 2 ^ 1075

theorem outOfRange_signed_iff (negative : Bool) {v : ℚ} (h : 0 ≤ v) :
    OutOfRange (signed negative v) ↔ 2 ^ 1024 - 2 ^ 970 ≤ v ∨ 0 < v ∧ v ≤ 1 / 2 ^ 1075 := by
  have habs : |signed negative v| = v := by
    cases negative <;> simp [signed, abs_of_nonneg h]
  rw [OutOfRange, habs]

namespace Double

/-- A zero of either sign is nearest to zero. -/
theorem isNearest_zero (negative : Bool) : (zero negative).IsNearest 0 := by
  intro negative' m'
  have hzero : (⟨0, ⟨0, 0, by decide, by decide⟩, unitLimit_pos⟩ : Magnitude).toRat negative = 0 := by
    simp [Magnitude.toRat, signed]
  rw [hzero, sub_self, abs_zero, sub_zero]
  exact ⟨abs_nonneg _, fun hne heq => absurd (abs_eq_zero.1 heq.symm) hne⟩

end Double

/-- The value of a decimal form, none out of range and otherwise the nearest double with the sign of the literal. -/
theorem decimalValue_cases (negative : Bool) (d : Decimal) :
    (OutOfRange (signed negative d.toRat) ∧ decimalValue negative d = none) ∨
      (¬ OutOfRange (signed negative d.toRat) ∧ ∃ m, decimalValue negative d = some (.finite negative m) ∧
        (Double.finite negative m).IsNearest (signed negative d.toRat)) := by
  rw [outOfRange_signed_iff negative d.toRat_nonneg, decimalValue]
  by_cases hdigits : d.digits = 0
  · have hvalue : d.toRat = 0 := by rw [Decimal.toRat, hdigits, Nat.cast_zero, zero_mul]
    have hsigned : signed negative 0 = 0 := by cases negative <;> simp [signed]
    have hlimit : (2 : ℚ) ^ 970 < 2 ^ 1024 := pow_lt_pow_right₀ one_lt_two (by decide)
    rw [hvalue, Double.ofDecimal_of_eq_zero negative hdigits, hsigned, hdigits]
    refine .inr ⟨?_, _, rfl, Double.isNearest_zero negative⟩
    rintro (hle | ⟨hpos, -⟩)
    · exact absurd hle (not_le.2 (sub_pos.2 hlimit))
    · exact absurd hpos (lt_irrefl 0)
  · have hpos := d.toRat_pos_iff.2 hdigits
    have hcases := Double.ofRatio_cases negative d.ratio_pos d.ratio.1
    rw [d.ratio_div, ← Double.ofDecimal_of_ne_zero negative hdigits] at hcases
    rcases hcases with ⟨hlarge, hread⟩ | ⟨hlimit, m, hread, hnearest, hzero⟩
    · exact .inl ⟨.inl hlarge, by rw [hread]; rfl⟩
    · by_cases hm : m.units = 0
      · exact .inl ⟨.inr ⟨hpos, hzero.1 hm⟩, by simp [hread, Double.isInfinite, Double.isZero, hm, hdigits]⟩
      · refine .inr ⟨?_, m, by simp [hread, Double.isInfinite, Double.isZero, hm], hnearest⟩
        rintro (hlarge | ⟨-, hsmall⟩)
        · exact absurd hlarge (not_le.2 hlimit)
        · exact hm (hzero.2 hsmall)

/-! ### Words -/

namespace DoubleLiteral

variable {body word : Text}

theorem map_plainLetter (h : body.any isVariantI = false) : body.map plainLetter = lower body := by
  refine List.map_congr_left fun c hc => ?_
  have hc : isVariantI c = false := by
    rw [List.any_eq_false] at h
    simpa using h c hc
  rw [plainLetter, hc, if_neg Bool.false_ne_true]

/-- Behind a sign stands one of the words, in any letter case, or a form. -/
theorem ofText?_append {sign : Sign} (hsign : takeSign (sign.text ++ body) = (sign.isNegative, body))
    (hplain : body.any isVariantI = false) :
    ofText? (sign.text ++ body) =
      if lower body ∈ infinityWords then some (.infinity sign.isNegative)
      else if lower body = "nan".toList then some .nan
      else (form? body).map (.decimal sign.isNegative) := by
  have hinfinity := spells_infinityWords_iff body
  have hnan : spells "nan" body ↔ body.map plainLetter = "nan".toList := spells_iff (by decide)
  rw [map_plainLetter hplain] at hinfinity hnan
  simp only [ofText?, hsign, hinfinity, hnan]
  split
  · next hword =>
    have hascii : infinityWords.all (·.all (·.toNat < 0x80)) := by decide
    have hexact := all_lt_iff (List.all_eq_true.1 hascii _ hword) (map_plainLetter hplain)
    rw [if_pos (hexact.2 (by rw [hplain]; exact Bool.false_ne_true))]
  · rfl

end DoubleLiteral

/-! ### Texts -/

section Texts

variable {s body : Text} {sign : Sign}

/-- The words of doubles. -/
def doubleWords : List Text :=
  infinityWords ++ ["nan".toList]

/-- What is written in small letters as a word has no character that is its own small letter and no letter of the
words. -/
theorem notMem_of_lower (h : lower body ∈ doubleWords) {c : Char} (hlower : lowerChar c = c)
    (hc : doubleWords.all (c ∉ ·)) : c ∉ body := by
  intro hmem
  have hword : c ∈ lower body := by
    rw [← hlower]
    exact List.mem_map_of_mem hmem
  simpa [hword] using List.all_eq_true.1 hc _ h

/-- A word behind a sign, between blanks, has its value. -/
theorem parseDouble_of_word (hword : lower body ∈ doubleWords) (hs : IsBetweenBlanks (sign.text ++ body) s) :
    parseDouble s = .ok (some (if lower body ∈ infinityWords then .infinite sign.isNegative else .nan)) := by
  have hblank : ∀ c ∈ sign.text ++ body, isBlank c = false := by
    intro c hc
    rcases List.mem_append.1 hc with hc | hc
    · exact Sign.isBlank_of_mem_text hc
    · refine Bool.eq_false_iff.2 fun hblank => ?_
      simp only [isBlank, Bool.or_eq_true, beq_iff_eq] at hblank
      rcases hblank with ((((rfl | rfl) | rfl) | rfl) | rfl) | rfl <;>
        exact notMem_of_lower hword rfl (by decide) hc
  have hsign : takeSign (sign.text ++ body) = (sign.isNegative, body) := by
    refine takeSign_append sign fun c hc => ?_
    have hc := List.mem_of_head? hc
    constructor <;>
      · rintro rfl
        exact notMem_of_lower hword rfl (by decide) hc
  have hplain : body.any isVariantI = false := by
    refine List.any_eq_false.2 fun c hc hvariant => ?_
    simp only [isVariantI, Bool.or_eq_true, beq_iff_eq] at hvariant
    rcases hvariant with rfl | rfl <;> exact notMem_of_lower hword rfl (by decide) hc
  rw [parseDouble, hs.trim_eq hblank, ofText?_append hsign hplain]
  by_cases hinfinity : lower body ∈ infinityWords
  · rw [if_pos hinfinity, if_pos hinfinity]
  · have hnan : lower body = "nan".toList :=
      List.mem_singleton.1 ((List.mem_append.1 hword).resolve_left hinfinity)
    rw [if_neg hinfinity, if_neg hinfinity, if_pos hnan]

/-- A text is a sign and what follows it, between blanks. -/
theorem exists_isBetweenBlanks (s : Text) : ∃ sign : Sign, IsBetweenBlanks (sign.text ++ unsignedText s) s ∧
    trim s = sign.text ++ unsignedText s ∧
      takeSign (sign.text ++ unsignedText s) = (sign.isNegative, unsignedText s) := by
  obtain ⟨sign, htext, hsign⟩ := exists_sign (trim s)
  have hbetween := isBetweenBlanks_trim s
  rw [← unsignedText] at htext
  rw [htext] at hbetween
  refine ⟨sign, hbetween, htext, ?_⟩
  rw [← htext, hsign, unsignedText]

theorem any_isVariantI_unsignedText (h : s.any isVariantI = false) : (unsignedText s).any isVariantI = false := by
  obtain ⟨sign, ⟨u, v, -, -, hs⟩, -⟩ := exists_isBetweenBlanks s
  refine List.any_eq_false.2 fun c hc => List.any_eq_false.1 h c ?_
  rw [hs]
  simp [hc]

/-- A text that is parsed with a value is a literal or a word behind a sign, between blanks. -/
theorem exists_of_parseDouble (hplain : s.any isVariantI = false) {x : Double}
    (hparse : parseDouble s = .ok (some x)) :
    ∃ (sign : Sign) (body : Text), IsBetweenBlanks (sign.text ++ body) s ∧
      ((∃ d, DecimalLiteralText body d) ∨ lower body ∈ doubleWords) := by
  obtain ⟨sign, hbetween, htext, hsign⟩ := exists_isBetweenBlanks s
  refine ⟨sign, unsignedText s, hbetween, ?_⟩
  rw [parseDouble, htext, ofText?_append hsign (any_isVariantI_unsignedText hplain)] at hparse
  by_cases hinfinity : lower (unsignedText s) ∈ infinityWords
  · exact .inr (List.mem_append_left _ hinfinity)
  by_cases hnan : lower (unsignedText s) = "nan".toList
  · exact .inr (List.mem_append_right _ (List.mem_singleton.2 hnan))
  rw [if_neg hinfinity, if_neg hnan] at hparse
  cases hform : form? (unsignedText s) with
  | none => simp [hform] at hparse
  | some d => exact .inl ⟨d, literal_of_form? hform⟩

end Texts

/-- Parsing is correctly rounded. A text without dotless and dotted variants of the letter `i` has a value only if
it is a decimal literal or a word behind a sign, between blanks. A literal has none exactly if its exact value is out
of range, and is otherwise parsed as the double nearest to it with the sign of the literal, also for a zero; a word
is parsed as the infinity with its sign, or as the value that is not a number. -/
theorem parseDouble_nearest {s : Text} (hdotted : 'İ' ∉ s) (hdotless : 'ı' ∉ s) :
    (∃ r, parseDouble s = .ok r ∧ ∀ x, r = some x →
      ∃ (sign : Sign) (body : Text), IsBetweenBlanks (sign.text ++ body) s ∧
        ((∃ d, DecimalLiteralText body d) ∨ lower body ∈ ["inf".toList, "infinity".toList, "nan".toList])) ∧
      ∀ (sign : Sign) (body : Text), IsBetweenBlanks (sign.text ++ body) s →
        (∀ d, DecimalLiteralText body d →
          (parseDouble s = .ok none ↔ OutOfRange (signed sign.isNegative d.toRat)) ∧
            ∀ x, parseDouble s = .ok (some x) →
              x.IsNearest (signed sign.isNegative d.toRat) ∧ x.isNegative = sign.isNegative) ∧
          (lower body ∈ ["inf".toList, "infinity".toList] →
            parseDouble s = .ok (some (.infinite sign.isNegative))) ∧
          (lower body = "nan".toList → parseDouble s = .ok (some .nan)) := by
  have hplain : s.any isVariantI = false := by
    refine List.any_eq_false.2 fun c hc hvariant => ?_
    simp only [isVariantI, Bool.or_eq_true, beq_iff_eq] at hvariant
    rcases hvariant with rfl | rfl
    · exact hdotless hc
    · exact hdotted hc
  constructor
  · obtain ⟨r, hparse⟩ : ∃ r, parseDouble s = .ok r := by
      refine (parseDouble_ok_iff s).2 fun hmisspelled => ?_
      rw [IsMisspelled, any_isVariantI_unsignedText hplain] at hmisspelled
      exact Bool.false_ne_true hmisspelled.2
    refine ⟨r, hparse, ?_⟩
    rintro x rfl
    exact exists_of_parseDouble hplain hparse
  · intro sign body hs
    refine ⟨fun d hd => ?_, fun hword => ?_, fun hword => ?_⟩
    · rw [hd.parseDouble_eq hs]
      rcases decimalValue_cases sign.isNegative d with ⟨hrange, hvalue⟩ | ⟨hrange, m, hvalue, hnearest⟩
      · rw [hvalue]
        exact ⟨iff_of_true rfl hrange, fun x hx => absurd hx (by simp)⟩
      · rw [hvalue]
        refine ⟨iff_of_false (by simp) hrange, fun x hx => ?_⟩
        obtain rfl : Double.finite sign.isNegative m = x := by simpa using hx
        exact ⟨hnearest, rfl⟩
    · have hword : lower body ∈ infinityWords := hword
      rw [parseDouble_of_word (List.mem_append_left _ hword) hs, if_pos hword]
    · rw [parseDouble_of_word (by simp [hword, doubleWords]) hs, if_neg]
      rw [hword]
      decide

/-- An integer in the middle between two doubles is parsed as the even one. -/
theorem parseDouble_nearest_middle :
    ∃ x, parseDouble "\t-9007199254740993.E0 ".toList = .ok (some x) ∧ x.IsNearest (-9007199254740993) ∧
      x.isNegative := by
  have hliteral : DecimalLiteralText "9007199254740993.E0".toList ⟨9007199254740993, 0⟩ :=
    literal_of_form? (by decide +kernel)
  have hvalue : parseDouble "\t-9007199254740993.E0 ".toList ≠ .ok none := by decide +kernel
  obtain ⟨⟨r, hparse, -⟩, hvalues⟩ :=
    parseDouble_nearest (s := "\t-9007199254740993.E0 ".toList) (by decide) (by decide)
  cases r with
  | none => exact absurd hparse hvalue
  | some x =>
    obtain ⟨hliterals, -⟩ := hvalues .minus "9007199254740993.E0".toList
      ⟨['\t'], [' '], List.all_eq_true.1 rfl, List.all_eq_true.1 rfl, rfl⟩
    obtain ⟨hnearest, hnegative⟩ := (hliterals _ hliteral).2 x hparse
    refine ⟨x, hparse, ?_, hnegative⟩
    simpa [signed, Sign.isNegative, Decimal.toRat] using hnearest

example : parseDouble "2.4703282292062327e-324" = .ok none ∧
    parseDouble "2.4703282292062328e-324" = .ok (some (.ofUnits false 1 1)) := by
  decide +kernel

end Primitives
