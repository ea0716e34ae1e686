import Primitives.Proofs.Number.IntegerTexts
import Primitives.Proofs.Number.Misspellings

/-!
# Decimal literals

A decimal literal without a sign is a mantissa and an exponent. The mantissa is a run of digits, with a point
behind it and further digits if there are any, or a point in front of digits; the exponent is missing, or a mark, a
sign and digits. Reading a text finds a decimal form exactly if the text is such a literal, and then it finds its
digits and its exponent.

## Main definitions

* `ExponentText`, `MantissaText`: the parts of a literal.
* `DecimalLiteralText`: literals with the form that they stand for.

## Main results

* `DoubleLiteral.exponent?_eq_some_iff`: exponents that are read.
* `DoubleLiteral.form?_of_literal`, `DoubleLiteral.literal_of_form?`: literals that are read.
-/

namespace Primitives

open Text Numeral

/-! ### Parts of literals -/

/-- The text of an exponent, and the exponent. -/
inductive ExponentText : Text → Int → Prop
  | none : ExponentText [] 0
  | marked {mark : Char} {digits : Text} (hmark : mark = 'e' ∨ mark = 'E') (sign : Sign)
      (hdigits : consistsOf isDigit digits) :
      ExponentText (mark :: (sign.text ++ digits)) (sign.apply (value digits))

/-- The text of a mantissa with the digits in front of its point and those behind it. -/
inductive MantissaText : Text → Text → Text → Prop
  | whole {whole : Text} (hwhole : consistsOf isDigit whole) : MantissaText whole whole []
  | pointed {whole fraction : Text} (hwhole : consistsOf isDigit whole) (hfraction : ∀ c ∈ fraction, isDigit c) :
      MantissaText (whole ++ '.' :: fraction) whole fraction
  | fraction {fraction : Text} (hfraction : consistsOf isDigit fraction) :
      MantissaText ('.' :: fraction) [] fraction

/-- A mantissa and an exponent, with the decimal form that they stand for. -/
inductive DecimalLiteralText : Text → Decimal → Prop
  | mk {mantissa whole fraction rest : Text} {e : Int} (hmantissa : MantissaText mantissa whole fraction)
      (hexponent : ExponentText rest e) :
      DecimalLiteralText (mantissa ++ rest) ⟨value (whole ++ fraction), e - fraction.length⟩

/-! ### Exponents -/

theorem lowerChar_eq_e_iff {c : Char} : lowerChar c = 'e' ↔ c = 'e' ∨ c = 'E' := by
  constructor
  · intro h
    unfold lowerChar at h
    split at h
    · next hupper =>
      have hbounds : 65 ≤ c.toNat ∧ c.toNat ≤ 90 := by
        simpa [isUpperLetter, Char.le_def, UInt32.le_iff_toNat_le] using hupper
      have hvalid : (c.toNat + 32).isValidChar := .inl (by omega)
      have hcode : c.toNat + 32 = 101 := by
        rw [Char.ofNat, dif_pos hvalid] at h
        exact congrArg Char.toNat h
      exact .inr (Char.toNat_inj.1 (show c.toNat = 'E'.toNat by rw [show 'E'.toNat = 69 from rfl]; omega))
    · exact .inl h
  · rintro (rfl | rfl) <;> rfl

namespace DoubleLiteral

theorem exponent?_cons (c : Char) (s : Text) :
    exponent? (c :: s) =
      if lowerChar c == 'e' && consistsOf isDigit (takeSign s).2 then
        some (if (takeSign s).1 then -(value (takeSign s).2 : Int) else value (takeSign s).2)
      else none :=
  rfl

/-- The exponents that are read. -/
theorem exponent?_eq_some_iff {s : Text} {e : Int} : exponent? s = some e ↔ ExponentText s e := by
  constructor
  · intro h
    cases s with
    | nil =>
      obtain rfl : 0 = e := Option.some.inj h
      exact .none
    | cons c s =>
      obtain ⟨sign, htext, hsign⟩ := exists_sign s
      rw [exponent?_cons, ← hsign] at h
      generalize (takeSign s).2 = digits at htext h
      subst htext
      split at h
      · next hread =>
        rw [Bool.and_eq_true, beq_iff_eq] at hread
        obtain rfl := Option.some.inj h
        exact .marked (lowerChar_eq_e_iff.1 hread.1) sign hread.2
      · exact nomatch h
  · rintro (_ | @⟨mark, digits, hmark, sign, hdigits⟩)
    · rfl
    · have hhead : ∀ c ∈ digits.head?, c ≠ '-' ∧ c ≠ '+' := fun c hc =>
        ne_sign_of_isDigit ((consistsOf_iff.1 hdigits).2 c (List.mem_of_head? hc))
      rw [exponent?_cons, takeSign_append sign hhead, lowerChar_eq_e_iff.2 hmark, hdigits]
      rfl

/-- An exponent does not go on with the digits in front of it or with a point. -/
theorem head?_exponentText {s : Text} {e : Int} (h : ExponentText s e) :
    ∀ c ∈ s.head?, isDigit c = false ∧ c ≠ '.' := by
  rintro c hc
  cases h with
  | none => exact nomatch hc
  | marked hmark =>
    obtain rfl := Option.some.inj hc
    rcases hmark with rfl | rfl <;> decide

/-! ### Forms -/

/-- The digits behind a point, none without a point, and what follows them. -/
def fractionPart : Text → Text × Text
  | '.' :: rest => (rest.takeWhile isDigit, rest.dropWhile isDigit)
  | rest => ([], rest)

theorem fractionPart_of_head_ne {s : Text} (h : ∀ c ∈ s.head?, c ≠ '.') : fractionPart s = ([], s) := by
  unfold fractionPart
  split
  · exact absurd rfl (h '.' rfl)
  · rfl

/-- A form is read from digits, of which there are some, and from the exponent behind them. -/
theorem form?_eq_some {s : Text} {d : Decimal} :
    form? s = some d ↔
      let whole := s.takeWhile isDigit
      let (fraction, rest) := fractionPart (s.dropWhile isDigit)
      (whole ≠ [] ∨ fraction ≠ []) ∧
        ∃ e, ExponentText rest e ∧ ⟨value (whole ++ fraction), e - fraction.length⟩ = d := by
  have hform : form? s =
      if (s.takeWhile isDigit).isEmpty && (fractionPart (s.dropWhile isDigit)).1.isEmpty then none
      else (exponent? (fractionPart (s.dropWhile isDigit)).2).map fun e =>
        ⟨value (s.takeWhile isDigit ++ (fractionPart (s.dropWhile isDigit)).1),
          e - (fractionPart (s.dropWhile isDigit)).1.length⟩ := rfl
  rw [hform]
  simp only [← exponent?_eq_some_iff]
  generalize fractionPart (s.dropWhile isDigit) = parts
  split
  · next hempty =>
    have hempty : s.takeWhile isDigit = [] ∧ parts.1 = [] := by simpa using hempty
    simp [hempty]
  · next hne =>
    have hne : s.takeWhile isDigit ≠ [] ∨ parts.1 ≠ [] := by simpa [imp_iff_not_or] using hne
    rw [Option.map_eq_some_iff]
    exact (and_iff_right hne).symm

/-- A point between digits is found. -/
theorem takeWhile_pointed {whole fraction rest : Text} (hwhole : ∀ c ∈ whole, isDigit c)
    (hfraction : ∀ c ∈ fraction, isDigit c) (hrest : ∀ c ∈ rest.head?, isDigit c = false) :
    (whole ++ '.' :: (fraction ++ rest)).takeWhile isDigit = whole ∧
      fractionPart ((whole ++ '.' :: (fraction ++ rest)).dropWhile isDigit) = (fraction, rest) := by
  obtain ⟨htake, hdrop⟩ := takeWhile_dropWhile_append (t := '.' :: (fraction ++ rest)) hwhole (by
    rintro c ⟨⟩
    decide)
  obtain ⟨htakeFraction, hdropFraction⟩ := takeWhile_dropWhile_append hfraction hrest
  rw [htake, hdrop, fractionPart, htakeFraction, hdropFraction]
  exact ⟨rfl, rfl⟩

/-- A literal is read as its form. -/
theorem form?_of_literal {s : Text} {d : Decimal} (h : DecimalLiteralText s d) : form? s = some d := by
  obtain @⟨mantissa, whole, fraction, rest, e, hmantissa, hexponent⟩ := h
  have hhead := head?_exponentText hexponent
  have hdigit : ∀ c ∈ rest.head?, isDigit c = false := fun c hc => (hhead c hc).1
  cases hmantissa with
  | whole hwhole =>
    obtain ⟨hne, hwhole⟩ := consistsOf_iff.1 hwhole
    obtain ⟨htake, hdrop⟩ := takeWhile_dropWhile_append hwhole hdigit
    rw [form?_eq_some, htake, hdrop, fractionPart_of_head_ne fun c hc => (hhead c hc).2]
    exact ⟨.inl hne, e, hexponent, rfl⟩
  | pointed hwhole hfraction =>
    obtain ⟨hne, hwhole⟩ := consistsOf_iff.1 hwhole
    obtain ⟨htake, hpart⟩ := takeWhile_pointed hwhole hfraction hdigit
    rw [List.append_assoc, List.cons_append, form?_eq_some, htake, hpart]
    exact ⟨.inl hne, e, hexponent, rfl⟩
  | fraction hfraction =>
    obtain ⟨hne, hfraction⟩ := consistsOf_iff.1 hfraction
    obtain ⟨htake, hpart⟩ := takeWhile_pointed (List.forall_mem_nil _) hfraction hdigit
    rw [List.nil_append] at htake hpart
    rw [List.cons_append, form?_eq_some, htake, hpart]
    exact ⟨.inr hne, e, hexponent, rfl⟩

/-- What is read as a form is a literal. -/
theorem literal_of_form? {s : Text} {d : Decimal} (h : form? s = some d) : DecimalLiteralText s d := by
  rw [form?_eq_some] at h
  have hwhole : ∀ c ∈ s.takeWhile isDigit, isDigit c := fun c hc => List.mem_takeWhile_imp hc
  have hs : s.takeWhile isDigit ++ s.dropWhile isDigit = s := List.takeWhile_append_dropWhile
  generalize s.takeWhile isDigit = whole at h hwhole hs
  generalize s.dropWhile isDigit = behind at h hs
  subst hs
  by_cases hpoint : behind.head? = some '.'
  · obtain ⟨t, rfl⟩ := List.head?_eq_some_iff.1 hpoint
    obtain ⟨hne, e, hexponent, rfl⟩ := h
    have hfraction : ∀ c ∈ t.takeWhile isDigit, isDigit c := fun c hc => List.mem_takeWhile_imp hc
    have ht : '.' :: t = '.' :: t.takeWhile isDigit ++ t.dropWhile isDigit := by
      rw [List.cons_append, List.takeWhile_append_dropWhile]
    rw [ht, ← List.append_assoc]
    refine .mk ?_ hexponent
    cases whole with
    | nil => exact .fraction (consistsOf_iff.2 ⟨hne.resolve_left (fun h => h rfl), hfraction⟩)
    | cons c whole => exact .pointed (consistsOf_iff.2 ⟨List.cons_ne_nil _ _, hwhole⟩) hfraction
  · rw [fractionPart_of_head_ne fun c hc heq => hpoint (heq ▸ hc)] at h
    obtain ⟨hne, e, hexponent, rfl⟩ := h
    exact .mk (.whole (consistsOf_iff.2 ⟨hne.resolve_right (fun h => h rfl), hwhole⟩)) hexponent

end DoubleLiteral

/-! ### Characters of literals -/

namespace DecimalLiteralText

open DoubleLiteral

variable {s : Text} {d : Decimal}

/-- A literal begins with a digit or with its point. -/
theorem exists_cons (h : DecimalLiteralText s d) : ∃ c t, s = c :: t ∧ (isDigit c ∨ c = '.') := by
  obtain @⟨mantissa, whole, fraction, rest, e, hmantissa, -⟩ := h
  have hfirst : ∀ {digits : Text} (behind : Text), consistsOf isDigit digits →
      ∃ c t, digits ++ behind = c :: t ∧ (isDigit c ∨ c = '.') := by
    intro digits behind hdigits
    obtain ⟨hne, hdigits⟩ := consistsOf_iff.1 hdigits
    obtain ⟨c, t, rfl⟩ := List.exists_cons_of_ne_nil hne
    exact ⟨c, t ++ behind, rfl, .inl (hdigits c List.mem_cons_self)⟩
  cases hmantissa with
  | whole hwhole => exact hfirst rest hwhole
  | pointed hwhole =>
    rw [List.append_assoc]
    exact hfirst _ hwhole
  | fraction => exact ⟨'.', fraction ++ rest, rfl, .inr rfl⟩

/-- A literal has no blanks. -/
theorem isBlank_of_mem (h : DecimalLiteralText s d) {c : Char} (hc : c ∈ s) : isBlank c = false := by
  obtain @⟨mantissa, whole, fraction, rest, e, hmantissa, hexponent⟩ := h
  have hdigits : ∀ {digits : Text}, (∀ c ∈ digits, isDigit c) → c ∈ digits → isBlank c = false :=
    fun hdigits hc => isBlank_of_isDigit (hdigits c hc)
  rcases List.mem_append.1 hc with hc | hc
  · cases hmantissa with
    | whole hwhole => exact hdigits (consistsOf_iff.1 hwhole).2 hc
    | pointed hwhole hfraction =>
      rcases List.mem_append.1 hc with hc | hc
      · exact hdigits (consistsOf_iff.1 hwhole).2 hc
      · rcases List.mem_cons.1 hc with rfl | hc
        · decide
        · exact hdigits hfraction hc
    | fraction hfraction =>
      rcases List.mem_cons.1 hc with rfl | hc
      · decide
      · exact hdigits (consistsOf_iff.1 hfraction).2 hc
  · cases hexponent with
    | none => exact nomatch hc
    | marked hmark sign hexponent =>
      rcases List.mem_cons.1 hc with rfl | hc
      · rcases hmark with rfl | rfl <;> decide
      · exact isBlank_of_mem_signed (consistsOf_iff.1 hexponent).2 hc

/-- A literal spells no word. -/
theorem spells_eq_false (h : DecimalLiteralText s d) {letter : Char} {word : Text}
    (hword : (letter :: word).any isVariantI = false) (hletter : isDigit letter = false) (hpoint : letter ≠ '.') :
    spells (letter :: word) s = false := by
  obtain ⟨c, t, rfl, hc⟩ := h.exists_cons
  refine Bool.eq_false_iff.2 fun hspells => ?_
  rw [spells_iff hword, List.map_cons, List.cons.injEq] at hspells
  have hplain : plainLetter c = c := by
    rcases hc with hc | rfl
    · have hvariant : isVariantI c = false := by
        refine Bool.eq_false_iff.2 fun hvariant => ?_
        simp only [isVariantI, Bool.or_eq_true, beq_iff_eq] at hvariant
        rcases hvariant with rfl | rfl <;> exact absurd hc (by decide)
      rw [plainLetter, hvariant, if_neg Bool.false_ne_true, lowerChar_of_isDigit hc]
    · decide
  rw [hplain] at hspells
  rcases hc with hc | hc
  · rw [hspells.1, hletter] at hc
    exact Bool.false_ne_true hc
  · exact hpoint (hspells.1.symm.trans hc)

theorem takeSign_append (h : DecimalLiteralText s d) (sign : Sign) :
    takeSign (sign.text ++ s) = (sign.isNegative, s) := by
  obtain ⟨c, t, rfl, hc⟩ := h.exists_cons
  refine Primitives.takeSign_append sign fun c' hc' => ?_
  obtain rfl := Option.some.inj hc'
  rcases hc with hc | rfl
  · exact ne_sign_of_isDigit hc
  · decide

/-- A literal with a sign is read as its form with this sign. -/
theorem ofText?_append (h : DecimalLiteralText s d) (sign : Sign) :
    ofText? (sign.text ++ s) = some (.decimal sign.isNegative d) := by
  have hinf : spells "inf" s = false := h.spells_eq_false (by decide) (by decide) (by decide)
  have hinfinity : spells "infinity" s = false := h.spells_eq_false (by decide) (by decide) (by decide)
  have hnan : spells "nan" s = false := h.spells_eq_false (by decide) (by decide) (by decide)
  simp only [ofText?, h.takeSign_append sign, hinf, hinfinity, hnan, form?_of_literal h, Bool.or_self,
    Bool.false_eq_true, if_false, Option.map_some]

/-- A literal with a sign between blanks has the value of its form. -/
theorem parseDouble_eq {t : Text} (h : DecimalLiteralText t d) {sign : Sign}
    (hs : IsBetweenBlanks (sign.text ++ t) s) : parseDouble s = .ok (decimalValue sign.isNegative d) := by
  have hblank : ∀ c ∈ sign.text ++ t, isBlank c = false := by
    intro c hc
    rcases List.mem_append.1 hc with hc | hc
    · exact Sign.isBlank_of_mem_text hc
    · exact h.isBlank_of_mem hc
  rw [parseDouble, hs.trim_eq hblank, h.ofText?_append]

end DecimalLiteralText

end Primitives
