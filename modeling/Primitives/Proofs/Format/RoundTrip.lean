import Primitives.Proofs.Format.Segments
import Primitives.Proofs.Outcomes
import Primitives.Proofs.Text.Ascii

/-!
# Parsing and writing templates

Parsing a template and writing its segments are inverse to each other. What is parsed is normal and
spells the template, so that every placeholder stands at the offset of the percent sign that opens it;
and what is written from normal segments parses to these segments, up to the offsets, which the segments
do not determine by themselves.

## Main results

* `Template.spells_of_parseFrom`: the segments of an accepted template.
* `Template.parseFrom_written`: the segments of a written template.
* `Template.parse_written_inverse`: both together.
-/

namespace Primitives.Template

open Text Placeholder

/-! ### The parts of a placeholder -/

/-- The text of a precision with its point. -/
def precisionText : Option Text → Text
  | none => []
  | some digits => '.' :: digits

theorem precisionText_append_rest (s : Text) :
    precisionText (precisionPart s).1 ++ (precisionPart s).2 = s := by
  unfold precisionPart
  split
  · simp [precisionText]
  · rfl

theorem isDigit_of_mem_precisionPart {s digits : Text} (h : digits ∈ (precisionPart s).1) :
    ∀ c ∈ digits, isDigit c := by
  unfold precisionPart at h
  split at h
  · obtain rfl : _ = digits := by simpa using h
    exact fun c hc => List.mem_takeWhile_imp hc
  · simp at h

/-- A text is the parts of a placeholder one behind the other. -/
theorem Parts.eq_append (s : Text) :
    s = (Parts.ofText s).flags ++ (Parts.ofText s).width ++
      precisionText (Parts.ofText s).precision ++ (Parts.ofText s).rest := by
  simp only [Parts.ofText, List.append_assoc, precisionText_append_rest,
    List.takeWhile_append_dropWhile]

theorem Parts.isFlag_of_mem {s : Text} {c : Char} (h : c ∈ (Parts.ofText s).flags) : isFlag c :=
  List.mem_takeWhile_imp h

theorem Parts.isDigit_of_mem_width {s : Text} {c : Char} (h : c ∈ (Parts.ofText s).width) :
    isDigit c :=
  List.mem_takeWhile_imp h

theorem Parts.isDigit_of_mem_precision {s digits : Text} (h : digits ∈ (Parts.ofText s).precision) :
    ∀ c ∈ digits, isDigit c :=
  isDigit_of_mem_precisionPart h

/-- A width does not begin with a zero, which would be a flag. -/
theorem Parts.head?_width (s : Text) : (Parts.ofText s).width.head? ≠ some '0' := by
  simp only [Parts.ofText]
  cases hnumbers : s.dropWhile isFlag with
  | nil => simp
  | cons c rest =>
    have hc : isFlag c = false := by
      have hhead := List.head_dropWhile_not isFlag (l := s) (by simp [hnumbers])
      simpa [hnumbers] using hhead
    have hne : c ≠ '0' := by
      rintro rfl
      exact absurd hc (by decide)
    rw [List.takeWhile_cons]
    split <;> simp [hne]

/-! ### Accepted placeholders -/

/-- The limit of numerals as an integer. -/
theorem natCast_limit : ((10 ^ Numeral.digitLimit : Nat) : Int) = 10 ^ Numeral.digitLimit :=
  Int.natCast_pow 10 Numeral.digitLimit

/-- Digits that are read as a number spell it. -/
theorem readNumber?_ok {digits : Text} {width : Option Int} (hdigits : ∀ c ∈ digits, isDigit c)
    (h : readNumber? digits = .ok width) :
    WidthSpelledBy width digits ∧ ∀ n ∈ width, 0 ≤ n ∧ n < 10 ^ Numeral.digitLimit := by
  unfold readNumber? at h
  cases digits with
  | nil =>
    obtain rfl : none = width := by simpa using h
    exact ⟨⟨hdigits, rfl⟩, by simp⟩
  | cons c digits =>
    cases hread : Numeral.read (c :: digits) with
    | error fault => simp [hread] at h
    | ok n =>
      obtain ⟨rfl, hlt⟩ := Numeral.value_lt_of_read hdigits hread
      obtain rfl : some (Numeral.value (c :: digits) : Int) = width := by simpa [hread] using h
      refine ⟨⟨hdigits, by simp⟩, ?_⟩
      rintro n hn
      obtain rfl : (Numeral.value (c :: digits) : Int) = n := by simpa using hn
      exact ⟨Int.natCast_nonneg _, natCast_limit ▸ Int.ofNat_lt.2 hlt⟩

/-- Reads the digits of a precision, none of which stand for zero. -/
def readPrecision? : Option Text → Except TemplateFault (Option Int)
  | none => .ok none
  | some digits => (readNumber? digits).map fun n => some (n.getD 0)

theorem makePlaceholder_eq (parts : Parts) (c : Char) (offset : Nat) :
    makePlaceholder parts c offset = do
      let width ← readNumber? parts.width
      let precision ← readPrecision? parts.precision
      if !conversions.contains c then
        throw (.placeholder (.unknownConversion c) offset)
      if parts.flags.contains '#' && !alternateConversions.contains c then
        throw (.placeholder (.alternateNotAllowed c) offset)
      return ⟨[c], parts.flags, width, precision, offset⟩ := by
  unfold makePlaceholder readPrecision?
  cases parts.precision <;> rfl

/-- The parts that make a placeholder, and the placeholder they make. -/
theorem makePlaceholder_ok_iff {parts : Parts} {c : Char} {offset : Nat} {p : Placeholder} :
    makePlaceholder parts c offset = .ok p ↔
      c ∈ conversions ∧ ('#' ∈ parts.flags → c ∈ alternateConversions) ∧
        ∃ width precision, readNumber? parts.width = .ok width ∧
          readPrecision? parts.precision = .ok precision ∧
          p = ⟨[c], parts.flags, width, precision, offset⟩ := by
  rw [makePlaceholder_eq]
  cases readNumber? parts.width with
  | error fault => simp
  | ok width =>
    cases readPrecision? parts.precision with
    | error fault => simp
    | ok precision =>
      by_cases hc : c ∈ conversions <;> by_cases hflag : '#' ∈ parts.flags <;>
        by_cases halternate : c ∈ alternateConversions <;>
        simp [hc, hflag, halternate, eq_comm]

/-- Digits of a precision that are read spell it. -/
theorem readPrecision?_ok {digits? : Option Text} {precision : Option Int}
    (hdigits : ∀ digits ∈ digits?, ∀ c ∈ digits, isDigit c)
    (h : readPrecision? digits? = .ok precision) :
    PrecisionSpelledBy precision (precisionText digits?) ∧
      ∀ n ∈ precision, 0 ≤ n ∧ n < 10 ^ Numeral.digitLimit := by
  cases digits? with
  | none =>
    obtain rfl : none = precision := by simpa [readPrecision?] using h
    exact ⟨.inl ⟨rfl, rfl⟩, by simp⟩
  | some digits =>
    cases hread : readNumber? digits with
    | error fault => simp [readPrecision?, hread] at h
    | ok number =>
      obtain rfl : some (number.getD 0) = precision := by
        simpa [readPrecision?, hread] using h
      obtain ⟨⟨hmem, hspelled⟩, hbound⟩ := readNumber?_ok (hdigits digits rfl) hread
      cases digits with
      | nil =>
        obtain rfl : number = none := by simpa using hspelled
        refine ⟨.inr ⟨[], rfl, hmem, rfl⟩, ?_⟩
        rintro n hn
        obtain rfl : 0 = n := by simpa using hn
        exact ⟨Int.le_refl 0, Int.pow_pos (by decide)⟩
      | cons c digits =>
        obtain rfl : number = some (Numeral.value (c :: digits) : Int) := by simpa using hspelled
        exact ⟨.inr ⟨c :: digits, rfl, hmem, rfl⟩, hbound⟩

/-- An accepted placeholder is well formed, stands at the offset of its percent sign and is spelled by
what was read. -/
theorem spelledBy_of_makePlaceholder {s rest : Text} {c : Char} {offset : Nat} {p : Placeholder}
    (hrest : (Parts.ofText s).rest = c :: rest)
    (h : makePlaceholder (Parts.ofText s) c offset = .ok p) :
    p.WellFormed ∧ p.offset = offset ∧ ∃ t, p.SpelledBy t ∧ '%' :: s = t ++ rest := by
  obtain ⟨hc, hflag, width, precision, hwidth, hprecision, rfl⟩ := makePlaceholder_ok_iff.1 h
  obtain ⟨hwidthSpelled, hwidthBound⟩ := readNumber?_ok (fun _ => Parts.isDigit_of_mem_width) hwidth
  obtain ⟨hprecisionSpelled, hprecisionBound⟩ :=
    readPrecision?_ok (fun _ => Parts.isDigit_of_mem_precision) hprecision
  have hwidthPos : ∀ w ∈ width, 1 ≤ w ∧ w < 10 ^ Numeral.digitLimit := by
    rintro w hw
    refine ⟨?_, (hwidthBound w hw).2⟩
    have hhead := Parts.head?_width s
    obtain ⟨hdigits, hvalue⟩ := hwidthSpelled
    cases hspelling : (Parts.ofText s).width with
    | nil => simp_all
    | cons d digits =>
      have hd : isDigit d := hdigits d (by simp [hspelling])
      have hpos : 0 < Numeral.value (d :: digits) :=
        Numeral.value_pos hd (by simpa [hspelling] using hhead)
      obtain rfl : (Numeral.value (d :: digits) : Int) = w := by simp_all
      omega
  refine ⟨⟨⟨c, hc, rfl, hflag⟩, fun f => Parts.isFlag_of_mem, hwidthPos, hprecisionBound⟩, rfl, _,
    ⟨_, _, hwidthSpelled, hprecisionSpelled, rfl⟩, ?_⟩
  have heq := Parts.eq_append s
  rw [hrest] at heq
  simpa using heq

/-- A template that is cut off inside a placeholder is rejected. -/
theorem incompletePlaceholder_ne_ok (parts : Parts) (offset : Nat) (p : Placeholder) :
    incompletePlaceholder parts offset ≠ .ok p := by
  unfold incompletePlaceholder
  cases readNumber? parts.width <;> cases readNumber? (parts.precision.getD []) <;>
    simp

/-! ### Accepted templates -/

/-- What is parsed is normal and spells what it is parsed from. -/
theorem spells_of_parseFrom {offset : Nat} {s : Text} {segments : List Segment}
    (h : parseFrom offset s = .ok segments) : Normal segments ∧ Spells offset segments s := by
  induction hlength : s.length using Nat.strong_induction_on generalizing offset s segments with
  | _ n ih =>
    -- one character of text, possibly written as two
    have hchar : ∀ (c : Char) (t : Text), t.length < n →
        (parseFrom (offset + (doubled [c]).length) t).map (consChar c) = .ok segments →
        Normal segments ∧ Spells offset segments (doubled [c] ++ t) := by
      intro c t ht hmap
      cases hparse : parseFrom (offset + (doubled [c]).length) t with
      | error fault => simp [hparse] at hmap
      | ok behind =>
        obtain rfl : consChar c behind = segments := by simpa [hparse] using hmap
        obtain ⟨hnormal, hspells⟩ := ih _ ht hparse rfl
        exact ⟨hnormal.consChar c, hspells.consChar⟩
    cases s with
    | nil =>
      obtain rfl : [] = segments := by simpa [parseFrom_nil] using h
      exact ⟨trivial, .nil offset⟩
    | cons c t =>
      rw [List.length_cons] at hlength
      by_cases hc : c = '%'
      · subst hc
        by_cases hhead : t.head? = some '%'
        · obtain ⟨t, rfl⟩ := List.head?_eq_some_iff.1 hhead
          rw [parseFrom_twoPercents] at h
          exact hchar '%' t (by simp only [List.length_cons] at hlength; omega) h
        · cases hrest : (Parts.ofText t).rest with
          | nil =>
            rw [parseFrom_incomplete hhead offset hrest] at h
            cases hmake : incompletePlaceholder (Parts.ofText t) offset with
            | error fault => simp [hmake] at h
            | ok p => exact absurd hmake (incompletePlaceholder_ne_ok _ _ _)
          | cons d rest =>
            rw [parseFrom_percent hhead offset hrest] at h
            cases hmake : makePlaceholder (Parts.ofText t) d offset with
            | error fault => simp [hmake] at h
            | ok p =>
              obtain ⟨hwell, hoffset, spelling, hspelled, heq⟩ :=
                spelledBy_of_makePlaceholder hrest hmake
              cases hparse : parseFrom (offset + 1 + (t.length - rest.length)) rest with
              | error fault => simp [hmake, hparse] at h
              | ok behind =>
                obtain rfl : .placeholder p :: behind = segments := by
                  simpa [hmake, hparse] using h
                have hlengths := congrArg List.length heq
                have hpos : 0 < spelling.length :=
                  List.length_pos_of_mem (List.mem_of_head? hspelled.head?)
                simp only [List.length_cons, List.length_append] at hlengths
                obtain ⟨hnormal, hspells⟩ := ih _ (by omega) hparse rfl
                refine ⟨⟨hwell, hnormal⟩, ?_⟩
                rw [heq, ← hoffset]
                refine .placeholder hspelled ?_
                rwa [hoffset, show offset + spelling.length
                  = offset + 1 + (t.length - rest.length) by omega]
      · have hdoubled : doubled [c] = [c] := by simp [doubled, hc]
        rw [parseFrom_char hc] at h
        have hsegments := hchar c t (by omega) (by simpa [hdoubled] using h)
        simpa [hdoubled] using hsegments

/-! ### Written placeholders -/

/-- The digits that a width is written with. -/
def widthDigits (width : Option Int) : Text :=
  (width.map fun w => Numeral.ofNat 10 w.toNat).getD []

/-- The digits that a precision is written with. -/
def precisionDigits? (precision : Option Int) : Option Text :=
  precision.map fun n => Numeral.ofNat 10 n.toNat

theorem isDigit_of_mem_widthDigits {width : Option Int} {c : Char} (h : c ∈ widthDigits width) :
    isDigit c := by
  cases width with
  | none => simp [widthDigits] at h
  | some w => exact Numeral.isDigit_of_mem_ofNat (by simpa [widthDigits] using h)

theorem isDigit_of_mem_precisionDigits {precision : Option Int} {digits : Text}
    (h : digits ∈ precisionDigits? precision) : ∀ c ∈ digits, isDigit c := by
  cases precision with
  | none => simp [precisionDigits?] at h
  | some n =>
    obtain rfl : Numeral.ofNat 10 n.toNat = digits := by simpa [precisionDigits?] using h
    exact fun c => Numeral.isDigit_of_mem_ofNat

/-- An integer within the limit is written with the digits of a natural number. -/
theorem exists_natCast_of_lt {n : Int} (hle : 0 ≤ n) (hlt : n < 10 ^ Numeral.digitLimit) :
    ∃ m : Nat, n = m ∧ m < 10 ^ Numeral.digitLimit := by
  obtain ⟨m, rfl⟩ := Int.eq_ofNat_of_zero_le hle
  rw [← natCast_limit] at hlt
  exact ⟨m, rfl, Int.ofNat_lt.1 hlt⟩

theorem readNumber?_ofNat {n : Nat} (h : n < 10 ^ Numeral.digitLimit) :
    readNumber? (Numeral.ofNat 10 n) = .ok (some n) := by
  have hne : (Numeral.ofNat 10 n).isEmpty = false := by simpa using Numeral.ofNat_ne_nil n
  simp [readNumber?, hne, Numeral.read_ofNat h]

/-- A written width is read back. -/
theorem readNumber?_widthDigits {width : Option Int}
    (h : ∀ w ∈ width, 1 ≤ w ∧ w < 10 ^ Numeral.digitLimit) :
    readNumber? (widthDigits width) = .ok width ∧ (widthDigits width).head? ≠ some '0' := by
  cases width with
  | none => exact ⟨rfl, by simp [widthDigits]⟩
  | some w =>
    obtain ⟨hle, hlt⟩ := h w rfl
    obtain ⟨m, rfl, hm⟩ := exists_natCast_of_lt (by omega) hlt
    have hdigits : widthDigits (some (m : Int)) = Numeral.ofNat 10 m := by simp [widthDigits]
    rw [hdigits]
    exact ⟨readNumber?_ofNat hm, Numeral.head?_ofNat (by omega)⟩

/-- A written precision is read back. -/
theorem readPrecision?_precisionDigits {precision : Option Int}
    (h : ∀ n ∈ precision, 0 ≤ n ∧ n < 10 ^ Numeral.digitLimit) :
    readPrecision? (precisionDigits? precision) = .ok precision := by
  cases precision with
  | none => rfl
  | some n =>
    obtain ⟨hle, hlt⟩ := h n rfl
    obtain ⟨m, rfl, hm⟩ := exists_natCast_of_lt hle hlt
    simp [precisionDigits?, readPrecision?, readNumber?_ofNat hm]

/-- The specification of a well-formed placeholder behind its percent sign. -/
def specTail (p : Placeholder) : Text :=
  p.flags ++ (widthDigits p.width ++ (precisionText (precisionDigits? p.precision) ++ p.conversion))

theorem decimal_of_lt {n : Int} (hle : 0 ≤ n) (hlt : n < 10 ^ Numeral.digitLimit) :
    Numeral.decimal n = .ok (Numeral.ofNat 10 n.toNat) := by
  obtain ⟨m, rfl, hm⟩ := exists_natCast_of_lt hle hlt
  exact Numeral.decimal_natCast hm

theorem spec_eq {p : Placeholder} (h : p.WellFormed) : p.spec = .ok ('%' :: specTail p) := by
  obtain ⟨conversion, flags, width, precision, offset⟩ := p
  have hwidth : ∀ w ∈ width, Numeral.decimal w = .ok (Numeral.ofNat 10 w.toNat) := fun w hw =>
    decimal_of_lt (Int.le_trans (by decide) (h.width w hw).1) (h.width w hw).2
  have hprecision : ∀ n ∈ precision, Numeral.decimal n = .ok (Numeral.ofNat 10 n.toNat) :=
    fun n hn => decimal_of_lt (h.precision n hn).1 (h.precision n hn).2
  cases width <;> cases precision <;>
    simp_all [spec, specAs, specTail, widthDigits, precisionDigits?, precisionText]

/-- A conversion is neither a flag nor a digit nor a point nor a percent sign. -/
theorem conversion_separate {c : Char} (h : c ∈ conversions) :
    isFlag c = false ∧ isDigit c = false ∧ c ≠ '.' ∧ c ≠ '%' := by
  have hall : conversions.all fun c => !isFlag c && !isDigit c && c != '.' && c != '%' := by decide
  simpa [and_assoc] using List.all_eq_true.1 hall c h

theorem precisionPart_append {digits? : Option Text} {c : Char} {rest : Text}
    (hdigits : ∀ digits ∈ digits?, ∀ d ∈ digits, isDigit d) (hc : c ∈ conversions) :
    precisionPart (precisionText digits? ++ c :: rest) = (digits?, c :: rest) := by
  obtain ⟨-, hdigit, hpoint, -⟩ := conversion_separate hc
  cases digits? with
  | none => simp [precisionText, precisionPart, hpoint]
  | some digits =>
    obtain ⟨htake, hdrop⟩ := takeWhile_dropWhile_append (t := c :: rest) (hdigits digits rfl)
      (by simpa using hdigit)
    simp [precisionText, precisionPart, htake, hdrop]

/-- The parts of a written placeholder are read back. -/
theorem Parts.ofText_append {flags width rest : Text} {digits? : Option Text} {c : Char}
    (hflags : ∀ f ∈ flags, isFlag f) (hwidth : ∀ d ∈ width, isDigit d)
    (hzero : width.head? ≠ some '0') (hdigits : ∀ digits ∈ digits?, ∀ d ∈ digits, isDigit d)
    (hc : c ∈ conversions) :
    Parts.ofText (flags ++ (width ++ (precisionText digits? ++ c :: rest))) =
      ⟨flags, width, digits?, c :: rest⟩ := by
  obtain ⟨hflag, hdigit, -, -⟩ := conversion_separate hc
  have hbehind : ∀ d ∈ (precisionText digits? ++ c :: rest).head?,
      isFlag d = false ∧ isDigit d = false := by
    cases digits? with
    | none => simp [precisionText, hflag, hdigit]
    | some digits =>
      rintro d ⟨⟩
      decide
  have hnumbers : ∀ d ∈ (width ++ (precisionText digits? ++ c :: rest)).head?, isFlag d = false := by
    cases width with
    | nil => exact fun d hd => (hbehind d hd).1
    | cons w width =>
      rintro d ⟨⟩
      have hw := (Numeral.isDigit_iff w).1 (hwidth w List.mem_cons_self)
      simp only [isFlag, Bool.or_eq_false_iff, beq_eq_false_iff_ne]
      refine ⟨⟨⟨⟨?_, ?_⟩, ?_⟩, ?_⟩, by simpa using hzero⟩ <;> rintro rfl <;> simp at hw
  obtain ⟨htakeFlags, hdropFlags⟩ := takeWhile_dropWhile_append hflags hnumbers
  obtain ⟨htakeWidth, hdropWidth⟩ :=
    takeWhile_dropWhile_append hwidth fun d hd => (hbehind d hd).2
  simp [Parts.ofText, htakeFlags, hdropFlags, htakeWidth, hdropWidth,
    precisionPart_append hdigits hc]

/-- The parts of a placeholder hold no percent sign. -/
theorem percent_notMem_parts {flags width : Text} {digits? : Option Text} {c : Char}
    (hflags : ∀ f ∈ flags, isFlag f) (hwidth : ∀ d ∈ width, isDigit d)
    (hdigits : ∀ digits ∈ digits?, ∀ d ∈ digits, isDigit d) (hc : c ∈ conversions) :
    '%' ∉ flags ++ (width ++ (precisionText digits? ++ [c])) := by
  simp only [List.mem_append, List.mem_singleton, not_or]
  refine ⟨fun hmem => ?_, fun hmem => ?_, fun hmem => ?_, ?_⟩
  · exact absurd (hflags _ hmem) (by decide)
  · exact absurd (hwidth _ hmem) (by decide)
  · cases digits? with
    | none => simp [precisionText] at hmem
    | some digits =>
      have hmem : '%' ∈ digits := by simpa [precisionText] using hmem
      exact absurd (hdigits digits rfl _ hmem) (by decide)
  · exact (conversion_separate hc).2.2.2.symm

theorem percent_notMem_specTail {p : Placeholder} (h : p.WellFormed) : '%' ∉ specTail p := by
  obtain ⟨c, hc, hconversion, -⟩ := h.conversion
  rw [specTail, hconversion]
  exact percent_notMem_parts h.flags (fun _ => isDigit_of_mem_widthDigits)
    (fun _ => isDigit_of_mem_precisionDigits) hc

/-- The specification of a well-formed placeholder is parsed as this placeholder. -/
theorem parseFrom_specTail {p : Placeholder} (h : p.WellFormed) (offset : Nat) (rest : Text) :
    parseFrom offset ('%' :: (specTail p ++ rest)) = do
      let segments ← parseFrom (offset + 1 + (specTail p).length) rest
      return .placeholder { p with offset := offset } :: segments := by
  have hwell := h
  obtain ⟨⟨c, hc, hconversion, halternate⟩, hflags, hwidth, hprecision⟩ := h
  obtain ⟨hread, hzero⟩ := readNumber?_widthDigits hwidth
  have htail : specTail p ++ rest = p.flags ++ (widthDigits p.width ++
      (precisionText (precisionDigits? p.precision) ++ c :: rest)) := by
    simp [specTail, hconversion]
  have hparts : Parts.ofText (specTail p ++ rest) =
      ⟨p.flags, widthDigits p.width, precisionDigits? p.precision, c :: rest⟩ := by
    rw [htail]
    exact Parts.ofText_append hflags (fun d => isDigit_of_mem_widthDigits) hzero
      (fun _ => isDigit_of_mem_precisionDigits) hc
  have hhead : (specTail p ++ rest).head? ≠ some '%' := by
    have hne : specTail p ≠ [] := by simp [specTail, hconversion]
    obtain ⟨d, tail, heq⟩ := List.exists_cons_of_ne_nil hne
    have hpercent := percent_notMem_specTail hwell
    rw [heq] at hpercent ⊢
    rintro ⟨⟩
    exact hpercent List.mem_cons_self
  have hmake : makePlaceholder (Parts.ofText (specTail p ++ rest)) c offset =
      .ok { p with offset := offset } := by
    refine makePlaceholder_ok_iff.2 ⟨hc, ?_, p.width, p.precision, ?_, ?_, ?_⟩
    · rw [hparts]
      exact halternate
    · rw [hparts]
      exact hread
    · rw [hparts]
      exact readPrecision?_precisionDigits hprecision
    · rw [hparts, hconversion]
  have hlength : (specTail p ++ rest).length - rest.length = (specTail p).length := by simp
  rw [parseFrom_percent hhead offset (by rw [hparts]), hmake, hlength]
  rfl

/-! ### Written templates -/

/-- A text with its percent signs doubled is parsed as this text. -/
theorem parseFrom_doubled (s : Text) (offset : Nat) (rest : Text) :
    parseFrom offset (doubled s ++ rest) =
      (parseFrom (offset + (doubled s).length) rest).map fun segments => s.foldr consChar segments := by
  induction s generalizing offset with
  | nil =>
    rw [show doubled [] = [] from rfl, List.nil_append, List.length_nil, Nat.add_zero]
    cases parseFrom offset rest <;> rfl
  | cons c s ih =>
    have hstep : parseFrom offset (doubled (c :: s) ++ rest) =
        (parseFrom (offset + (doubled [c]).length) (doubled s ++ rest)).map (consChar c) := by
      rw [doubled_cons, List.append_assoc]
      by_cases hc : c = '%'
      · subst hc
        exact parseFrom_twoPercents offset _
      · have hdoubled : doubled [c] = [c] := by simp [doubled, hc]
        rw [hdoubled]
        exact parseFrom_char hc offset _
    rw [hstep, ih, doubled_cons c s, List.length_append, Nat.add_assoc]
    cases parseFrom (offset + ((doubled [c]).length + (doubled s).length)) rest <;> rfl

/-- Characters in front of segments that do not begin with a text become a text. -/
theorem foldr_consChar {s : Text} {segments : List Segment} (hs : s ≠ [])
    (hhead : ∀ t, segments.head? ≠ some (.text t)) :
    s.foldr consChar segments = .text s :: segments := by
  induction s with
  | nil => exact absurd rfl hs
  | cons c s ih =>
    cases s with
    | nil =>
      cases segments with
      | nil => rfl
      | cons first segments =>
        cases first with
        | text t => exact absurd rfl (hhead t)
        | placeholder p => rfl
    | cons d s =>
      rw [List.foldr_cons, ih (by simp)]
      rfl

/-- Normal segments can be written, and what is written parses to them. -/
theorem parseFrom_written {segments : List Segment} (h : Normal segments) :
    ∃ source, written segments = .ok source ∧ ∀ offset, ∃ parsed,
      parseFrom offset source = .ok parsed ∧
        parsed.map Segment.withoutOffset = segments.map Segment.withoutOffset := by
  induction segments with
  | nil => exact ⟨[], rfl, fun offset => ⟨[], parseFrom_nil offset, rfl⟩⟩
  | cons first segments ih =>
    cases first with
    | text s =>
      obtain ⟨hne, hhead, hnormal⟩ := h
      obtain ⟨source, hwritten, hparses⟩ := ih hnormal
      refine ⟨doubled s ++ source, by simp [written, hwritten], fun offset => ?_⟩
      obtain ⟨parsed, hparsed, hsame⟩ := hparses (offset + (doubled s).length)
      have hheadParsed : ∀ t, parsed.head? ≠ some (.text t) := by
        intro t ht
        have hheads := congrArg List.head? hsame
        rw [List.head?_map, List.head?_map, ht] at hheads
        cases hfirst : segments.head? with
        | none => simp [hfirst] at hheads
        | some first =>
          cases first with
          | text u => exact hhead u hfirst
          | placeholder p => simp [hfirst, Segment.withoutOffset] at hheads
      refine ⟨.text s :: parsed, ?_, by simp [hsame]⟩
      rw [parseFrom_doubled, hparsed, ← foldr_consChar hne hheadParsed]
      rfl
    | placeholder p =>
      obtain ⟨hwell, hnormal⟩ := h
      obtain ⟨source, hwritten, hparses⟩ := ih hnormal
      refine ⟨'%' :: (specTail p ++ source), ?_, fun offset => ?_⟩
      · simp [written, hwritten, spec_eq hwell]
      · obtain ⟨parsed, hparsed, hsame⟩ := hparses (offset + 1 + (specTail p).length)
        refine ⟨.placeholder { p with offset := offset } :: parsed, ?_, ?_⟩
        · rw [parseFrom_specTail hwell, hparsed]
          rfl
        · rw [List.map_cons, List.map_cons, hsame]
          rfl

/-! ### Parsing and writing -/

theorem mem_placeholders {t : Template} {p : Placeholder} :
    p ∈ t.placeholders ↔ .placeholder p ∈ t.segments := by
  simp only [placeholders, List.mem_filterMap]
  constructor
  · rintro ⟨segment, hmem, heq⟩
    cases segment with
    | text s => simp at heq
    | placeholder q => simpa [← Option.some.inj heq] using hmem
  · exact fun hmem => ⟨_, hmem, rfl⟩

/-- The offsets of the placeholders increase with the segments. -/
theorem pairwise_placeholders {t : Template}
    (h : t.segments.Pairwise fun a b => ∀ p q, a = .placeholder p → b = .placeholder q →
      p.offset < q.offset) : (t.placeholders.map (·.offset)).Pairwise (· < ·) := by
  refine List.pairwise_map.2 (List.pairwise_filterMap.2 (h.imp ?_))
  intro a b hab p hp q hq
  cases a with
  | text s => simp at hp
  | placeholder p' =>
    cases b with
    | text s => simp at hq
    | placeholder q' =>
      obtain rfl : p' = p := by simpa using hp
      obtain rfl : q' = q := by simpa using hq
      exact hab _ _ rfl rfl

/-- The segments of an accepted template are normal, spell the template, and place every placeholder
at the percent sign that opens it, in increasing order; and normal segments can be written as a template
that parses to these segments, up to the offsets. -/
theorem parse_written_inverse :
    (∀ source t, parse source = .ok t →
      Normal t.segments ∧ Spells 0 t.segments source ∧
        (∀ p ∈ t.placeholders, source[p.offset]? = some '%') ∧
          (t.placeholders.map (·.offset)).Pairwise (· < ·)) ∧
    ∀ segments, Normal segments → ∃ source t, written segments = .ok source ∧
      parse source = .ok t ∧
        t.segments.map Segment.withoutOffset = segments.map Segment.withoutOffset := by
  constructor
  · intro source t hparse
    cases hsegments : parseFrom 0 source with
    | error fault => simp [parse, hsegments] at hparse
    | ok segments =>
      obtain rfl : ⟨source, segments⟩ = t := by simpa [parse, hsegments] using hparse
      obtain ⟨hnormal, hspells⟩ := spells_of_parseFrom hsegments
      refine ⟨hnormal, hspells, fun p hp => ?_, pairwise_placeholders hspells.pairwise_offset⟩
      simpa using (hspells.getElem?_offset (mem_placeholders.1 hp)).2
  · intro segments hnormal
    obtain ⟨source, hwritten, hparses⟩ := parseFrom_written hnormal
    obtain ⟨parsed, hparsed, hsame⟩ := hparses 0
    exact ⟨source, ⟨source, parsed⟩, hwritten, by simp [parse, hparsed], hsame⟩

/-- A text that ends in a percent sign stays apart from the placeholder behind it. -/
theorem parse_written_inverse_percent :
    let segments := [.text "1%", .placeholder ⟨['f'], ['-', '0'], some 5, some 2, 0⟩]
    Normal segments ∧ ∃ t, parse "1%%%-05.2f" = .ok t ∧ Normal t.segments ∧
      t.segments.map Segment.withoutOffset = segments.map Segment.withoutOffset := by
  intro segments
  have hnormal : Normal segments := by
    refine ⟨by decide, by simp,
      ⟨⟨'f', by decide, rfl, by decide⟩, List.all_eq_true.1 rfl, ?_, ?_⟩, trivial⟩
    · rintro w ⟨⟩
      decide +kernel
    · rintro n ⟨⟩
      decide +kernel
  have htext : written segments = .ok "1%%%-05.2f" := by
    simp only [segments, written, spec_eq hnormal.2.2.1]
    rfl
  obtain ⟨source, t, hwritten, hparse, hsame⟩ := parse_written_inverse.2 segments hnormal
  obtain rfl : "1%%%-05.2f" = source := Except.ok.inj (htext.symm.trans hwritten)
  exact ⟨hnormal, t, hparse, (parse_written_inverse.1 _ t hparse).1, hsame⟩

end Primitives.Template
