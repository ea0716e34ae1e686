import Primitives.Proofs.Format.Concatenation

/-!
# Templates with long numerals

A width or a precision is read before anything else of its placeholder is looked at, and digits beyond the
limit of decimal numerals are not read. So a text is rejected for its digits, and not for a placeholder, if
behind a beginning that is accepted there stands a placeholder with a width or a precision that is too long.

## Main definitions

* `Template.Parts.Long`: parts of a placeholder with too many digits.
* `Template.MeetsLong`: a text in which such a placeholder is the first thing that is not accepted.

## Main results

* `Template.tooLong_parse_iff`: the texts that are rejected for their digits.
-/

namespace Primitives.Template

variable {s : Text}

/-- A width or a precision that has more digits than a decimal numeral may have. -/
def Parts.Long (parts : Parts) : Prop :=
  Numeral.digitLimit < parts.width.length ∨
    ∃ digits ∈ parts.precision, Numeral.digitLimit < digits.length

/-- Behind an accepted beginning stands a placeholder with a width or a precision that is too long. -/
def MeetsLong (source : Text) : Prop :=
  ∃ front back, source = front ++ '%' :: back ∧ (∃ t, parse front = .ok t) ∧
    back.head? ≠ some '%' ∧ (Parts.ofText back).Long

/-- The fault of a parse is one of the digits. -/
def TooLong {α : Type} (x : Except TemplateFault α) : Prop :=
  ∃ fault, x = .error (.numeral fault)

/-! ### Placeholders -/

/-- Digits are read as a number if there are not too many. -/
theorem readNumber?_cases (digits : Text) :
    (¬ Numeral.digitLimit < digits.length ∧ ∃ n, readNumber? digits = .ok n) ∨
      (Numeral.digitLimit < digits.length ∧ TooLong (readNumber? digits)) := by
  unfold TooLong readNumber?
  cases digits with
  | nil => exact .inl ⟨by simp, none, rfl⟩
  | cons c digits =>
    rw [if_neg (by simp)]
    by_cases hlength : (c :: digits).length ≤ Numeral.digitLimit
    · rw [Numeral.read, if_pos hlength]
      exact .inl ⟨Nat.not_lt.2 hlength, _, rfl⟩
    · rw [Numeral.read, if_neg hlength]
      exact .inr ⟨Nat.not_le.1 hlength, _, rfl⟩

theorem readPrecision?_cases (digits? : Option Text) :
    ((¬ ∃ digits ∈ digits?, Numeral.digitLimit < digits.length) ∧
        ∃ n, readPrecision? digits? = .ok n) ∨
      ((∃ digits ∈ digits?, Numeral.digitLimit < digits.length) ∧ TooLong (readPrecision? digits?)) := by
  cases digits? with
  | none => exact .inl ⟨by simp, none, rfl⟩
  | some digits =>
    rcases readNumber?_cases digits with ⟨hlength, n, hread⟩ | ⟨hlength, fault, hread⟩
    · exact .inl ⟨by simpa using hlength, _, by rw [readPrecision?, hread]; rfl⟩
    · exact .inr ⟨⟨digits, rfl, hlength⟩, fault, by rw [readPrecision?, hread]; rfl⟩

/-- The digits of a placeholder are read before its conversion is looked at. -/
theorem tooLong_makePlaceholder_iff (parts : Parts) (c : Char) (offset : Nat) :
    TooLong (makePlaceholder parts c offset) ↔ parts.Long := by
  rw [makePlaceholder_eq, TooLong, Parts.Long]
  rcases readNumber?_cases parts.width with ⟨hwidth, width, hread⟩ | ⟨hwidth, fault, hread⟩
  · rcases readPrecision?_cases parts.precision with ⟨hlong, n, hread'⟩ | ⟨hlong, fault, hread'⟩
    · refine iff_of_false ?_ (not_or.2 ⟨hwidth, hlong⟩)
      simp only [hread, hread', Outcome.ok_bind]
      split <;> split <;> simp
    · exact iff_of_true ⟨fault, by simp [hread, hread']⟩ (.inr hlong)
  · exact iff_of_true ⟨fault, by simp [hread]⟩ (.inl hwidth)

theorem tooLong_incompletePlaceholder_iff (parts : Parts) (offset : Nat) :
    TooLong (incompletePlaceholder parts offset) ↔ parts.Long := by
  have hprecision : (∃ digits ∈ parts.precision, Numeral.digitLimit < digits.length) ↔
      Numeral.digitLimit < (parts.precision.getD []).length := by
    cases parts.precision <;> simp
  rw [incompletePlaceholder, TooLong, Parts.Long, hprecision]
  rcases readNumber?_cases parts.width with ⟨hwidth, width, hread⟩ | ⟨hwidth, fault, hread⟩
  · rcases readNumber?_cases (parts.precision.getD []) with ⟨hlong, n, hread'⟩ | ⟨hlong, fault, hread'⟩
    · exact iff_of_false (by simp [hread, hread']) (not_or.2 ⟨hwidth, hlong⟩)
    · exact iff_of_true ⟨fault, by simp [hread, hread']⟩ (.inr hlong)
  · exact iff_of_true ⟨fault, by simp [hread]⟩ (.inl hwidth)

/-! ### Texts -/

/-- A percent sign that is not doubled is rejected for its digits if they are too many. -/
theorem tooLong_parseFrom_of_long (hs : s.head? ≠ some '%') (hlong : (Parts.ofText s).Long)
    (offset : Nat) : TooLong (parseFrom offset ('%' :: s)) := by
  cases hrest : (Parts.ofText s).rest with
  | nil =>
    obtain ⟨fault, hfault⟩ := (tooLong_incompletePlaceholder_iff _ offset).2 hlong
    exact ⟨fault, by rw [parseFrom_incomplete hs offset hrest, hfault]; rfl⟩
  | cons c rest =>
    obtain ⟨fault, hfault⟩ := (tooLong_makePlaceholder_iff _ c offset).2 hlong
    exact ⟨fault, by rw [parseFrom_percent hs offset hrest, hfault]; rfl⟩

/-- An accepted placeholder is accepted without what stands behind it. -/
theorem exists_front_of_makePlaceholder {offset : Nat} {c : Char} {rest : Text} {p : Placeholder}
    (hs : s.head? ≠ some '%') (hrest : (Parts.ofText s).rest = c :: rest)
    (hmake : makePlaceholder (Parts.ofText s) c offset = .ok p) :
    ∃ front, s = front ++ rest ∧ parseFrom offset ('%' :: front) = .ok [.placeholder p] := by
  obtain ⟨hc, -⟩ := makePlaceholder_ok_iff.1 hmake
  have hsplit := Parts.eq_append s
  have hflags : ∀ f ∈ (Parts.ofText s).flags, isFlag f := fun _ => Parts.isFlag_of_mem
  have hwidth : ∀ d ∈ (Parts.ofText s).width, Text.isDigit d := fun _ => Parts.isDigit_of_mem_width
  have hdigits : ∀ digits ∈ (Parts.ofText s).precision, ∀ d ∈ digits, Text.isDigit d :=
    fun _ => Parts.isDigit_of_mem_precision
  have hparts : Parts.ofText _ = ⟨_, _, _, [c]⟩ :=
    Parts.ofText_append hflags hwidth (Parts.head?_width s) hdigits hc
  generalize hfront : (Parts.ofText s).flags ++ ((Parts.ofText s).width ++
    (precisionText (Parts.ofText s).precision ++ [c])) = front at hparts
  have heq : s = front ++ rest := by
    rw [hrest] at hsplit
    simpa [← hfront] using hsplit
  have hhead : front.head? ≠ some '%' := by
    obtain ⟨d, others, rfl⟩ := List.exists_cons_of_ne_nil (l := front) (by simp [← hfront])
    simpa [heq] using hs
  have hfrontRest : (Parts.ofText front).rest = [c] := by rw [hparts]
  refine ⟨front, heq, ?_⟩
  rw [parseFrom_percent hhead offset hfrontRest, hparts]
  have hmake' : makePlaceholder ⟨(Parts.ofText s).flags, (Parts.ofText s).width,
      (Parts.ofText s).precision, [c]⟩ c offset = .ok p := hmake
  simp [hmake', parseFrom_nil]

/-- A text that is rejected for its digits has an accepted beginning in front of a placeholder with too
many. -/
theorem meetsLong_of_parseFrom {offset : Nat} (h : TooLong (parseFrom offset s)) :
    ∃ front back, s = front ++ '%' :: back ∧ (∃ segments, parseFrom offset front = .ok segments) ∧
      back.head? ≠ some '%' ∧ (Parts.ofText back).Long := by
  obtain ⟨fault, h⟩ := h
  fun_induction parseFrom offset s
  case case1 => cases h
  case case2 offset s ih =>
    cases hparse : parseFrom (offset + 2) s with
    | ok segments => simp [hparse] at h
    | error fault' =>
      obtain rfl : fault' = .numeral fault := by simpa [hparse] using h
      obtain ⟨front, back, rfl, ⟨segments, hfront⟩, hback⟩ := ih hparse
      refine ⟨'%' :: '%' :: front, back, rfl, ⟨consChar '%' segments, ?_⟩, hback⟩
      rw [parseFrom_twoPercents, hfront]
      rfl
  case case3 offset s hs parts hrest =>
    have hlong : TooLong (incompletePlaceholder parts offset) := by
      cases hmake : incompletePlaceholder parts offset with
      | ok p => simp [hmake] at h
      | error fault' => exact ⟨fault, by simpa [hmake] using h⟩
    exact ⟨[], s, rfl, ⟨[], parseFrom_nil offset⟩, head?_ne_percent hs,
      (tooLong_incompletePlaceholder_iff _ _).1 hlong⟩
  case case4 offset s hs parts c rest hrest ih =>
    have hs := head?_ne_percent hs
    cases hmake : makePlaceholder parts c offset with
    | error fault' =>
      have hlong : TooLong (makePlaceholder parts c offset) := ⟨fault, by simpa [hmake] using h⟩
      exact ⟨[], s, rfl, ⟨[], parseFrom_nil offset⟩, hs, (tooLong_makePlaceholder_iff _ _ _).1 hlong⟩
    | ok p =>
      obtain ⟨head, hsplit, hhead⟩ := exists_front_of_makePlaceholder hs hrest hmake
      have hstart : offset + 1 + (s.length - rest.length) = offset + ('%' :: head).length := by
        rw [hsplit, List.length_append, List.length_cons]
        omega
      cases hparse : parseFrom (offset + 1 + (s.length - rest.length)) rest with
      | ok segments => simp [hmake, hparse] at h
      | error fault' =>
        obtain rfl : fault' = .numeral fault := by simpa [hmake, hparse] using h
        obtain ⟨front, back, rfl, ⟨segments, hfront⟩, hback⟩ := ih hparse
        refine ⟨'%' :: (head ++ front), back, by simp [hsplit],
          ⟨joined [.placeholder p] segments, ?_⟩, hback⟩
        rw [← List.cons_append, parseFrom_append hhead, ← hstart, hfront]
        rfl
  case case5 offset c s _ hc ih =>
    cases hparse : parseFrom (offset + 1) s with
    | ok segments => simp [hparse] at h
    | error fault' =>
      obtain rfl : fault' = .numeral fault := by simpa [hparse] using h
      obtain ⟨front, back, rfl, ⟨segments, hfront⟩, hback⟩ := ih hparse
      refine ⟨c :: front, back, rfl, ⟨consChar c segments, ?_⟩, hback⟩
      rw [parseFrom_char hc, hfront]
      rfl

/-- The texts that are rejected for their digits. -/
theorem tooLong_parse_iff (source : Text) : TooLong (parse source) ↔ MeetsLong source := by
  have hparse (t : Text) : (∃ first, parse t = .ok first) ↔ ∃ segments, parseFrom 0 t = .ok segments := by
    rw [parse]
    cases parseFrom 0 t <;> simp
  constructor
  · rintro ⟨fault, h⟩
    have hlong : TooLong (parseFrom 0 source) := by
      cases hsegments : parseFrom 0 source with
      | ok segments => simp [parse, hsegments] at h
      | error fault' => exact ⟨fault, by simpa [parse, hsegments] using h⟩
    obtain ⟨front, back, hsource, hfront, hback⟩ := meetsLong_of_parseFrom hlong
    exact ⟨front, back, hsource, (hparse front).2 hfront, hback⟩
  · rintro ⟨front, back, rfl, ⟨first, hfirst⟩, hback, hlong⟩
    obtain ⟨fault, hfault⟩ := tooLong_parseFrom_of_long hback hlong 0
    refine ⟨fault, ?_⟩
    rw [parse_append hfirst, parse, hfault]
    rfl

end Primitives.Template
