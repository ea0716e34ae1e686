import Primitives.Proofs.Format.Concatenation

/-!
# Printing of accepted arguments

A placeholder prints an argument by the directive that it writes down and reads back. The directive is the
one that was written, and it is refused for its numbers only: a width or a precision of the size of a host
number. What remains is the argument, since an integer with too many digits has no decimal text. So an
argument that the check of a template lets pass has a text, except in these cases.

## Main definitions

* `Placeholder.Fits`, `Placeholder.directive`: placeholders with a directive, and the directive.
* `Placeholder.Prints`: what a placeholder and an argument need for a text.

## Main results

* `Placeholder.ofText_specTail`: the directive is read back.
* `Placeholder.exists_render_iff`: the accepted arguments that have a text.
* `Template.exists_render_iff`: the argument lists that a template renders.
-/

namespace Primitives

open Template

/-! ### Directives -/

namespace Directive

theorem takePrecision_eq (s : Text) :
    takePrecision s = ((precisionPart s).1.map Numeral.value, (precisionPart s).2) := by
  cases s with
  | nil => rfl
  | cons c s =>
    by_cases hc : c = '.'
    · subst hc
      rfl
    · simp [takePrecision, precisionPart, hc]

/-- A directive has the parts that a placeholder has. -/
theorem ofText_eq (index : Nat) (s : Text) :
    ofText index s =
      let parts := Parts.ofText s
      let width := Numeral.value parts.width
      let precision := parts.precision.map Numeral.value
      if widthLimit ≤ width then .error .widthTooBig
      else if precision.any (precisionLimit ≤ ·) then .error .precisionTooBig
      else
        match dropSize parts.rest with
        | [] => .error .incomplete
        | c :: tail =>
          if isConversion c then .ok (⟨.ofText parts.flags, width, precision, c⟩, tail)
          else .error (.unsupported c (index + (s.length - tail.length) - 1)) := by
  simp only [ofText, Parts.ofText, takePrecision_eq]
  rfl

end Directive

namespace Placeholder

/-- A width and a precision that fit into host numbers. -/
def Fits (p : Placeholder) : Prop :=
  (∀ w ∈ p.width, w < Directive.widthLimit) ∧ ∀ n ∈ p.precision, n < Directive.precisionLimit

/-- The one conversion of a placeholder is one of templates, and has an alternate form if that is asked
for. -/
theorem WellFormed.conversion_of_eq {p : Placeholder} (hp : p.WellFormed) {c : Char}
    (hc : p.conversion = [c]) : c ∈ conversions ∧ ('#' ∈ p.flags → c ∈ alternateConversions) := by
  obtain ⟨c', hmem, heq, hflags⟩ := hp.conversion
  obtain rfl : c = c' := by simpa [hc] using heq
  exact ⟨hmem, hflags⟩

/-- The directive of a placeholder with a conversion. -/
def directive (p : Placeholder) (c : Char) : Directive :=
  ⟨.ofText p.flags, (p.width.getD 0).toNat, p.precision.map Int.toNat, c⟩

theorem value_widthDigits (width : Option Int) :
    Numeral.value (widthDigits width) = (width.getD 0).toNat := by
  cases width with
  | none => rfl
  | some w => simp [widthDigits]

theorem map_value_precisionDigits (precision : Option Int) :
    (precisionDigits? precision).map Numeral.value = precision.map Int.toNat := by
  cases precision <;> simp [precisionDigits?]

theorem lt_widthLimit_iff {p : Placeholder} (hp : p.WellFormed) :
    (p.width.getD 0).toNat < Directive.widthLimit ↔ ∀ w ∈ p.width, w < Directive.widthLimit := by
  cases hwidth : p.width with
  | none => simp [Directive.widthLimit]
  | some w =>
    have hw := (hp.width w hwidth).1
    simp only [Option.getD_some, Option.mem_some_iff, forall_eq']
    omega

theorem precision_le_iff {p : Placeholder} (hp : p.WellFormed) (bound : Nat) :
    (p.precision.map Int.toNat).getD 0 ≤ bound ↔ ∀ n ∈ p.precision, n ≤ bound := by
  cases hprecision : p.precision with
  | none => simp
  | some n =>
    have hn := (hp.precision n hprecision).1
    simp only [Option.map_some, Option.getD_some, Option.mem_some_iff, forall_eq']
    omega

theorem any_precisionLimit_eq_false_iff {p : Placeholder} (hp : p.WellFormed) :
    (p.precision.map Int.toNat).any (Directive.precisionLimit ≤ ·) = false ↔
      ∀ n ∈ p.precision, n < Directive.precisionLimit := by
  cases hprecision : p.precision with
  | none => simp
  | some n =>
    have hn := (hp.precision n hprecision).1
    simp only [Option.map_some, Option.any_some, decide_eq_false_iff_not, Option.mem_some_iff,
      forall_eq']
    omega

/-- The directive that a placeholder writes is read back if its numbers fit. -/
theorem ofText_specTail {p : Placeholder} (hp : p.WellFormed) {c : Char} (hc : p.conversion = [c])
    (hconversion : Directive.isConversion c) (index : Nat) :
    (p.Fits ∧ Directive.ofText index (specTail p) = .ok (p.directive c, [])) ∨
      (¬ p.Fits ∧ ∃ fault, Directive.ofText index (specTail p) = .error fault) := by
  have hmem := (hp.conversion_of_eq hc).1
  have hparts : Parts.ofText (specTail p) =
      ⟨p.flags, widthDigits p.width, precisionDigits? p.precision, [c]⟩ := by
    rw [specTail, hc]
    exact Parts.ofText_append hp.flags (fun _ => isDigit_of_mem_widthDigits)
      (readNumber?_widthDigits hp.width).2 (fun _ => isDigit_of_mem_precisionDigits) hmem
  have hsize : Directive.dropSize [c] = [c] := by
    have hletters : conversions.all fun c => Directive.dropSize [c] == [c] := by decide
    simpa using List.all_eq_true.1 hletters c hmem
  rw [Directive.ofText_eq, hparts]
  simp only [value_widthDigits, map_value_precisionDigits, hsize, hconversion, if_true]
  by_cases hw : (p.width.getD 0).toNat < Directive.widthLimit
  · rw [if_neg (Nat.not_le.2 hw)]
    cases hn : (p.precision.map Int.toNat).any (Directive.precisionLimit ≤ ·) with
    | false =>
      exact .inl ⟨⟨(lt_widthLimit_iff hp).1 hw, (any_precisionLimit_eq_false_iff hp).1 hn⟩, rfl⟩
    | true =>
      refine .inr ⟨fun h => ?_, _, rfl⟩
      rw [(any_precisionLimit_eq_false_iff hp).2 h.2] at hn
      cases hn
  · rw [if_pos (Nat.not_lt.1 hw)]
    exact .inr ⟨fun h => hw ((lt_widthLimit_iff hp).2 h.1), _, rfl⟩

theorem ofText_of_fits {p : Placeholder} (hp : p.WellFormed) {c : Char} (hc : p.conversion = [c])
    (hconversion : Directive.isConversion c) (hfits : p.Fits) (index : Nat) :
    Directive.ofText index (specTail p) = .ok (p.directive c, []) := by
  rcases ofText_specTail hp hc hconversion index with ⟨-, hread⟩ | ⟨hnot, -⟩
  · exact hread
  · exact absurd hfits hnot

/-! ### Layout -/

/-- What a directive needs to lay out an integer: room for zeros, and digits within the limit if they are
decimal. -/
theorem exists_layoutInt_iff (d : Directive) (n : Int) :
    (∃ s, d.layoutInt n = .ok s) ↔ d.precision.getD 0 ≤ Directive.precisionLimit - 4 ∧
      (d.base = 10 → n.natAbs < 10 ^ Numeral.digitLimit) := by
  unfold Directive.layoutInt
  by_cases hprecision : d.precision.getD 0 ≤ Directive.precisionLimit - 4
  · have hdigits : (∃ digits, d.intDigits n.natAbs = .ok digits) ↔
        (d.base = 10 → n.natAbs < 10 ^ Numeral.digitLimit) := by
      unfold Directive.intDigits Numeral.decimal
      rw [Int.natAbs_natCast]
      by_cases hbase : d.base = 10
      · by_cases hn : n.natAbs < 10 ^ Numeral.digitLimit <;> simp [hbase, hn]
      · simp [hbase]
    rw [if_neg (Nat.not_lt.2 hprecision), and_iff_right hprecision, ← hdigits]
    cases d.intDigits n.natAbs <;> simp
  · rw [if_pos (Nat.not_le.1 hprecision)]
    exact iff_of_false (by simp) fun h => hprecision h.1

/-- A specification lays out an argument if its numbers fit and its directive lays the argument out. -/
theorem exists_layout_iff {p : Placeholder} (hp : p.WellFormed) {c : Char} (hc : p.conversion = [c])
    (hconversion : Directive.isConversion c) (argument : Argument) :
    (∃ s, layout ('%' :: specTail p) argument = .ok s) ↔
      p.Fits ∧ ∀ n, argument = .int n → ∃ s, (p.directive c).layoutInt n = .ok s := by
  unfold layout
  rw [List.drop_one, List.tail_cons]
  rcases ofText_specTail hp hc hconversion 1 with ⟨hfits, hread⟩ | ⟨hfits, fault, hread⟩
  · rw [hread, and_iff_right hfits]
    cases argument with
    | text s => simp
    | double x => simp
    | int n => cases hlayout : (p.directive c).layoutInt n <;> simp [hlayout]
  · rw [hread]
    exact iff_of_false (by simp) fun h => hfits h.1

/-! ### Rendering -/

/-- A placeholder with another conversion, with its precision or without one. -/
def reshaped (p : Placeholder) (c : Char) (withPrecision : Bool) : Placeholder :=
  { p with conversion := [c], precision := if withPrecision then p.precision else none }

theorem specAs_eq (p : Placeholder) (c : Char) (withPrecision : Bool) :
    p.specAs [c] withPrecision = (p.reshaped c withPrecision).spec := by
  cases hprecision : p.precision <;> cases withPrecision <;> simp [spec, specAs, reshaped, hprecision]

/-- A placeholder without an alternate form stays well formed with any conversion. -/
theorem WellFormed.reshaped {p : Placeholder} (hp : p.WellFormed) (hflags : '#' ∉ p.flags) {c : Char}
    (hc : c ∈ conversions) (withPrecision : Bool) : (p.reshaped c withPrecision).WellFormed where
  conversion := ⟨c, hc, rfl, fun h => absurd h hflags⟩
  flags := hp.flags
  width := hp.width
  precision := by
    intro n hn
    cases withPrecision with
    | false => exact nomatch hn
    | true => exact hp.precision n hn

/-- What a placeholder and an argument need for a text: a width and a precision within their bounds, room
for the zeros in front of an integer, and digits within the limit where an integer is written in decimal. -/
structure Prints (p : Placeholder) (v : Value) : Prop where
  width : ∀ w ∈ p.width, w < Directive.widthLimit
  precision : p.conversion ≠ ['c'] → ∀ n ∈ p.precision, n < Directive.precisionLimit
  zeros : p.forIntegers → ∀ n ∈ p.precision, n ≤ (Directive.precisionLimit - 4 : Nat)
  digits : p.conversion ∈ [['s'], ['d'], ['i']] →
    ∀ n, v = .int n → n.natAbs < 10 ^ Numeral.digitLimit

/-- A value of an accepted kind has a canonical text if its digits are within the limit. -/
theorem exists_render_value_iff {p : Placeholder} {v : Value} (h : p.accepts v) :
    (∃ s, v.render = .ok s) ↔ ∀ n, v = .int n → n.natAbs < 10 ^ Numeral.digitLimit := by
  cases v with
  | int n =>
    by_cases hn : n.natAbs < 10 ^ Numeral.digitLimit <;>
      simp [Value.render, Value.inspect, Numeral.decimal, hn]
  | bool b => exact iff_of_true ⟨_, rfl⟩ (by simp)
  | double x => exact iff_of_true ⟨_, rfl⟩ (by simp)
  | text s => exact iff_of_true ⟨_, rfl⟩ (by simp)
  | null => simp [accepts] at h
  | list items => simp [accepts] at h
  | mapping entries => simp [accepts] at h

/-- The kinds of conversions: of any value, of characters, of doubles and of integers. -/
theorem conversion_cases {c : Char} (h : c ∈ conversions) :
    (c = 's' ∨ c = 'b') ∨ c = 'c' ∨
      (Text.includes doubleConversions [c] ∧ Text.includes integerConversions [c] = false) ∨
      (Text.includes doubleConversions [c] = false ∧ Text.includes integerConversions [c]) := by
  have hall : conversions.all fun c => (c == 's' || c == 'b') || c == 'c' ||
      (Text.includes doubleConversions [c] && !Text.includes integerConversions [c]) ||
      (!Text.includes doubleConversions [c] && Text.includes integerConversions [c]) := by decide
  simpa [or_assoc] using List.all_eq_true.1 hall c h

@[simp] theorem numeral_ok {α : Type} (a : α) : numeral (.ok a) = .ok a :=
  rfl

@[simp] theorem numeral_error {α : Type} (fault : NumeralFault) :
    numeral (.error fault : Except NumeralFault α) = .error (.directive (.numeral fault)) :=
  rfl

section Rendering

variable {p : Placeholder} {v : Value}

/-- Texts of values are laid out as texts. -/
theorem exists_render_iff_of_values (hp : p.WellFormed) (haccepts : p.accepts v)
    (hc : p.conversion = ['s'] ∨ p.conversion = ['b']) :
    (∃ s, p.render v = .ok s) ↔ p.Prints v := by
  have hflags : '#' ∉ p.flags := by
    rcases hc with hc | hc <;> exact fun h => absurd ((hp.conversion_of_eq hc).2 h) (by decide)
  have hplain : p.conversion ≠ ['c'] ∧ p.forIntegers = false := by
    unfold forIntegers
    rcases hc with hc | hc <;> rw [hc] <;> decide
  have hdigits : (p.conversion ∈ [['s'], ['d'], ['i']] → ∀ n, v = .int n →
      n.natAbs < 10 ^ Numeral.digitLimit) ↔ ∀ n, v = .int n → n.natAbs < 10 ^ Numeral.digitLimit := by
    refine ⟨fun h n hv => ?_, fun h _ => h⟩
    rcases hc with hc | hc
    · exact h (by simp [hc]) n hv
    · -- Such a placeholder takes truth values only.
      subst hv
      have hinteger : p.forIntegers = false := by rw [forIntegers, hc]; decide
      have hdouble : p.forDoubles = false := by rw [forDoubles, hc]; decide
      simp [accepts, hc, hinteger, hdouble] at haccepts
  have hprints : p.Prints v ↔ p.Fits ∧ ∀ n, v = .int n → n.natAbs < 10 ^ Numeral.digitLimit :=
    ⟨fun h => ⟨⟨h.width, h.precision hplain.1⟩, hdigits.1 h.digits⟩,
      fun h => ⟨h.1.1, fun _ => h.1.2, fun h => by simp [hplain.2] at h, hdigits.2 h.2⟩⟩
  have hwell := hp.reshaped hflags (c := 's') (by decide) true
  rw [hprints, ← exists_render_value_iff haccepts, render, if_pos (by simpa using hc), specAs_eq,
    spec_eq hwell]
  cases hvalue : v.render with
  | error fault => simp
  | ok s =>
    have hlayout := exists_layout_iff hwell rfl (by decide) (.text s)
    have hfits : (p.reshaped 's' true).Fits ↔ p.Fits := Iff.rfl
    simpa [hfits] using hlayout

/-- Characters are laid out as texts, without the precision. -/
theorem exists_render_iff_of_characters (hp : p.WellFormed) (hc : p.conversion = ['c']) :
    (∃ s, p.render v = .ok s) ↔ p.Prints v := by
  have hflags : '#' ∉ p.flags := fun h => absurd ((hp.conversion_of_eq hc).2 h) (by decide)
  have hinteger : p.forIntegers = false := by rw [forIntegers, hc]; decide
  have hprints : p.Prints v ↔ ∀ w ∈ p.width, w < Directive.widthLimit :=
    ⟨fun h => h.width,
      fun h => ⟨h, fun hne => absurd hc hne, fun h => by simp [hinteger] at h, by simp [hc]⟩⟩
  have hwell := hp.reshaped hflags (c := 'c') (by decide) false
  have hlayout := exists_layout_iff hwell rfl (by decide) (.text (character v))
  have hfits : (p.reshaped 'c' false).Fits ↔ ∀ w ∈ p.width, w < Directive.widthLimit := by
    simp [Fits, reshaped]
  rw [hprints, ← hfits, render, if_neg (by simp [hc]), if_pos (by simp [hc]), specAs_eq, spec_eq hwell]
  simpa using hlayout

/-- The conversions for numbers are none of the others. -/
theorem conversion_ne_of_numbers (h : p.forDoubles ∨ p.forIntegers) :
    p.conversion ≠ ['s'] ∧ p.conversion ≠ ['b'] ∧ p.conversion ≠ ['c'] := by
  rw [forDoubles, forIntegers] at h
  refine ⟨?_, ?_, ?_⟩ <;>
    · intro hc
      rw [hc] at h
      exact absurd h (by decide)

/-- The conversions for numbers take numbers only, those for integers no doubles. -/
theorem number_of_accepts (h : p.forDoubles ∨ p.forIntegers) (haccepts : p.accepts v) :
    (∃ n, v = .int n) ∨ ∃ x, v = .double x ∧ p.forDoubles := by
  obtain ⟨hs, hb, hc⟩ := conversion_ne_of_numbers h
  cases v with
  | int n => exact .inl ⟨n, rfl⟩
  | double x =>
    have hdouble : p.forDoubles ∧ p.forIntegers = false := by simpa [accepts, hs] using haccepts
    exact .inr ⟨x, rfl, hdouble.1⟩
  | bool b => simp [accepts, hs, hb] at haccepts
  | text s => simp [accepts, hs, hc] at haccepts
  | null => simp [accepts] at haccepts
  | list items => simp [accepts] at haccepts
  | mapping entries => simp [accepts] at haccepts

/-- Numbers are laid out by the specification itself. -/
theorem exists_layout_spec_iff (hp : p.WellFormed) (h : p.forDoubles ∨ p.forIntegers)
    {c : Char} (hc : p.conversion = [c]) (argument : Argument) :
    (∃ s, layout ('%' :: specTail p) argument = .ok s) ↔
      p.Fits ∧ ∀ n, argument = .int n → ∃ s, (p.directive c).layoutInt n = .ok s := by
  refine exists_layout_iff hp hc ?_ argument
  have hall : conversions.all fun c => c == 'b' || Directive.isConversion c := by decide
  have hne : c ≠ 'b' := by simpa [hc] using (conversion_ne_of_numbers h).2.1
  simpa [hne] using List.all_eq_true.1 hall c (hp.conversion_of_eq hc).1

/-- An integer that is not too large for a double, and a double, are laid out as a double. -/
theorem exists_render_iff_of_doubles (hp : p.WellFormed) (htakes : Takes p v)
    (hdouble : p.forDoubles) (hinteger : p.forIntegers = false) :
    (∃ s, p.render v = .ok s) ↔ p.Prints v := by
  obtain ⟨hs, hb, hne⟩ := conversion_ne_of_numbers (.inl hdouble)
  obtain ⟨c, -, hc, -⟩ := hp.conversion
  obtain ⟨x, hx⟩ : ∃ x, v.toNumber?.map Number.toDouble = some (.ok x) := by
    obtain ⟨haccepts, hlarge⟩ := htakes
    rcases number_of_accepts (.inl hdouble) haccepts with ⟨n, rfl⟩ | ⟨x, rfl, -⟩
    · have hfinite : (Double.ofInt n).isInfinite = false := by simpa [isTooLarge, hdouble] using hlarge
      exact ⟨Double.ofInt n, by simp [Value.toNumber?, Value.toInt?, Number.toDouble, hfinite]⟩
    · exact ⟨x, rfl⟩
  have hdecimal : p.conversion ∉ [['s'], ['d'], ['i']] := by
    intro hmem
    rw [forDoubles] at hdouble
    have hall : [['s'], ['d'], ['i']].all fun s => !Text.includes doubleConversions s := by decide
    simpa [hdouble] using List.all_eq_true.1 hall _ hmem
  have hprints : p.Prints v ↔ p.Fits :=
    ⟨fun h => ⟨h.width, h.precision hne⟩,
      fun h => ⟨h.1, fun _ => h.2, fun h => by simp [hinteger] at h, fun hmem => absurd hmem hdecimal⟩⟩
  have hlayout := exists_layout_spec_iff hp (.inl hdouble) hc (.double x)
  rw [hprints, render, if_neg (by simp [hs, hb]), if_neg (by simp [hne]), spec_eq hp, numeral_ok,
    Outcome.ok_bind, if_pos hdouble]
  simpa [hx] using hlayout

/-- An integer is laid out as one. -/
theorem exists_render_iff_of_integers (hp : p.WellFormed) (haccepts : p.accepts v)
    (hdouble : p.forDoubles = false) (hinteger : p.forIntegers) :
    (∃ s, p.render v = .ok s) ↔ p.Prints v := by
  obtain ⟨hs, hb, hne⟩ := conversion_ne_of_numbers (.inr hinteger)
  obtain ⟨c, hmem, hc, -⟩ := hp.conversion
  obtain ⟨n, rfl⟩ : ∃ n, v = .int n := by
    rcases number_of_accepts (.inr hinteger) haccepts with hint | ⟨x, -, h⟩
    · exact hint
    · simp [hdouble] at h
  have hbase : (p.directive c).base = 10 ↔ p.conversion ∈ [['s'], ['d'], ['i']] := by
    have hall : conversions.all fun c => !Text.includes integerConversions [c] ||
        (Directive.base ⟨.ofText [], 0, none, c⟩ == 10) == [['s'], ['d'], ['i']].contains [c] := by decide
    have hinteger : Text.includes integerConversions [c] := by rwa [forIntegers, hc] at hinteger
    have hletter := List.all_eq_true.1 hall c hmem
    rw [hinteger, Bool.not_true, Bool.false_or, beq_iff_eq] at hletter
    rw [hc, ← List.contains_iff_mem, ← hletter]
    exact beq_iff_eq.symm
  have hprints : p.Prints (.int n) ↔ p.Fits ∧
      (p.directive c).precision.getD 0 ≤ Directive.precisionLimit - 4 ∧
      ((p.directive c).base = 10 → n.natAbs < 10 ^ Numeral.digitLimit) := by
    rw [hbase, show (p.directive c).precision = p.precision.map Int.toNat from rfl, precision_le_iff hp]
    exact ⟨fun h => ⟨⟨h.width, h.precision hne⟩, h.zeros hinteger, fun hmem => h.digits hmem n rfl⟩,
      fun h => ⟨h.1.1, fun _ => h.1.2, fun _ => h.2.1, fun hmem m heq => by cases heq; exact h.2.2 hmem⟩⟩
  have hlayout := exists_layout_spec_iff hp (.inr hinteger) hc (.int n)
  rw [hprints, ← exists_layoutInt_iff, render, if_neg (by simp [hs, hb]), if_neg (by simp [hne]),
    spec_eq hp, numeral_ok, Outcome.ok_bind, if_neg (by simp [hdouble])]
  simpa [Value.toInt?] using hlayout

/-- An argument that the check of a template lets pass has a text exactly if the numbers of its placeholder
and its own digits are within their bounds. -/
theorem exists_render_iff (hp : p.WellFormed) (htakes : Takes p v) :
    (∃ s, p.render v = .ok s) ↔ p.Prints v := by
  obtain ⟨c, hmem, hc, -⟩ := hp.conversion
  rcases conversion_cases hmem with (rfl | rfl) | rfl | ⟨hdouble, hinteger⟩ | ⟨hdouble, hinteger⟩
  · exact exists_render_iff_of_values hp htakes.1 (.inl hc)
  · exact exists_render_iff_of_values hp htakes.1 (.inr hc)
  · exact exists_render_iff_of_characters hp hc
  · exact exists_render_iff_of_doubles hp htakes (by rw [forDoubles, hc, hdouble])
      (by rw [forIntegers, hc, hinteger])
  · exact exists_render_iff_of_integers hp htakes.1 (by rw [forDoubles, hc, hdouble])
      (by rw [forIntegers, hc, hinteger])

end Rendering

end Placeholder

/-! ### Templates -/

namespace Template

theorem wellFormed_of_mem {segments : List Segment} (h : Normal segments) {p : Placeholder}
    (hp : .placeholder p ∈ segments) : p.WellFormed := by
  fun_induction Normal segments with
  | case1 => exact nomatch hp
  | case2 s segments ih => exact ih h.2.2 (by simpa using hp)
  | case3 q segments ih =>
    rcases List.mem_cons.1 hp with heq | hp
    · obtain rfl : p = q := by simpa using heq
      exact h.1
    · exact ih h.2 hp

theorem normal_of_parse {source : Text} {t : Template} (h : parse source = .ok t) :
    Normal t.segments := by
  cases hsegments : parseFrom 0 source with
  | error fault => simp [parse, hsegments] at h
  | ok segments =>
    obtain rfl : ⟨source, segments⟩ = t := by simpa [parse, hsegments] using h
    exact (spells_of_parseFrom hsegments).1

/-- Segments render arguments if each placeholder renders its own. -/
theorem exists_renderSegments_iff (segments : List Segment) (args : List Value)
    (hlength : args.length = (placeholdersOf segments).length) :
    (∃ s, renderSegments segments args = .ok s) ↔
      ∀ pair ∈ (placeholdersOf segments).zip args, ∃ s, pair.1.render pair.2 = .ok s := by
  induction segments generalizing args with
  | nil => simp [renderSegments, placeholdersOf]
  | cons segment segments ih =>
    cases segment with
    | text s =>
      have hrest := ih args (by simpa [placeholdersOf] using hlength)
      have hsame : placeholdersOf (.text s :: segments) = placeholdersOf segments := rfl
      rw [hsame, ← hrest, renderSegments]
      cases renderSegments segments args <;> simp
    | placeholder p =>
      have hlength' : args.length = (placeholdersOf segments).length + 1 := by
        simpa [placeholdersOf] using hlength
      obtain ⟨v, args, rfl⟩ := List.exists_cons_of_length_eq_add_one hlength'
      have hrest := ih args (by simpa [placeholdersOf] using hlength)
      have hcons : placeholdersOf (.placeholder p :: segments) = p :: placeholdersOf segments := rfl
      rw [hcons, List.zip_cons_cons, List.forall_mem_cons, ← hrest, renderSegments, List.headD_cons,
        List.tail_cons]
      cases p.render v <;> cases renderSegments segments args <;> simp

/-- A parsed template renders arguments that pass the check exactly if each of them has a text. -/
theorem exists_render_iff {source : Text} {t : Template} (h : parse source = .ok t) {args : List Value}
    (hcheck : t.check args = .ok ()) :
    (∃ s, t.render args = .ok s) ↔ ∀ pair ∈ t.placeholders.zip args, pair.1.Prints pair.2 := by
  obtain ⟨hlength, htakes⟩ := (check_ok_iff t args).1 hcheck
  have hwell : ∀ pair ∈ t.placeholders.zip args, pair.1.WellFormed := fun pair hmem =>
    wellFormed_of_mem (normal_of_parse h) (mem_placeholders.1 (List.of_mem_zip hmem).1)
  simp only [render_ok_iff, hcheck, true_and]
  rw [exists_renderSegments_iff t.segments args hlength]
  exact forall₂_congr fun pair hmem => Placeholder.exists_render_iff (hwell pair hmem) (htakes pair hmem)

end Template

end Primitives
