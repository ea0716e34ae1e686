import Primitives.Proofs.Format.PlaceholderTexts
import Primitives.Text.Padding

/-!
# Texts in fields

A placeholder for texts cuts what it shows to the precision and fills it up to the width with spaces: behind it with
the flag `-`, otherwise in front. So it does what substrings and padding do, and no other flag matters. A value is
shown by its canonical text, and a character as it is, whatever precision is written.

## Main definitions

* `Value.IsPrimitive`: primitive values, with integers within the limit of decimal numerals.
* `PlaceholderText.cut`, `PlaceholderText.textField`: texts cut to the precision and padded to the width.
* `PlaceholderText.AdmitsText`: the limits within which texts are shown.
* `PlaceholderText.AgreesOn`: templates that differ in flags other than `-`.

## Main results

* `Placeholder.render_value`, `Placeholder.render_character`: texts are laid out by a directive.
* `PlaceholderText.formatted_value`, `PlaceholderText.formatted_character`: formatting gives the field.
* `Action.formatText_text_field`: the fields of values and characters, in every session.
-/

namespace Primitives

open Text Template

/-! ### Primitive values -/

/-- Truth values, integers within the limit of decimal numerals, doubles and texts. -/
def Value.IsPrimitive : Value → Prop
  | .bool _ | .double _ | .text _ => True
  | .int n => n.natAbs < 10 ^ Numeral.digitLimit
  | _ => False

theorem Value.IsPrimitive.exists_render {v : Value} (h : v.IsPrimitive) : ∃ t, v.render = .ok t := by
  cases v with
  | int n =>
    have hn : n.natAbs < 10 ^ Numeral.digitLimit := h
    simp [render, inspect, Numeral.decimal, hn]
  | bool b => exact ⟨_, rfl⟩
  | double x => exact ⟨_, rfl⟩
  | text s => exact ⟨_, rfl⟩
  | null | list _ | mapping _ => exact absurd h not_false

/-! ### Layout -/

theorem Text.substring_zero (s : Text) (n : Nat) : s.substring 0 (some n) = s.take n := by
  simp [substring, part, clamp]

namespace Directive

/-- Filling with spaces is padding. -/
theorem fill_eq (d : Directive) (s : Text) :
    d.fill s = if d.flags.left then s.padRight d.width [' '] else s.padLeft d.width [' '] := by
  have hfilling : s.filling d.width [' '] = List.replicate (d.width - s.length) ' ' := by
    rw [filling, Int.toNat_sub]
  rw [fill, padRight, padLeft, hfilling]

/-- Cutting to a precision is taking a substring. -/
theorem layoutText_eq (d : Directive) (s : Text) :
    d.layoutText s = d.fill (d.precision.elim s fun n => s.substring 0 (some n)) := by
  rw [layoutText]
  cases d.precision with
  | none => rfl
  | some n => rw [Option.elim_some, substring_zero]

end Directive

namespace Placeholder

variable {p : Placeholder}

/-- A specification lays out a text by its directive. -/
theorem layout_text (hp : p.WellFormed) {c : Char} (hc : p.conversion = [c]) (hconversion : Directive.isConversion c)
    (hfits : p.Fits) (s : Text) : layout ('%' :: specTail p) (.text s) = .ok ((p.directive c).layoutText s) := by
  simp [layout, ofText_of_fits hp hc hconversion hfits]

/-- A placeholder for values lays out canonical texts. -/
theorem render_value (hp : p.WellFormed) (hc : p.conversion = ['s'] ∨ p.conversion = ['b']) (hfits : p.Fits)
    (v : Value) : p.render v = (numeral v.render).map (p.directive 's').layoutText := by
  have hflags : '#' ∉ p.flags := by
    rcases hc with hc | hc <;> exact fun h => absurd ((hp.conversion_of_eq hc).2 h) (by decide)
  have hwell := hp.reshaped hflags (c := 's') (by decide) true
  rw [render, if_pos (by simpa using hc), specAs_eq, spec_eq hwell, numeral_ok, Outcome.ok_bind]
  cases v.render with
  | error fault => rfl
  | ok s => exact layout_text hwell rfl (by decide) hfits s

/-- A placeholder for characters lays them out without a precision. -/
theorem render_character (hp : p.WellFormed) (hc : p.conversion = ['c'])
    (hwidth : ∀ w ∈ p.width, w < Directive.widthLimit) (v : Value) :
    p.render v = .ok ((p.directive 'c').fill (character v)) := by
  have hflags : '#' ∉ p.flags := fun h => absurd ((hp.conversion_of_eq hc).2 h) (by decide)
  have hwell := hp.reshaped hflags (c := 'c') (by decide) false
  rw [render, if_neg (by simp [hc]), if_pos (by simp [hc]), specAs_eq, spec_eq hwell, numeral_ok, Outcome.ok_bind]
  exact layout_text hwell rfl (by decide) ⟨hwidth, fun n hn => absurd hn (Option.not_mem_none n)⟩ _

end Placeholder

namespace PlaceholderText

/-! ### Fields -/

variable (f : PlaceholderText)

/-- A text cut to the precision, if one is written. -/
def cut (t : Text) : Text :=
  match f.precision with
  | none => t
  | some digits => t.substring 0 (some (Numeral.value digits))

/-- A text padded to the width, if one is written: on the right with the flag `-`, otherwise on the left. -/
def textField (t : Text) : Text :=
  if f.width = [] then t
  else if '-' ∈ f.flags then t.padRight f.leastWidth [' ']
  else t.padLeft f.leastWidth [' ']

/-- The written numbers are within the limits of the host; characters have no precision. -/
structure AdmitsText : Prop where
  readable : f.Readable
  width : f.leastWidth < Directive.widthLimit
  precision : f.conversion ≠ 'c' → ∀ digits ∈ f.precision, Numeral.value digits < Directive.precisionLimit

/-- Two templates are the same except for the flags that do not matter to texts. -/
structure AgreesOn (g : PlaceholderText) : Prop where
  conversion : g.conversion = f.conversion
  width : g.width = f.width
  precision : g.precision = f.precision
  left : '-' ∈ g.flags ↔ '-' ∈ f.flags

variable {f} {g : PlaceholderText} {v : Value}

/-- The directive of a placeholder fills up to its width. -/
theorem fill_directive (c : Char) (t : Text) : (f.placeholder.directive c).fill t = f.textField t := by
  have hleft : (f.placeholder.directive c).flags.left = f.flags.contains '-' := rfl
  rw [Directive.fill_eq, width_directive, hleft, textField]
  by_cases hnone : f.width = []
  · have hzero : f.leastWidth = 0 := by rw [leastWidth, hnone]; rfl
    have hfilling : t.filling (0 : Nat) [' '] = [] := by
      rw [filling, Int.toNat_sub, Nat.zero_sub, List.replicate_zero]
    rw [if_pos hnone, hzero, padRight, padLeft, hfilling, List.append_nil, List.nil_append, ite_self]
  · simp [hnone]

theorem layoutText_directive (c : Char) (t : Text) :
    (f.placeholder.directive c).layoutText t = f.textField (f.cut t) := by
  have hprecision : (f.placeholder.directive c).precision = f.precision.map Numeral.value := by
    simp [Placeholder.directive, placeholder, Function.comp_def]
  rw [Directive.layoutText_eq, fill_directive, hprecision, cut]
  cases f.precision <;> rfl

/-! ### Formatting -/

theorem fits_placeholder_of_admitsText (hf : f.AdmitsText) (hc : f.conversion ≠ 'c') : f.placeholder.Fits :=
  ⟨(forall_width_lt_iff (Nat.two_pow_pos _)).2 hf.width, forall_precision_lt_iff.2 (hf.precision hc)⟩

/-- Values are rendered by the canonical text, cut and padded. -/
theorem render_value (hf : f.AdmitsText) (hc : f.conversion = 's' ∨ f.conversion = 'b') (v : Value) :
    f.placeholder.render v = (Placeholder.numeral v.render).map fun t => f.textField (f.cut t) := by
  have hplain : f.conversion ≠ 'c' := by rcases hc with hc | hc <;> rw [hc] <;> decide
  have hletter : f.placeholder.conversion = ['s'] ∨ f.placeholder.conversion = ['b'] :=
    hc.imp (congrArg ([·])) (congrArg ([·]))
  rw [Placeholder.render_value (wellFormed_placeholder hf.readable) hletter (fits_placeholder_of_admitsText hf hplain)]
  congr 1
  funext t
  exact layoutText_directive 's' t

/-- Characters are rendered padded. -/
theorem render_character (hf : f.AdmitsText) (hc : f.conversion = 'c') (v : Value) :
    f.placeholder.render v = .ok (f.textField (Placeholder.character v)) := by
  rw [Placeholder.render_character (wellFormed_placeholder hf.readable) (congrArg ([·]) hc)
    ((forall_width_lt_iff (Nat.two_pow_pos _)).2 hf.width), fill_directive]

/-- Placeholders for texts take what they accept. -/
theorem takes_iff_accepts (hc : f.conversion ∈ ['s', 'b', 'c']) : Takes f.placeholder v ↔ f.placeholder.accepts v := by
  have hall : ['s', 'b', 'c'].all fun c => !Text.includes Placeholder.doubleConversions [c] := by decide
  have hdoubles : f.placeholder.forDoubles = false := by
    simpa [Placeholder.forDoubles, placeholder] using List.all_eq_true.1 hall _ hc
  cases v <;> simp [Takes, isTooLarge, hdoubles]

/-- A template of a placeholder for values formats a value of an accepted kind as its field. -/
theorem formatted_value (hf : f.AdmitsText) (hc : f.conversion = 's' ∨ f.conversion = 'b')
    (haccepts : f.placeholder.accepts v) {t : Text} (ht : v.render = .ok t) :
    formatted f.source [v] = .ok (f.textField (f.cut t)) := by
  have hletter : f.conversion ∈ ['s', 'b', 'c'] := by rcases hc with hc | hc <;> simp [hc]
  refine (formatted_source_iff hf.readable).2 ⟨(takes_iff_accepts hletter).2 haccepts, ?_⟩
  rw [render_value hf hc, ht]
  rfl

/-- A template of a placeholder for characters formats a character, or its code, as its field. -/
theorem formatted_character (hf : f.AdmitsText) (hc : f.conversion = 'c') (haccepts : f.placeholder.accepts v) :
    formatted f.source [v] = .ok (f.textField (Placeholder.character v)) :=
  (formatted_source_iff hf.readable).2 ⟨(takes_iff_accepts (by simp [hc])).2 haccepts, render_character hf hc v⟩

/-! ### Flags -/

namespace AgreesOn

variable (h : f.AgreesOn g)

include h

theorem textField (t : Text) : g.textField t = f.textField t := by
  simp only [PlaceholderText.textField, leastWidth, h.width, h.left]

theorem cut (t : Text) : g.cut t = f.cut t := by
  rw [PlaceholderText.cut, PlaceholderText.cut, h.precision]

theorem admitsText (hf : f.AdmitsText) : g.AdmitsText where
  readable := ⟨h.width ▸ hf.readable.width, h.precision ▸ hf.readable.precision⟩
  width := by
    rw [leastWidth, h.width]
    exact hf.width
  precision := by
    rw [h.conversion, h.precision]
    exact hf.precision

/-- The flags other than `-` do not matter to what a placeholder of texts takes and renders. -/
theorem formatted (hf : f.AdmitsText) (hc : f.conversion ∈ ['s', 'b', 'c']) {s : Text}
    (hs : Template.formatted f.source [v] = .ok s) : Template.formatted g.source [v] = .ok s := by
  have hg := h.admitsText hf
  obtain ⟨htakes, hrender⟩ := (formatted_source_iff hf.readable).1 hs
  have hsame : g.placeholder.render v = f.placeholder.render v := by
    by_cases hcharacter : f.conversion = 'c'
    · rw [render_character hg (h.conversion.trans hcharacter), render_character hf hcharacter, h.textField]
    · have hvalue : f.conversion = 's' ∨ f.conversion = 'b' := by simpa [hcharacter] using hc
      rw [render_value hg (by rwa [h.conversion]), render_value hf hvalue]
      simp only [h.textField, h.cut]
  have haccepts : g.placeholder.accepts v = f.placeholder.accepts v := by
    simp only [Placeholder.accepts, Placeholder.forIntegers, Placeholder.forDoubles, placeholder, h.conversion]
  refine (formatted_source_iff hg.readable).2 ⟨?_, hsame.trans hrender⟩
  rwa [takes_iff_accepts (by rwa [h.conversion]), haccepts, ← takes_iff_accepts hc]

end AgreesOn

end PlaceholderText

namespace Action

/-- **Fields of texts are substrings, padded.** A template that is one placeholder with the conversion `s`, and a width
and a precision within the limits of the host, shows every primitive value, in every session: the canonical text, cut
to the substring of the precision if there is one, padded on the right with the flag `-` and on the left without it,
if there is a width. The conversion `b` does the same for truth values, and `c` pads a character, or that of a code
below 256, whatever the precision is. What is formatted with some flags is formatted to the same text with others, as
long as `-` is among both or none of them. -/
theorem formatText_text_field {session : Session} (h : session.templates.Sound) (f : PlaceholderText)
    (hf : f.AdmitsText) :
    (f.conversion = 's' → ∀ v : Value, v.IsPrimitive → ∃ t, v.render = .ok t ∧
      ((formatText f.source [v]).runOn session).1 = .ok (f.textField (f.cut t))) ∧
    (f.conversion = 'b' → ∀ b, ∃ t, (Value.bool b).render = .ok t ∧
      ((formatText f.source [.bool b]).runOn session).1 = .ok (f.textField (f.cut t))) ∧
    (f.conversion = 'c' → ∀ c, ((formatText f.source [.text [c]]).runOn session).1 = .ok (f.textField [c])) ∧
    (f.conversion = 'c' → ∀ n : Int, 0 ≤ n → n ≤ 255 →
      ((formatText f.source [.int n]).runOn session).1 = .ok (f.textField [Char.ofNat n.toNat])) ∧
    (f.conversion ∈ ['s', 'b', 'c'] → ∀ g, f.AgreesOn g → ∀ v s,
      ((formatText f.source [v]).runOn session).1 = .ok s → ((formatText g.source [v]).runOn session).1 = .ok s) := by
  simp only [formatText_ok_iff h]
  refine ⟨fun hc v hv => ?_, fun hc b => ⟨_, rfl, ?_⟩, fun hc c => ?_, fun hc n hlow hhigh => ?_,
    fun hc g hg v s hs => hg.formatted hf hc hs⟩
  · obtain ⟨t, ht⟩ := hv.exists_render
    refine ⟨t, ht, PlaceholderText.formatted_value hf (.inl hc) ?_ ht⟩
    cases v <;> simp_all [Placeholder.accepts, PlaceholderText.placeholder, Value.IsPrimitive]
  · refine PlaceholderText.formatted_value hf (.inr hc) ?_ rfl
    simp [Placeholder.accepts, PlaceholderText.placeholder, hc]
  · refine PlaceholderText.formatted_character hf hc ?_
    simp [Placeholder.accepts, PlaceholderText.placeholder, hc]
  · refine PlaceholderText.formatted_character hf hc ?_
    simp [Placeholder.accepts, PlaceholderText.placeholder, hc, hlow, hhigh]

/-- The flag for zeros does not fill a text with them, and a negative integer is cut behind its sign like a text. -/
theorem formatText_text_field_cut :
    ((formatText "%0+ 6.003s".toList [.int (-12345)]).runOn (.fresh ⟨.empty, .root⟩)).1 = .ok "   -12".toList ∧
      ((formatText "%0+ 6.003s".toList [.text "aé€z".toList]).runOn (.fresh ⟨.empty, .root⟩)).1 =
        .ok "   aé€".toList := by
  let f : PlaceholderText := {
    flags := "0+ ".toList
    width := "6".toList
    precision := some "003".toList
    conversion := 's'
    isFlag_of_mem := List.all_eq_true.1 rfl
    isDigit_of_mem_width := List.all_eq_true.1 rfl
    head?_width := by decide
    isDigit_of_mem_precision := by
      rintro digits ⟨⟩
      exact List.all_eq_true.1 rfl
    mem_conversions := by decide
    mem_alternateConversions := by decide }
  have hsource : f.source = "%0+ 6.003s".toList := rfl
  have hadmits : f.AdmitsText := ⟨⟨by decide, by decide⟩, by decide, fun _ => by decide⟩
  have hsound : (Session.fresh ⟨.empty, .root⟩).templates.Sound := TemplateCache.Sound.empty
  obtain ⟨hvalue, -⟩ := formatText_text_field hsound f hadmits
  have hdigits : (-12345 : Int).natAbs < 10 ^ Numeral.digitLimit := by decide +kernel
  obtain ⟨t, ht, hint⟩ := hvalue rfl (.int (-12345)) hdigits
  obtain ⟨t', ht', htext⟩ := hvalue rfl (.text "aé€z".toList) trivial
  obtain rfl : "-12345".toList = t := Except.ok.inj (Eq.trans (by decide +kernel) ht)
  obtain rfl : "aé€z".toList = t' := Except.ok.inj ht'
  rw [hsource] at hint htext
  exact ⟨hint.trans (congrArg _ (by decide +kernel)), htext.trans (congrArg _ (by decide +kernel))⟩

end Action

end Primitives
