import Mathlib.Data.List.TakeWhile
import Primitives.Format.Template
import Primitives.Proofs.Number.Numerals

/-!
# Segments of templates

A list of segments is *normal* when its texts are not empty, no two of them are adjacent, and its
placeholders are well formed: each has one conversion, flags that the conversion takes, a width of at
least one if any and a precision of at least zero if any. A segment is written as a text with every
percent sign doubled, or as the specification of its placeholder.

The written form is one way to spell segments. The relation `Template.Spells` holds of all of them: a
width or a precision may be spelled with any digits of its value, and a precision of zero with none. It
also fixes the offsets, since every placeholder begins where the text in front of it ends.

## Main definitions

* `Placeholder.WellFormed`, `Template.Normal`: well-formed placeholders and normal segments.
* `Template.written`: the written form.
* `Placeholder.SpelledBy`, `Template.Spells`: the texts that spell a placeholder and segments.

## Main results

* `Template.parseFrom_percent`, `Template.parseFrom_char`: the steps of parsing.
* `Template.Spells.getElem?_offset`: a percent sign stands at the offset of every placeholder.
* `Template.Spells.pairwise_offset`: offsets increase.
-/

namespace Primitives

open Text

/-! ### Normal segments -/

/-- A placeholder that can stand in a template. -/
structure Placeholder.WellFormed (p : Placeholder) : Prop where
  conversion : ∃ c ∈ Template.conversions, p.conversion = [c] ∧
    ('#' ∈ p.flags → c ∈ Template.alternateConversions)
  flags : ∀ f ∈ p.flags, isFlag f
  width : ∀ w ∈ p.width, 1 ≤ w ∧ w < 10 ^ Numeral.digitLimit
  precision : ∀ n ∈ p.precision, 0 ≤ n ∧ n < 10 ^ Numeral.digitLimit

/-- A segment without the place of its placeholder. -/
def Segment.withoutOffset : Segment → Segment
  | .text s => .text s
  | .placeholder p => .placeholder { p with offset := 0 }

namespace Template

/-- Texts are not empty and not adjacent, and placeholders are well formed. -/
def Normal : List Segment → Prop
  | [] => True
  | .text s :: segments => s ≠ [] ∧ (∀ t, segments.head? ≠ some (.text t)) ∧ Normal segments
  | .placeholder p :: segments => p.WellFormed ∧ Normal segments

/-! ### Written segments -/

/-- A text with every percent sign doubled. -/
def doubled (s : Text) : Text :=
  s.flatMap fun c => if c = '%' then ['%', '%'] else [c]

/-- The template text of segments: texts with their percent signs doubled, and the specifications of
placeholders. -/
def written : List Segment → Except NumeralFault Text
  | [] => .ok []
  | .text s :: segments => do return doubled s ++ (← written segments)
  | .placeholder p :: segments => do return (← p.spec) ++ (← written segments)

theorem doubled_cons (c : Char) (s : Text) : doubled (c :: s) = doubled [c] ++ doubled s := by
  simp [doubled]

end Template

/-! ### Spellings -/

namespace Placeholder

/-- Digits spell a width, and no digits spell no width. -/
def WidthSpelledBy (width : Option Int) (digits : Text) : Prop :=
  (∀ c ∈ digits, isDigit c) ∧
    width = if digits = [] then none else some (Numeral.value digits : Int)

/-- A point and digits spell a precision, and nothing spells no precision. -/
def PrecisionSpelledBy (precision : Option Int) (s : Text) : Prop :=
  (s = [] ∧ precision = none) ∨ ∃ digits : Text, s = '.' :: digits ∧ (∀ c ∈ digits, isDigit c) ∧
    precision = some (Numeral.value digits : Int)

/-- A percent sign, the flags, a width, a precision and the conversion spell a placeholder. -/
def SpelledBy (p : Placeholder) (s : Text) : Prop :=
  ∃ width precision, WidthSpelledBy p.width width ∧ PrecisionSpelledBy p.precision precision ∧
    s = '%' :: (p.flags ++ width ++ precision ++ p.conversion)

theorem SpelledBy.head? {p : Placeholder} {s : Text} (h : p.SpelledBy s) : s.head? = some '%' := by
  obtain ⟨width, precision, -, -, rfl⟩ := h
  rfl

end Placeholder

namespace Template

/-- A text spells segments from an offset on: texts by doubled percent signs, and every placeholder
beginning at its own offset. -/
inductive Spells : Nat → List Segment → Text → Prop
  | nil (offset : Nat) : Spells offset [] []
  | text {offset : Nat} {s rest : Text} {segments : List Segment}
      (hrest : Spells (offset + (doubled s).length) segments rest) :
      Spells offset (.text s :: segments) (doubled s ++ rest)
  | placeholder {p : Placeholder} {s rest : Text} {segments : List Segment} (hp : p.SpelledBy s)
      (hrest : Spells (p.offset + s.length) segments rest) :
      Spells p.offset (.placeholder p :: segments) (s ++ rest)

namespace Spells

/-- Every placeholder is opened by the percent sign at its offset. -/
theorem getElem?_offset {offset : Nat} {segments : List Segment} {s : Text}
    (h : Spells offset segments s) {p : Placeholder} (hp : .placeholder p ∈ segments) :
    offset ≤ p.offset ∧ s[p.offset - offset]? = some '%' := by
  induction h with
  | nil => simp at hp
  | @text offset t rest segments hrest ih =>
    obtain ⟨hle, hpercent⟩ := ih (by simpa using hp)
    refine ⟨by omega, ?_⟩
    rw [List.getElem?_append_right (by omega)]
    rwa [Nat.sub_sub]
  | @placeholder q t rest segments hq hrest ih =>
    have hlength : 0 < t.length := List.length_pos_of_mem (List.mem_of_head? hq.head?)
    rcases List.mem_cons.1 hp with heq | hp
    · obtain rfl : p = q := by simpa using heq
      refine ⟨le_rfl, ?_⟩
      rw [Nat.sub_self, List.getElem?_append_left hlength, ← List.head?_eq_getElem?, hq.head?]
    · obtain ⟨hle, hpercent⟩ := ih hp
      refine ⟨by omega, ?_⟩
      rw [List.getElem?_append_right (by omega)]
      rwa [Nat.sub_sub]

/-- Offsets increase strictly from one placeholder to the next. -/
theorem pairwise_offset {offset : Nat} {segments : List Segment} {s : Text}
    (h : Spells offset segments s) :
    segments.Pairwise fun a b => ∀ p q, a = .placeholder p → b = .placeholder q →
      p.offset < q.offset := by
  induction h with
  | nil => exact .nil
  | text hrest ih =>
    refine List.pairwise_cons.2 ⟨?_, ih⟩
    rintro b - p q ⟨⟩
  | @placeholder q t rest segments hq hrest ih =>
    have hlength : 0 < t.length := List.length_pos_of_mem (List.mem_of_head? hq.head?)
    refine List.pairwise_cons.2 ⟨?_, ih⟩
    rintro b hb p r ⟨⟩ rfl
    have hle := (hrest.getElem?_offset hb).1
    omega

/-- A character in front of spelled segments is spelled as it is, or doubled if it is a percent
sign. -/
theorem consChar {offset : Nat} {segments : List Segment} {s : Text} {c : Char}
    (h : Spells (offset + (doubled [c]).length) segments s) :
    Spells offset (Template.consChar c segments) (doubled [c] ++ s) := by
  generalize hstart : offset + (doubled [c]).length = start at h
  cases h with
  | @text _ t rest segments hrest =>
    rw [← List.append_assoc, ← doubled_cons]
    refine .text ?_
    rwa [doubled_cons, List.length_append, ← Nat.add_assoc, hstart]
  | nil => exact .text (.nil _)
  | placeholder hp hrest => exact .text (hstart ▸ .placeholder hp hrest)

end Spells

/-- A character in front of normal segments leaves them normal. -/
theorem Normal.consChar {segments : List Segment} (h : Normal segments) (c : Char) :
    Normal (Template.consChar c segments) := by
  cases segments with
  | nil => exact ⟨by simp, by simp, h⟩
  | cons first segments =>
    cases first with
    | text t => exact ⟨by simp, h.2⟩
    | placeholder p => exact ⟨by simp, by simp, h⟩

/-! ### Steps of parsing -/

theorem parseFrom_nil (offset : Nat) : parseFrom offset [] = .ok [] := by
  unfold parseFrom
  rfl

theorem parseFrom_twoPercents (offset : Nat) (s : Text) :
    parseFrom offset ('%' :: '%' :: s) = (parseFrom (offset + 2) s).map (consChar '%') := by
  rw [parseFrom]

theorem parseFrom_char {c : Char} (hc : c ≠ '%') (offset : Nat) (s : Text) :
    parseFrom offset (c :: s) = (parseFrom (offset + 1) s).map (consChar c) := by
  rw [parseFrom]
  · exact fun t h _ => hc h
  · exact fun h => hc h

/-- A percent sign that is not doubled opens a placeholder. -/
theorem parseFrom_percent {s : Text} (hs : s.head? ≠ some '%') (offset : Nat) {c : Char}
    {rest : Text} (hrest : (Parts.ofText s).rest = c :: rest) :
    parseFrom offset ('%' :: s) = do
      let p ← makePlaceholder (Parts.ofText s) c offset
      let segments ← parseFrom (offset + 1 + (s.length - rest.length)) rest
      return .placeholder p :: segments := by
  rw [parseFrom]
  · split
    · next h => simp [hrest] at h
    · next c' rest' h =>
      obtain ⟨rfl, rfl⟩ : c = c' ∧ rest = rest' := by simpa [hrest] using h
      rfl
  · rintro t rfl
    exact hs rfl

/-- A percent sign behind which no conversion stands gives no template. -/
theorem parseFrom_incomplete {s : Text} (hs : s.head? ≠ some '%') (offset : Nat)
    (hrest : (Parts.ofText s).rest = []) :
    parseFrom offset ('%' :: s) =
      (incompletePlaceholder (Parts.ofText s) offset).map fun _ => [] := by
  rw [parseFrom]
  · split
    · rfl
    · next h => simp [hrest] at h
  · rintro t rfl
    exact hs rfl

end Template

end Primitives
