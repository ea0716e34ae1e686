import Primitives.Number.Literal
import Primitives.Proofs.Text.Ascii

/-!
# Trimming

Trimming a text leaves what stands between its blanks. There is only one such text that neither begins nor ends with
a blank, so it does not matter from which side the blanks are taken first, and reading a text backwards trims it to the
same text read backwards. Numbers are read between the same blanks: a text, the text that trimming leaves of it and the
text with further blanks around it are read alike, malformed ones included.

## Main definitions

* `Text.IsBlankRun`: texts that are empty or in the class of blanks.
* `Text.IsTrimmed`: texts without a blank at either end.

## Main results

* `Text.trim_eq_iff`: what trimming leaves.
* `Text.trim_reverse`, `Text.trimLeft_trimRight`: both sides in either order.
* `parse_congr`: numbers are read between blanks.
* `trim_and_parse_blanks`: all laws of blanks.
-/

namespace Primitives

namespace Text

variable {s t u v : Text}

/-! ### Blanks and trimmed texts -/

/-- A text that is empty or lies in the class of blanks. -/
def IsBlankRun (u : Text) : Prop :=
  u = [] ∨ consistsOf isBlank u

instance (u : Text) : Decidable (IsBlankRun u) :=
  inferInstanceAs (Decidable (_ ∨ _))

theorem isBlankRun_iff : IsBlankRun u ↔ ∀ c ∈ u, isBlank c := by
  rw [IsBlankRun, consistsOf_iff]
  constructor
  · rintro (rfl | ⟨-, hblank⟩)
    · exact fun c hc => nomatch hc
    · exact hblank
  · intro hblank
    by_cases hempty : u = []
    · exact .inl hempty
    · exact .inr ⟨hempty, hblank⟩

/-- A text that neither begins nor ends with a blank. -/
structure IsTrimmed (t : Text) : Prop where
  first : ∀ c ∈ t.head?, isBlank c = false
  last : ∀ c ∈ t.getLast?, isBlank c = false

theorem IsTrimmed.reverse (h : IsTrimmed t) : IsTrimmed t.reverse :=
  ⟨by simpa using h.last, by simpa using h.first⟩

theorem IsBetweenBlanks.reverse (h : IsBetweenBlanks t s) : IsBetweenBlanks t.reverse s.reverse := by
  obtain ⟨u, v, hu, hv, rfl⟩ := h
  exact ⟨v.reverse, u.reverse, by simpa using hv, by simpa using hu, by simp⟩

/-! ### What trimming leaves -/

theorem trimLeft_of_head (h : ∀ c ∈ t.head?, isBlank c = false) : trimLeft t = t :=
  (takeWhile_dropWhile_append (s := []) (fun _ hc => nomatch hc) h).2

theorem trimRight_eq (s : Text) : trimRight s = (trimLeft s.reverse).reverse :=
  rfl

theorem head?_trimLeft {c : Char} (hc : c ∈ (trimLeft s).head?) : isBlank c = false := by
  have hnot := List.head?_dropWhile_not isBlank s
  rw [← trimLeft, hc] at hnot
  simpa using hnot

/-- A text without blanks at its ends is not changed. -/
theorem IsTrimmed.trim_eq (h : IsTrimmed t) : trim t = t := by
  rw [trim, trimLeft_of_head h.first, trimRight_eq, trimLeft_of_head h.reverse.first, List.reverse_reverse]

/-- What trimming leaves has no blanks at its ends. -/
theorem isTrimmed_trim (s : Text) : IsTrimmed (trim s) := by
  constructor
  · intro c hc
    -- What is taken from the right does not change how the text begins.
    obtain ⟨blanks, hblanks⟩ : trim s <+: trimLeft s := by
      rw [trim, trimRight_eq, ← List.reverse_suffix, List.reverse_reverse]
      exact List.dropWhile_suffix isBlank
    refine head?_trimLeft (s := s) ?_
    rw [← hblanks, List.head?_append, hc]
    rfl
  · intro c hc
    rw [trim, trimRight_eq, List.getLast?_reverse] at hc
    exact head?_trimLeft hc

/-- Trimming leaves the one text between blanks that has no blanks at its ends. -/
theorem trim_eq_iff : trim s = t ↔ IsBetweenBlanks t s ∧ IsTrimmed t := by
  constructor
  · rintro rfl
    exact ⟨isBetweenBlanks_trim s, isTrimmed_trim s⟩
  · rintro ⟨⟨u, v, hu, hv, rfl⟩, htrimmed⟩
    rw [trim_append hu hv, htrimmed.trim_eq]

theorem trim_trim (s : Text) : trim (trim s) = trim s :=
  (isTrimmed_trim s).trim_eq

theorem trim_reverse (s : Text) : trim s.reverse = (trim s).reverse :=
  trim_eq_iff.2 ⟨(isBetweenBlanks_trim s).reverse, (isTrimmed_trim s).reverse⟩

/-- Blanks are taken from the right first as well. -/
theorem trimLeft_trimRight (s : Text) : trimLeft (trimRight s) = trim s := by
  have hbackwards : trimLeft (trimRight s) = (trim s.reverse).reverse := by
    rw [trim, trimRight_eq, trimRight_eq, List.reverse_reverse]
  rw [hbackwards, trim_reverse, List.reverse_reverse]

end Text

open Text

/-! ### Numbers between blanks -/

/-- Numbers are read from what trimming leaves. -/
theorem parse_congr {s t : Text} (h : trim s = trim t) : parseInt s = parseInt t ∧ parseDouble s = parseDouble t := by
  constructor
  · rw [parseInt, parseInt, h]
  · rw [parseDouble, parseDouble, h]

/-- **Trimming and reading numbers take the same blanks.** For every text, blanks are taken from both sides in either
order. A text is what trimming leaves of it between two texts that are empty or in the class of blanks, and what is left
neither begins nor ends with a character of this class. And what an integer or a double is read as does not change,
be it a value, none or a fault, when a text is trimmed or when such texts are put around it. -/
theorem trim_and_parse_blanks (s : Text) :
    (trim s = trimLeft (trimRight s) ∧ trim s = trimRight (trimLeft s)) ∧
    (∃ u v, IsBlankRun u ∧ IsBlankRun v ∧ s = u ++ trim s ++ v) ∧
    (∀ c, (trim s).head? = some c ∨ (trim s).getLast? = some c → consistsOf isBlank [c] = false) ∧
    (parseInt (trim s) = parseInt s ∧ parseDouble (trim s) = parseDouble s) ∧
    ∀ u v, IsBlankRun u → IsBlankRun v →
      parseInt (u ++ s ++ v) = parseInt s ∧ parseDouble (u ++ s ++ v) = parseDouble s := by
  refine ⟨⟨(trimLeft_trimRight s).symm, rfl⟩, ?_, fun c hc => ?_, parse_congr (trim_trim s), fun u v hu hv => ?_⟩
  · obtain ⟨u, v, hu, hv, hs⟩ := isBetweenBlanks_trim s
    exact ⟨u, v, isBlankRun_iff.2 hu, isBlankRun_iff.2 hv, hs⟩
  · have hblank : isBlank c = false := hc.elim ((isTrimmed_trim s).first c) ((isTrimmed_trim s).last c)
    rw [consistsOf, List.all_cons, hblank]
    rfl
  · exact parse_congr (trim_append (isBlankRun_iff.1 hu) (isBlankRun_iff.1 hv) s)

/-- A blank within digits makes a text malformed, with and without blanks around it, and a misspelled infinity is the
same fault between blanks. -/
theorem trim_and_parse_blanks_malformed :
    parseInt (['\t', '\x0b'] ++ ['1', ' ', '2'] ++ ['\n']) = none ∧
      parseDouble (['\x0c'] ++ ['ı', 'n', 'f'] ++ [' ', '\r']) = .error ⟨['ı', 'n', 'f']⟩ ∧
      ('1' ∈ (trim ['1', ' ', '2']).head? ∧ consistsOf isBlank ['1'] = false) := by
  obtain ⟨-, -, hends, -, hint⟩ := trim_and_parse_blanks ['1', ' ', '2']
  obtain ⟨-, -, -, -, hdouble⟩ := trim_and_parse_blanks ['ı', 'n', 'f']
  refine ⟨(hint ['\t', '\x0b'] ['\n'] (by decide) (by decide)).1.trans (by decide),
    (hdouble ['\x0c'] [' ', '\r'] (by decide) (by decide)).2.trans (by decide), by decide, hends '1' (.inl (by decide))⟩

end Primitives
