import Primitives.Number.Literal

/-!
# Misspelled doubles

The words for infinity are recognized letter by letter, and the dotless and the dotted `i` are taken for the
plain one. A text that is recognized with one of them has no value. It is the only kind of text whose reading as
a double ends with a fault: every other text has a value or is malformed.

## Main definitions

* `DoubleLiteral.plainLetter`: the letter that a character is taken for.
* `IsMisspelled`: texts for infinity with a letter that is not plain.

## Main results

* `DoubleLiteral.spells_iff`: words are compared by the letters that characters are taken for.
* `parseDouble_eq_error_iff`: the texts whose reading ends with a fault.
-/

namespace Primitives

open Text

namespace DoubleLiteral

variable {letter c : Char} {word s : Text}

/-! ### Letters and words -/

/-- Whether a character is the dotless or the dotted `i`. -/
def isVariantI (c : Char) : Bool :=
  c == 'ı' || c == 'İ'

/-- The small letter that a character is taken for. -/
def plainLetter (c : Char) : Char :=
  if isVariantI c then 'i' else lowerChar c

theorem lowerChar_of_isVariantI (h : isVariantI c) : lowerChar c = c := by
  simp only [isVariantI, Bool.or_eq_true, beq_iff_eq] at h
  rcases h with rfl | rfl <;> rfl

theorem matchesLetter_iff (h : isVariantI letter = false) :
    matchesLetter letter c ↔ plainLetter c = letter := by
  by_cases hc : isVariantI c
  · have hne : c ≠ letter := by
      rintro rfl
      simp [hc] at h
    simp only [matchesLetter, plainLetter, lowerChar_of_isVariantI hc, hc, if_true, Bool.or_eq_true,
      Bool.and_eq_true, beq_iff_eq, hne, false_or]
    exact ⟨fun hmatch => hmatch.1.symm, fun hmatch => ⟨hmatch.symm, by simpa [isVariantI] using hc⟩⟩
  · have hplain : ¬ (c = 'ı' ∨ c = 'İ') := by simpa [isVariantI] using hc
    simp [matchesLetter, plainLetter, hc, hplain]

/-- A text spells a word if it is taken for it letter by letter. -/
theorem spells_iff (h : word.any isVariantI = false) :
    spells word s ↔ s.map plainLetter = word := by
  induction word generalizing s with
  | nil => cases s <;> simp [spells]
  | cons letter word ih =>
    cases s with
    | nil => simp [spells]
    | cons c s =>
      rw [List.any_cons, Bool.or_eq_false_iff] at h
      have hletter := matchesLetter_iff (c := c) h.1
      have hword := ih (s := s) h.2
      rw [List.map_cons, List.cons.injEq, ← hletter, ← hword]
      simp only [spells, List.length_cons, List.zip_cons_cons, List.all_cons, Bool.and_eq_true, beq_iff_eq,
        Nat.add_right_cancel_iff]
      exact and_left_comm

/-! ### Characters of seven bits -/

theorem lt_of_isUpperLetter (h : isUpperLetter c) : c.toNat < 0x80 := by
  simp only [isUpperLetter, Bool.and_eq_true, decide_eq_true_eq] at h
  have hle : c.toNat ≤ 'Z'.toNat := h.2
  exact Nat.lt_of_le_of_lt hle (by decide)

/-- A character that is taken for one of seven bits is one of them, or a letter that is not plain. -/
theorem plainLetter_lt_iff (h : (plainLetter c).toNat < 0x80) : c.toNat < 0x80 ↔ isVariantI c = false := by
  by_cases hc : isVariantI c
  · refine iff_of_false ?_ (by simp [hc])
    simp only [isVariantI, Bool.or_eq_true, beq_iff_eq] at hc
    rcases hc with rfl | rfl <;> decide
  · refine iff_of_true ?_ (by simpa using hc)
    rw [plainLetter, if_neg hc, lowerChar] at h
    by_cases hupper : isUpperLetter c
    · exact lt_of_isUpperLetter hupper
    · rwa [if_neg hupper] at h

theorem all_lt_iff (hword : word.all (·.toNat < 0x80)) (h : s.map plainLetter = word) :
    s.all (·.toNat < 0x80) ↔ ¬ s.any isVariantI := by
  subst h
  simp only [List.all_eq_true, decide_eq_true_eq, List.any_eq_true, not_exists, not_and, Bool.not_eq_true] at hword ⊢
  exact forall₂_congr fun c hc => plainLetter_lt_iff (hword _ (List.mem_map_of_mem hc))

end DoubleLiteral

open DoubleLiteral

/-! ### Texts -/

/-- A numeric text without the blanks around it and without its sign. -/
def unsignedText (s : Text) : Text :=
  (takeSign (trim s)).2

/-- The words for infinity. -/
def infinityWords : List Text :=
  ["inf", "infinity"]

/-- A text that is recognized as a word for infinity and holds a letter that is not plain. -/
def IsMisspelled (s : Text) : Prop :=
  (unsignedText s).map plainLetter ∈ infinityWords ∧ (unsignedText s).any isVariantI

instance (s : Text) : Decidable (IsMisspelled s) :=
  inferInstanceAs (Decidable (_ ∈ infinityWords ∧ (unsignedText s).any isVariantI))

theorem spells_infinityWords_iff (s : Text) :
    (spells "inf" s || spells "infinity" s) = true ↔ s.map plainLetter ∈ infinityWords := by
  rw [Bool.or_eq_true, spells_iff (by decide), spells_iff (by decide), infinityWords]
  simp

theorem ofText?_eq_misspelled_iff (s : Text) : ofText? (trim s) = some .misspelled ↔ IsMisspelled s := by
  have hwords := spells_infinityWords_iff (unsignedText s)
  have hread : ofText? (trim s) =
      if spells "inf" (unsignedText s) || spells "infinity" (unsignedText s) then
        some (if (unsignedText s).all (·.toNat < 0x80) then infinity (takeSign (trim s)).1 else misspelled)
      else if spells "nan" (unsignedText s) then some nan
      else (form? (unsignedText s)).map (decimal (takeSign (trim s)).1) := rfl
  rw [IsMisspelled, ← hwords, hread]
  by_cases hinfinity : (spells "inf" (unsignedText s) || spells "infinity" (unsignedText s)) = true
  · have hascii : infinityWords.all (·.all (·.toNat < 0x80)) := by decide
    have hexact := all_lt_iff (List.all_eq_true.1 hascii _ (hwords.1 hinfinity)) rfl
    rw [if_pos hinfinity]
    by_cases hvariant : (unsignedText s).any isVariantI
    · rw [if_neg fun hall => hexact.1 hall hvariant]
      exact iff_of_true rfl ⟨hinfinity, hvariant⟩
    · rw [if_pos (hexact.2 hvariant)]
      exact iff_of_false (fun h => nomatch h) fun h => hvariant h.2
  · rw [if_neg hinfinity]
    refine iff_of_false ?_ fun h => hinfinity h.1
    generalize form? (unsignedText s) = form
    split
    · exact fun h => nomatch h
    · cases form <;> exact fun h => nomatch h

/-- Reading a double ends with a fault exactly for a misspelled text, which the fault tells. -/
theorem parseDouble_eq_error_iff {s : Text} {fault : MisspelledDouble} :
    parseDouble s = .error fault ↔ IsMisspelled s ∧ fault = ⟨trim s⟩ := by
  have hmisspelled := ofText?_eq_misspelled_iff s
  unfold parseDouble
  split <;> simp_all [eq_comm]

/-- Reading a double finds that a text has a value or is malformed, unless it is misspelled. -/
theorem parseDouble_ok_iff (s : Text) : (∃ r, parseDouble s = .ok r) ↔ ¬ IsMisspelled s := by
  cases hparse : parseDouble s with
  | ok r =>
    refine iff_of_true ⟨r, rfl⟩ fun hmisspelled => ?_
    rw [parseDouble_eq_error_iff.2 ⟨hmisspelled, rfl⟩] at hparse
    cases hparse
  | error fault => exact iff_of_false (by simp) fun h => h (parseDouble_eq_error_iff.1 hparse).1

example : IsMisspelled " -ınfİnity " ∧ ¬ IsMisspelled " -Infinity " ∧ ¬ IsMisspelled "ı" := by
  decide

end Primitives
