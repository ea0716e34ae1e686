import Mathlib.Data.List.Infix
import Mathlib.Data.List.TakeWhile
import Primitives.Console.Reader

/-!
# Reading at a cursor

A reader keeps the input by lines: what follows a token on its line is pending, and the lines behind it
are not taken yet. An input can also be read with nothing kept but the *unread text* behind a cursor.
This file states lines and tokens of an unread text, without readers, and proves that a reader finds the
same ones: what is pending and the lines behind it are always the unread text, taken apart within its
first line.

## Main definitions

* `Unread.line`, `Unread.token`: the next line and the next token of an unread text.
* `Reader.unread`: the unread text of a reader.
* `Reader.WellFormed`: what is pending is the rest of one line.

## Main results

* `Reader.readLine_eq`: a line of a reader.
* `Reader.nextToken_spec`: a token of a reader.
-/

namespace Primitives

open Text

/-! ### Lines and tokens of an unread text -/

namespace Unread

/-- The first line, up to the next newline or to the end, without the newline and a carriage return
directly before it, and the text behind it. A line that ends with the text is given as it is. -/
def line (s : Text) : Text × Text :=
  let body := s.takeWhile (· != '\n')
  match s.dropWhile (· != '\n') with
  | [] => (body, [])
  | _ :: rest => (if body.getLast? = some '\r' then body.dropLast else body, rest)

/-- The first run of characters that are not blanks, none if there is no such character, and the text
directly behind it. -/
def token (s : Text) : Option Text × Text :=
  let ahead := s.dropWhile isBlank
  (if ahead.isEmpty then none else some (ahead.takeWhile (!isBlank ·)),
    ahead.dropWhile (!isBlank ·))

theorem token_of_all_blank {s t : Text} (h : ∀ c ∈ s, isBlank c) : token (s ++ t) = token t := by
  have hdrop : (s ++ t).dropWhile isBlank = t.dropWhile isBlank := List.dropWhile_append_of_pos h
  simp only [token, hdrop]

end Unread

namespace Reader

/-- The text that a reader has not read yet. -/
def unread (r : Reader) : Text :=
  r.pending.getD [] ++ r.input

/-- What is pending is the rest of one line: it is not empty, it has no newline except at its end, and
without one it is all that is left. -/
def WellFormed (r : Reader) : Prop :=
  ∀ line ∈ r.pending, line ≠ [] ∧ '\n' ∉ line.dropLast ∧
    (line.getLast? = some '\n' ∨ r.input = [])

@[simp] theorem unread_ofText (s : Text) : (ofText s).unread = s :=
  rfl

theorem wellFormed_ofText (s : Text) : (ofText s).WellFormed := by
  intro line hline
  cases hline

/-! ### The first line -/

theorem newline_notMem_takeWhile (s : Text) : '\n' ∉ s.takeWhile (· != '\n') :=
  fun h => by simpa using List.mem_takeWhile_imp h

theorem head_of_dropWhile {s rest : Text} {c : Char} (h : s.dropWhile (· != '\n') = c :: rest) :
    c = '\n' := by
  have hhead := List.head_dropWhile_not (· != '\n') (l := s) (by simp [h])
  simpa [h] using hhead

/-- A text that is parted behind its first newline. -/
theorem splitLine_eq (s : Text) :
    splitLine s = (s.takeWhile (· != '\n') ++ (s.dropWhile (· != '\n')).take 1,
      (s.dropWhile (· != '\n')).drop 1) := by
  induction s with
  | nil => rfl
  | cons c s ih =>
    unfold splitLine
    by_cases hc : c = '\n'
    · subst hc
      simp
    · simp [hc, ih]

/-- A text without a newline except at its end is the first line of what it begins. -/
theorem splitLine_append_of_line {line s : Text} (hne : line ≠ []) (hline : '\n' ∉ line.dropLast)
    (hend : line.getLast? = some '\n' ∨ s = []) : splitLine (line ++ s) = (line, s) := by
  obtain ⟨body, c, rfl⟩ : ∃ body c, line = body ++ [c] :=
    ⟨line.dropLast, line.getLast hne, (List.dropLast_concat_getLast hne).symm⟩
  rw [List.dropLast_concat] at hline
  have hbody : ∀ x ∈ body, (x != '\n') = true := by
    intro x hx
    simpa using ne_of_mem_of_not_mem hx hline
  rw [splitLine_eq, List.append_assoc, List.takeWhile_append_of_pos hbody,
    List.dropWhile_append_of_pos hbody]
  by_cases hc : c = '\n'
  · simp [hc]
  · have hs : s = [] := hend.resolve_left (by simpa using hc)
    simp [hc, hs]

/-- The first line of a text is empty only for the empty text. -/
theorem splitLine_fst_eq_nil_iff {s : Text} : (splitLine s).1 = [] ↔ s = [] := by
  cases s with
  | nil => simp [splitLine]
  | cons c s =>
    unfold splitLine
    split <;> simp

/-- The first line of a text has no newline except at its end, and lacks one only at the end of the
text. -/
theorem splitLine_spec (s : Text) :
    '\n' ∉ (splitLine s).1.dropLast ∧
      ((splitLine s).1.getLast? = some '\n' ∨ (splitLine s).2 = []) := by
  have hbody := newline_notMem_takeWhile s
  rw [splitLine_eq]
  cases hrest : s.dropWhile (· != '\n') with
  | nil => exact ⟨fun h => hbody (List.dropLast_subset _ (by simpa using h)), .inr rfl⟩
  | cons c rest =>
    simp [head_of_dropWhile hrest, hbody]

/-- The next line of a reader is the first line of its unread text. -/
theorem nextLine_eq {r : Reader} (h : r.WellFormed) :
    r.nextLine = if r.unread = [] then (none, .ofText [])
      else (some (splitLine r.unread).1, .ofText (splitLine r.unread).2) := by
  obtain ⟨pending, input⟩ := r
  cases pending with
  | some line =>
    obtain ⟨hne, hline, hend⟩ := h line rfl
    have hunread : (⟨some line, input⟩ : Reader).unread = line ++ input := rfl
    rw [hunread, splitLine_append_of_line hne hline hend, if_neg (by simp [hne])]
    rfl
  | none =>
    have hunread : (⟨none, input⟩ : Reader).unread = input := rfl
    rw [hunread]
    simp only [nextLine]
    by_cases hinput : input = []
    · subst hinput
      rfl
    · rw [if_neg hinput]
      have hne := mt splitLine_fst_eq_nil_iff.1 hinput
      split
      · next heq => exact absurd (congrArg Prod.fst heq) hne
      · next heq => rw [heq]; rfl

/-! ### Lines -/

theorem withoutTerminator_of_last_ne {line : Text} (h : line.getLast? ≠ some '\n') :
    withoutTerminator line = line := by
  unfold withoutTerminator
  rw [List.getLast?_eq_head?_reverse] at h
  split <;> simp_all

/-- The line in front of a newline, without a carriage return at its end. -/
theorem withoutTerminator_append_newline (body : Text) :
    withoutTerminator (body ++ ['\n']) =
      if body.getLast? = some '\r' then body.dropLast else body := by
  unfold withoutTerminator
  rw [List.reverse_append, List.getLast?_eq_head?_reverse]
  cases hbody : body.reverse with
  | nil => simpa using hbody
  | cons c rest =>
    obtain rfl : body = rest.reverse ++ [c] := by
      rw [← List.reverse_reverse body, hbody, List.reverse_cons]
    by_cases hc : c = '\r'
    · simp [hc]
    · simp [hc]

/-- The first line of a text without its terminator. -/
theorem withoutTerminator_splitLine (s : Text) :
    (withoutTerminator (splitLine s).1, (splitLine s).2) = Unread.line s := by
  have hbody := newline_notMem_takeWhile s
  rw [splitLine_eq, Unread.line]
  cases hrest : s.dropWhile (· != '\n') with
  | nil =>
    have hlast : (s.takeWhile (· != '\n')).getLast? ≠ some '\n' :=
      fun h => hbody (List.mem_of_getLast? h)
    simp [withoutTerminator_of_last_ne hlast]
  | cons c rest =>
    simp [head_of_dropWhile hrest, withoutTerminator_append_newline]

/-- A line of a reader is the first line of its unread text, and nothing is pending behind it. -/
theorem readLine_eq {r : Reader} (h : r.WellFormed) :
    r.readLine = ((Unread.line r.unread).1, .ofText (Unread.line r.unread).2) := by
  rw [readLine, nextLine_eq h, ← withoutTerminator_splitLine]
  by_cases hunread : r.unread = []
  · simp [hunread, splitLine, withoutTerminator]
  · simp [hunread]

/-! ### Tokens -/

theorem isBlank_newline : isBlank '\n' = true :=
  rfl

/-- A line whose trimmed part is not empty parts the token of what it begins from its own rest. -/
theorem token_append_of_line {line s : Text} (hend : line.getLast? = some '\n' ∨ s = [])
    (hne : trimLeft line ≠ []) :
    Unread.token (line ++ s) =
      (some ((trimLeft line).takeWhile (!isBlank ·)),
        (trimLeft line).dropWhile (!isBlank ·) ++ s) := by
  have hdrop : (line ++ s).dropWhile isBlank = trimLeft line ++ s := by
    rw [List.dropWhile_append, if_neg (by simpa [trimLeft] using hne), trimLeft]
  rcases hend with hend | rfl
  · have hmem : '\n' ∈ trimLeft line := by
      obtain ⟨blanks, hblanks⟩ : trimLeft line <:+ line := List.dropWhile_suffix _
      rw [← hblanks, List.getLast?_append_of_ne_nil blanks hne] at hend
      exact List.mem_of_getLast? hend
    have hstop : ¬ ∀ c ∈ trimLeft line, (!isBlank c) = true :=
      fun h => by simpa [isBlank_newline] using h _ hmem
    have htake : (trimLeft line ++ s).takeWhile (!isBlank ·) =
        (trimLeft line).takeWhile (!isBlank ·) := by
      rw [List.takeWhile_append, if_neg]
      exact fun h => hstop (List.takeWhile_eq_self_iff.1 ((List.takeWhile_prefix _).eq_of_length h))
    have hbehind : (trimLeft line ++ s).dropWhile (!isBlank ·) =
        (trimLeft line).dropWhile (!isBlank ·) ++ s := by
      rw [List.dropWhile_append, if_neg]
      simpa using hstop
    simp [Unread.token, hdrop, hne, htake, hbehind]
  · rw [List.append_nil] at hdrop ⊢
    rw [Unread.token, hdrop]
    simp [hne]

/-- What is left of a line behind its first part is the rest of one line. -/
theorem WellFormed.ofSuffix {line rest s : Text} (hline : '\n' ∉ line.dropLast)
    (hend : line.getLast? = some '\n' ∨ s = []) (hsuffix : rest <:+ line) :
    WellFormed ⟨if rest.isEmpty then none else some rest, s⟩ := by
  intro pending hpending
  obtain ⟨first, rfl⟩ := hsuffix
  obtain ⟨hne, rfl⟩ : rest ≠ [] ∧ rest = pending := by simpa using hpending
  rw [List.dropLast_append_of_ne_nil hne] at hline
  rw [List.getLast?_append_of_ne_nil first hne] at hend
  exact ⟨hne, fun h => hline (List.mem_append_right _ h), hend⟩

@[simp] theorem unread_ofRest (rest s : Text) :
    (⟨if rest.isEmpty then none else some rest, s⟩ : Reader).unread = rest ++ s := by
  cases rest <;> rfl

/-- A token of a reader is the first token of its unread text, and what is left is the text directly
behind it. Lines of blanks are passed over one by one. -/
theorem nextToken_spec {r : Reader} (h : r.WellFormed) :
    r.nextToken.1 = (Unread.token r.unread).1 ∧ r.nextToken.2.WellFormed ∧
      r.nextToken.2.unread = (Unread.token r.unread).2 := by
  induction hsize : r.size using Nat.strong_induction_on generalizing r with
  | _ size ih =>
    have hnext := nextLine_eq h
    unfold nextToken
    split
    · next r' heq =>
      rw [heq] at hnext
      by_cases hunread : r.unread = []
      · rw [if_pos hunread] at hnext
        obtain rfl : r' = .ofText [] := congrArg Prod.snd hnext
        rw [hunread]
        exact ⟨rfl, wellFormed_ofText [], rfl⟩
      · simp [hunread] at hnext
    · next line next heq =>
      have hlt : next.size < size := hsize ▸ size_lt_of_nextLine heq
      rw [heq] at hnext
      by_cases hunread : r.unread = []
      · simp [hunread] at hnext
      · obtain ⟨hline, hbreak⟩ := splitLine_spec r.unread
        have hparts := splitLine_append r.unread
        obtain ⟨rfl, rfl⟩ : line = (splitLine r.unread).1 ∧
            next = .ofText (splitLine r.unread).2 := by simpa [hunread] using hnext
        split
        · next htrim =>
          have hblank : ∀ c ∈ (splitLine r.unread).1, isBlank c := by
            simpa [trimLeft, List.dropWhile_eq_nil_iff] using htrim
          have hrec := ih _ hlt (wellFormed_ofText _) rfl
          rw [unread_ofText] at hrec
          have htoken := Unread.token_of_all_blank (t := (splitLine r.unread).2) hblank
          rw [hparts] at htoken
          rwa [htoken]
        · next htrim =>
          have htoken := token_append_of_line hbreak htrim
          rw [hparts] at htoken
          rw [htoken]
          exact ⟨rfl, .ofSuffix hline hbreak
            ((List.dropWhile_suffix _).trans (List.dropWhile_suffix _)), unread_ofRest ..⟩

end Reader

end Primitives
