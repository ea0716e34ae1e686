import Primitives.Number.Literal

/-!
# Reading lines and tokens

A reader takes lines and tokens from an input text. Lines end at the newline only. A token is a run of
characters that are not blanks, and what follows it on its line stays pending and is read next.

## Main definitions

* `Reader`: the input that is left and the pending rest of a line.
* `Reader.readLine`: a line without its terminator.
* `Reader.nextToken`: the next token, across lines.
* `Reader.readInt`, `Reader.readDouble`: a token as a number.
-/

namespace Primitives

open Text

/-- The rest of the current line, if some of it is pending, and the lines behind it. -/
structure Reader where
  pending : Option Text
  input : Text

namespace Reader

/-- A reader at the start of an input. -/
def ofText (input : Text) : Reader :=
  ⟨none, input⟩

/-! ### Lines -/

/-- A text parted behind its first newline. -/
def splitLine : Text → Text × Text
  | [] => ([], [])
  | c :: s =>
    if c = '\n' then ([c], s)
    else
      let (line, rest) := splitLine s
      (c :: line, rest)

theorem splitLine_append (s : Text) : (splitLine s).1 ++ (splitLine s).2 = s := by
  induction s with
  | nil => rfl
  | cons c s ih =>
    unfold splitLine
    split <;> simp_all

/-- The next line with its terminator, none at the end of the input. -/
def nextLine (r : Reader) : Option Text × Reader :=
  match r.pending with
  | some line => (some line, ⟨none, r.input⟩)
  | none =>
    match splitLine r.input with
    | ([], _) => (none, r)
    | (line, rest) => (some line, ⟨none, rest⟩)

/-- A line without its newline and a carriage return directly before it. -/
def withoutTerminator (line : Text) : Text :=
  match line.reverse with
  | '\n' :: '\r' :: rest => rest.reverse
  | '\n' :: rest => rest.reverse
  | _ => line

/-- The next line without its terminator, empty at the end of the input. -/
def readLine (r : Reader) : Text × Reader :=
  match r.nextLine with
  | (none, r) => ([], r)
  | (some line, r) => (withoutTerminator line, r)

/-! ### Tokens -/

/-- The size of what is left: it shrinks with every line. -/
def size (r : Reader) : Nat :=
  r.input.length + (r.pending.elim 0 fun line => line.length + 1)

theorem size_lt_of_nextLine {r r' : Reader} {line : Text} (h : r.nextLine = (some line, r')) :
    r'.size < r.size := by
  obtain ⟨pending, input⟩ := r
  cases pending with
  | some l =>
    obtain ⟨rfl, rfl⟩ : l = line ∧ (⟨none, input⟩ : Reader) = r' := by simpa [nextLine] using h
    simp only [size, Option.elim_none, Option.elim_some]
    omega
  | none =>
    have happend := congrArg List.length (splitLine_append input)
    simp only [nextLine] at h
    split at h
    · simp at h
    · next first rest hne hsplit =>
      obtain ⟨rfl, rfl⟩ : first = line ∧ (⟨none, rest⟩ : Reader) = r' := by simpa using h
      have hpos : 0 < first.length := by
        cases first with
        | nil => exact (hne rfl).elim
        | cons => simp
      simp only [hsplit, List.length_append] at happend
      simp only [size, Option.elim_none]
      omega

/-- The next token, none at the end of the input. -/
def nextToken (r : Reader) : Option Text × Reader :=
  match _h : r.nextLine with
  | (none, r) => (none, r)
  | (some line, next) =>
    match trimLeft line with
    | [] => next.nextToken
    | line =>
      let rest := line.dropWhile (!isBlank ·)
      (some (line.takeWhile (!isBlank ·)), ⟨if rest.isEmpty then none else some rest, next.input⟩)
termination_by r.size
decreasing_by exact size_lt_of_nextLine (by assumption)

/-! ### Numbers -/

/-- What reading a number finds. -/
inductive Reading (α : Type) where
  | value (a : α)
  | endOfInput
  | malformed (token : Text)
deriving DecidableEq

/-- The next token as an integer. -/
def readInt (r : Reader) : Reading Int × Reader :=
  match r.nextToken with
  | (none, r) => (.endOfInput, r)
  | (some token, r) =>
    match parseInt token with
    | some n => (.value n, r)
    | none => (.malformed token, r)

/-- The next token as a double. -/
def readDouble (r : Reader) : Except MisspelledDouble (Reading Double) × Reader :=
  match r.nextToken with
  | (none, r) => (.ok .endOfInput, r)
  | (some token, r) =>
    match parseDouble token with
    | .error fault => (.error fault, r)
    | .ok (some x) => (.ok (.value x), r)
    | .ok none => (.ok (.malformed token), r)

end Reader

end Primitives
