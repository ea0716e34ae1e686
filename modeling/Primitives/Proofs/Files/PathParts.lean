import Mathlib.Data.List.Infix
import Primitives.Proofs.Files.PathTexts

/-!
# Paths composed and taken apart

A path is taken apart behind its last slash: the file name is what stands there, and the parent is what stands in
front of it without the slashes at its end, unless it holds nothing else. Continuing the parent by the file name gives
the path back up to the number of slashes between them, and a path that was continued by a name is taken apart into
this name and the path without its trailing slashes. The extension depends on the file name alone.

## Main definitions

* `PathText.IsStripped`: a text without the slashes at its end.
* `PathText.IsExtension`: the extension of a file name, from its last dot on.

## Main results

* `PathText.joinTwo_assoc`: continuing a path by two others in turn or at once.
* `PathText.dirName_joinTwo`, `PathText.joinTwo_dirName_baseName`: composition and decomposition.
* `PathText.splitExtension_of_isExtension`: where the extension is cut off.
* `PathText.composition_and_decomposition`: all laws together.
-/

namespace Primitives.PathText

variable {p q w front head name e : Text}

/-! ### Slashes at the end -/

/-- A text without the slashes at the end of another one. -/
def IsStripped (head p : Text) : Prop :=
  ∃ n, p = head ++ List.replicate n '/' ∧ head.getLast? ≠ some '/'

theorem isStripped_withoutTrailingSlashes (p : Text) : IsStripped (withoutTrailingSlashes p) p := by
  obtain ⟨slashes, heq, hslashes, hlast⟩ := withoutTrailingSlashes_spec p
  rw [List.eq_replicate_of_mem hslashes] at heq
  exact ⟨_, heq, hlast⟩

/-- A text of more than slashes keeps some of it without the slashes at its end. -/
theorem IsStripped.ne_nil (h : IsStripped head p) (hp : ¬ ∀ c ∈ p, c = '/') : head ≠ [] := by
  rintro rfl
  obtain ⟨n, rfl, -⟩ := h
  exact hp fun c hc => List.eq_of_mem_replicate hc

theorem open_of_slashes (h : ∀ c ∈ p, c = '/') : p = [] ∨ ∃ s, p = s ++ ['/'] := by
  cases p using List.reverseRecOn with
  | nil => exact .inl rfl
  | append_singleton p c _ => exact .inr ⟨p, by rw [h c (by simp)]⟩

/-! ### Composition -/

theorem joinTwo_of_isAbsolute (h : isAbsolute q) (p : Text) : joinTwo p q = q :=
  if_pos h

/-- Nothing stands between a relative path and a text that is empty or ends with a slash. -/
theorem joinTwo_of_open (hfront : front = [] ∨ ∃ s, front = s ++ ['/']) (hq : isAbsolute q = false) :
    joinTwo front q = front ++ q := by
  rcases hfront with rfl | ⟨s, rfl⟩ <;> simp [joinTwo, hq]

/-- What stands between a path and a relative one depends on the end of the former. -/
theorem joinTwo_append (front : Text) (hp : p ≠ []) (hq : isAbsolute q = false) :
    joinTwo (front ++ p) q = front ++ joinTwo p q := by
  have hlast : (front ++ p).getLast? = p.getLast? := List.getLast?_append_of_ne_nil front hp
  by_cases hslash : p.getLast? = some '/' <;> simp [joinTwo, hq, hp, hlast, hslash]

theorem isAbsolute_joinTwo (hp : p ≠ []) (hq : isAbsolute q = false) : isAbsolute (joinTwo p q) = isAbsolute p := by
  obtain ⟨h, slashes, -, rfl, -, hjoin⟩ := exists_joinTwo_eq p
  obtain ⟨c, p, rfl⟩ := List.exists_cons_of_ne_nil hp
  rw [hjoin q hq]
  rfl

/-- A path is continued by two others in turn as by the first of them continued by the second one. -/
theorem joinTwo_assoc (a b c : Text) : joinTwo a (joinTwo b c) = joinTwo (joinTwo a b) c := by
  obtain ⟨front, slashes, hopen, -, -, hjoin⟩ := exists_joinTwo_eq a
  cases hc : isAbsolute c with
  | true => simp only [joinTwo_of_isAbsolute hc]
  | false =>
    by_cases hempty : b = []
    · rw [hempty, joinTwo_of_open (.inl rfl) hc, List.nil_append, hjoin [] rfl, List.append_nil, hjoin c hc,
        joinTwo_of_open hopen hc]
    · have hbc := isAbsolute_joinTwo hempty hc
      cases hb : isAbsolute b with
      | true => rw [joinTwo_of_isAbsolute (hbc.trans hb), joinTwo_of_isAbsolute hb]
      | false => rw [hjoin _ (hbc.trans hb), hjoin b hb, joinTwo_append front hempty hc]

/-! ### Decomposition -/

/-- A path is its front, which is empty or ends with a slash, and its file name. -/
theorem exists_front (p : Text) :
    ∃ front, p = front ++ baseName p ∧ (front = [] ∨ ∃ s, front = s ++ ['/']) ∧
      dirName p = if front.all (· == '/') then front else withoutTrailingSlashes front := by
  obtain ⟨front, name, rfl, hname, hfront⟩ := splitLast_spec p
  have hbase : baseName (front ++ name) = name := by rw [baseName, splitLast_eq hname hfront]
  exact ⟨front, by rw [hbase], hfront, dirName_eq hname hfront⟩

/-- The file name is the longest end of a path without a slash. -/
theorem suffix_baseName (h : w <:+ p) (hw : '/' ∉ w) : w <:+ baseName p := by
  obtain ⟨front, hp, hfront, -⟩ := exists_front p
  generalize baseName p = name at hp ⊢
  rcases List.suffix_or_suffix_of_suffix h ⟨front, hp.symm⟩ with hle | ⟨middle, rfl⟩
  · exact hle
  · -- a longer end would hold the slash that the front ends with
    obtain ⟨rest, rfl⟩ := h
    have hrest : rest ++ middle = front := by
      rwa [← List.append_assoc, List.append_cancel_right_eq] at hp
    have hmiddle : middle = [] := by
      by_contra hne
      rcases hfront with rfl | ⟨s, rfl⟩
      · exact hne (List.append_eq_nil_iff.1 hrest).2
      · have hlast : middle.getLast? = some '/' := by
          rw [← List.getLast?_append_of_ne_nil rest hne, hrest, List.getLast?_concat]
        exact hw (List.mem_append_left name (List.mem_of_getLast? hlast))
    rw [hmiddle, List.nil_append]

theorem baseName_of_notMem (h : '/' ∉ w) : baseName w = w := by
  have hsplit : splitLast ([] ++ w) = ([], w) := splitLast_eq h (.inl rfl)
  exact congrArg Prod.snd hsplit

/-- The parent of a path continued by a name is the path without its trailing slashes, unless it holds nothing
else. -/
theorem dirName_joinTwo (hq : '/' ∉ q) :
    dirName (joinTwo p q) = if p.all (· == '/') then p else withoutTrailingSlashes p := by
  by_cases hall : p.all (· == '/')
  · have hopen := open_of_slashes (by simpa using hall)
    rw [joinTwo_of_open hopen (isAbsolute_of_notMem hq), dirName_eq hq hopen]
  · obtain ⟨front, slashes, hjoin, hopen, rfl, hslashes⟩ := joinTwo_eq (p := p) hq
    have hfront : ¬ (p ++ slashes).all (· == '/') := by
      rw [List.all_append, Bool.and_eq_true, not_and_or]
      exact .inl hall
    rw [hjoin, dirName_eq hq hopen, if_neg hfront, if_neg hall, withoutTrailingSlashes_append p hslashes]

/-- The parent of a path continued by its file name is the path, with one slash in place of those directly in front of
the file name if anything else stands there. -/
theorem joinTwo_dirName_baseName (p : Text) :
    ∃ front, p = front ++ baseName p ∧
      ((∀ c ∈ front, c = '/') → joinTwo (dirName p) (baseName p) = p) ∧
      ((¬ ∀ c ∈ front, c = '/') → ∃ head n, front = head ++ List.replicate (n + 1) '/' ∧
        head.getLast? ≠ some '/' ∧ joinTwo (dirName p) (baseName p) = head ++ '/' :: baseName p) := by
  obtain ⟨front, hp, hopen, hdir⟩ := exists_front p
  have hname := isAbsolute_of_notMem (baseName_spec p).1
  refine ⟨front, hp, fun hall => ?_, fun hall => ?_⟩
  · rw [hdir, if_pos (by simpa using hall), joinTwo_of_open hopen hname, ← hp]
  · have hne := (isStripped_withoutTrailingSlashes front).ne_nil hall
    obtain ⟨n, hfront, hlast⟩ := isStripped_withoutTrailingSlashes front
    rw [hdir, if_neg (by simpa using hall)]
    generalize withoutTrailingSlashes front = head at hne hfront hlast ⊢
    cases n with
    | zero =>
      rcases hopen with rfl | ⟨s, rfl⟩
      · simp at hall
      · rw [List.replicate_zero, List.append_nil] at hfront
        simp [← hfront] at hlast
    | succ n => exact ⟨head, n, hfront, hlast, by simp [joinTwo, hname, hne, hlast]⟩

/-! ### Extensions -/

/-- The extension of a file name: its end from its last dot on, if another character than a dot stands before that. -/
def IsExtension (e name : Text) : Prop :=
  ∃ stem tail, name = stem ++ '.' :: tail ∧ '.' ∉ tail ∧ (∃ c ∈ stem, c ≠ '.') ∧ e = '.' :: tail

theorem splitExtension_append (p : Text) : (splitExtension p).1 ++ (splitExtension p).2 = p := by
  simp only [splitExtension]
  split
  · exact List.take_append_drop _ p
  · exact List.append_nil p

/-- A path is cut at the last dot of its file name, unless nothing but dots stands in front of it there. -/
theorem splitExtension_of_lastDot {stem tail : Text} (hname : baseName p = stem ++ '.' :: tail) (htail : '.' ∉ tail) :
    (splitExtension p).2 = if stem.any (· != '.') then '.' :: tail else [] := by
  obtain ⟨front, hp, -⟩ := exists_front p
  have hbehind : ((stem ++ '.' :: tail).reverse.takeWhile (· != '.')).reverse = tail := by
    rw [List.append_cons]
    exact reverse_takeWhile_ne htail (.inr ⟨stem, rfl⟩)
  have hlength : (stem ++ '.' :: tail).length = stem.length + tail.length + 1 := by
    simp only [List.length_append, List.length_cons, Nat.add_assoc]
  have hstem : (stem ++ '.' :: tail).take ((stem ++ '.' :: tail).length - tail.length - 1) = stem := by
    rw [hlength, show stem.length + tail.length + 1 - tail.length - 1 = stem.length by omega, List.take_left]
  have hdrop : p.drop (p.length - tail.length - 1) = '.' :: tail := by
    rw [hname, ← List.append_assoc] at hp
    rw [hp, List.length_append, List.length_cons, show (front ++ stem).length + (tail.length + 1) - tail.length - 1 =
      (front ++ stem).length by omega, List.drop_left]
  have hlt : tail.length < (stem ++ '.' :: tail).length := by omega
  simp only [splitExtension, hname, hbehind, hstem, hlt, hdrop]
  cases stem.any (· != '.') <;> simp

theorem splitExtension_of_notMem (h : '.' ∉ baseName p) : (splitExtension p).2 = [] := by
  have hbehind : ((baseName p).reverse.takeWhile (· != '.')).reverse = baseName p :=
    reverse_takeWhile_ne h (.inl rfl)
  simp [splitExtension, hbehind]

/-- The extension of a path is that of its file name, and empty if that has none. -/
theorem splitExtension_of_isExtension (h : IsExtension e (baseName p)) : (splitExtension p).2 = e := by
  obtain ⟨stem, tail, hname, htail, hstem, rfl⟩ := h
  rw [splitExtension_of_lastDot hname htail, if_pos (by simpa using hstem)]

theorem splitExtension_eq_nil (h : ∀ e, ¬ IsExtension e (baseName p)) : (splitExtension p).2 = [] := by
  by_cases hdot : '.' ∈ baseName p
  · obtain ⟨stem, tail, hname, htail⟩ := exists_last_of_mem hdot
    rw [splitExtension_of_lastDot hname htail, if_neg]
    exact fun hstem => h _ ⟨stem, tail, hname, htail, by simpa using hstem, rfl⟩
  · exact splitExtension_of_notMem hdot

theorem splitExtension_ne_nil_iff : (splitExtension p).2 ≠ [] ↔ ∃ e, IsExtension e (baseName p) := by
  constructor
  · intro hne
    by_contra hnone
    exact hne (splitExtension_eq_nil (not_exists.1 hnone))
  · rintro ⟨e, hextension⟩
    rw [splitExtension_of_isExtension hextension]
    obtain ⟨stem, tail, -, -, -, rfl⟩ := hextension
    exact List.cons_ne_nil _ _

theorem splitExtension_baseName (p : Text) : (splitExtension (baseName p)).2 = (splitExtension p).2 := by
  have hbase : baseName (baseName p) = baseName p := baseName_of_notMem (baseName_spec p).1
  by_cases hextension : ∃ e, IsExtension e (baseName p)
  · obtain ⟨e, he⟩ := hextension
    rw [splitExtension_of_isExtension he, splitExtension_of_isExtension (hbase.symm ▸ he)]
  · have hnone := not_exists.1 hextension
    rw [splitExtension_eq_nil hnone, splitExtension_eq_nil (hbase.symm ▸ hnone)]

/-! ### All laws -/

/-- **Composition and decomposition of paths fit together.** The file name is the longest end of a path without a
slash. The parent continued by the file name is the path again with one slash between them, however many there were,
unless nothing but slashes stands in front of the file name: then it is the path itself. A path continued by a name has
this name as its file name, and its parent is the path without its trailing slashes, or the path itself if it consists
of slashes. It is the same to continue a path by two others in turn, at once, or by the first of them continued by the
second one. The extension is a rest of the path that the file name alone determines: it is there exactly if the file
name has a dot with another character than a dot in front of its last one, and begins at that last dot. -/
theorem composition_and_decomposition :
    (∀ p, baseName p <:+ p ∧ '/' ∉ baseName p ∧ ∀ w, w <:+ p → '/' ∉ w → w <:+ baseName p) ∧
    (∀ p, ∃ front, p = front ++ baseName p ∧
      ((∀ c ∈ front, c = '/') → join (dirName p) [baseName p] = p) ∧
      ((¬ ∀ c ∈ front, c = '/') → ∃ head n, front = head ++ List.replicate (n + 1) '/' ∧
        head.getLast? ≠ some '/' ∧ join (dirName p) [baseName p] = head ++ '/' :: baseName p)) ∧
    (∀ p q, '/' ∉ q → baseName (join p [q]) = q ∧
      ((∀ c ∈ p, c = '/') → dirName (join p [q]) = p) ∧
      ((¬ ∀ c ∈ p, c = '/') → IsStripped (dirName (join p [q])) p)) ∧
    (∀ a b c, join a [join b [c]] = join (join a [b]) [c] ∧ join (join a [b]) [c] = join a [b, c]) ∧
    ∀ p, (splitExtension p).1 ++ (splitExtension p).2 = p ∧
      (splitExtension (baseName p)).2 = (splitExtension p).2 ∧
      ((splitExtension p).2 ≠ [] ↔ ∃ e, IsExtension e (baseName p)) ∧
      ∀ e, IsExtension e (baseName p) → (splitExtension p).2 = e := by
  refine ⟨fun p => ?_, joinTwo_dirName_baseName, fun p q hq => ⟨baseName_joinTwo hq, fun hall => ?_, fun hall => ?_⟩,
    fun a b c => ⟨joinTwo_assoc a b c, rfl⟩, fun p => ?_⟩
  · obtain ⟨hslash, hsuffix⟩ := baseName_spec p
    exact ⟨hsuffix, hslash, fun w hw hnot => suffix_baseName hw hnot⟩
  · exact (dirName_joinTwo hq).trans (if_pos (by simpa using hall))
  · have hdir : dirName (join p [q]) = withoutTrailingSlashes p :=
      (dirName_joinTwo hq).trans (if_neg (by simpa using hall))
    rw [hdir]
    exact isStripped_withoutTrailingSlashes p
  · exact ⟨splitExtension_append p, splitExtension_baseName p, splitExtension_ne_nil_iff,
      fun e he => splitExtension_of_isExtension he⟩

/-- A file in a directory that two slashes follow: the parent is without them, and the extension begins at the second
dot. -/
theorem composition_and_decomposition_slashes :
    '/' ∉ ("b.c.d" : Text) ∧ baseName (join "a//" [("b.c.d" : Text)]) = "b.c.d" ∧
      IsStripped (dirName (join "a//" [("b.c.d" : Text)])) "a//" ∧
      (splitExtension (join "a//" [("b.c.d" : Text)])).2 = ".d" := by
  obtain ⟨-, -, hjoin, -, hparts⟩ := composition_and_decomposition
  have hname : '/' ∉ ("b.c.d" : Text) := by decide
  obtain ⟨hbase, -, hparent⟩ := hjoin "a//" "b.c.d" hname
  obtain ⟨-, -, -, hextension⟩ := hparts (join "a//" [("b.c.d" : Text)])
  have hletter : ¬ ∀ c ∈ ("a//" : Text), c = '/' := fun hall => absurd (hall 'a' (by decide)) (by decide)
  refine ⟨hname, hbase, hparent hletter, hextension _ ⟨"b.c", "d", ?_, by decide, ⟨'b', by decide⟩, rfl⟩⟩
  rw [hbase]
  rfl

end Primitives.PathText
