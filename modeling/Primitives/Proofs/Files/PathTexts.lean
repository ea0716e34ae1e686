import Mathlib.Data.List.Induction
import Mathlib.Data.List.TakeWhile
import Primitives.Files.Request
import Primitives.Proofs.Text.Parts

/-!
# Components of path texts

The components of a path text are what stands between its slashes, without what is empty. They do not
change when slashes are added at the end, and the components of two texts with a slash between them are
those of the first one and then those of the second one. So a path that is parted in front of its last
component has the components of its head and then this one.

## Main definitions

* `PathText.IsHead`: the head of a path and its last component.

## Main results

* `PathText.splitComponents_append`: the components of two paths with a slash between them.
* `PathText.getLast?_splitComponents`: the last component is the base name.
* `PathText.splitComponents_joinTwo`: the components of a path continued by a name.
* `Request.splitHead_spec`: a path is parted into its head and its last component.
-/

namespace Primitives.PathText

open SplitPath

/-! ### Components -/

@[simp] theorem splitComponents_nil : splitComponents [] = [] := by
  simp [splitComponents, Text.split, Text.splitAt, Text.cut?]

theorem splitComponents_word {w : Text} (hne : w ≠ []) (h : '/' ∉ w) : splitComponents w = [w] := by
  rw [splitComponents, Text.split_of_notMem h]
  simp [hne]

/-- The components of two texts with a slash between them. -/
theorem splitComponents_append (p q : Text) :
    splitComponents (p ++ '/' :: q) = splitComponents p ++ splitComponents q := by
  rw [splitComponents, Text.split_append_cons, List.filter_append]
  rfl

theorem splitComponents_append_slashes (p : Text) {slashes : Text} (h : ∀ c ∈ slashes, c = '/') :
    splitComponents (p ++ slashes) = splitComponents p := by
  induction slashes using List.reverseRecOn with
  | nil => simp
  | append_singleton slashes c ih =>
    obtain rfl : c = '/' := h c (by simp)
    rw [← List.append_assoc, splitComponents_append, splitComponents_nil, List.append_nil]
    exact ih fun c hc => h c (by simp [hc])

theorem splitComponents_slashes {s : Text} (h : ∀ c ∈ s, c = '/') : splitComponents s = [] := by
  simpa using splitComponents_append_slashes [] h

/-- Components are not empty and have no slash. -/
theorem of_mem_splitComponents {p n : Text} (h : n ∈ splitComponents p) : n ≠ [] ∧ '/' ∉ n := by
  obtain ⟨hpart, hne⟩ := List.mem_filter.1 h
  exact ⟨by simpa using hne, Text.notMem_of_mem_split hpart⟩

/-! ### The last component -/

/-- The part of a text behind the last place of a character. -/
theorem reverse_takeWhile_ne {c : Char} {h w : Text} (hw : c ∉ w) (hh : h = [] ∨ ∃ s, h = s ++ [c]) :
    ((h ++ w).reverse.takeWhile (· != c)).reverse = w := by
  have hword : ∀ x ∈ w.reverse, (x != c) = true := by
    intro x hx
    simpa using ne_of_mem_of_not_mem (List.mem_reverse.1 hx) hw
  rw [List.reverse_append, List.takeWhile_append_of_pos hword]
  rcases hh with rfl | ⟨s, rfl⟩ <;> simp

theorem splitLast_eq {h w : Text} (hw : '/' ∉ w) (hh : h = [] ∨ ∃ s, h = s ++ ['/']) :
    splitLast (h ++ w) = (h, w) := by
  simp only [splitLast, reverse_takeWhile_ne hw hh, List.length_append, Nat.add_sub_cancel, List.take_left]

/-- A text is the two parts around its last slash; the second one has no slash, and the first one ends
with it unless it is empty. -/
theorem splitLast_spec (p : Text) :
    ∃ h w, p = h ++ w ∧ '/' ∉ w ∧ (h = [] ∨ ∃ s, h = s ++ ['/']) := by
  induction p using List.reverseRecOn with
  | nil => exact ⟨[], [], rfl, by simp, .inl rfl⟩
  | append_singleton p c ih =>
    by_cases hc : c = '/'
    · subst hc
      exact ⟨p ++ ['/'], [], by simp, by simp, .inr ⟨p, rfl⟩⟩
    · obtain ⟨h, w, rfl, hw, hh⟩ := ih
      exact ⟨h, w ++ [c], by simp, by simp [hw, Ne.symm hc], hh⟩

/-- The base name is the end of a path behind its last slash. -/
theorem baseName_spec (p : Text) : '/' ∉ baseName p ∧ baseName p <:+ p := by
  obtain ⟨h, w, rfl, hw, hh⟩ := splitLast_spec p
  rw [baseName, splitLast_eq hw hh]
  exact ⟨hw, List.suffix_append h w⟩

/-- A text is without its trailing slashes what it is up to slashes at the end, and has none there. -/
theorem withoutTrailingSlashes_spec (p : Text) :
    ∃ slashes : Text, p = withoutTrailingSlashes p ++ slashes ∧ (∀ c ∈ slashes, c = '/') ∧
      (withoutTrailingSlashes p).getLast? ≠ some '/' := by
  refine ⟨(p.reverse.takeWhile (· == '/')).reverse, ?_, ?_, ?_⟩
  · rw [withoutTrailingSlashes, ← List.reverse_append, List.takeWhile_append_dropWhile,
      List.reverse_reverse]
  · intro c hc
    simpa using List.mem_takeWhile_imp (List.mem_reverse.1 hc)
  · rw [withoutTrailingSlashes, List.getLast?_reverse]
    intro hhead
    obtain ⟨rest, hrest⟩ := List.head?_eq_some_iff.1 hhead
    have hnot := List.head_dropWhile_not (· == '/') (l := p.reverse) (by simp [hrest])
    simp [hrest] at hnot

theorem withoutTrailingSlashes_append (p : Text) {slashes : Text} (h : ∀ c ∈ slashes, c = '/') :
    withoutTrailingSlashes (p ++ slashes) = withoutTrailingSlashes p := by
  have hall : ∀ c ∈ slashes.reverse, (c == '/') = true := by simpa using h
  rw [withoutTrailingSlashes, List.reverse_append, List.dropWhile_append_of_pos hall,
    withoutTrailingSlashes]

theorem withoutTrailingSlashes_of_last {p : Text} (h : p.getLast? ≠ some '/') :
    withoutTrailingSlashes p = p := by
  obtain ⟨slashes, hp, hslashes, -⟩ := withoutTrailingSlashes_spec p
  cases slashes using List.reverseRecOn with
  | nil => simpa using hp.symm
  | append_singleton slashes c _ =>
    obtain rfl : c = '/' := hslashes c (by simp)
    rw [hp] at h
    simp at h

theorem splitComponents_withoutTrailingSlashes (p : Text) :
    splitComponents (withoutTrailingSlashes p) = splitComponents p := by
  obtain ⟨slashes, hp, hslashes, -⟩ := withoutTrailingSlashes_spec p
  conv =>
    rhs
    rw [hp]
  rw [splitComponents_append_slashes _ hslashes]

/-- The components in front of the last slash and the last one. -/
theorem splitComponents_splitLast {h w : Text} (hw : '/' ∉ w) (hh : h = [] ∨ ∃ s, h = s ++ ['/'])
    (hne : w ≠ []) : splitComponents (h ++ w) = splitComponents h ++ [w] := by
  rcases hh with rfl | ⟨s, rfl⟩
  · simp [splitComponents_word hne hw]
  · rw [List.append_assoc, List.singleton_append, splitComponents_append, splitComponents_append,
      splitComponents_word hne hw]
    simp

/-- The last component of a path is its base name without the slashes at the end. -/
theorem getLast?_splitComponents {p : Text} (hne : splitComponents p ≠ []) :
    (splitComponents p).getLast? = some (baseName (withoutTrailingSlashes p)) := by
  rw [← splitComponents_withoutTrailingSlashes] at hne ⊢
  obtain ⟨slashes, -, -, hlast⟩ := withoutTrailingSlashes_spec p
  generalize withoutTrailingSlashes p = q at hne hlast ⊢
  obtain ⟨h, w, rfl, hw, hh⟩ := splitLast_spec q
  have hword : w ≠ [] := by
    rintro rfl
    rcases hh with rfl | ⟨s, rfl⟩
    · simp at hne
    · simp at hlast
  rw [splitComponents_splitLast hw hh hword, baseName, splitLast_eq hw hh]
  simp

/-! ### Paths continued by a name -/

theorem isAbsolute_of_notMem {w : Text} (h : '/' ∉ w) : isAbsolute w = false := by
  cases w with
  | nil => rfl
  | cons c w =>
    simp only [List.mem_cons, not_or] at h
    simpa [isAbsolute] using Ne.symm h.1

/-- A path is continued by relative ones behind itself and at most one slash. -/
theorem exists_joinTwo_eq (p : Text) :
    ∃ h slashes, (h = [] ∨ ∃ s, h = s ++ ['/']) ∧ h = p ++ slashes ∧ (∀ c ∈ slashes, c = '/') ∧
      ∀ q, isAbsolute q = false → joinTwo p q = h ++ q := by
  by_cases hempty : p = []
  · exact ⟨[], [], .inl rfl, by simp [hempty], by simp, fun q hq => by simp [joinTwo, hq, hempty]⟩
  · by_cases hlast : p.getLast? = some '/'
    · obtain ⟨s, hs⟩ := List.getLast?_eq_some_iff.1 hlast
      exact ⟨p, [], .inr ⟨s, hs⟩, by simp, by simp, fun q hq => by simp [joinTwo, hq, hlast]⟩
    · exact ⟨p ++ ['/'], ['/'], .inr ⟨p, rfl⟩, rfl, by simp, fun q hq => by simp [joinTwo, hq, hempty, hlast]⟩

theorem joinTwo_eq {p w : Text} (hw : '/' ∉ w) :
    ∃ h slashes, joinTwo p w = h ++ w ∧ (h = [] ∨ ∃ s, h = s ++ ['/']) ∧ h = p ++ slashes ∧
      ∀ c ∈ slashes, c = '/' := by
  obtain ⟨h, slashes, hh, heq, hslashes, hjoin⟩ := exists_joinTwo_eq p
  exact ⟨h, slashes, hjoin w (isAbsolute_of_notMem hw), hh, heq, hslashes⟩

/-- The components of a path continued by a name. -/
theorem splitComponents_joinTwo {p w : Text} (hne : w ≠ []) (hw : '/' ∉ w) :
    splitComponents (joinTwo p w) = splitComponents p ++ [w] := by
  obtain ⟨h, slashes, heq, hh, rfl, hslashes⟩ := joinTwo_eq (p := p) hw
  rw [heq, splitComponents_splitLast hw hh hne, splitComponents_append_slashes p hslashes]

theorem baseName_joinTwo {p w : Text} (hw : '/' ∉ w) : baseName (joinTwo p w) = w := by
  obtain ⟨h, slashes, heq, hh, -⟩ := joinTwo_eq (p := p) hw
  rw [heq, baseName, splitLast_eq hw hh]

/-- A path continued by a name begins with the path. -/
theorem prefix_joinTwo (p : Text) {w : Text} (hw : '/' ∉ w) : p <+: joinTwo p w := by
  obtain ⟨h, slashes, heq, -, rfl, -⟩ := joinTwo_eq (p := p) hw
  exact ⟨slashes ++ w, by rw [heq, List.append_assoc]⟩

/-! ### Heads of paths -/

theorem dirName_eq {h w : Text} (hw : '/' ∉ w) (hh : h = [] ∨ ∃ s, h = s ++ ['/']) :
    dirName (h ++ w) = if h.all (· == '/') then h else withoutTrailingSlashes h := by
  simp only [dirName, splitLast_eq hw hh]

/-- The head of a path is a beginning of it, with the components in front of the base name. It ends with a
slash only if it has no components. -/
theorem dirName_spec {h w : Text} (hw : '/' ∉ w) (hh : h = [] ∨ ∃ s, h = s ++ ['/']) :
    dirName (h ++ w) <+: h ∧ splitComponents (dirName (h ++ w)) = splitComponents h ∧
      ((dirName (h ++ w)).getLast? = some '/' → splitComponents h = []) := by
  rw [dirName_eq hw hh]
  split
  · next hall =>
    refine ⟨List.prefix_refl h, rfl, fun _ => splitComponents_slashes ?_⟩
    simpa using hall
  · next hall =>
    obtain ⟨slashes, heq, -, hlast⟩ := withoutTrailingSlashes_spec h
    exact ⟨⟨slashes, heq.symm⟩, splitComponents_withoutTrailingSlashes h,
      fun hslash => absurd hslash hlast⟩

/-- A beginning of a path with the component behind it, the last one. The beginning is shorter, and ends
with a slash only if it has no components. -/
structure IsHead (head tail path : Text) : Prop where
  noSlash : '/' ∉ tail
  components : splitComponents path = splitComponents head ++ [tail]
  begins : head <+: path
  shorter : head.length < path.length
  slash : head.getLast? = some '/' → splitComponents head = []

theorem isHead_dirName {path : Text} (h : baseName path ≠ []) :
    IsHead (dirName path) (baseName path) path := by
  obtain ⟨first, name, rfl, hname, hfirst⟩ := splitLast_spec path
  have hbase : baseName (first ++ name) = name := by rw [baseName, splitLast_eq hname hfirst]
  rw [hbase] at h ⊢
  obtain ⟨hbegins, hcomponents, hslash⟩ := dirName_spec hname hfirst
  have hlength := hbegins.length_le
  have hpos := List.length_pos_iff.2 h
  refine ⟨hname, ?_, hbegins.trans (List.prefix_append _ _), ?_, fun hlast => ?_⟩
  · rw [splitComponents_splitLast hname hfirst h, hcomponents]
  · rw [List.length_append]
    omega
  · rw [hcomponents]
    exact hslash hlast

/-- Slashes at the end of a path do not matter for its head. -/
theorem IsHead.of_withoutTrailingSlashes {head tail path : Text}
    (h : IsHead head tail (withoutTrailingSlashes path)) : IsHead head tail path := by
  obtain ⟨slashes, heq, -⟩ := withoutTrailingSlashes_spec path
  refine ⟨h.noSlash, ?_, h.begins.trans ⟨slashes, heq.symm⟩, ?_, h.slash⟩
  · rw [← splitComponents_withoutTrailingSlashes path, h.components]
  · have hlength := congrArg List.length heq
    have hshorter := h.shorter
    rw [List.length_append] at hlength
    omega

end Primitives.PathText

namespace Primitives.Request

open SplitPath PathText

/-- A path that ends with a component is parted without the slashes at its end. -/
theorem splitHead_eq {path : Text} (htail : (splitHead path).2 ≠ []) :
    splitHead path =
      (dirName (withoutTrailingSlashes path), baseName (withoutTrailingSlashes path)) := by
  obtain ⟨first, name, rfl, hname, hfirst⟩ := splitLast_spec path
  have hbase : baseName (first ++ name) = name := by rw [baseName, splitLast_eq hname hfirst]
  by_cases hne : name = []
  · subst hne
    have hdir := dirName_eq hname hfirst
    rw [List.append_nil] at htail hbase hdir ⊢
    split at hdir
    · simp [splitHead, hdir, hbase] at htail
    · simp [splitHead, hdir, hbase]
  · have hlast : (first ++ name).getLast? ≠ some '/' := by
      intro hslash
      rw [List.getLast?_append, List.getLast?_eq_some_getLast hne] at hslash
      exact hname (Option.some.inj hslash ▸ List.getLast_mem hne)
    have hnotEmpty : name.isEmpty = false := by simpa using hne
    simp [splitHead, withoutTrailingSlashes_of_last hlast, hbase, hnotEmpty]

/-- A path that is parted in front of its last component has a head. -/
theorem splitHead_spec {path head tail : Text} (h : splitHead path = (head, tail)) (htail : tail ≠ []) :
    IsHead head tail path := by
  have heq : splitHead path =
      (dirName (withoutTrailingSlashes path), baseName (withoutTrailingSlashes path)) :=
    splitHead_eq (by rwa [h])
  obtain ⟨rfl, rfl⟩ := Prod.mk.inj (h.symm.trans heq)
  exact (isHead_dirName htail).of_withoutTrailingSlashes

theorem splitHead_withoutTrailingSlashes {path : Text} (htail : (splitHead path).2 ≠ []) :
    splitHead (withoutTrailingSlashes path) = splitHead path := by
  have heq := splitHead_eq htail
  have hnotEmpty : (baseName (withoutTrailingSlashes path)).isEmpty = false := by
    rw [heq] at htail
    simpa using htail
  rw [heq, splitHead, hnotEmpty]
  rfl

/-- The head of a path continued by a name is the path without the slashes at its end, if the path has
components. -/
theorem splitHead_joinTwo {path name : Text} (hpath : splitComponents path ≠ []) (hne : name ≠ [])
    (hname : '/' ∉ name) :
    splitHead (joinTwo path name) = (withoutTrailingSlashes path, name) := by
  obtain ⟨h, slashes, heq, hh, rfl, hslashes⟩ := joinTwo_eq (p := path) hname
  have hbase := baseName_joinTwo (p := path) hname
  have hnotEmpty : name.isEmpty = false := by simpa using hne
  have hnot : ¬ (path ++ slashes).all (· == '/') := by
    intro hall
    refine hpath ?_
    rw [← splitComponents_append_slashes path hslashes]
    exact splitComponents_slashes fun c hc => by simpa using List.all_eq_true.1 hall c hc
  have hdir : dirName (joinTwo path name) = withoutTrailingSlashes path := by
    rw [heq, dirName_eq hname hh, if_neg hnot, withoutTrailingSlashes_append path hslashes]
  simp [splitHead, hbase, hnotEmpty, hdir]

end Primitives.Request
