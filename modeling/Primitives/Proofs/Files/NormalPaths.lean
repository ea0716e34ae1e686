import Primitives.Proofs.Files.PathParts
import Primitives.Proofs.Library.FileOperations

/-!
# Normal paths

The normal form of an absolute path is written from two things alone: the number of its slashes in front, of which two
are kept and any other number counts as one, and the names that a stack of components holds in the end. A name is
pushed, `..` pops what is there, and empty components and `.` are dropped. Names are only pushed, so the normal form has
the same slashes and names as the path. What is normalized in front does not matter for what comes behind, because a
path continued by a relative one has the components of both, one after the other.

## Main definitions

* `PathText.slashCount`, `PathText.IsNormal`: slashes in front of a path, and paths in normal form.
* `PathText.written`: slashes with names behind them.
* `PathText.namesOf`: the names that are left of the components of an absolute path.

## Main results

* `PathText.normalize_eq_written`: the normal form of an absolute path.
* `PathText.isNormal_written`: slashes with names behind them are in normal form.
* `PathText.normalize_joinTwo_normalize`: a path may be normalized before it is continued.
* `Disk.WellFormed.isNormal_workingPath`: the path of a working directory is normal.
* `Host.absolutePath_normalForm`: the absolute form of paths.
-/

namespace Primitives.PathText

open SplitPath FileTree

variable {p q w : Text} {names stack components : List Text} {slashes : Nat}

/-! ### Slashes in front -/

/-- The number of slashes that a path begins with. -/
def slashCount (p : Text) : Nat :=
  (p.takeWhile (· == '/')).length

/-- What stands behind the slashes that a path begins with. -/
def behindSlashes (p : Text) : Text :=
  p.dropWhile (· == '/')

theorem leadingSlashes_eq (p : Text) : leadingSlashes p = if slashCount p = 2 then 2 else min (slashCount p) 1 :=
  rfl

theorem slashCount_pos_iff : 0 < slashCount p ↔ isAbsolute p := by
  cases p with
  | nil => simp [slashCount, isAbsolute]
  | cons c p => by_cases hc : c = '/' <;> simp [slashCount, isAbsolute, hc]

/-- An absolute path stays absolute when it is continued. -/
theorem isAbsolute_joinTwo_left (hp : isAbsolute p) (q : Text) : isAbsolute (joinTwo p q) := by
  cases hq : isAbsolute q with
  | true => rwa [joinTwo_of_isAbsolute hq]
  | false =>
    have hne : p ≠ [] := by
      rintro rfl
      exact absurd hp (by decide)
    rwa [isAbsolute_joinTwo hne hq]

/-- Slashes are counted up to the first other character. -/
theorem slashCount_replicate_append (slashes : Nat) (hw : w.head? ≠ some '/') :
    slashCount (List.replicate slashes '/' ++ w) = slashes ∧ behindSlashes (List.replicate slashes '/' ++ w) = w := by
  have hslash : ∀ c ∈ List.replicate slashes '/', (c == '/') = true := fun c hc => by
    rw [List.eq_of_mem_replicate hc]
    rfl
  have hfirst : w.takeWhile (· == '/') = [] ∧ w.dropWhile (· == '/') = w := by
    cases w with
    | nil => exact ⟨rfl, rfl⟩
    | cons c w =>
      have hc : (c == '/') = false := by simpa using hw
      simp [hc]
  rw [slashCount, behindSlashes, List.takeWhile_append_of_pos hslash, List.dropWhile_append_of_pos hslash, hfirst.1,
    hfirst.2, List.append_nil, List.length_replicate]
  exact ⟨rfl, rfl⟩

/-- A path continued by a relative one keeps its slashes in front. -/
theorem slashCount_joinTwo (p : Text) (hq : isAbsolute q = false) : slashCount (joinTwo p q) = slashCount p := by
  have hnone : q.takeWhile (· == '/') = [] := by
    have hcount : ¬ 0 < slashCount q := by simp [slashCount_pos_iff, hq]
    simpa [slashCount] using hcount
  by_cases hall : ∀ c ∈ p, c = '/'
  · have htake : ∀ c ∈ p, (c == '/') = true := by simpa using hall
    rw [joinTwo_of_open (open_of_slashes hall) hq, slashCount, List.takeWhile_append_of_pos htake, hnone,
      List.append_nil, slashCount, List.takeWhile_eq_self_iff.2 htake]
  · obtain ⟨front, slashes, -, rfl, -, hjoin⟩ := exists_joinTwo_eq p
    have hlength : (p.takeWhile (· == '/')).length ≠ p.length := fun heq =>
      hall (by simpa using List.takeWhile_eq_self_iff.1 ((List.takeWhile_prefix _).eq_of_length heq))
    rw [hjoin q hq, List.append_assoc, slashCount, List.takeWhile_append, if_neg hlength, slashCount]

/-! ### Components -/

/-- The components of a path continued by a relative one. -/
theorem splitComponents_joinTwo_relative (p : Text) (hq : isAbsolute q = false) :
    splitComponents (joinTwo p q) = splitComponents p ++ splitComponents q := by
  obtain ⟨front, slashes, hopen, hfront, hslashes, hjoin⟩ := exists_joinTwo_eq p
  have hcomponents : splitComponents p = splitComponents front := by
    rw [hfront, splitComponents_append_slashes p hslashes]
  rw [hjoin q hq, hcomponents]
  rcases hopen with rfl | ⟨s, rfl⟩
  · rw [List.nil_append, splitComponents_nil, List.nil_append]
  · rw [List.append_assoc, List.singleton_append, splitComponents_append, splitComponents_append, splitComponents_nil,
      List.append_nil]

theorem splitComponents_replicate_append (slashes : Nat) (w : Text) :
    splitComponents (List.replicate slashes '/' ++ w) = splitComponents w := by
  induction slashes with
  | zero => rfl
  | succ slashes ih =>
    have happend := splitComponents_append [] (List.replicate slashes '/' ++ w)
    rwa [List.nil_append, splitComponents_nil, List.nil_append, ih] at happend

/-- Names with slashes between them are the parts of the path and its components. -/
theorem split_join_names (hnames : ∀ n ∈ names, IsName n) (hne : names ≠ []) :
    (Text.join names ['/']).split ['/'] = names :=
  (Text.split_eq_iff (List.cons_ne_nil _ _)).2
    ⟨rfl, Text.isParting_character_iff.2 ⟨hne, fun n hn => (hnames n hn).2.1⟩⟩

/-! ### Slashes with names behind them -/

/-- Slashes with names behind them, and single slashes between the names. -/
def written (slashes : Nat) (names : List Text) : Text :=
  List.replicate slashes '/' ++ Text.join names ['/']

theorem splitComponents_written (hnames : ∀ n ∈ names, IsName n) :
    splitComponents (written slashes names) = names := by
  rw [written, splitComponents_replicate_append]
  by_cases hne : names = []
  · rw [hne]
    exact splitComponents_nil
  · rw [splitComponents, split_join_names hnames hne, List.filter_eq_self]
    exact fun n hn => by simpa using (hnames n hn).1

/-- Names with slashes between them do not begin with a slash. -/
theorem head?_join_names (hnames : ∀ n ∈ names, IsName n) : (Text.join names ['/']).head? ≠ some '/' := by
  cases names with
  | nil => simp [Text.join]
  | cons n names =>
    obtain ⟨hne, hslash, -⟩ := hnames n List.mem_cons_self
    obtain ⟨c, n, rfl⟩ := List.exists_cons_of_ne_nil hne
    have hc : c ≠ '/' := fun heq => hslash (heq ▸ List.mem_cons_self)
    cases names <;> simpa [Text.join] using hc

theorem slashCount_written (hnames : ∀ n ∈ names, IsName n) : slashCount (written slashes names) = slashes :=
  (slashCount_replicate_append slashes (head?_join_names hnames)).1

/-- A path in normal form: one or two slashes, and behind them nothing, or components that are not empty, `.` or `..`
with no slash at the end. -/
structure IsNormal (p : Text) : Prop where
  slashCount : slashCount p = 1 ∨ slashCount p = 2
  component : behindSlashes p ≠ [] → ∀ n ∈ (behindSlashes p).split ['/'], n ≠ [] ∧ n ≠ ['.'] ∧ n ≠ ['.', '.']
  noSlash : behindSlashes p ≠ [] → p.getLast? ≠ some '/'

theorem isNormal_written (hslashes : slashes = 1 ∨ slashes = 2) (hnames : ∀ n ∈ names, IsName n) :
    IsNormal (written slashes names) := by
  obtain ⟨hcount, hbehind⟩ := slashCount_replicate_append slashes (head?_join_names hnames)
  have hparts (hne : Text.join names ['/'] ≠ []) : names ≠ [] := fun heq => hne (by rw [heq]; rfl)
  rw [← written] at hcount hbehind
  refine ⟨by rwa [hcount], fun hne n hn => ?_, fun hne hlast => ?_⟩
  · rw [hbehind] at hne hn
    rw [split_join_names hnames (hparts hne)] at hn
    obtain ⟨hempty, -, hdot, hdots⟩ := hnames n hn
    exact ⟨hempty, hdot, hdots⟩
  · rw [hbehind] at hne
    -- the text behind the last slash would be an empty name
    rw [written, List.getLast?_append_of_ne_nil _ hne] at hlast
    obtain ⟨front, hfront⟩ := List.getLast?_eq_some_iff.1 hlast
    have hsplit := split_join_names hnames (hparts hne)
    rw [hfront, Text.split_append_cons, Text.split_of_notMem (List.not_mem_nil)] at hsplit
    exact (hnames [] (hsplit ▸ List.mem_append_right _ List.mem_cons_self)).1 rfl

/-! ### The stack of components -/

theorem pushComponent_name {n : Text} (hn : IsName n) (absolute : Bool) (stack : List Text) :
    pushComponent absolute stack n = n :: stack := by
  obtain ⟨hempty, -, hdot, hdots⟩ := hn
  simp [pushComponent, hempty, hdot, hdots]

/-- A step on the stack of an absolute path keeps what lies on it, drops the uppermost name or adds one. -/
theorem isName_of_mem_pushComponent (hstack : ∀ n ∈ stack, IsName n) {component : Text} (hslash : '/' ∉ component) :
    ∀ n ∈ pushComponent true stack component, IsName n := by
  unfold pushComponent
  split
  · exact hstack
  · next hkept =>
    rw [not_or] at hkept
    split
    · cases stack with
      | nil => exact fun n hn => nomatch hn
      | cons top rest =>
        obtain ⟨htop, hrest⟩ := List.forall_mem_cons.1 hstack
        simpa only [if_neg htop.2.2.2] using hrest
    · next hdots => exact List.forall_mem_cons.2 ⟨⟨hkept.1, hslash, hkept.2, hdots⟩, hstack⟩

theorem isName_of_mem_foldl (hstack : ∀ n ∈ stack, IsName n) (hcomponents : ∀ c ∈ components, '/' ∉ c) :
    ∀ n ∈ components.foldl (pushComponent true) stack, IsName n := by
  induction components generalizing stack with
  | nil => exact hstack
  | cons c components ih =>
    obtain ⟨hc, hrest⟩ := List.forall_mem_cons.1 hcomponents
    exact ih (isName_of_mem_pushComponent hstack hc) hrest

/-- Names pile up. -/
theorem foldl_pushComponent_names (hnames : ∀ n ∈ names, IsName n) (stack : List Text) :
    names.foldl (pushComponent true) stack = names.reverse ++ stack := by
  induction names generalizing stack with
  | nil => rfl
  | cons n names ih =>
    obtain ⟨hn, hrest⟩ := List.forall_mem_cons.1 hnames
    rw [List.foldl_cons, pushComponent_name hn, ih hrest, List.reverse_cons, List.append_assoc, List.singleton_append]

/-- Empty components are not pushed. -/
theorem foldl_split (absolute : Bool) (p : Text) (stack : List Text) :
    (p.split ['/']).foldl (pushComponent absolute) stack =
      (splitComponents p).foldl (pushComponent absolute) stack := by
  rw [splitComponents, List.foldl_filter]
  congr 1
  funext stack component
  cases component <;> simp [pushComponent]

/-- The names that are left of the components of an absolute path, the last one first. -/
def namesOf (p : Text) : List Text :=
  (splitComponents p).foldl (pushComponent true) []

theorem isName_of_mem_namesOf (p : Text) : ∀ n ∈ (namesOf p).reverse, IsName n := by
  intro n hn
  exact isName_of_mem_foldl (fun _ h => absurd h List.not_mem_nil) (fun _ hc => (of_mem_splitComponents hc).2) n
    (List.mem_reverse.1 hn)

/-! ### Normal forms -/

theorem leadingSlashes_cases (hp : isAbsolute p) : leadingSlashes p = 1 ∨ leadingSlashes p = 2 := by
  have hcount := slashCount_pos_iff.2 hp
  rw [leadingSlashes_eq]
  split <;> omega

/-- The normal form of an absolute path is written from its slashes and its names. -/
theorem normalize_eq_written (hp : isAbsolute p) :
    normalize p = written (leadingSlashes p) (namesOf p).reverse := by
  have hslashes := leadingSlashes_cases hp
  have hkeep : (leadingSlashes p != 0) = true := by
    rw [bne_iff_ne]
    omega
  have hbody : (written (leadingSlashes p) (namesOf p).reverse).isEmpty = false := by
    rcases hslashes with h | h <;> rw [written, h] <;> rfl
  rw [normalize, hkeep, foldl_split]
  exact if_neg (by rw [← namesOf, ← written, hbody]; exact Bool.false_ne_true)

theorem isNormal_normalize (hp : isAbsolute p) : IsNormal (normalize p) := by
  rw [normalize_eq_written hp]
  exact isNormal_written (leadingSlashes_cases hp) (isName_of_mem_namesOf p)

theorem slashCount_normalize (hp : isAbsolute p) : slashCount (normalize p) = leadingSlashes p := by
  rw [normalize_eq_written hp, slashCount_written (isName_of_mem_namesOf p)]

theorem isAbsolute_normalize (hp : isAbsolute p) : isAbsolute (normalize p) := by
  rw [← slashCount_pos_iff, slashCount_normalize hp]
  rcases leadingSlashes_cases hp with h | h <;> rw [h] <;> decide

/-- Slashes that are kept are kept again. -/
theorem leadingSlashes_normalize (hp : isAbsolute p) : leadingSlashes (normalize p) = leadingSlashes p := by
  rw [leadingSlashes_eq (normalize p), slashCount_normalize hp]
  rcases leadingSlashes_cases hp with h | h <;> rw [h] <;> rfl

/-- The components of the normal form leave the names of the path behind. -/
theorem foldl_splitComponents_normalize (hp : isAbsolute p) :
    (splitComponents (normalize p)).foldl (pushComponent true) [] = namesOf p := by
  have hnames := isName_of_mem_namesOf p
  rw [normalize_eq_written hp, splitComponents_written hnames, foldl_pushComponent_names hnames, List.reverse_reverse,
    List.append_nil]

/-- Paths with the same slashes and names have the same normal form. -/
theorem normalize_congr (hp : isAbsolute p) (hq : isAbsolute q) (hslashes : leadingSlashes p = leadingSlashes q)
    (hnames : namesOf p = namesOf q) : normalize p = normalize q := by
  rw [normalize_eq_written hp, normalize_eq_written hq, hslashes, hnames]

theorem normalize_normalize (hp : isAbsolute p) : normalize (normalize p) = normalize p :=
  normalize_congr (isAbsolute_normalize hp) hp (leadingSlashes_normalize hp) (foldl_splitComponents_normalize hp)

/-- A path may be normalized before it is continued by a relative one. -/
theorem normalize_joinTwo_normalize (hp : isAbsolute p) (hq : isAbsolute q = false) :
    normalize (joinTwo (normalize p) q) = normalize (joinTwo p q) := by
  refine normalize_congr (isAbsolute_joinTwo_left (isAbsolute_normalize hp) q) (isAbsolute_joinTwo_left hp q) ?_ ?_
  · rw [leadingSlashes_eq, leadingSlashes_eq (joinTwo p q), slashCount_joinTwo _ hq, slashCount_joinTwo _ hq,
      ← leadingSlashes_eq, ← leadingSlashes_eq, leadingSlashes_normalize hp]
  · rw [namesOf, namesOf, splitComponents_joinTwo_relative _ hq, splitComponents_joinTwo_relative _ hq,
      List.foldl_append, List.foldl_append, foldl_splitComponents_normalize hp, namesOf]

/-! ### Absolute forms -/

section Directory

variable {directory : Text} (hdirectory : isAbsolute directory)

include hdirectory

theorem absolute_absolute (p : Text) : absolute directory (absolute directory p) = absolute directory p := by
  have hp := isAbsolute_joinTwo_left hdirectory p
  rw [absolute, absolute, joinTwo_of_isAbsolute (isAbsolute_normalize hp), normalize_normalize hp]

/-- A path may be made absolute before it is continued. -/
theorem absolute_joinTwo_absolute (p q : Text) :
    absolute directory (joinTwo (absolute directory p) q) = absolute directory (joinTwo p q) := by
  have hp := isAbsolute_joinTwo_left hdirectory p
  cases hq : isAbsolute q with
  | true => rw [joinTwo_of_isAbsolute hq, joinTwo_of_isAbsolute hq]
  | false =>
    rw [absolute, absolute, joinTwo_of_isAbsolute (isAbsolute_joinTwo_left (isAbsolute_normalize hp) q),
      normalize_joinTwo_normalize hp hq, absolute, joinTwo_assoc]

end Directory

/-- Absolute forms are normal, with two slashes in front exactly if the path itself has two there. -/
theorem isNormal_absolute {directory : Text} (hone : slashCount directory = 1) (p : Text) :
    IsNormal (absolute directory p) ∧ (slashCount (absolute directory p) = 2 ↔ slashCount p = 2) := by
  have hdirectory : isAbsolute directory := slashCount_pos_iff.1 (hone ▸ Nat.one_pos)
  have habsolute := isAbsolute_joinTwo_left hdirectory p
  refine ⟨isNormal_normalize habsolute, ?_⟩
  rw [absolute, slashCount_normalize habsolute, leadingSlashes_eq]
  cases hp : isAbsolute p with
  | true =>
    rw [joinTwo_of_isAbsolute hp]
    split <;> omega
  | false =>
    have hcount : ¬ 0 < slashCount p := by simp [slashCount_pos_iff, hp]
    rw [slashCount_joinTwo _ hp, hone]
    split <;> omega

end Primitives.PathText

namespace Primitives

open PathText FileTree

/-! ### The working directory -/

/-- The path of a location is written with one slash in front. -/
theorem Disk.pathOf_eq_written (p : Location) : Disk.pathOf p = written 1 p := by
  cases p with
  | nil => rfl
  | cons n p =>
    rw [Disk.pathOf, if_neg (List.cons_ne_nil n p), written, Text.join]
    induction p generalizing n with
    | nil => simp
    | cons n' p ih =>
      rw [List.flatMap_cons, ih, List.intercalate_cons_cons]
      simp

/-- The path of a working directory that is there is normal, and begins with one slash. -/
theorem Disk.WellFormed.isNormal_workingPath {disk : Disk} (h : disk.WellFormed) {directory : Text}
    (hdirectory : disk.workingPath = .ok directory) : IsNormal directory ∧ slashCount directory = 1 := by
  have hnames : ∀ n ∈ disk.directory.location, IsName n := fun n hn => h.tree.name_of_isDirectory h.standing hn
  unfold Disk.workingPath at hdirectory
  split at hdirectory
  · cases hdirectory
  · rw [Disk.pathOf_eq_written] at hdirectory
    rw [← Except.ok.inj hdirectory]
    exact ⟨isNormal_written (.inl rfl) hnames, slashCount_written hnames⟩

namespace Host

variable {host : Host} {directory : Text}

/-- A path is continued from a working directory that is there. -/
theorem run_absolutePath (hdirectory : host.disk.workingPath = .ok directory) (p : Text) :
    (Host.absolutePath p).run host = (.ok (absolute directory p), host) := by
  rw [Action.run_hostAbsolutePath]
  unfold Disk.workingPath at hdirectory
  split at hdirectory
  · cases hdirectory
  · next hthere =>
    rw [Except.ok.inj hdirectory, if_pos (not_not.1 hthere)]
    split
    · next hp => rw [absolute, joinTwo_of_isAbsolute hp]
    · rfl

/-- **The absolute form of a path is a normal form of its letters.** In a working directory whose path begins with one
slash, every path has an absolute form. It begins with one slash, or with two exactly if the path begins with two and no
more, and has no component that is empty, `.` or `..` and no slash at its end, unless it consists of slashes. It is
its own absolute form, and it does not matter whether a path is made absolute before it is continued by another
one. -/
theorem absolutePath_normalForm (hdirectory : host.disk.workingPath = .ok directory) (hone : slashCount directory = 1) :
    (∀ p, (Host.absolutePath p).run host = (.ok (absolute directory p), host)) ∧
    (∀ p, IsNormal (absolute directory p) ∧ (slashCount (absolute directory p) = 2 ↔ slashCount p = 2)) ∧
    (∀ p, absolute directory (absolute directory p) = absolute directory p) ∧
    ∀ p q, absolute directory (join (absolute directory p) [q]) = absolute directory (join p [q]) := by
  have hroot : isAbsolute directory := slashCount_pos_iff.1 (hone ▸ Nat.one_pos)
  exact ⟨run_absolutePath hdirectory, isNormal_absolute hone, absolute_absolute hroot,
    absolute_joinTwo_absolute hroot⟩

/-- Two slashes are kept, `..` takes away a name that was continued, and the root is its own parent. -/
theorem absolutePath_normalForm_doubleSlash :
    let host := Host.ofDisk ⟨FileTree.empty.put [['a']] (.directory FileTree.directoryMode), .live [['a']]⟩
    host.disk.workingPath = .ok "/a" ∧ slashCount "/a" = 1 ∧
      (Host.absolutePath "//x/.././y/").run host = (.ok "//y", host) ∧ slashCount "//y" = 2 ∧
      IsNormal (absolute "/a" "b/../..") ∧ absolute "/a" "b/../.." = "/" ∧
      absolute "/a" (join "/" [("../c" : Text)]) = absolute "/a" (join "b/../.." [("../c" : Text)]) := by
  intro host
  have hdirectory : host.disk.workingPath = .ok "/a" := rfl
  have hone : slashCount "/a" = 1 := by decide
  obtain ⟨hrun, hnormal, -, hjoin⟩ := absolutePath_normalForm hdirectory hone
  have hslashes : absolute "/a" "//x/.././y/" = "//y" := by cbv
  have hroot : absolute "/a" "b/../.." = "/" := by cbv
  refine ⟨hdirectory, hone, ?_, ?_, (hnormal _).1, hroot, ?_⟩
  · rw [hrun, hslashes]
  · rw [← hslashes, (hnormal _).2]
    decide
  · rw [← hjoin "b/../..", hroot]

end Host

end Primitives
