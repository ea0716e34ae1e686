import Mathlib.Data.List.Find
import Mathlib.Data.List.Induction
import Mathlib.Data.List.Perm.Basic
import Mathlib.Data.List.Nodup
import Primitives.Files.Calls

/-!
# Laws of file trees

A tree is *well formed* when every entry lies in a directory, no two entries have the same location, and
the names on the way to an entry are names: not empty, without a slash, and neither of the two that stand
for the directory itself and its parent. The three changes of a tree keep it well formed where they put
entries into directories, erase entries that nothing lies below, and move entries to locations that
nothing lies at or below.

Trees are compared by what their locations hold. Two well-formed trees that hold the same have as many
entries as each other, whatever their order.

## Main definitions

* `FileTree.IsName`, `FileTree.WellFormed`: names and well-formed trees.
* `FileTree.Same`: trees that hold the same.

## Main results

* `FileTree.lookup_relocate`: what a tree holds after a move.
* `FileTree.WellFormed.put`, `FileTree.WellFormed.erase`, `FileTree.WellFormed.relocate`: changes keep a
  tree well formed.
* `FileTree.Same.length_eq`: trees that hold the same have the same number of entries.
-/

namespace Primitives.FileTree

/-! ### Well-formed trees -/

/-- A name that an entry of a directory can have. -/
def IsName (n : Text) : Prop :=
  n ≠ [] ∧ '/' ∉ n ∧ n ≠ ['.'] ∧ n ≠ ['.', '.']

instance (n : Text) : Decidable (IsName n) :=
  inferInstanceAs (Decidable (n ≠ [] ∧ '/' ∉ n ∧ n ≠ ['.'] ∧ n ≠ ['.', '.']))

/-- The locations of the entries of a tree. -/
def locations (t : FileTree) : List Location :=
  t.entries.map Prod.fst

/-- Every entry lies in a directory, at a location of its own below the root that consists of names. -/
structure WellFormed (t : FileTree) : Prop where
  closed : t.Closed
  nodup : t.locations.Nodup
  below : [] ∉ t.locations
  names : ∀ p ∈ t.locations, ∀ n ∈ p, IsName n

/-- Two trees that hold the same at every location. -/
def Same (t u : FileTree) : Prop :=
  ∀ p, t.lookup p = u.lookup p

namespace Same

variable {t u v : FileTree}

theorem refl (t : FileTree) : Same t t :=
  fun _ => rfl

theorem symm (h : Same t u) : Same u t :=
  fun p => (h p).symm

theorem trans (h : Same t u) (h' : Same u v) : Same t v :=
  fun p => (h p).trans (h' p)

end Same

/-! ### Looking -/

theorem isSome_lookup_iff (t : FileTree) (p : Location) : (t.lookup p).isSome ↔ p ∈ t.locations := by
  simp only [lookup, Option.isSome_map, List.find?_isSome, locations, List.mem_map, beq_iff_eq]

theorem entry?_of_ne {p : Location} (hp : p ≠ []) (t : FileTree) : t.entry? p = t.lookup p :=
  if_neg hp

theorem entry?_append_name (t : FileTree) (p : Location) (n : Text) :
    t.entry? (p ++ [n]) = t.lookup (p ++ [n]) :=
  entry?_of_ne (by simp) t

theorem isDirectory_iff (t : FileTree) (p : Location) :
    t.isDirectory p ↔ ∃ mode, t.entry? p = some (.directory mode) := by
  unfold isDirectory
  cases t.entry? p with
  | none => simp
  | some e => cases e <;> simp

/-- Below the root a directory is an entry of the tree. -/
theorem isDirectory_iff_lookup (t : FileTree) {p : Location} (hp : p ≠ []) :
    t.isDirectory p ↔ ∃ mode, t.lookup p = some (.directory mode) := by
  rw [isDirectory_iff, entry?_of_ne hp]

theorem not_isDirectory_of_none {t : FileTree} {p : Location} (hp : p ≠ []) (h : t.lookup p = none) :
    ¬ t.isDirectory p := by
  simp [t.isDirectory_iff_lookup hp, h]

theorem isDirectory_congr {t u : FileTree} {p q : Location} (h : t.entry? p = u.entry? q) :
    t.isDirectory p = u.isDirectory q := by
  simp only [isDirectory, h]

/-- Every location on the way to an entry is a directory. -/
theorem Closed.isDirectory_of_append {t : FileTree} (h : t.Closed) {p q : Location} (hq : q ≠ [])
    (hsome : (t.lookup (p ++ q)).isSome) : t.isDirectory p := by
  induction q using List.reverseRecOn with
  | nil => exact absurd rfl hq
  | append_singleton q n ih =>
    rw [← List.append_assoc] at hsome
    have hparent := h _ _ hsome
    by_cases hq : q = []
    · simpa [hq] using hparent
    · obtain ⟨mode, hmode⟩ := (t.isDirectory_iff_lookup (by simp [hq])).1 hparent
      exact ih hq (by simp [hmode])

theorem Closed.isDirectory_of_le {t : FileTree} (h : t.Closed) {p q : Location} (hqp : q <+: p)
    (hp : t.isDirectory p) : t.isDirectory q := by
  obtain ⟨r, rfl⟩ := hqp
  by_cases hr : r = []
  · simpa [hr] using hp
  · obtain ⟨mode, hmode⟩ := (t.isDirectory_iff_lookup (by simp [hr])).1 hp
    exact h.isDirectory_of_append hr (by simp [hmode])

/-- Nothing lies below an entry that is no directory. -/
theorem Closed.lookup_below {t : FileTree} (h : t.Closed) {p q : Location} (hp : ¬ t.isDirectory p)
    (hq : q ≠ []) : t.lookup (p ++ q) = none := by
  by_contra hne
  exact hp (h.isDirectory_of_append hq (Option.isSome_iff_ne_none.2 hne))

theorem childName?_eq_some_iff {parent p : Location} {n : Text} :
    childName? parent p = some n ↔ p = parent ++ [n] := by
  cases p using List.reverseRecOn with
  | nil => simp [childName?]
  | append_singleton q m _ => simp [childName?]

/-- The names in a directory are those that it holds an entry under. -/
theorem mem_children {t : FileTree} {p : Location} {n : Text} :
    n ∈ t.children p ↔ (t.lookup (p ++ [n])).isSome := by
  simp only [isSome_lookup_iff, children, locations, List.mem_filterMap, List.mem_map,
    childName?_eq_some_iff]

/-- A directory has no children if it holds no entries. -/
theorem children_eq_nil {t : FileTree} {p : Location} (h : ∀ n, t.lookup (p ++ [n]) = none) :
    t.children p = [] := by
  refine List.eq_nil_iff_forall_not_mem.2 fun n hn => ?_
  have hsome := mem_children.1 hn
  simp [h n] at hsome

theorem nodup_children {t : FileTree} (h : t.locations.Nodup) (p : Location) :
    (t.children p).Nodup := by
  have hchildren : t.children p = t.locations.filterMap (childName? p) := by
    simp [children, locations, List.filterMap_map]
  rw [hchildren]
  refine h.filterMap fun q r n hq hr => ?_
  rw [childName?_eq_some_iff.1 hq, childName?_eq_some_iff.1 hr]

/-- A directory without children has nothing below it. -/
theorem Closed.lookup_below_of_children {t : FileTree} (h : t.Closed) {p : Location}
    (hchildren : t.children p = []) {q : Location} (hq : q ≠ []) : t.lookup (p ++ q) = none := by
  cases q with
  | nil => exact absurd rfl hq
  | cons n q =>
    have hchild : t.lookup (p ++ [n]) = none := by
      by_contra hne
      have hname := mem_children.2 (Option.isSome_iff_ne_none.2 hne)
      simp [hchildren] at hname
    by_cases hq : q = []
    · simpa [hq] using hchild
    · simpa using h.lookup_below (not_isDirectory_of_none (by simp) hchild) hq

/-- Trees that hold the same have the same number of entries. -/
theorem Same.length_eq {t u : FileTree} (h : Same t u) (ht : t.locations.Nodup)
    (hu : u.locations.Nodup) : t.entries.length = u.entries.length := by
  have hperm : t.locations.Perm u.locations := by
    refine (List.perm_ext_iff_of_nodup ht hu).2 fun p => ?_
    rw [← isSome_lookup_iff, ← isSome_lookup_iff, h p]
  simpa [locations] using hperm.length_eq

/-! ### Moving -/

/-- Of two locations that do not lie below each other, none lies at or below a third one that lies below
the other one. -/
theorem not_prefix_append {p q : Location} (hpq : ¬ p <+: q) (hqp : ¬ q <+: p) (r : Location) :
    ¬ p <+: q ++ r := by
  intro h
  rcases List.prefix_or_prefix_of_prefix h (List.prefix_append q r) with hle | hle
  · exact hpq hle
  · exact hqp hle

theorem relocated_append (old new q : Location) : relocated old new (old ++ q) = new ++ q := by
  simp [relocated, List.isPrefixOf_iff_prefix.2 (List.prefix_append old q)]

theorem relocated_of_not_le {old p : Location} (h : ¬ old <+: p) (new : Location) :
    relocated old new p = p := by
  simp [relocated, h]

/-- Either a location lies at or below the one that is moved, or it stays. -/
theorem relocated_cases (old new p : Location) :
    (∃ q, p = old ++ q ∧ relocated old new p = new ++ q) ∨
      (¬ old <+: p ∧ relocated old new p = p) := by
  by_cases h : old <+: p
  · obtain ⟨q, rfl⟩ := h
    exact .inl ⟨q, rfl, relocated_append old new q⟩
  · exact .inr ⟨h, relocated_of_not_le h new⟩

theorem locations_relocate (t : FileTree) (old new : Location) :
    (t.relocate old new).locations = t.locations.map (relocated old new) := by
  simp [locations, relocate, Function.comp_def]

theorem length_relocate (t : FileTree) (old new : Location) :
    (t.relocate old new).entries.length = t.entries.length := by
  simp [relocate]

/-- After a move to a location that held nothing at or below it, what was found at and below the old
location is found at and below the new one, and nothing else has changed. -/
theorem lookup_relocate {t : FileTree} {old new : Location}
    (hfree : ∀ q, t.lookup (new ++ q) = none) (p : Location) :
    (t.relocate old new).lookup p =
      if new <+: p then t.lookup (old ++ p.drop new.length)
      else if old <+: p then none else t.lookup p := by
  have hkeys : ∀ entry ∈ t.entries, ¬ new <+: entry.1 := by
    rintro ⟨l, e⟩ hmem ⟨q, rfl⟩
    have hsome := (t.isSome_lookup_iff (new ++ q)).2 (List.mem_map.2 ⟨_, hmem, rfl⟩)
    simp [hfree] at hsome
  have hlookup : (t.relocate old new).lookup p =
      (t.entries.find? fun entry => relocated old new entry.1 == p).map Prod.snd := by
    simp [lookup, relocate, List.find?_map, Option.map_map, Function.comp_def]
  rw [hlookup]
  split
  · next hnew =>
    obtain ⟨q, rfl⟩ := hnew
    rw [List.drop_left, lookup]
    refine congrArg (Option.map Prod.snd) (List.find?_congr fun entry hmem => ?_)
    rcases relocated_cases old new entry.1 with ⟨r, heq, hmoved⟩ | ⟨hold, hstays⟩
    · rw [hmoved, heq, Bool.eq_iff_iff]
      simp
    · have hne : entry.1 ≠ new ++ q := fun heq => hkeys entry hmem ⟨q, heq.symm⟩
      have hne' : entry.1 ≠ old ++ q := fun heq => hold ⟨q, heq.symm⟩
      simp [hstays, hne, hne']
  · next hnew =>
    split
    · next hold =>
      rw [Option.map_eq_none_iff, List.find?_eq_none]
      intro entry hmem
      rcases relocated_cases old new entry.1 with ⟨r, heq, hmoved⟩ | ⟨hentry, hstays⟩
      · simpa [hmoved] using fun heq => hnew ⟨r, heq⟩
      · simp only [hstays, beq_iff_eq]
        rintro rfl
        exact hentry hold
    · next hold =>
      rw [lookup]
      refine congrArg (Option.map Prod.snd) (List.find?_congr fun entry hmem => ?_)
      rcases relocated_cases old new entry.1 with ⟨r, heq, hmoved⟩ | ⟨hentry, hstays⟩
      · have hne : new ++ r ≠ p := fun heq => hnew ⟨r, heq⟩
        have hne' : entry.1 ≠ p := fun heq' => hold ⟨r, by rw [← heq', heq]⟩
        simp [hmoved, hne, hne']
      · rw [hstays]

/-! ### Changes of well-formed trees -/

theorem mem_locations_put {t : FileTree} {p q : Location} {e : Entry} :
    q ∈ (t.put p e).locations ↔ q = p ∨ q ∈ t.locations := by
  rw [← isSome_lookup_iff, ← isSome_lookup_iff, lookup_put]
  split <;> simp_all

theorem mem_locations_erase {t : FileTree} {p q : Location} :
    q ∈ (t.erase p).locations ↔ q ≠ p ∧ q ∈ t.locations := by
  rw [← isSome_lookup_iff, ← isSome_lookup_iff, lookup_erase]
  split <;> simp_all

theorem locations_erase (t : FileTree) (p : Location) :
    (t.erase p).locations = t.locations.filter (· != p) := by
  simp [locations, erase, List.filter_map, Function.comp_def]

theorem erase_of_notMem {t : FileTree} {p : Location} (h : p ∉ t.locations) : t.erase p = t := by
  have hfilter : t.entries.filter (·.1 != p) = t.entries := by
    refine List.filter_eq_self.2 fun entry hmem => ?_
    simp only [bne_iff_ne]
    rintro rfl
    exact h (List.mem_map.2 ⟨entry, hmem, rfl⟩)
  rw [erase, hfilter]

/-- The entry put last at a location counts. -/
theorem put_put (t : FileTree) (p : Location) (e e' : Entry) : (t.put p e).put p e' = t.put p e' := by
  simp [put, erase]

/-- Erasing an entry leaves one entry less. -/
theorem length_erase {t : FileTree} (ht : t.locations.Nodup) {p : Location} (hp : p ∈ t.locations) :
    (t.erase p).entries.length + 1 = t.entries.length := by
  have hlocations : (t.erase p).locations = t.locations.erase p := by
    rw [locations_erase, ht.erase_eq_filter]
  have hlength := congrArg List.length hlocations
  rw [List.length_erase_of_mem hp] at hlength
  have hpos := List.length_pos_of_mem hp
  simp only [locations, List.length_map] at hlength hpos
  omega

/-- A directory stays one when an entry is put anywhere, unless in its place. -/
theorem isDirectory_put {t : FileTree} {p q : Location} {e : Entry}
    (he : t.isDirectory p → ∃ mode, e = .directory mode) (hq : t.isDirectory q) :
    (t.put p e).isDirectory q := by
  by_cases hroot : q = []
  · subst hroot
    rfl
  by_cases hsame : q = p
  · subst hsame
    obtain ⟨mode, rfl⟩ := he hq
    exact (isDirectory_iff_lookup _ hroot).2 ⟨mode, by rw [lookup_put, if_pos rfl]⟩
  · rw [isDirectory_iff_lookup _ hroot, lookup_put, if_neg hsame]
    exact (isDirectory_iff_lookup _ hroot).1 hq

/-- A directory stays one when another entry is erased. -/
theorem isDirectory_erase {t : FileTree} {p q : Location} (hq : t.isDirectory q) (hne : q ≠ p) :
    (t.erase p).isDirectory q := by
  have hentry : FileTree.entry? (t.erase p) q = t.entry? q := by
    simp only [FileTree.entry?, lookup_erase, if_neg hne]
  rwa [isDirectory_congr hentry]

/-- A directory stays one when an entry is moved, at its new location if it is moved itself. -/
theorem isDirectory_relocate {t : FileTree} (ht : t.Closed) {old new p : Location} (hold : old ≠ [])
    (hnew : new ≠ []) (hfree : ∀ q, t.lookup (new ++ q) = none) (hp : t.isDirectory p) :
    (t.relocate old new).isDirectory (relocated old new p) := by
  rcases relocated_cases old new p with ⟨q, rfl, hmoved⟩ | ⟨hbelow, hstays⟩
  · have hentry : FileTree.entry? (t.relocate old new) (new ++ q) = t.entry? (old ++ q) := by
      rw [entry?_of_ne (by simp [hnew]), entry?_of_ne (by simp [hold]), lookup_relocate hfree,
        if_pos (List.prefix_append new q), List.drop_left]
    rwa [hmoved, isDirectory_congr hentry]
  · have hapart : ¬ new <+: p := fun hle =>
      not_isDirectory_of_none hnew (by simpa using hfree []) (ht.isDirectory_of_le hle hp)
    have hentry : FileTree.entry? (t.relocate old new) p = t.entry? p := by
      simp only [FileTree.entry?, lookup_relocate hfree, if_neg hapart, if_neg hbelow]
    rwa [hstays, isDirectory_congr hentry]

namespace Closed

variable {t : FileTree} {p parent : Location} {n : Text} {e : Entry}

theorem put (h : t.Closed) (hparent : t.isDirectory parent)
    (he : t.isDirectory (parent ++ [n]) → ∃ mode, e = .directory mode) :
    (t.put (parent ++ [n]) e).Closed := by
  intro q m hsome
  rw [lookup_put] at hsome
  by_cases hsame : q ++ [m] = parent ++ [n]
  · obtain ⟨rfl, -⟩ := List.append_inj' hsame rfl
    exact isDirectory_put he hparent
  · rw [if_neg hsame] at hsome
    exact isDirectory_put he (h q m hsome)

theorem erase (h : t.Closed) (hbelow : ∀ q, q ≠ [] → t.lookup (p ++ q) = none) : (t.erase p).Closed := by
  intro q m hsome
  rw [lookup_erase] at hsome
  split at hsome
  · simp at hsome
  · refine isDirectory_erase (h q m hsome) ?_
    rintro rfl
    simp [hbelow] at hsome

theorem relocate (h : t.Closed) {old : Location} (hold : old ≠ []) (hparent : t.isDirectory parent)
    (hbelow : ¬ old <+: parent) (hfree : ∀ q, t.lookup (parent ++ [n] ++ q) = none) :
    (t.relocate old (parent ++ [n])).Closed := by
  intro q m hsome
  have hdirectory : ∀ p, t.isDirectory p →
      (t.relocate old (parent ++ [n])).isDirectory (relocated old (parent ++ [n]) p) :=
    fun p hp => isDirectory_relocate h hold (by simp) hfree hp
  rw [lookup_relocate hfree] at hsome
  split at hsome
  · next hnew =>
    rcases List.prefix_concat_iff.1 hnew with hsame | ⟨r, rfl⟩
    · obtain ⟨rfl, -⟩ := List.append_inj' hsame rfl
      simpa [relocated_of_not_le hbelow] using hdirectory parent hparent
    · rw [List.append_assoc, List.drop_left, ← List.append_assoc] at hsome
      simpa [relocated_append] using hdirectory (old ++ r) (h _ m hsome)
  · split at hsome
    · simp at hsome
    · next hq =>
      have hstays : ¬ old <+: q := fun hle => hq (hle.trans (List.prefix_append q [m]))
      simpa [relocated_of_not_le hstays] using hdirectory q (h q m hsome)

end Closed

/-- Locations stay different when an entry is moved to a location that nothing lies at or below. -/
theorem nodup_relocate {t : FileTree} (h : t.locations.Nodup) {old new : Location}
    (hfree : ∀ q, t.lookup (new ++ q) = none) : (t.relocate old new).locations.Nodup := by
  have hkeys : ∀ q ∈ t.locations, ¬ new <+: q := by
    rintro _ hq ⟨r, rfl⟩
    simpa [hfree] using (t.isSome_lookup_iff _).2 hq
  rw [locations_relocate]
  refine h.map_on fun q hq r hr heq => ?_
  rcases relocated_cases old new q with ⟨a, rfl, ha⟩ | ⟨-, hqstays⟩ <;>
    rcases relocated_cases old new r with ⟨b, rfl, hb⟩ | ⟨-, hrstays⟩
  · rw [ha, hb] at heq
    rw [List.append_cancel_left heq]
  · exact absurd ⟨a, by rw [← ha, heq, hrstays]⟩ (hkeys r hr)
  · exact absurd ⟨b, by rw [← hb, ← heq, hqstays]⟩ (hkeys q hq)
  · rwa [hqstays, hrstays] at heq

namespace WellFormed

variable {t : FileTree} {p : Location} {e : Entry}

/-- The way to a directory consists of names. -/
theorem name_of_isDirectory (h : t.WellFormed) (hp : t.isDirectory p) {n : Text} (hn : n ∈ p) :
    IsName n := by
  obtain ⟨mode, hmode⟩ := (t.isDirectory_iff_lookup (List.ne_nil_of_mem hn)).1 hp
  exact h.names p ((isSome_lookup_iff t p).1 (by simp [hmode])) n hn

/-- The location of an entry consists of names. -/
theorem name_of_isSome (h : t.WellFormed) {n : Text} (hp : (t.lookup p).isSome) (hn : n ∈ p) : IsName n :=
  h.names p ((isSome_lookup_iff t p).1 hp) n hn

theorem empty : FileTree.empty.WellFormed :=
  ⟨fun _ _ h => Bool.noConfusion h, List.nodup_nil, List.not_mem_nil, fun _ h => nomatch h⟩

/-- The names in a directory are names. -/
theorem name_of_mem_children (h : t.WellFormed) {n : Text} (hn : n ∈ t.children p) : IsName n :=
  h.name_of_isSome (mem_children.1 hn) (by simp)

/-- An entry lies in a directory under a name. -/
theorem exists_parent (h : t.WellFormed) (hp : (t.lookup p).isSome) :
    ∃ parent n, p = parent ++ [n] ∧ IsName n ∧ t.isDirectory parent := by
  have hmem := (t.isSome_lookup_iff p).1 hp
  rcases List.eq_nil_or_concat' p with rfl | ⟨parent, n, rfl⟩
  · exact absurd hmem h.below
  · exact ⟨parent, n, rfl, h.names _ hmem n (by simp), h.closed parent n hp⟩

/-- A location under a name in a directory consists of names. -/
theorem name_of_mem_append (h : t.WellFormed) {parent : Location} {n : Text}
    (hparent : t.isDirectory parent) (hn : IsName n) {m : Text} (hm : m ∈ parent ++ [n]) : IsName m := by
  rcases List.mem_append.1 hm with hm | hm
  · exact h.name_of_isDirectory hparent hm
  · obtain rfl := List.mem_singleton.1 hm
    exact hn

/-- An entry is put into a directory; in place of a directory it is one as well. -/
theorem put (h : t.WellFormed) {parent : Location} {n : Text} (hparent : t.isDirectory parent)
    (hn : IsName n) (he : t.isDirectory (parent ++ [n]) → ∃ mode, e = .directory mode) :
    (t.put (parent ++ [n]) e).WellFormed := by
  refine ⟨h.closed.put hparent he, ?_, ?_, ?_⟩
  · have hfresh : parent ++ [n] ∉ (t.erase (parent ++ [n])).locations := by
      simp [mem_locations_erase]
    have hlocations : (t.put (parent ++ [n]) e).locations =
        (t.erase (parent ++ [n])).locations ++ [parent ++ [n]] := by
      simp [locations, FileTree.put]
    rw [hlocations, List.nodup_append_comm, List.singleton_append, List.nodup_cons]
    exact ⟨hfresh, locations_erase t _ ▸ h.nodup.filter _⟩
  · simp [mem_locations_put, h.below]
  · intro q hq m hm
    rcases mem_locations_put.1 hq with rfl | hq
    · exact h.name_of_mem_append hparent hn hm
    · exact h.names q hq m hm

/-- An entry that nothing lies below is erased. -/
theorem erase (h : t.WellFormed) (hbelow : ∀ q, q ≠ [] → t.lookup (p ++ q) = none) :
    (t.erase p).WellFormed where
  closed := h.closed.erase hbelow
  nodup := locations_erase t p ▸ h.nodup.filter _
  below := by simp [mem_locations_erase, h.below]
  names := fun q hq => h.names q (mem_locations_erase.1 hq).2

/-- An entry is moved, with all that lies below it, into a directory that does not lie below it. -/
theorem relocate (h : t.WellFormed) {old parent : Location} {n : Text} (hold : old ≠ [])
    (hparent : t.isDirectory parent) (hn : IsName n) (hbelow : ¬ old <+: parent)
    (hfree : ∀ q, t.lookup (parent ++ [n] ++ q) = none) :
    (t.relocate old (parent ++ [n])).WellFormed := by
  refine ⟨h.closed.relocate hold hparent hbelow hfree, nodup_relocate h.nodup hfree, ?_, ?_⟩
  · rw [locations_relocate]
    intro hroot
    obtain ⟨q, hq, heq⟩ := List.mem_map.1 hroot
    rcases relocated_cases old (parent ++ [n]) q with ⟨a, -, ha⟩ | ⟨-, hqstays⟩
    · simp [ha] at heq
    · exact h.below (by rwa [← heq, hqstays])
  · rw [locations_relocate]
    rintro _ hmem m hm
    obtain ⟨q, hq, rfl⟩ := List.mem_map.1 hmem
    rcases relocated_cases old (parent ++ [n]) q with ⟨a, rfl, ha⟩ | ⟨-, hqstays⟩
    · rw [ha] at hm
      rcases List.mem_append.1 hm with hm | hm
      · exact h.name_of_mem_append hparent hn hm
      · exact h.names _ hq m (List.mem_append_right old hm)
    · exact h.names q hq m (hqstays ▸ hm)

end WellFormed

end Primitives.FileTree
