import Primitives.Proofs.Files.Places

/-!
# Renames

A rename takes the entry at the place of the source to the place of the target. It is refused when a path
has no place, when the source has no entry, when a path asks for a directory and the entry is none, when
one place lies below the other one, and when the entry at the target cannot be replaced: a directory
replaces an empty directory, and any other entry replaces a file or a link.

Two renames of one source to different targets leave the same tree only in one case: the entry and the
entries at both targets are links with the same target.

## Main results

* `Disk.rename_ok_iff`: when a rename succeeds, and what it leaves.
* `Disk.exists_rename`: a file or a link can be renamed to every free place.
-/

namespace Primitives.Disk

open FileTree

variable {disk disk' : Disk} {source target path : Text}

/-! ### Successful renames -/

/-- An entry that is a directory. -/
def IsDirectoryEntry (e : Entry) : Prop :=
  ∃ mode, e = .directory mode

/-- What has to hold for a rename of an entry from one place to another one. -/
structure Renames (disk : Disk) (source target : Text) (old new : Location) (e : Entry)
    (entry : Option Entry) : Prop where
  origin : disk.place source = .ok (old, some e)
  goal : disk.place target = .ok (new, entry)
  slash : IsDirectoryEntry e ∨ (asksForDirectory source = false ∧ asksForDirectory target = false)
  notBelow : old <+: new → old = new
  notAbove : new <+: old → old = new

/-- The rename of an entry between two places. -/
theorem rename_ok_iff_of_place {old new : Location} {e : Entry} {entry : Option Entry}
    (horigin : disk.place source = .ok (old, some e)) (hgoal : disk.place target = .ok (new, entry)) :
    disk.rename source target = .ok disk' ↔
      Renames disk source target old new e entry ∧
        (old = new ∧ disk' = disk ∨ old ≠ new ∧ disk.replace old new e = .ok disk') := by
  obtain ⟨origin, n, horigin', hn, hold⟩ := place_eq_ok_iff.1 horigin
  obtain ⟨goal, m, hgoal', hm, hnew⟩ := place_eq_ok_iff.1 hgoal
  have hsource : origin.slash = asksForDirectory source := (resolveParent_ok horigin').1
  have htarget : goal.slash = asksForDirectory target := (resolveParent_ok hgoal').1
  have hrenames : Renames disk source target old new e entry ↔
      (IsDirectoryEntry e ∨ (asksForDirectory source = false ∧ asksForDirectory target = false)) ∧
        (old <+: new → old = new) ∧ (new <+: old → old = new) :=
    ⟨fun h => ⟨h.slash, h.notBelow, h.notAbove⟩,
      fun ⟨hslash, hbelow, habove⟩ => ⟨horigin, hgoal, hslash, hbelow, habove⟩⟩
  rw [hrenames, rename]
  simp only [horigin', hgoal', hn, hm, hold, hnew, Outcome.ok_bind, hsource, htarget]
  clear hrenames hgoal hgoal' hnew
  by_cases hsame : old = new
  · subst hsame
    cases e <;> cases asksForDirectory source <;> cases asksForDirectory target <;>
      simp [IsDirectoryEntry, eq_comm]
  · by_cases hbelow : old <+: new <;> by_cases habove : new <+: old <;> cases e <;>
      cases asksForDirectory source <;> cases asksForDirectory target <;>
        simp [IsDirectoryEntry, hsame, hbelow, habove]

/-- A rename succeeds if the entry can be put in place of what is at the target, and leaves the disk as it
is if source and target have the same place. -/
theorem rename_ok_iff :
    disk.rename source target = .ok disk' ↔
      ∃ old new e entry, Renames disk source target old new e entry ∧
        (old = new ∧ disk' = disk ∨ old ≠ new ∧ disk.replace old new e = .ok disk') := by
  constructor
  · intro h
    have hplaces : ∃ old new e entry, disk.place source = .ok (old, some e) ∧
        disk.place target = .ok (new, entry) := by
      obtain ⟨origin, horigin, hrest⟩ := Outcome.bind_eq_ok_iff.1 h
      obtain ⟨goal, hgoal, hrest⟩ := Outcome.bind_eq_ok_iff.1 hrest
      split at hrest
      · next n m hn hm =>
        obtain ⟨⟨old, found⟩, hold, hrest⟩ := Outcome.bind_eq_ok_iff.1 hrest
        cases found with
        | none => simp at hrest
        | some e =>
          obtain ⟨⟨new, entry⟩, hnew, -⟩ := Outcome.bind_eq_ok_iff.1 hrest
          exact ⟨old, new, e, entry, place_eq_ok_iff.2 ⟨origin, n, horigin, hn, hold⟩,
            place_eq_ok_iff.2 ⟨goal, m, hgoal, hm, hnew⟩⟩
      · simp at hrest
    obtain ⟨old, new, e, entry, horigin, hgoal⟩ := hplaces
    exact ⟨old, new, e, entry, (rename_ok_iff_of_place horigin hgoal).1 h⟩
  · rintro ⟨old, new, e, entry, hrenames, hdisk⟩
    exact (rename_ok_iff_of_place hrenames.origin hrenames.goal).2 ⟨hrenames, hdisk⟩

/-! ### Replaced entries -/

section

variable {old new : Location} {e : Entry}

/-- What stands at the target is erased, and then the entry is moved there. -/
theorem tree_of_replace (hnew : new ≠ []) (h : disk.replace old new e = .ok disk') :
    disk'.tree = (disk.tree.erase new).relocate old new := by
  unfold replace at h
  rw [entry?_of_ne hnew] at h
  split at h
  · next hnone =>
    obtain rfl := Except.ok.inj h
    have hmem : new ∉ disk.tree.locations := by
      rw [← isSome_lookup_iff, hnone]
      simp
    rw [erase_of_notMem hmem]
    rfl
  · split at h
    · exact nomatch h
    · obtain rfl := Except.ok.inj h
      rfl
  · exact nomatch h
  · exact nomatch h
  · obtain rfl := Except.ok.inj h
    rfl

/-- A directory replaces an empty directory, and any other entry one that is no directory. -/
theorem exists_replace_iff (hnew : new ≠ []) :
    (∃ disk', disk.replace old new e = .ok disk') ↔ ∀ x, disk.tree.lookup new = some x →
      (IsDirectoryEntry e ↔ IsDirectoryEntry x) ∧ (IsDirectoryEntry x → disk.tree.children new = []) := by
  unfold replace
  rw [entry?_of_ne hnew]
  cases disk.tree.lookup new with
  | none => simp
  | some x =>
    cases e <;> cases x <;> simp [IsDirectoryEntry]
    split <;> simp_all

/-- Nothing lies below an entry that is replaced. -/
theorem lookup_below_of_replace (ht : disk.tree.Closed) (hnew : new ≠ [])
    (h : disk.replace old new e = .ok disk') {q : Location} (hq : q ≠ []) :
    disk.tree.lookup (new ++ q) = none := by
  have hreplace := (exists_replace_iff hnew).1 ⟨disk', h⟩
  by_cases hdirectory : disk.tree.isDirectory new
  · obtain ⟨mode, hmode⟩ := (isDirectory_iff_lookup _ hnew).1 hdirectory
    exact ht.lookup_below_of_children ((hreplace _ hmode).2 ⟨mode, rfl⟩) hq
  · exact ht.lookup_below hdirectory hq

/-- What a disk holds after an entry has replaced another one. -/
theorem lookup_of_replace (ht : disk.tree.Closed) (hnew : new ≠ []) (hbelow : ¬ old <+: new)
    (h : disk.replace old new e = .ok disk') (p : Location) :
    disk'.tree.lookup p =
      if new <+: p then disk.tree.lookup (old ++ p.drop new.length)
      else if old <+: p then none else disk.tree.lookup p := by
  have hfree : ∀ q, (disk.tree.erase new).lookup (new ++ q) = none := by
    intro q
    rw [lookup_erase]
    split
    · rfl
    · next hq => exact lookup_below_of_replace ht hnew h (by simpa using hq)
  have hstays : ∀ q, ¬ new <+: q → (disk.tree.erase new).lookup q = disk.tree.lookup q := by
    intro q hq
    rw [lookup_erase, if_neg]
    rintro rfl
    exact hq (List.prefix_refl q)
  have hmoved : ∀ q, (disk.tree.erase new).lookup (old ++ q) = disk.tree.lookup (old ++ q) := by
    intro q
    rw [lookup_erase, if_neg]
    rintro rfl
    exact hbelow (List.prefix_append old q)
  rw [tree_of_replace hnew h, lookup_relocate hfree, hmoved]
  split
  · rfl
  · next hp => rw [hstays p hp]

/-- A replaced entry is gone afterwards. -/
theorem length_of_replace (ht : disk.tree.WellFormed) (hnew : new ≠ [])
    (h : disk.replace old new e = .ok disk') :
    disk'.tree.entries.length + (if (disk.tree.lookup new).isSome then 1 else 0) =
      disk.tree.entries.length := by
  rw [tree_of_replace hnew h, length_relocate]
  split
  · next hsome => exact length_erase ht.nodup ((isSome_lookup_iff _ _).1 hsome)
  · next hnone =>
    rw [erase_of_notMem fun hmem => hnone ((isSome_lookup_iff _ _).2 hmem), Nat.add_zero]

/-- A tree is well formed after an entry has replaced another one. -/
theorem wellFormed_of_replace (ht : disk.tree.WellFormed) {parent : Location} {n : Text}
    (hold : old ≠ []) (hparent : disk.tree.isDirectory parent) (hn : IsName n)
    (hbelow : ¬ old <+: parent ++ [n]) (h : disk.replace old (parent ++ [n]) e = .ok disk') :
    disk'.tree.WellFormed := by
  have hnew : parent ++ [n] ≠ [] := by simp
  have hfree : ∀ q, q ≠ [] → disk.tree.lookup (parent ++ [n] ++ q) = none :=
    fun q hq => lookup_below_of_replace ht.closed hnew h hq
  have hentry : FileTree.entry? (disk.tree.erase (parent ++ [n])) parent = disk.tree.entry? parent := by
    simp [FileTree.entry?, lookup_erase]
  rw [tree_of_replace hnew h]
  refine (ht.erase hfree).relocate hold (by rwa [isDirectory_congr hentry]) hn
    (fun hle => hbelow (hle.trans (List.prefix_append parent [n]))) fun q => ?_
  rw [lookup_erase]
  split
  · rfl
  · next hq => exact hfree q (by simpa using hq)

end

/-! ### Two targets -/

/-- Places that a source can be renamed to with the same result: they are the same, or they and the place
of the source are three places of the same entry, with nothing below it. -/
def SameRename (t : FileTree) (old new new' : Location) : Prop :=
  new = new' ∨ (old ≠ new ∧ old ≠ new' ∧ t.lookup new = t.lookup old ∧ t.lookup new' = t.lookup old ∧
    ∀ q, q ≠ [] → t.lookup (old ++ q) = none)

theorem SameRename.symm {t : FileTree} {old new new' : Location} (h : SameRename t old new new') :
    SameRename t old new' new := by
  rcases h with rfl | ⟨hne, hne', heq, heq', hbelow⟩
  · exact .inl rfl
  · exact .inr ⟨hne', hne, heq', heq, hbelow⟩

section

variable {disk₁ disk₂ : Disk} {target' : Text} {old new new' : Location} {e : Entry}
  {entry entry' : Option Entry}

theorem Renames.lookup_old (h : Renames disk source target old new e entry) (hdisk : disk.WellFormed) :
    disk.tree.lookup old = some e := by
  obtain ⟨parent, n, -, -, -, hentry⟩ := place_spec hdisk h.origin
  exact hentry.symm

theorem Renames.apart (h : Renames disk source target old new e entry) (hne : old ≠ new) :
    ¬ old <+: new ∧ ¬ new <+: old :=
  ⟨fun hle => hne (h.notBelow hle), fun hle => hne (h.notAbove hle)⟩

/-- What a disk holds after a rename to another place. -/
theorem Renames.lookup (h : Renames disk source target old new e entry) (hdisk : disk.WellFormed)
    (hne : old ≠ new) (hreplace : disk.replace old new e = .ok disk') (p : Location) :
    disk'.tree.lookup p =
      if new <+: p then disk.tree.lookup (old ++ p.drop new.length)
      else if old <+: p then none else disk.tree.lookup p := by
  obtain ⟨parent, n, rfl, -, -, -⟩ := place_spec hdisk h.goal
  exact lookup_of_replace hdisk.tree.closed (by simp) (h.apart hne).1 hreplace p

/-- Nothing lies below an entry that a rename replaces. -/
theorem Renames.lookup_below (h : Renames disk source target old new e entry) (hdisk : disk.WellFormed)
    (hreplace : disk.replace old new e = .ok disk') {q : Location} (hq : q ≠ []) :
    disk.tree.lookup (new ++ q) = none := by
  obtain ⟨parent, n, rfl, -, -, -⟩ := place_spec hdisk h.goal
  exact lookup_below_of_replace hdisk.tree.closed (by simp) hreplace hq

/-- A rename that leaves the disk as it is differs from one that does not. -/
theorem not_same_of_moved (hdisk : disk.WellFormed) (h : Renames disk source target old new e entry)
    (hne : old ≠ new) (hreplace : disk.replace old new e = .ok disk') : ¬ Same disk.tree disk'.tree := by
  intro hsame
  have hold := hsame old
  rw [h.lookup hdisk hne hreplace, if_neg (h.apart hne).2, if_pos (List.prefix_refl old),
    h.lookup_old hdisk] at hold
  exact nomatch hold

/-- An entry does not lie below another one that a rename replaces. -/
theorem Renames.not_prefix (h : Renames disk source target old new e entry) (hdisk : disk.WellFormed)
    (hreplace : disk.replace old new e = .ok disk') {p : Location} (hdiffer : new ≠ p)
    (hsome : disk.tree.lookup p ≠ none) : ¬ new <+: p := by
  rintro ⟨r, rfl⟩
  have hr : r ≠ [] := by
    rintro rfl
    exact hdiffer (List.append_nil new).symm
  exact hsome (h.lookup_below hdisk hreplace hr)

variable (hdisk : disk.WellFormed) (h : Renames disk source target old new e entry)
  (h' : Renames disk source target' old new' e entry') (hne : old ≠ new) (hne' : old ≠ new')
  (hreplace : disk.replace old new e = .ok disk₁) (hreplace' : disk.replace old new' e = .ok disk₂)

include hdisk h h' hne hne' hreplace hreplace'

/-- What is found at and below one target after a rename to the other one, if both hold entries. -/
theorem lookup_other_target (hdiffer : new ≠ new') (hsome : disk.tree.lookup new ≠ none)
    (hsome' : disk.tree.lookup new' ≠ none) (q : Location) :
    disk₁.tree.lookup (new ++ q) = disk.tree.lookup (old ++ q) ∧
      disk₂.tree.lookup (new ++ q) = disk.tree.lookup (new ++ q) := by
  have hnew := h'.not_prefix hdisk hreplace' hdiffer.symm hsome
  have hnew' := h.not_prefix hdisk hreplace hdiffer hsome'
  obtain ⟨hold, hold'⟩ := h.apart hne
  rw [h.lookup hdisk hne hreplace, if_pos (List.prefix_append new q), List.drop_left,
    h'.lookup hdisk hne' hreplace', if_neg (not_prefix_append hnew hnew' q),
    if_neg (not_prefix_append hold hold' q)]
  exact ⟨rfl, rfl⟩

/-- A rename that replaces an entry and one that does not leave different numbers of entries behind. -/
theorem isSome_eq_of_same (hsame : Same disk₁.tree disk₂.tree) :
    (disk.tree.lookup new).isSome = (disk.tree.lookup new').isSome := by
  obtain ⟨parent, n, rfl, hn, hparent, -⟩ := place_spec hdisk h.goal
  obtain ⟨parent', n', rfl, hn', hparent', -⟩ := place_spec hdisk h'.goal
  obtain ⟨front, m, rfl, -⟩ := place_spec hdisk h.origin
  have hnodup := (wellFormed_of_replace hdisk.tree (by simp) hparent hn (h.apart hne).1 hreplace).nodup
  have hnodup' :=
    (wellFormed_of_replace hdisk.tree (by simp) hparent' hn' (h'.apart hne').1 hreplace').nodup
  have hlength := length_of_replace hdisk.tree (by simp) hreplace
  have hlength' := length_of_replace hdisk.tree (by simp) hreplace'
  have hequal := hsame.length_eq hnodup hnodup'
  rw [Bool.eq_iff_iff]
  constructor
  · intro hsome
    rw [if_pos hsome] at hlength
    by_contra hnone
    rw [if_neg hnone] at hlength'
    omega
  · intro hsome
    rw [if_pos hsome] at hlength'
    by_contra hnone
    rw [if_neg hnone] at hlength
    omega

/-- Two targets that hold nothing are told apart by what a rename puts there. -/
theorem not_same_of_free (hdiffer : new ≠ new') (hnone' : disk.tree.lookup new' = none)
    (hnone : disk.tree.lookup new = none) : ¬ Same disk₁.tree disk₂.tree := by
  intro hsame
  have hnot : ¬ new' <+: new := by
    obtain ⟨parent, n, rfl, -, hparent, -⟩ := place_spec hdisk h.goal
    obtain ⟨parent', n', rfl, -⟩ := place_spec hdisk h'.goal
    intro hle
    rcases List.prefix_concat_iff.1 hle with heq | hle
    · exact hdiffer heq.symm
    · exact not_isDirectory_of_none (by simp) hnone' (hdisk.tree.closed.isDirectory_of_le hle hparent)
  have hat := hsame new
  rw [h.lookup hdisk hne hreplace, if_pos (List.prefix_refl new), List.drop_length, List.append_nil,
    h.lookup_old hdisk, h'.lookup hdisk hne' hreplace', if_neg hnot, if_neg (h.apart hne).1,
    hnone] at hat
  exact nomatch hat

/-- Targets that a rename leaves the same tree for hold the entry that is renamed, without anything below
it. -/
theorem sameRename_of_same (hsame : Same disk₁.tree disk₂.tree) :
    SameRename disk.tree old new new' := by
  by_cases hdiffer : new = new'
  · exact .inl hdiffer
  have hcount := isSome_eq_of_same hdisk h h' hne hne' hreplace hreplace' hsame
  cases hnew : disk.tree.lookup new with
  | none =>
    have hnew' : disk.tree.lookup new' = none := by simpa [hnew] using hcount.symm
    exact absurd hsame
      (not_same_of_free hdisk h h' hne hne' hreplace hreplace' hdiffer hnew' hnew)
  | some x =>
    have hsome : disk.tree.lookup new ≠ none := by simp [hnew]
    have hsome' : disk.tree.lookup new' ≠ none := by
      intro hnone
      simp [hnew, hnone] at hcount
    have hat := lookup_other_target hdisk h h' hne hne' hreplace hreplace' hdiffer hsome hsome'
    have hat' :=
      lookup_other_target hdisk h' h hne' hne hreplace' hreplace (Ne.symm hdiffer) hsome' hsome
    refine .inr ⟨hne, hne', ?_, ?_, fun q hq => ?_⟩
    · obtain ⟨hmoved, hstays⟩ := hat []
      have heq := hsame new
      simp only [List.append_nil] at hmoved hstays
      rw [← hstays, ← heq, hmoved]
    · obtain ⟨hmoved, hstays⟩ := hat' []
      have heq := hsame new'
      simp only [List.append_nil] at hmoved hstays
      rw [← hstays, heq, hmoved]
    · obtain ⟨hmoved, hstays⟩ := hat q
      rw [← hmoved, hsame, hstays]
      exact h.lookup_below hdisk hreplace hq

/-- Targets that hold the entry that is renamed, without anything below it, are left the same. -/
theorem same_of_sameRename (hplaces : SameRename disk.tree old new new') :
    Same disk₁.tree disk₂.tree := by
  by_cases hdiffer : new = new'
  · subst hdiffer
    rw [hreplace] at hreplace'
    exact Except.ok.inj hreplace' ▸ Same.refl _
  obtain ⟨-, -, heq, heq', hbelow⟩ := hplaces.resolve_left hdiffer
  have hold := h.lookup_old hdisk
  have hsome : disk.tree.lookup new ≠ none := by simp [heq, hold]
  have hsome' : disk.tree.lookup new' ≠ none := by simp [heq', hold]
  -- at and below a target nothing changes, since the source holds the same there
  have hunchanged : ∀ place, disk.tree.lookup place = disk.tree.lookup old →
      (∀ q, q ≠ [] → disk.tree.lookup (place ++ q) = none) → ∀ q,
        disk.tree.lookup (old ++ q) = disk.tree.lookup (place ++ q) := by
    intro place hplace hnone q
    by_cases hq : q = []
    · simpa [hq] using hplace.symm
    · rw [hbelow q hq, hnone q hq]
  intro p
  by_cases hp : new <+: p
  · obtain ⟨q, rfl⟩ := hp
    obtain ⟨hmoved, hstays⟩ :=
      lookup_other_target hdisk h h' hne hne' hreplace hreplace' hdiffer hsome hsome' q
    rw [hmoved, hstays, hunchanged new heq (fun _ => h.lookup_below hdisk hreplace) q]
  by_cases hp' : new' <+: p
  · obtain ⟨q, rfl⟩ := hp'
    obtain ⟨hmoved, hstays⟩ := lookup_other_target hdisk h' h hne' hne hreplace' hreplace
      (Ne.symm hdiffer) hsome' hsome q
    rw [hmoved, hstays, hunchanged new' heq' (fun _ => h'.lookup_below hdisk hreplace') q]
  rw [h.lookup hdisk hne hreplace, h'.lookup hdisk hne' hreplace', if_neg hp, if_neg hp']

/-- Two renames to other places leave the same tree exactly if the places allow for it. -/
theorem same_replace_iff : Same disk₁.tree disk₂.tree ↔ SameRename disk.tree old new new' :=
  ⟨sameRename_of_same hdisk h h' hne hne' hreplace hreplace',
    same_of_sameRename hdisk h h' hne hne' hreplace hreplace'⟩

end

/-- Two renames of one source leave the same tree exactly if their targets have the same place, or they
and the source have three places of the same entry. -/
theorem same_rename_iff {disk₁ disk₂ : Disk} {target' : Text} {old new new' : Location} {e : Entry}
    {entry entry' : Option Entry} (hdisk : disk.WellFormed)
    (horigin : disk.place source = .ok (old, some e)) (hgoal : disk.place target = .ok (new, entry))
    (hgoal' : disk.place target' = .ok (new', entry'))
    (hrename : disk.rename source target = .ok disk₁)
    (hrename' : disk.rename source target' = .ok disk₂) :
    Same disk₁.tree disk₂.tree ↔ SameRename disk.tree old new new' := by
  obtain ⟨h, hdisk₁⟩ := (rename_ok_iff_of_place horigin hgoal).1 hrename
  obtain ⟨h', hdisk₂⟩ := (rename_ok_iff_of_place horigin hgoal').1 hrename'
  rcases hdisk₁ with ⟨rfl, rfl⟩ | ⟨hne, hreplace⟩ <;> rcases hdisk₂ with ⟨rfl, rfl⟩ | ⟨hne', hreplace'⟩
  · exact iff_of_true (Same.refl _) (.inl rfl)
  · refine iff_of_false (not_same_of_moved hdisk h' hne' hreplace') ?_
    rintro (heq | ⟨hne, -⟩)
    · exact hne' heq
    · exact hne rfl
  · refine iff_of_false (fun hsame => not_same_of_moved hdisk h hne hreplace hsame.symm) ?_
    rintro (heq | ⟨-, hne', -⟩)
    · exact hne heq.symm
    · exact hne' rfl
  · exact same_replace_iff hdisk h h' hne hne' hreplace hreplace'

/-! ### Files and links -/

theorem not_isDirectory_of_lookup {t : FileTree} {p : Location} (hp : p ≠ []) {entry : Option Entry}
    (hlookup : t.lookup p = entry) (he : ∀ x, entry = some x → ¬ IsDirectoryEntry x) :
    ¬ t.isDirectory p := by
  intro hdirectory
  obtain ⟨mode, hmode⟩ := (isDirectory_iff_lookup t hp).1 hdirectory
  rw [hlookup] at hmode
  exact he _ hmode ⟨mode, rfl⟩

/-- A file or a link can be renamed to every place that holds no directory, if no path asks for one. -/
theorem exists_rename {old new : Location} {e : Entry} {entry : Option Entry} (hdisk : disk.WellFormed)
    (horigin : disk.place source = .ok (old, some e)) (hgoal : disk.place target = .ok (new, entry))
    (he : ¬ IsDirectoryEntry e) (hentry : ∀ x, entry = some x → ¬ IsDirectoryEntry x)
    (hsource : asksForDirectory source = false) (htarget : asksForDirectory target = false) :
    ∃ disk', disk.rename source target = .ok disk' := by
  obtain ⟨parent, n, rfl, -, hparent, hold⟩ := place_spec hdisk horigin
  obtain ⟨parent', m, rfl, -, hparent', hnew⟩ := place_spec hdisk hgoal
  -- a place below another one lies in a directory there
  have hbegins : ∀ {p q : Location} {k : Text}, disk.tree.isDirectory q → ¬ disk.tree.isDirectory p →
      p <+: q ++ [k] → p = q ++ [k] := by
    intro p q k hq hp hle
    rcases List.prefix_concat_iff.1 hle with heq | hle
    · exact heq
    · exact absurd (hdisk.tree.closed.isDirectory_of_le hle hq) hp
  have hleaf := not_isDirectory_of_lookup (by simp) hold.symm fun x hx => Option.some.inj hx ▸ he
  have hleaf' := not_isDirectory_of_lookup (by simp) hnew.symm hentry
  have hrenames : Renames disk source target (parent ++ [n]) (parent' ++ [m]) e entry :=
    ⟨horigin, hgoal, .inr ⟨hsource, htarget⟩, hbegins hparent' hleaf,
      fun hle => (hbegins hparent hleaf' hle).symm⟩
  by_cases hsame : parent ++ [n] = parent' ++ [m]
  · exact ⟨disk, (rename_ok_iff_of_place horigin hgoal).2 ⟨hrenames, .inl ⟨hsame, rfl⟩⟩⟩
  · have hreplace : ∃ disk', disk.replace (parent ++ [n]) (parent' ++ [m]) e = .ok disk' := by
      refine (exists_replace_iff (by simp)).2 fun x hx => ?_
      have hx' := hentry x (hnew.trans hx)
      exact ⟨iff_of_false he hx', fun hdirectory => absurd hdirectory hx'⟩
    obtain ⟨disk', hdisk'⟩ := hreplace
    exact ⟨disk', (rename_ok_iff_of_place horigin hgoal).2 ⟨hrenames, .inr ⟨hsame, hdisk'⟩⟩⟩

end Primitives.Disk
