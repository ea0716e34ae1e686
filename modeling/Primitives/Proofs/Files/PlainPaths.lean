import Primitives.Proofs.Files.Listings

/-!
# Plain paths

A plain path consists of names, no proper beginning of it is a link, and no slash stands at its end. What
it names is found at the location that it spells: the names behind the directory that it starts from.
So a plain path keeps its place while entries at and below this location are removed, and the paths that
continue it by names have the locations below as their places.

## Main definitions

* `Disk.IsPlain`: plain paths.
* `Disk.Spells`: paths that spell a location.

## Main results

* `Disk.spells_of_place`: a plain path spells its place.
* `Disk.Spells.place`: the place of a path that spells a location.
* `Disk.Spells.join`: paths continued by names.
-/

namespace Primitives

open FileTree PathText SplitPath

/-! ### Directories on the way -/

namespace FileTree

variable {t : FileTree} {links links' : Nat} {components : List Text}

/-- Names of directories lead from each of them to the next one. -/
theorem lead_names (ht : t.Closed) {p : Location}
    (hnames : ∀ n ∈ components, n ≠ ['.'] ∧ n ≠ ['.', '.'] ∧ isLongName n = false)
    (hdirectory : t.isDirectory (p ++ components)) :
    t.lead links (.live p) components = .ok (.live (p ++ components), links) := by
  induction components generalizing p with
  | nil => simp [lead]
  | cons n rest ih =>
    obtain ⟨hdot, hdots, hshort⟩ := hnames n List.mem_cons_self
    rw [List.append_cons] at hdirectory ⊢
    obtain ⟨mode, hmode⟩ := (t.isDirectory_iff _).1
      (ht.isDirectory_of_le (List.prefix_append (p ++ [n]) rest) hdirectory)
    have hrest := ih (fun m hm => hnames m (List.mem_cons_of_mem n hm)) hdirectory
    rw [lead]
    simp only [hdot, hdots, hshort, if_false, Standpoint.live, ne_eq, not_true_eq_false,
      Bool.false_eq_true, hmode]
    exact hrest

/-- Names lead to where they spell if none of the locations on the way is a link. -/
theorem lead_names_inv {d d' : Standpoint}
    (hnames : ∀ n ∈ components, n ≠ ['.'] ∧ n ≠ ['.', '.'])
    (hlinks : ∀ front rest, components = front ++ rest → front ≠ [] → ∀ target,
      t.lookup (d.location ++ front) ≠ some (.link target))
    (h : t.lead links d components = .ok (d', links')) :
    d'.location = d.location ++ components ∧ d'.removed = d.removed ∧
      ∀ n ∈ components, isLongName n = false := by
  induction components generalizing d with
  | nil =>
    rw [lead] at h
    obtain ⟨rfl, -⟩ := Prod.mk.inj (Except.ok.inj h)
    simp
  | cons n rest ih =>
    obtain ⟨hdot, hdots⟩ := hnames n List.mem_cons_self
    rw [lead, if_neg hdot, if_neg hdots] at h
    split at h
    · cases h
    next hremoved =>
    split at h
    · cases h
    next hshort =>
    split at h
    · cases h
    · obtain ⟨hlocation, hlive, hrest⟩ := ih (fun m hm => hnames m (List.mem_cons_of_mem n hm))
        (fun front rest' heq hne target => by
          simpa [Standpoint.live] using hlinks (n :: front) rest' (by simp [heq]) (by simp) target) h
      refine ⟨by simpa [Standpoint.live] using hlocation, ?_, ?_⟩
      · rw [hlive, not_not.1 hremoved]
        rfl
      · rintro m (_ | ⟨_, hm⟩)
        · simpa using hshort
        · exact hrest m hm
    · cases h
    · next target hentry =>
      rw [entry?_append_name] at hentry
      exact absurd hentry (hlinks [n] rest rfl (by simp) target)

end FileTree

namespace Disk

variable {disk disk' : Disk} {path : Text} {p : Location} {entry : Option Entry}

/-- A path of names without a slash at its end, of which no proper beginning is a link. -/
structure IsPlain (disk : Disk) (path : Text) : Prop where
  names : ∀ n ∈ splitComponents path, n ≠ ['.'] ∧ n ≠ ['.', '.']
  noSlash : asksForDirectory path = false
  noLink : ∀ front rest, splitComponents path = front ++ rest → front ≠ [] → rest ≠ [] → ∀ target,
    disk.tree.lookup (((SplitPath.ofText path).start disk.directory).location ++ front) ≠
      some (.link target)

/-- A name is a plain path. -/
theorem isPlain_name (disk : Disk) {n : Text} (hn : IsName n) : disk.IsPlain n := by
  have hcomponents := splitComponents_word hn.1 hn.2.1
  refine ⟨by simpa [hcomponents] using hn.2.2, asksForDirectory_append [] hn, ?_⟩
  intro front rest heq hfront hrest
  have hlength := congrArg List.length heq
  have hpos := List.length_pos_iff.2 hfront
  have hpos' := List.length_pos_iff.2 hrest
  rw [hcomponents, List.length_append, List.length_singleton] at hlength
  omega

/-- A path, not longer than a call takes it, that spells a location by names. -/
structure Spells (disk : Disk) (path : Text) (p : Location) : Prop where
  short : (Utf8.encode path).length ≤ pathLimit
  components : splitComponents path ≠ []
  names : ∀ n ∈ splitComponents path, n ≠ ['.'] ∧ n ≠ ['.', '.'] ∧ isLongName n = false
  live : ((SplitPath.ofText path).start disk.directory).removed = 0
  location : ((SplitPath.ofText path).start disk.directory).location ++ splitComponents path = p

/-- A plain path spells the location of its place. -/
theorem spells_of_place (hplain : disk.IsPlain path) (h : disk.place path = .ok (p, entry)) :
    disk.Spells path p := by
  obtain ⟨-, parent, n, hparent, hlast, -, hn, hlookup, -⟩ := exists_walk_of_place h
  obtain ⟨-, hlength, ⟨links, hlead⟩, hname, -⟩ := resolveParent_eq_ok_iff.1 hparent
  have hcomponents := eq_of_lastName (hname.symm.trans hlast)
  obtain ⟨hlocation, hremoved, hshort⟩ := lead_names_inv
    (fun m hm => hplain.names m (List.dropLast_subset _ hm))
    (fun front rest heq hne target => hplain.noLink front (rest ++ [n])
      (by rw [hcomponents, heq, List.append_assoc]) hne (by simp) target) hlead
  obtain ⟨hlive, hlong, hend, -⟩ := lookupName_ok_iff.1 hlookup
  refine ⟨hlength, by rw [hcomponents]; simp, fun m hm => ?_, hremoved ▸ hlive, ?_⟩
  · obtain ⟨hdot, hdots⟩ := hplain.names m hm
    refine ⟨hdot, hdots, ?_⟩
    rw [hcomponents, List.mem_append, List.mem_singleton] at hm
    rcases hm with hm | rfl
    · exact hshort m hm
    · exact hlong
  · rw [hend, hlocation, hcomponents, List.append_assoc, List.dropLast_concat]

namespace Spells

variable (h : disk.Spells path p)

include h

theorem nonempty : path ≠ [] := by
  rintro rfl
  exact h.components splitComponents_nil

/-- A path that spells a location in a directory has it as its place. -/
theorem place (hdisk : disk.WellFormed) (hparent : disk.tree.isDirectory p.dropLast) :
    disk.place path = .ok (p, disk.tree.lookup p) := by
  obtain ⟨front, n, hcomponents⟩ := (List.eq_nil_or_concat' _).resolve_left h.components
  have hn := h.names n (by simp [hcomponents])
  have hlocation := h.location
  have hlive := h.live
  generalize hstart : (SplitPath.ofText path).start disk.directory = start at hlocation hlive
  obtain ⟨base, removed⟩ := start
  obtain rfl : removed = 0 := hlive
  rw [hcomponents, ← List.append_assoc] at hlocation
  rw [← hlocation, List.dropLast_concat] at hparent
  have hlead : disk.tree.lead linkLimit (.live base) front = .ok (.live (base ++ front), linkLimit) :=
    lead_names hdisk.tree.closed (fun m hm => h.names m (by simp [hcomponents, hm])) hparent
  refine place_eq_ok_iff.2 ⟨⟨.live (base ++ front), .name n, asksForDirectory path⟩, n,
    resolveParent_eq_ok_iff.2 ⟨h.nonempty, h.short, ⟨linkLimit, ?_⟩, ?_, rfl⟩, rfl, ?_⟩
  · rw [hstart, hcomponents, List.dropLast_concat]
    exact hlead
  · rw [hcomponents, lastName_append, if_neg hn.1, if_neg hn.2.1]
  · exact lookupName_ok_iff.2 ⟨rfl, hn.2.2, hlocation.symm, rfl⟩

/-- A path that spells the location of an entry has it as its place. -/
theorem place_of_isSome (hdisk : disk.WellFormed) (hsome : (disk.tree.lookup p).isSome) :
    disk.place path = .ok (p, disk.tree.lookup p) := by
  obtain ⟨parent, n, hparent, -, hdirectory⟩ := hdisk.tree.exists_parent hsome
  exact h.place hdisk (by rwa [hparent, List.dropLast_concat])

/-- A path that spells the location of an entry is plain if no slash stands at its end. -/
theorem isPlain (hdisk : disk.WellFormed) (hsome : (disk.tree.lookup p).isSome)
    (hslash : asksForDirectory path = false) : disk.IsPlain path where
  names n hn := ⟨(h.names n hn).1, (h.names n hn).2.1⟩
  noSlash := hslash
  noLink front rest heq hfront hrest target hlink := by
    -- Something lies below the location of a proper beginning, so a directory is there.
    rw [← h.location, heq, ← List.append_assoc] at hsome
    obtain ⟨mode, hmode⟩ := (isDirectory_iff_lookup _ (by simp [hfront])).1
      (hdisk.tree.closed.isDirectory_of_append hrest hsome)
    cases hlink.symm.trans hmode

/-- A path that spells a location is continued by a name. -/
theorem joinTwo {n : Text} (hn : IsName n) (hshort : isLongName n = false)
    (hlength : (Utf8.encode (joinTwo path n)).length ≤ pathLimit) :
    disk.Spells (PathText.joinTwo path n) (p ++ [n]) := by
  have hcomponents := splitComponents_joinTwo (p := path) hn.1 hn.2.1
  have hstart := start_of_beginning h.nonempty (prefix_joinTwo path hn.2.1) disk.directory
  refine ⟨hlength, by rw [hcomponents]; simp, fun m hm => ?_, hstart ▸ h.live, ?_⟩
  · rw [hcomponents, List.mem_append, List.mem_singleton] at hm
    rcases hm with hm | rfl
    · exact h.names m hm
    · exact ⟨hn.2.2.1, hn.2.2.2, hshort⟩
  · rw [hstart, hcomponents, ← List.append_assoc, h.location]

end Spells

/-- The entries below a location have paths that spell them. -/
theorem Spells.join (hdisk : disk.WellFormed) {q : Location} (h : disk.Spells path p)
    (htaken : disk.tree.TakesBelow path p) (hq : (disk.tree.lookup (p ++ q)).isSome) :
    disk.Spells (PathText.join path q) (p ++ q) := by
  induction q generalizing path p with
  | nil => simpa [PathText.join] using h
  | cons n q ih =>
    rw [List.append_cons] at hq ⊢
    have hchild : (disk.tree.lookup (p ++ [n])).isSome := by
      by_cases hnil : q = []
      · simpa [hnil] using hq
      · obtain ⟨mode, hmode⟩ := (isDirectory_iff_lookup _ (by simp)).1
          (hdisk.tree.closed.isDirectory_of_append hnil hq)
        exact Option.isSome_of_eq_some hmode
    obtain ⟨⟨-, hlength⟩, hshort⟩ := htaken [n] hchild
    have hn : IsName n := hdisk.tree.name_of_isSome hchild (by simp)
    exact ih (h.joinTwo hn (hshort n List.mem_cons_self) hlength) (htaken.child n) hq

/-- A path spells the same location as long as it starts from the same directory. -/
theorem Spells.congr (h : disk.Spells path p)
    (hstart : (SplitPath.ofText path).start disk'.directory =
      (SplitPath.ofText path).start disk.directory) : disk'.Spells path p :=
  ⟨h.short, h.components, h.names, hstart ▸ h.live, hstart ▸ h.location⟩

/-- A path spells the same location after the removal of a directory at or below it. -/
theorem Spells.dropDirectory (h : disk.Spells path p) (q : Location) :
    (disk.dropDirectory (p ++ q)).Spells path p := by
  refine h.congr ?_
  have hlocation := h.location
  unfold Disk.dropDirectory SplitPath.start at *
  dsimp only
  split
  · rfl
  · next habsolute =>
    rw [if_neg habsolute] at hlocation
    split
    · next hsame =>
      have hlength := congrArg List.length hsame
      have hpos := List.length_pos_iff.2 h.components
      rw [← hlocation] at hlength
      simp only [List.length_append] at hlength
      omega
    · rfl

end Disk

end Primitives
