import Primitives.Proofs.Files.RemovedTrees

/-!
# Listed trees

The walk below a directory lists the entries that are named by plain paths which continue that of the
directory. Nothing is listed twice, and an entry is listed with whether it is a directory by itself, in front
of all entries that it lies in. So the list can be worked off entry by entry without any walk through a link.

## Main definitions

* `Disk.NamesBelow`: entries that plain paths name which continue another path.

## Main results

* `Disk.namesBelow_iff`: the entries below a directory in terms of the tree.
* `FileTree.IsListing.sublist_of_prefix`: a listed entry stands in front of those that it lies in.
* `FileTree.IsListing.mem_listed_iff`: what is listed are the entries that plain paths name.
* `Host.walkUpwards_lists_below`: the walk below a directory lists all entries there.
-/

namespace Primitives

open FileTree PathText SplitPath

open scoped List

/-! ### Paths continued by names -/

namespace PathText

variable {path : Text} {q r : List Text}

theorem prefix_join (path : Text) (hq : ∀ n ∈ q, IsName n) : path <+: join path q := by
  induction q generalizing path with
  | nil => exact List.prefix_refl path
  | cons n q ih =>
    have hrest := ih (joinTwo path n) fun m hm => hq m (List.mem_cons_of_mem n hm)
    exact (prefix_joinTwo path (hq n List.mem_cons_self).2.1).trans hrest

theorem splitComponents_join (path : Text) (hq : ∀ n ∈ q, IsName n) :
    splitComponents (join path q) = splitComponents path ++ q := by
  induction q generalizing path with
  | nil => exact (List.append_nil _).symm
  | cons n q ih =>
    obtain ⟨hne, hslash, -⟩ := hq n List.mem_cons_self
    have hrest := ih (joinTwo path n) fun m hm => hq m (List.mem_cons_of_mem n hm)
    rw [splitComponents_joinTwo hne hslash, List.append_assoc, List.singleton_append] at hrest
    exact hrest

/-- Different names continue a path to different ones. -/
theorem join_inj (hq : ∀ n ∈ q, IsName n) (hr : ∀ n ∈ r, IsName n) :
    join path q = join path r ↔ q = r := by
  refine ⟨fun heq => ?_, fun heq => heq ▸ rfl⟩
  have hcomponents := congrArg splitComponents heq
  rw [splitComponents_join path hq, splitComponents_join path hr] at hcomponents
  exact List.append_cancel_left hcomponents

end PathText

/-! ### Order of listings -/

namespace FileTree.IsListing

variable {t : FileTree} {p q r : Location} {below : List Location}

theorem nodup (h : t.IsListing p below) : below.Nodup :=
  h.upwards.imp fun {q r} hnot (heq : q = r) => hnot (heq ▸ List.prefix_refl q)

/-- A listed location is below directories that are listed too. -/
theorem mem_of_prefix (ht : t.Closed) (h : t.IsListing p below) (hq : q ∈ below) (hr : r ≠ [])
    (hle : r <+: q) : r ∈ below := by
  obtain ⟨-, hsome⟩ := (h.mem_iff q).1 hq
  obtain ⟨rest, rfl⟩ := hle
  refine (h.mem_iff r).2 ⟨hr, ?_⟩
  by_cases hrest : rest = []
  · simpa [hrest] using hsome
  · rw [← List.append_assoc] at hsome
    obtain ⟨mode, hmode⟩ := (isDirectory_iff_lookup _ (by simp [hr])).1
      (ht.isDirectory_of_append hrest hsome)
    exact Option.isSome_of_eq_some hmode

/-- A listed location stands in front of those that it lies below. -/
theorem sublist_of_prefix (ht : t.Closed) (h : t.IsListing p below) (hq : q ∈ below) (hr : r ≠ [])
    (hle : r <+: q) (hne : r ≠ q) : [q, r] <+ below := by
  have hmem := h.mem_of_prefix ht hq hr hle
  obtain ⟨front, rest, rfl⟩ := List.append_of_mem hq
  rcases List.mem_append.1 hmem with hfront | hlater
  · exact absurd hle ((List.pairwise_append.1 h.upwards).2.2 r hfront q List.mem_cons_self)
  · have hrest : r ∈ rest := (List.mem_cons.1 hlater).resolve_left hne
    exact ((List.singleton_sublist.2 hrest).cons_cons q).trans (List.sublist_append_right front _)

end FileTree.IsListing

/-! ### Entries below a directory -/

namespace Disk

variable {disk : Disk} {path : Text} {p q : Location} {e : Entry} {entry : Option Entry}

/-- An entry strictly below what a path names, named by a plain path that continues it by names. Since no
proper beginning of a plain path is a link, the entry is reached without passing through one. -/
structure NamesBelow (disk : Disk) (path : Text) (q : List Text) (e : Entry) : Prop where
  nonempty : q ≠ []
  names : ∀ n ∈ q, IsName n
  plain : disk.IsPlain (join path q)
  place : ∃ p, disk.place (join path q) = .ok (p, some e)

/-- The entries below what a plain path names are those below its place in the tree. -/
theorem namesBelow_iff (hdisk : disk.WellFormed) (hplain : disk.IsPlain path)
    (hplace : disk.place path = .ok (p, entry)) (htaken : disk.tree.TakesBelow path p) :
    disk.NamesBelow path q e ↔ q ≠ [] ∧ disk.tree.lookup (p ++ q) = some e := by
  have hspells := spells_of_place hplain hplace
  constructor
  · rintro ⟨hne, hnames, hplain', p', hplace'⟩
    have hlocation := (spells_of_place hplain' hplace').location
    rw [start_of_beginning hspells.nonempty (prefix_join path hnames), splitComponents_join path hnames,
      ← List.append_assoc, hspells.location] at hlocation
    exact ⟨hne, hlocation ▸ lookup_of_place hplace'⟩
  · rintro ⟨hne, hlookup⟩
    have hsome := Option.isSome_of_eq_some hlookup
    have hnames : ∀ n ∈ q, IsName n := fun n hn =>
      hdisk.tree.name_of_isSome hsome (List.mem_append_right p hn)
    have hjoin := hspells.join hdisk htaken hsome
    exact ⟨hne, hnames, hjoin.isPlain hdisk hsome (asksForDirectory_join hne hnames), p ++ q,
      hlookup ▸ hjoin.place_of_isSome hdisk hsome⟩

/-- An entry below a directory is one by itself if the tree has one there. -/
theorem NamesBelow.isDirectory_iff (hdisk : disk.WellFormed) (hplain : disk.IsPlain path)
    (hplace : disk.place path = .ok (p, entry)) (htaken : disk.tree.TakesBelow path p)
    (h : disk.NamesBelow path q e) : disk.tree.isDirectory (p ++ q) = true ↔ IsDirectoryEntry e := by
  obtain ⟨hne, hlookup⟩ := (namesBelow_iff hdisk hplain hplace htaken).1 h
  rw [isDirectory_iff_lookup _ (by simp [hne]), hlookup]
  simp [IsDirectoryEntry]

end Disk

/-! ### Listed entries -/

namespace FileTree

/-- The paths of listed entries. -/
theorem map_fst_listed (t : FileTree) (path : Text) (p : Location) (below : List Location) :
    (t.listed path p below).map Prod.fst = below.map (join path) := by
  rw [listed, List.map_map]
  rfl

variable {disk : Disk} {path : Text} {p q : Location} {below : List Location} {entry : Option Entry}

variable (hdisk : disk.WellFormed) (hplain : disk.IsPlain path) (hplace : disk.place path = .ok (p, entry))
  (htaken : disk.tree.TakesBelow path p) (hlisting : disk.tree.IsListing p below)

include hdisk hplain hplace htaken hlisting

namespace IsListing

/-- The listed locations are those of the entries that plain paths name. -/
theorem mem_iff_namesBelow : q ∈ below ↔ ∃ e, disk.NamesBelow path q e := by
  simp only [hlisting.mem_iff, Disk.namesBelow_iff hdisk hplain hplace htaken, Option.isSome_iff_exists,
    exists_and_left]

/-- No path is listed twice. -/
theorem nodup_paths : ((disk.tree.listed path p below).map Prod.fst).Nodup := by
  rw [map_fst_listed]
  refine hlisting.nodup.map_on fun q hq r hr heq => ?_
  obtain ⟨_, hq⟩ := (mem_iff_namesBelow hdisk hplain hplace htaken hlisting).1 hq
  obtain ⟨_, hr⟩ := (mem_iff_namesBelow hdisk hplain hplace htaken hlisting).1 hr
  exact (join_inj hq.names hr.names).1 heq

/-- What is listed are the entries that plain paths name, with whether each is a directory by itself. -/
theorem mem_listed_iff {x : Text} {flag : Bool} :
    (x, flag) ∈ disk.tree.listed path p below ↔ ∃ q e, disk.NamesBelow path q e ∧ x = join path q ∧
      (flag = true ↔ Disk.IsDirectoryEntry e) := by
  have hmem := fun q => mem_iff_namesBelow (q := q) hdisk hplain hplace htaken hlisting
  rw [listed, List.mem_map]
  constructor
  · rintro ⟨q, hq, heq⟩
    obtain ⟨rfl, rfl⟩ := Prod.mk.inj heq
    obtain ⟨e, hq⟩ := (hmem q).1 hq
    exact ⟨q, e, hq, rfl, hq.isDirectory_iff hdisk hplain hplace htaken⟩
  · rintro ⟨q, e, hq, rfl, hflag⟩
    have hdirectory := hq.isDirectory_iff hdisk hplain hplace htaken
    exact ⟨q, (hmem q).2 ⟨e, hq⟩, Prod.ext rfl (Bool.eq_iff_iff.2 (hdirectory.trans hflag.symm))⟩

/-- The path of an entry is listed in front of those of the directories that it lies in. -/
theorem sublist_paths {r : Location} {e : Entry} (hq : disk.NamesBelow path q e) (hr : r ≠ [])
    (hle : r <+: q) (hne : r ≠ q) :
    [join path q, join path r] <+ (disk.tree.listed path p below).map Prod.fst := by
  have hmem := (mem_iff_namesBelow hdisk hplain hplace htaken hlisting).2 ⟨e, hq⟩
  rw [map_fst_listed]
  exact (hlisting.sublist_of_prefix hdisk.tree.closed hmem hr hle hne).map (join path)

end IsListing

end FileTree

/-! ### The walk of a program -/

namespace Host

variable {host : Host} {path : Text} {p : Location} {mode : Nat}

/-- The walk below a directory at a plain path succeeds, as long as no path below it is too long for a call,
and changes nothing. Its list has each entry that is reached from there without passing through a link exactly
once, with whether it is a directory by itself, and no other one. An entry stands in front of all entries that
it lies in. -/
theorem walkUpwards_lists_below (hdisk : host.disk.WellFormed) (hplain : host.disk.IsPlain path)
    (hplace : host.disk.place path = .ok (p, some (.directory mode)))
    (htaken : host.disk.tree.TakesBelow path p) :
    ∃ listing, (walkUpwards path).run host = (.success listing "walk", host) ∧
      (listing.map Prod.fst).Nodup ∧
      (∀ x flag, (x, flag) ∈ listing ↔ ∃ q e, host.disk.NamesBelow path q e ∧ x = join path q ∧
        (flag = true ↔ Disk.IsDirectoryEntry e)) ∧
      ∀ q e r, host.disk.NamesBelow path q e → r ≠ [] → r <+: q → r ≠ q →
        [join path q, join path r] <+ listing.map Prod.fst := by
  have hlookup := Disk.lookup_of_place hplace
  have hnull : Request.hasNull path = false := by
    have hsome : (host.disk.tree.lookup (p ++ [])).isSome := by simp [hlookup]
    exact (htaken [] hsome).1.1
  obtain ⟨below, hlisting, hrun⟩ := run_walkUpwards hdisk (Disk.leadsTo_of_place hplace) hnull htaken
  refine ⟨host.disk.tree.listed path p below, hrun, ?_, fun x flag => ?_, fun q e r hq hr hle hne => ?_⟩
  · exact IsListing.nodup_paths hdisk hplain hplace htaken hlisting
  · exact IsListing.mem_listed_iff hdisk hplain hplace htaken hlisting
  · exact IsListing.sublist_paths hdisk hplain hplace htaken hlisting hq hr hle hne

/-- A directory with a link to a directory beside it, which holds a file. -/
def directoryBesideLink : Disk :=
  ⟨(((FileTree.empty.put [['d']] (.directory FileTree.directoryMode)).put [['d'], ['l']]
    (.link ['s'])).put [['d'], ['s']] (.directory FileTree.directoryMode)).put [['d'], ['s'], ['x']]
      (.file FileTree.fileMode []), .root⟩

theorem wellFormed_directoryBesideLink : directoryBesideLink.WellFormed := by
  have hdirectory := Disk.WellFormed.empty.put_of_absent ⟨[], ['d'], rfl, by decide, rfl, rfl⟩
    (.directory FileTree.directoryMode)
  have hlink := hdirectory.put_of_absent ⟨[['d']], ['l'], rfl, by decide, rfl, rfl⟩ (.link ['s'])
  have hinner := hlink.put_of_absent ⟨[['d']], ['s'], rfl, by decide, rfl, rfl⟩
    (.directory FileTree.directoryMode)
  exact hinner.put_of_absent ⟨[['d'], ['s']], ['x'], rfl, by decide, rfl, rfl⟩
    (.file FileTree.fileMode [])

/-- The link is listed as none, and the file in front of its directory. -/
theorem walkUpwards_lists_below_directoryBesideLink :
    directoryBesideLink.WellFormed ∧ directoryBesideLink.IsPlain ['d'] ∧
      directoryBesideLink.place ['d'] = .ok ([['d']], some (.directory FileTree.directoryMode)) ∧
      directoryBesideLink.tree.TakesBelow ['d'] [['d']] ∧
      ∃ listing, (walkUpwards ['d']).run (.ofDisk directoryBesideLink) =
          (.success listing "walk", .ofDisk directoryBesideLink) ∧
        (['d', '/', 'l'], false) ∈ listing ∧ (['d', '/', 's'], true) ∈ listing ∧
        (['d', '/', 'l', '/', 'x'], false) ∉ listing ∧
        [['d', '/', 's', '/', 'x'], ['d', '/', 's']] <+ listing.map Prod.fst := by
  have hdisk : (Host.ofDisk directoryBesideLink).disk.WellFormed := wellFormed_directoryBesideLink
  have hplain : directoryBesideLink.IsPlain ['d'] := directoryBesideLink.isPlain_name (by decide)
  have hplace : directoryBesideLink.place ['d'] =
      .ok ([['d']], some (.directory FileTree.directoryMode)) :=
    Disk.place_name rfl (by decide) (by decide)
  have hlocations : directoryBesideLink.tree.locations =
      [[['d']], [['d'], ['l']], [['d'], ['s']], [['d'], ['s'], ['x']]] := by decide
  have htaken : directoryBesideLink.tree.TakesBelow ['d'] [['d']] := by
    intro q hq
    rw [isSome_lookup_iff, hlocations] at hq
    obtain rfl | rfl | rfl | rfl : q = [] ∨ q = [['l']] ∨ q = [['s']] ∨ q = [['s'], ['x']] := by
      simpa using hq
    all_goals exact ⟨⟨by decide, by decide⟩, by decide⟩
  have hbelow : ∀ {q e}, directoryBesideLink.NamesBelow ['d'] q e ↔
      q ≠ [] ∧ directoryBesideLink.tree.lookup ([['d']] ++ q) = some e :=
    Disk.namesBelow_iff hdisk hplain hplace htaken
  obtain ⟨listing, hrun, -, hmem, horder⟩ := walkUpwards_lists_below hdisk hplain hplace htaken
  refine ⟨hdisk, hplain, hplace, htaken, listing, hrun, ?_, ?_, ?_, ?_⟩
  · exact (hmem _ _).2 ⟨[['l']], .link ['s'], hbelow.2 ⟨by simp, by decide⟩, rfl,
      by simp [Disk.IsDirectoryEntry]⟩
  · exact (hmem _ _).2 ⟨[['s']], .directory FileTree.directoryMode, hbelow.2 ⟨by simp, by decide⟩, rfl,
      by simp [Disk.IsDirectoryEntry]⟩
  · intro hin
    obtain ⟨q, e, hq, heq, -⟩ := (hmem _ _).1 hin
    have hpath : join ['d'] [['l'], ['x']] = join ['d'] q := heq
    obtain rfl := (join_inj (by decide) hq.names).1 hpath
    cases (hbelow.1 hq).2
  · exact horder [['s'], ['x']] (.file FileTree.fileMode []) [['s']] (hbelow.2 ⟨by simp, by decide⟩)
      (by simp) (by decide) (by decide)

end Host

end Primitives
