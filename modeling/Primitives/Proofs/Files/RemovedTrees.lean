import Primitives.Proofs.Files.PlainPaths
import Primitives.Proofs.Files.Removals

/-!
# Removed trees

A listing of what lies below a plain path names every entry before the directories that it lies in. So
each removal finds its entry by a path that still leads there, and a directory without entries when its turn
comes. In the end nothing is left at or below the path, and everything else is what it was.

## Main results

* `Disk.dropped_of_spells`: a removal by a path that spells the location of its entry.
* `Disk.foldl_dropped_listed`: all listed entries are removed, and nothing else.
* `FileSystem.removals_account`: removals account for what they remove.
-/

namespace Primitives

open FileTree PathText

namespace FileTree

variable {t : FileTree} {path : Text} {p q : Location} {below : List Location}

theorem TakesBelow.of_part {u : FileTree} (h : t.TakesBelow path p)
    (hpart : ∀ r, (u.lookup (p ++ r)).isSome → (t.lookup (p ++ r)).isSome) : u.TakesBelow path p :=
  fun r hr => h r (hpart r hr)

/-- Nothing lies below the first location of a listing. -/
theorem IsListing.lookup_below (h : t.IsListing p (q :: below)) {r : Location} (hr : r ≠ []) :
    t.lookup (p ++ q ++ r) = none := by
  by_contra hne
  have hmem := (h.mem_iff (q ++ r)).2 ⟨by simp [hr], by
    rw [← List.append_assoc]
    exact Option.isSome_iff_ne_none.2 hne⟩
  rcases List.mem_cons.1 hmem with heq | hlater
  · exact hr (List.append_right_eq_self.1 heq)
  · exact (List.pairwise_cons.1 h.upwards).1 _ hlater (List.prefix_append q r)

/-- The rest of a listing is one without the first location. -/
theorem IsListing.erase (h : t.IsListing p (q :: below)) : (t.erase (p ++ q)).IsListing p below := by
  obtain ⟨hfirst, hrest⟩ := List.pairwise_cons.1 h.upwards
  refine ⟨fun r => ?_, hrest⟩
  have hmem := h.mem_iff r
  rw [lookup_erase]
  by_cases hr : r = q
  · subst hr
    have hnot : r ∉ below := fun hin => hfirst r hin (List.prefix_refl r)
    simp [hnot]
  · have hne : p ++ r ≠ p ++ q := fun heq => hr (List.append_cancel_left heq)
    rw [if_neg hne, ← hmem, List.mem_cons]
    simp [hr]

end FileTree

namespace Disk

variable {disk : Disk} {path : Text} {p : Location}

/-- An entry at its place, with nothing below it, is erased; a directory is left by those who work in it. -/
theorem dropped_of_place {e : Entry} (hplace : disk.place path = .ok (p, some e))
    (hnull : Request.hasNull path = false) (hslash : asksForDirectory path = false)
    (hbelow : ∀ r, r ≠ [] → disk.tree.lookup (p ++ r) = none) :
    disk.dropped (path, disk.tree.isDirectory p) = disk.dropDirectory p ∨
      disk.dropped (path, disk.tree.isDirectory p) = { disk with tree := disk.tree.erase p } := by
  have houtcome : ∀ {isDirectory disk'}, disk.removeEntry isDirectory path = .ok disk' →
      disk.dropped (path, isDirectory) = disk' := by
    intro isDirectory disk' hcall
    simp [Disk.dropped, Request.outcome, hnull, hcall]
  have hkind := isDirectory_iff_of_place hplace
  by_cases hdirectory : disk.tree.isDirectory p
  · obtain ⟨mode, rfl⟩ := hkind.1 hdirectory
    refine .inl (houtcome ?_)
    rw [hdirectory]
    exact removeDirectory_ok_iff.2
      ⟨p, mode, hplace, children_eq_nil fun n => hbelow [n] (by simp), rfl⟩
  · refine .inr (houtcome ?_)
    rw [Bool.eq_false_iff.2 hdirectory]
    exact unlink_ok_iff.2
      ⟨p, e, hplace, fun mode heq => hdirectory (hkind.2 ⟨mode, heq⟩), hslash, rfl⟩

/-- A path that is continued by names does not end with a slash. -/
theorem asksForDirectory_join {q : Location} (hq : q ≠ []) (hnames : ∀ n ∈ q, IsName n) :
    asksForDirectory (join path q) = false := by
  obtain ⟨front, n, rfl⟩ := (List.eq_nil_or_concat' q).resolve_left hq
  rw [join, List.foldl_append]
  exact asksForDirectory_joinTwo (hnames n (by simp))

/-- A removal by a path that spells the location of an entry with nothing below it. Paths that spell
locations above still do. -/
theorem dropped_of_spells (hdisk : disk.WellFormed) {q : Location} {inner : Text}
    (h : disk.Spells path p) (hinner : disk.Spells inner (p ++ q))
    (hsome : (disk.tree.lookup (p ++ q)).isSome) (hnull : Request.hasNull inner = false)
    (hslash : asksForDirectory inner = false)
    (hbelow : ∀ r, r ≠ [] → disk.tree.lookup (p ++ q ++ r) = none) :
    let after := disk.dropped (inner, disk.tree.isDirectory (p ++ q))
    after.tree = disk.tree.erase (p ++ q) ∧ after.Spells path p := by
  obtain ⟨e, he⟩ := Option.isSome_iff_exists.1 hsome
  have hplace := hinner.place_of_isSome hdisk hsome
  rw [he] at hplace
  intro after
  rcases dropped_of_place hplace hnull hslash hbelow with hdropped | hdropped <;>
    simp only [after, hdropped]
  · exact ⟨rfl, h.dropDirectory q⟩
  · exact ⟨trivial, h.congr rfl⟩

/-- The removal of the first listed entry erases it, and the rest of the listing is one of what is left. -/
theorem dropped_first (hdisk : disk.WellFormed) (h : disk.Spells path p)
    (htaken : disk.tree.TakesBelow path p) {q : Location} {below : List Location}
    (hlisting : disk.tree.IsListing p (q :: below)) :
    let next := disk.dropped (join path q, disk.tree.isDirectory (p ++ q))
    next.tree = disk.tree.erase (p ++ q) ∧ next.Spells path p ∧ next.tree.TakesBelow path p ∧
      next.tree.IsListing p below ∧ next.tree.listed path p below = disk.tree.listed path p below := by
  obtain ⟨hne, hsome⟩ := (hlisting.mem_iff q).1 List.mem_cons_self
  have hnames : ∀ n ∈ q, IsName n := fun n hn =>
    hdisk.tree.name_of_isSome hsome (List.mem_append_right p hn)
  obtain ⟨htree, hspells⟩ := dropped_of_spells hdisk h (h.join hdisk htaken hsome) hsome (htaken q hsome).1.1
    (asksForDirectory_join hne hnames) fun r hr => hlisting.lookup_below hr
  intro next
  refine ⟨htree, hspells, htaken.of_part fun r hr => ?_, htree ▸ hlisting.erase, ?_⟩
  · rw [htree, lookup_erase] at hr
    split at hr
    · simp at hr
    · exact hr
  · refine List.map_congr_left fun r hr => ?_
    have hr' : p ++ r ≠ p ++ q := fun heq =>
      (List.pairwise_cons.1 hlisting.upwards).1 r hr
        (List.append_cancel_left heq ▸ List.prefix_refl q)
    have hentry : FileTree.entry? next.tree (p ++ r) = disk.tree.entry? (p ++ r) := by
      rw [htree]
      simp only [FileTree.entry?, lookup_erase, if_neg hr']
    rw [isDirectory_congr hentry]

/-- The removal of all listed entries leaves nothing below the location and everything else as it was. -/
theorem foldl_dropped_listed (hdisk : disk.WellFormed) (h : disk.Spells path p)
    (htaken : disk.tree.TakesBelow path p) {below : List Location}
    (hlisting : disk.tree.IsListing p below) :
    let after := (disk.tree.listed path p below).foldl Disk.dropped disk
    after.WellFormed ∧ after.Spells path p ∧ after.tree.IsListing p [] ∧
      ∀ r, (∀ q, q ≠ [] → r ≠ p ++ q) → after.tree.lookup r = disk.tree.lookup r := by
  -- Behind the removal of its first entry, the rest of a listing is a listing of what is left.
  induction below generalizing disk with
  | nil => exact ⟨hdisk, h, hlisting, fun _ _ => rfl⟩
  | cons q below ih =>
    obtain ⟨hne, -⟩ := (hlisting.mem_iff q).1 List.mem_cons_self
    obtain ⟨htree, hspells, htaken', hrest, hlisted⟩ := dropped_first hdisk h htaken hlisting
    obtain ⟨hwell, hspells', hlisting', hkept⟩ := ih (hdisk.dropped _) hspells htaken' hrest
    rw [hlisted] at hwell hspells' hlisting' hkept
    refine ⟨hwell, hspells', hlisting', fun r hr => (hkept r hr).trans ?_⟩
    rw [htree, lookup_erase, if_neg (hr q hne)]

/-- Nothing is left at and below the location that a path spells, and everything else is as it was. -/
structure Clears (disk disk' : Disk) (path : Text) (p : Location) : Prop where
  wellFormed : disk'.WellFormed
  spells : disk'.Spells path p
  lookup : ∀ q, disk'.tree.lookup q = if p <+: q then none else disk.tree.lookup q

/-- The entry itself is removed from a disk that holds nothing below it any more. -/
theorem dropped_last {disk' : Disk} (hdisk : disk'.WellFormed) (h : disk'.Spells path p)
    (hsome : (disk'.tree.lookup p).isSome) (hnull : Request.hasNull path = false)
    (hslash : asksForDirectory path = false)
    (hbelow : ∀ r, r ≠ [] → disk'.tree.lookup (p ++ r) = none)
    (hkept : ∀ r, (∀ q, q ≠ [] → r ≠ p ++ q) → disk'.tree.lookup r = disk.tree.lookup r) :
    disk.Clears (disk'.dropped (path, disk'.tree.isDirectory p)) path p := by
  rw [← List.append_nil p] at hsome
  obtain ⟨htree, hspells⟩ := dropped_of_spells hdisk h ((List.append_nil p).symm ▸ h) hsome hnull hslash
    (by simpa using hbelow)
  rw [List.append_nil] at htree hspells
  refine ⟨hdisk.dropped _, hspells, fun q => ?_⟩
  rw [htree, lookup_erase]
  by_cases hq : q = p
  · simp [hq]
  rw [if_neg hq]
  split
  · next hle =>
    obtain ⟨r, rfl⟩ := hle
    exact hbelow r fun hnil => hq (by simp [hnil])
  · next hle => exact hkept q fun r _ heq => hle ⟨r, heq.symm⟩

/-- A directory is removed behind all that is listed below it. -/
theorem clears_of_listed (hdisk : disk.WellFormed) (h : disk.Spells path p)
    (hslash : asksForDirectory path = false) {mode : Nat}
    (hplace : disk.place path = .ok (p, some (.directory mode))) (htaken : disk.tree.TakesBelow path p)
    {below : List Location} (hlisting : disk.tree.IsListing p below) :
    let rest := (disk.tree.listed path p below).foldl Disk.dropped disk
    (rest.tree.lookup p).isSome ∧ disk.Clears (rest.dropped (path, true)) path p := by
  have hlookup := lookup_of_place hplace
  have hnull : Request.hasNull path = false := (htaken [] (by simp [hlookup])).1.1
  obtain ⟨hwell, hspells, hempty, hkept⟩ := foldl_dropped_listed hdisk h htaken hlisting
  intro rest
  have hsame : rest.tree.lookup p = some (.directory mode) :=
    (hkept p fun q hq heq => hq (List.append_right_eq_self.1 heq.symm)).trans hlookup
  have hstays : rest.tree.isDirectory p = true := by
    by_cases hroot : p = []
    · subst hroot
      rfl
    · exact (isDirectory_iff_lookup _ hroot).2 ⟨mode, hsame⟩
  have hsome : (rest.tree.lookup p).isSome := Option.isSome_of_eq_some hsame
  have hlast := dropped_last hwell hspells hsome hnull hslash (fun r hr => ?_) hkept
  · exact ⟨hsome, hstays ▸ hlast⟩
  · by_contra hne
    exact absurd ((hempty.mem_iff r).2 ⟨hr, Option.isSome_iff_ne_none.2 hne⟩) List.not_mem_nil

end Disk

/-! ### Removals of a program -/

/-- A walk below a directory lists what lies there and changes nothing. -/
theorem Host.run_walkUpwards {host : Host} {path : Text} {p : Location} (hdisk : host.disk.WellFormed)
    (h : host.disk.LeadsTo path p) (hnull : Request.hasNull path = false)
    (htaken : host.disk.tree.TakesBelow path p) :
    ∃ below, host.disk.tree.IsListing p below ∧
      (walkUpwards path).run host = (.success (host.disk.tree.listed path p below) "walk", host) := by
  obtain ⟨below, hlisting, hrun⟩ := Request.runOn_walkUpwards hdisk h hnull htaken
  exact ⟨below, hlisting, run_guarded_of_ok hrun "walk" path⟩

namespace FileSystem

variable {host : Host} {path : Text} {p : Location} {e : Entry}

/-- The status of a path that names an entry by itself tells whether it is a directory. -/
theorem status_of_place (hnull : Request.hasNull path = false)
    (hslash : Disk.asksForDirectory path = false) (h : host.disk.place path = .ok (p, some e)) :
    ∃ status, Request.outcome [path] (·.status path false) host.disk = .ok status ∧
      (status.isDirectory = true ↔ ∃ mode, e = .directory mode) := by
  simp only [Request.outcome, List.any_cons, List.any_nil, hnull, Bool.or_false, Bool.false_eq_true,
    if_false]
  cases e with
  | file mode content =>
    have hresolve := Disk.resolve_of_place_file Purpose.lookAtLink_ne_write h
    exact ⟨.file mode content.length, by simp [Disk.status, hresolve, hslash], by simp [Status.isDirectory]⟩
  | directory mode =>
    have hresolve := Disk.resolve_of_place_directory Purpose.lookAtLink_ne_write h
    exact ⟨.directory (host.disk.directoryMode (.live p)), by simp [Disk.status, hresolve],
      by simp [Status.isDirectory]⟩
  | link target =>
    obtain ⟨q, target', hresolve⟩ := Disk.isLink_iff.1 (Disk.isLink_iff_place.2 ⟨hslash, p, target, h⟩)
    exact ⟨.link, by simp [Disk.status, hresolve], by simp [Status.isDirectory]⟩

/-- The removal of everything at a plain path leaves nothing at and below its location, and everything else
as it was. -/
theorem removeAll_clears (hdisk : host.disk.WellFormed) (hplain : host.disk.IsPlain path)
    (hplace : host.disk.place path = .ok (p, some e)) (htaken : host.disk.tree.TakesBelow path p) :
    host.disk.Clears ((removeAll path).run host).2.disk path p := by
  have hspells := Disk.spells_of_place hplain hplace
  have hlookup := Disk.lookup_of_place hplace
  have hsome : (host.disk.tree.lookup p).isSome := Option.isSome_of_eq_some hlookup
  have hnull : Request.hasNull path = false := (htaken [] (by simpa using hsome)).1.1
  obtain ⟨status, hstatus, hkind⟩ := status_of_place hnull hplain.noSlash hplace
  rw [← Disk.isDirectory_iff_of_place hplace] at hkind
  rw [disk_removeAll, removals, hstatus]
  dsimp only
  split
  · next hstatus =>
    have hdirectory := hkind.1 hstatus
    obtain ⟨mode, rfl⟩ := (Disk.isDirectory_iff_of_place hplace).1 hdirectory
    obtain ⟨below, hlisting, hrun⟩ :=
      Host.run_walkUpwards hdisk (Disk.leadsTo_of_place hplace) hnull htaken
    have hwalk : ((Host.walkUpwards path).run host).1.valueOr [] = host.disk.tree.listed path p below := by
      rw [hrun]
      rfl
    rw [hwalk, List.foldl_append]
    exact (Disk.clears_of_listed hdisk hspells hplain.noSlash hplace htaken hlisting).2
  · next hstatus =>
    have hother : host.disk.tree.isDirectory p = false := Bool.eq_false_iff.2 fun hd => hstatus (hkind.2 hd)
    have hlast := Disk.dropped_last hdisk hspells hsome hnull hplain.noSlash
      (fun r hr => hdisk.tree.closed.lookup_below (by simp [hother]) hr) fun _ _ => rfl
    rwa [hother] at hlast

/-- What is cleared away has no status any more. -/
theorem status?_of_clears (hdisk : host.disk.WellFormed) (hslash : Disk.asksForDirectory path = false)
    (hp : (host.disk.tree.lookup p).isSome) {after : Host} (h : host.disk.Clears after.disk path p)
    (follow : Bool) : ((status? path follow).run after).1 = none := by
  obtain ⟨parent, n, rfl, -, hparent⟩ := hdisk.tree.exists_parent hp
  have hparent' : after.disk.tree.isDirectory parent := by
    by_cases hroot : parent = []
    · subst hroot
      rfl
    · have habove : ¬ parent ++ [n] <+: parent := by
        intro hle
        have hlength := hle.length_le
        rw [List.length_append, List.length_singleton] at hlength
        omega
      rw [isDirectory_iff_lookup _ hroot, h.lookup, if_neg habove]
      exact (isDirectory_iff_lookup _ hroot).1 hparent
  have hplace : after.disk.place path = .ok (parent ++ [n], none) := by
    rw [h.spells.place h.wellFormed (by rwa [List.dropLast_concat]), h.lookup,
      if_pos (List.prefix_refl _)]
  have hmissing : after.disk.status path follow = .error .noEntry := by
    cases follow with
    | false => simp [Disk.status, Disk.resolve_of_place_none Purpose.lookAtLink_ne_write hplace, hslash]
    | true => simp [Disk.status, Disk.resolve_of_place_none Purpose.look_ne_write hplace, hslash]
  cases houtcome : Request.outcome [path] (·.status path follow) after.disk with
  | ok status => cases hmissing.symm.trans (Request.of_outcome_ok houtcome)
  | error e =>
    obtain ⟨log, hrun⟩ := run_status?_of_error houtcome
    rw [hrun]

/-- Removals account for what they remove. The removal of everything at a path gives the number of entries
that are there no longer, and the removal of a single one succeeds exactly if it is one entry; all others are
what they were. At a plain path everything at and below it is removed, as long as no path on the way is too
long for a call, and nothing is there afterwards. -/
theorem removals_account (hdisk : host.disk.WellFormed) (path : Text) :
    let all := (removeAll path).run host
    let one := (remove path).run host
    all.1 = (host.disk.tree.gone all.2.disk.tree).length ∧
      (∀ q, all.2.disk.tree.lookup q = none ∨ all.2.disk.tree.lookup q = host.disk.tree.lookup q) ∧
    (one.1 = true ↔ (host.disk.tree.gone one.2.disk.tree).length = 1) ∧
      (∀ q, one.2.disk.tree.lookup q = none ∨ one.2.disk.tree.lookup q = host.disk.tree.lookup q) ∧
      (one.1 = false → one.2.disk = host.disk) ∧
    ∀ p e, host.disk.IsPlain path → host.disk.place path = .ok (p, some e) →
      host.disk.tree.TakesBelow path p →
        (∀ q, all.2.disk.tree.lookup q = if p <+: q then none else host.disk.tree.lookup q) ∧
          ∀ follow, ((status? path follow).run all.2).1 = none := by
  intro all one
  have hall := removeAll_loses hdisk path
  refine ⟨(hall.tree.length_gone hdisk.tree.nodup hall.wellFormed.tree.nodup).symm, hall.tree.part,
    ?_, ?_, ?_, fun p e hplain hplace htaken => ?_⟩
  · rcases remove_loses hdisk path with ⟨hsuccess, hloses⟩ | ⟨hfailure, hsame⟩
    · exact iff_of_true hsuccess
        (hloses.tree.length_gone hdisk.tree.nodup hloses.wellFormed.tree.nodup)
    · have hgone := (Loses.refl host.disk.tree).length_gone hdisk.tree.nodup hdisk.tree.nodup
      refine iff_of_false (by simp [one, hfailure]) ?_
      simp only [one, hsame, hgone]
      decide
  · rcases remove_loses hdisk path with ⟨-, hloses⟩ | ⟨-, hsame⟩
    · exact hloses.tree.part
    · exact fun q => .inr (by rw [hsame])
  · rcases remove_loses hdisk path with ⟨hsuccess, -⟩ | ⟨-, hsame⟩
    · exact fun hfailure => absurd (hsuccess.symm.trans hfailure) (by decide)
    · exact fun _ => hsame
  · have hclears := removeAll_clears hdisk hplain hplace htaken
    exact ⟨hclears.lookup, status?_of_clears hdisk hplain.noSlash
      (Option.isSome_of_eq_some (Disk.lookup_of_place hplace)) hclears⟩

/-- A disk with a directory that holds a file, and a link to the directory. -/
def linkedDirectory : Disk :=
  ⟨((FileTree.empty.put [['d']] (.directory FileTree.directoryMode)).put [['d'], ['x']]
    (.file FileTree.fileMode [])).put [['l']] (.link ['d']), .root⟩

theorem wellFormed_linkedDirectory : linkedDirectory.WellFormed := by
  have hdirectory := Disk.WellFormed.empty.put_of_absent ⟨[], ['d'], rfl, by decide, rfl, rfl⟩
    (.directory FileTree.directoryMode)
  have hfile := hdirectory.put_of_absent ⟨[['d']], ['x'], rfl, by decide, rfl, rfl⟩
    (.file FileTree.fileMode [])
  exact hfile.put_of_absent ⟨[], ['l'], rfl, by decide, rfl, rfl⟩ (.link ['d'])

/-- The directory and its file are removed, and the link to the directory stays. -/
theorem removals_account_linkedDirectory :
    linkedDirectory.WellFormed ∧ linkedDirectory.IsPlain ['d'] ∧
      ((removeAll ['d']).run (.ofDisk linkedDirectory)).1 = 2 ∧
      ((removeAll ['d']).run (.ofDisk linkedDirectory)).2.disk.tree.lookup [['l']] =
        some (.link ['d']) := by
  have hdisk : (Host.ofDisk linkedDirectory).disk.WellFormed := wellFormed_linkedDirectory
  have hplain : linkedDirectory.IsPlain ['d'] := linkedDirectory.isPlain_name (by decide)
  have hplace : linkedDirectory.place ['d'] = .ok ([['d']], some (.directory FileTree.directoryMode)) :=
    Disk.place_name rfl (by decide) (by decide)
  have hlocations : linkedDirectory.tree.locations = [[['d']], [['d'], ['x']], [['l']]] := by decide
  have htaken : linkedDirectory.tree.TakesBelow ['d'] [['d']] := by
    intro q hq
    rw [isSome_lookup_iff, hlocations] at hq
    obtain rfl | rfl : q = [] ∨ q = [['x']] := by simpa using hq
    · exact ⟨⟨by decide, by decide⟩, by decide⟩
    · exact ⟨⟨by decide, by decide⟩, by decide⟩
  obtain ⟨hcount, -, -, -, -, hcleared⟩ := removals_account hdisk ['d']
  obtain ⟨hlookup, -⟩ := hcleared _ _ hplain hplace htaken
  refine ⟨hdisk, hplain, ?_, (hlookup [['l']]).trans (by decide)⟩
  rw [hcount, gone, List.filter_congr fun q _ => by rw [hlookup q]]
  decide

end FileSystem

end Primitives
