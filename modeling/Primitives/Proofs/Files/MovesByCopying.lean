import Primitives.Proofs.Files.CopiedSources
import Primitives.Proofs.Files.MoveFallback

/-!
# Moves by copying

Between two devices nothing can be renamed, so that a move copies what it moves and removes the original. This
leaves the tree that a rename on one device leaves, provided that the copy is put at the place of the target:
a file is written through a link at the target, and a link or a directory is only made where nothing is. A
directory is removed entry by entry behind its copy, by paths that still lead to its entries.

## Main definitions

* `FileTree.Moved`: a tree after a move.

## Main results

* `Disk.Renames.same_erase_put`: a rename puts the entry at its new place and erases it at the old one.
* `Request.exists_runOn_removeTree`: the removal of a tree.
* `Request.alike_moveByCopy_file`, `Request.alike_moveByCopy_link`, `Request.alike_moveByCopy_directory`:
  files, links and directories that are moved by copying as by renaming.
-/

namespace Primitives

open FileTree

/-- A tree that holds at and below `new` what another one holds at and below `old`, nothing there any more, and
everywhere else what that one holds. -/
def FileTree.Moved (t u : FileTree) (old new : Location) : Prop :=
  ∀ p, u.lookup p =
    if new <+: p then t.lookup (old ++ p.drop new.length) else if old <+: p then none else t.lookup p

/-! ### Renames -/

namespace Disk

variable {disk disk' : Disk} {source target : Text} {old new : Location} {e : Entry} {entry : Option Entry}

/-- A rename of an entry that is no directory puts it at its new place and erases it at the old one. -/
theorem Renames.same_erase_put (h : Renames disk source target old new e entry) (hdisk : disk.WellFormed)
    (hne : old ≠ new) (hreplace : disk.replace old new e = .ok disk') (he : ¬ IsDirectoryEntry e) :
    Same disk'.tree ((disk.tree.put new e).erase old) := by
  obtain ⟨parent, n, rfl, -, -, -⟩ := place_spec hdisk h.origin
  have hleaf : ¬ disk.tree.isDirectory (parent ++ [n]) := by
    rw [isDirectory_iff_lookup _ (by simp), h.lookup_old hdisk]
    rintro ⟨mode, hmode⟩
    exact he ⟨mode, Option.some.inj hmode⟩
  -- Neither at the old place nor at the new one is there anything below the entry.
  have hbelow : ∀ q, q ≠ [] → disk.tree.lookup (parent ++ [n] ++ q) = none :=
    fun q hq => hdisk.tree.closed.lookup_below hleaf hq
  obtain ⟨hapart, hapart'⟩ := h.apart hne
  intro p
  rw [h.lookup hdisk hne hreplace, lookup_erase, lookup_put]
  by_cases hnew : new <+: p
  · obtain ⟨q, rfl⟩ := hnew
    rw [if_pos (List.prefix_append new q), List.drop_left, if_neg fun heq => hapart' ⟨q, heq⟩]
    by_cases hq : q = []
    · rw [hq, List.append_nil, List.append_nil, if_pos rfl, h.lookup_old hdisk]
    · rw [if_neg (by simpa using hq), hbelow q hq, h.lookup_below hdisk hreplace hq]
  · rw [if_neg hnew]
    have hother : p ≠ new := fun heq => hnew (heq ▸ List.prefix_refl p)
    rw [if_neg hother]
    by_cases hold : parent ++ [n] <+: p
    · obtain ⟨q, rfl⟩ := hold
      rw [if_pos (List.prefix_append _ q)]
      by_cases hq : q = []
      · rw [hq, List.append_nil, if_pos rfl]
      · rw [if_neg (by simpa using hq), hbelow q hq]
    · have hkept : p ≠ parent ++ [n] := fun heq => hold (heq ▸ List.prefix_refl p)
      rw [if_neg hold, if_neg hkept]

/-- A path opens its place if nothing or a file is there and no slash follows. -/
theorem exists_opened_of_place {path : Text} {p : Location} (hplace : disk.place path = .ok (p, entry))
    (hslash : asksForDirectory path = false) (hfile : ∀ x ∈ entry, ∃ mode content, x = .file mode content) :
    ∃ found, disk.resolve .write path = .ok found ∧ found.opened? = some p := by
  cases entry with
  | none => exact ⟨_, resolve_write_of_place_none hplace hslash, rfl⟩
  | some x =>
    obtain ⟨mode, content, rfl⟩ := hfile x rfl
    refine ⟨.file p mode content, ?_, rfl⟩
    obtain ⟨links, parent, n, -, -, -, hn, hlookup, hresolve⟩ := exists_walk_of_place hplace
    rw [hresolve, walk_name _ _ _ _ hn, hlookup, hslash]
    rfl

/-- What can be opened is no directory. -/
theorem not_leadsToDirectory_of_opened {path : Text} {p : Location} {found : Target}
    (hopens : disk.resolve .write path = .ok found) (hopened : found.opened? = some p) :
    ¬ disk.leadsToDirectory path := by
  rw [leadsToDirectory_iff, resolve_look_of_write hopens]
  rintro ⟨d, hd⟩
  rw [Except.ok.inj hd] at hopened
  exact nomatch hopened

end Disk

/-! ### Files and links -/

namespace Request

variable {host : Host} {source target : Text} {old new : Location} {e : Entry} {entry : Option Entry}

/-- An entry that is no directory is moved by putting a copy at its new place and removing it at the old one as
by renaming it. -/
theorem alike_of_copied (hdisk : host.disk.WellFormed) (hsource : hasNull source = false)
    (htarget : hasNull target = false) {disk' : Disk}
    (hrenames : Disk.Renames host.disk source target old new e entry) (hne : old ≠ new)
    (hreplace : host.disk.replace old new e = .ok disk') (he : ¬ Disk.IsDirectoryEntry e)
    (hkind : ∀ x, host.disk.tree.lookup new = some x → e.outline = x.outline) {copy : Request Unit}
    (hcopy : copy.runOn host = (.ok (), host.put new e)) :
    Alike (renameOn source target) (do copy; change [source] (·.unlink source)) host := by
  have hrename : host.disk.rename source target = .ok disk' :=
    (Disk.rename_ok_iff_of_place hrenames.origin hrenames.goal).2 ⟨hrenames, .inr ⟨hne, hreplace⟩⟩
  have hslash : Disk.asksForDirectory source = false := (hrenames.slash.resolve_left he).1
  -- The copy is somewhere else, so that the entry is still found at its old place.
  have hwithin : host.disk.Within (host.put new e).disk := .put hkind
  have hplace : (host.put new e).disk.place source = .ok (old, some e) := by
    rw [hwithin.place hrenames.origin, Host.tree_put, lookup_put, if_neg hne, hrenames.lookup_old hdisk]
  have hunlink : (host.put new e).disk.unlink source =
      .ok { (host.put new e).disk with tree := (host.put new e).disk.tree.erase old } :=
    Disk.unlink_ok_iff.2 ⟨old, e, hplace, fun mode heq => he ⟨mode, heq⟩, hslash, rfl⟩
  have hremove : (change [source] (·.unlink source)).runOn (host.put new e) = (.ok (), _) :=
    runOn_change_ok_iff.2 ⟨by simpa using hsource, _, hunlink, rfl⟩
  have hrenamed := runOn_renameOn_of_ok hsource htarget hrename
  have hmoved : (do copy; change [source] (·.unlink source)).runOn host = (.ok (), _) :=
    (runOn_bind_of_ok hcopy _).trans hremove
  refine ⟨by rw [hrenamed, hmoved], ?_⟩
  rw [hrenamed, hmoved]
  exact hrenames.same_erase_put hdisk hne hreplace he

/-- A file is moved by copying as by renaming, if the rename is not refused, the target is no link and its place
is not that of the source. -/
theorem alike_moveByCopy_file (hdisk : host.disk.WellFormed) (hsource : hasNull source = false)
    (htarget : hasNull target = false) {mode : Nat} {content : Bytes}
    (hfile : host.disk.place source = .ok (old, some (.file mode content)))
    (hgoal : host.disk.place target = .ok (new, entry)) (hlink : ∀ link, entry ≠ some (.link link))
    (hne : old ≠ new) {disk' : Disk} (hrename : host.disk.rename source target = .ok disk') (shown : Text) :
    Alike (renameOn source target) (moveByCopy source target shown) host := by
  obtain ⟨hrenames, ⟨heq, -⟩ | ⟨-, hreplace⟩⟩ := (Disk.rename_ok_iff_of_place hfile hgoal).1 hrename
  · exact absurd heq hne
  have he : ¬ Disk.IsDirectoryEntry (.file mode content) := by
    rintro ⟨_, ⟨⟩⟩
  obtain ⟨hslash, hslash'⟩ := hrenames.slash.resolve_left he
  -- A file replaces no directory, so that the target is free or a file.
  have hreplaced : ∀ x ∈ entry, ∃ mode' content', x = .file mode' content' := by
    obtain ⟨parent, n, rfl, -, -, -⟩ := Disk.place_spec hdisk hgoal
    rintro x rfl
    obtain ⟨hsame, -⟩ := (Disk.exists_replace_iff (by simp)).1 ⟨disk', hreplace⟩ x (Disk.lookup_of_place hgoal)
    cases x with
    | file mode' content' => exact ⟨mode', content', rfl⟩
    | directory mode' => exact absurd (hsame.2 ⟨mode', rfl⟩) he
    | link link => exact absurd rfl (hlink link)
  obtain ⟨found, hopens, hopened⟩ := Disk.exists_opened_of_place hgoal hslash' hreplaced
  obtain ⟨found', hopens', hopened'⟩ := Disk.exists_opened_of_place hfile hslash (by simp)
  have hcopies : host.disk.Copies source target old mode content new := by
    refine ⟨?_, ⟨found, hopens, hopened⟩, hne.symm⟩
    rw [Disk.resolve_of_place_file Purpose.look_ne_write hfile, hslash]
    rfl
  have hpath : host.disk.copyPath source target = target := by
    rw [Disk.copyPath, if_neg (Disk.not_leadsToDirectory_of_opened hopens hopened)]
  have hcopy : (discard (copyFile source target)).runOn host = (.ok (), host.put new (.file mode content)) :=
    runOn_discard_ok_iff.2 ⟨target, copyFileAs_ok_iff.2
      ⟨hpath.symm, hsource, htarget, old, mode, content, new, hcopies, rfl⟩⟩
  have hnolink : ¬ host.disk.isLink source := by
    rw [Disk.isLink_iff_place, hfile]
    simp
  have hmove : (moveByCopy source target shown).runOn host =
      (do discard (copyFile source target); change [source] (·.unlink source)).runOn host := by
    rw [moveByCopy, runOn_bind_of_ok (runOn_ask _ host), if_neg hnolink, runOn_bind_of_ok (runOn_ask _ host),
      if_neg (Disk.not_leadsToDirectory_of_opened hopens' hopened')]
  rw [alike_congr hmove]
  refine alike_of_copied hdisk hsource htarget hrenames hne hreplace he (fun x hx => ?_) hcopy
  obtain ⟨mode', content', rfl⟩ := hreplaced x ((Disk.lookup_of_place hgoal).symm.trans hx)
  rfl

/-- A link is moved by making it anew as by renaming it, where nothing is at the target. -/
theorem alike_moveByCopy_link (hdisk : host.disk.WellFormed) (hsource : hasNull source = false)
    (htarget : hasNull target = false) {link : Text}
    (hlink : host.disk.place source = .ok (old, some (.link link))) (hnull : hasNull link = false)
    (hempty : link ≠ []) (hshort : (Utf8.encode link).length ≤ pathLimit)
    (hgoal : host.disk.place target = .ok (new, none)) {disk' : Disk}
    (hrename : host.disk.rename source target = .ok disk') (shown : Text) :
    Alike (renameOn source target) (moveByCopy source target shown) host := by
  have hne : old ≠ new := by
    rintro rfl
    cases (Disk.lookup_of_place hlink).symm.trans (Disk.lookup_of_place hgoal)
  obtain ⟨hrenames, ⟨heq, -⟩ | ⟨-, hreplace⟩⟩ := (Disk.rename_ok_iff_of_place hlink hgoal).1 hrename
  · exact absurd heq hne
  have he : ¬ Disk.IsDirectoryEntry (.link link) := by
    rintro ⟨_, ⟨⟩⟩
  obtain ⟨hslash, hslash'⟩ := hrenames.slash.resolve_left he
  have hislink : host.disk.isLink source := Disk.isLink_iff_place.2 ⟨hslash, old, link, hlink⟩
  have hread : (look [source] (·.readLink source)).runOn host = (.ok link, host) := by
    refine runOn_look_ok_iff.2 ⟨by simpa using hsource, ?_, rfl⟩
    rw [Disk.readLink, Disk.resolve_of_place_link hlink hslash]
    rfl
  have hmake : (change [link, target] (·.makeLink link target)).runOn host = (.ok (), host.put new (.link link)) :=
    runOn_change_ok_iff.2 ⟨by simp [hnull, htarget], _,
      Disk.makeLink_of_place_none hgoal hslash' hempty hshort, rfl⟩
  have hmove : (moveByCopy source target shown).runOn host =
      (do change [link, target] (·.makeLink link target); change [source] (·.unlink source)).runOn host := by
    rw [moveByCopy, runOn_bind_of_ok (runOn_ask _ host), if_pos hislink, runOn_bind_of_ok hread]
  rw [alike_congr hmove]
  refine alike_of_copied hdisk hsource htarget hrenames hne hreplace he (fun x hx => ?_) hmake
  cases (Disk.lookup_of_place hgoal).symm.trans hx

/-! ### Directories -/

/-- The removal of an entry, as a round of the removal of a tree. -/
def removeListed (entry : Text × Bool) (_ : PUnit) : Request (ForInStep PUnit) := do
  if entry.2 then change [entry.1] (·.removeDirectory entry.1) else change [entry.1] (·.unlink entry.1)
  return .yield ⟨⟩

theorem removeTree_eq (path : Text) : removeTree path = (do
    let entries ← walkUpwards path
    let _ ← forIn entries PUnit.unit removeListed
    change [path] (·.removeDirectory path)) :=
  rfl

/-- A removal that has an effect succeeds. -/
theorem outcome_of_dropped {disk : Disk} {entry : Text × Bool} (h : disk.dropped entry ≠ disk) :
    outcome [entry.1] (·.removeEntry entry.2 entry.1) disk = .ok (disk.dropped entry) := by
  unfold Disk.dropped at h ⊢
  cases houtcome : outcome [entry.1] (·.removeEntry entry.2 entry.1) disk with
  | ok disk' => rfl
  | error e => exact absurd (by rw [houtcome]) h

theorem runOn_removeEntry_of_dropped {disk : Disk} {isDirectory : Bool} {path : Text}
    (h : disk.dropped (path, isDirectory) ≠ disk) :
    (change [path] (·.removeEntry isDirectory path)).runOn { host with disk } =
      (.ok (), { host with disk := disk.dropped (path, isDirectory) }) := by
  rw [runOn_change, outcome_of_dropped h]

theorem runOn_removeListed {disk : Disk} {entry : Text × Bool} (h : disk.dropped entry ≠ disk) :
    (removeListed entry ⟨⟩).runOn { host with disk } =
      (.ok (.yield ⟨⟩), { host with disk := disk.dropped entry }) := by
  obtain ⟨path, isDirectory⟩ := entry
  have hrun : (change [path] (·.removeEntry isDirectory path)).runOn { host with disk } = _ :=
    runOn_removeEntry_of_dropped h
  cases isDirectory with
  | true => exact runOn_bind_of_ok hrun _
  | false => exact runOn_bind_of_ok hrun _

/-- All that is listed below a directory is removed, entry by entry. -/
theorem runOn_forIn_removeListed {disk : Disk} (hdisk : disk.WellFormed) {path : Text} {p : Location}
    (h : disk.Spells path p) (htaken : disk.tree.TakesBelow path p) {below : List Location}
    (hlisting : disk.tree.IsListing p below) :
    (forIn (disk.tree.listed path p below) PUnit.unit removeListed).runOn { host with disk } =
      (.ok ⟨⟩, { host with disk := (disk.tree.listed path p below).foldl Disk.dropped disk }) := by
  -- Each round erases the first entry of the listing, so that it cannot have failed.
  induction below generalizing disk with
  | nil => rfl
  | cons q below ih =>
    obtain ⟨-, hsome⟩ := (hlisting.mem_iff q).1 List.mem_cons_self
    obtain ⟨htree, hspells, htaken', hrest, hlisted⟩ := Disk.dropped_first hdisk h htaken hlisting
    have hchanged : disk.dropped (PathText.join path q, disk.tree.isDirectory (p ++ q)) ≠ disk := by
      intro hsame
      rw [← hsame, htree, lookup_erase, if_pos rfl] at hsome
      exact absurd hsome (by simp)
    have hnext := ih (hdisk.dropped _) hspells htaken' hrest
    rw [hlisted] at hnext
    rw [FileTree.listed, List.map_cons, List.forIn_cons]
    exact (runOn_bind_of_ok (runOn_removeListed hchanged) _).trans hnext

/-- The removal of the tree at a path that spells its place leaves nothing at and below it. -/
theorem exists_runOn_removeTree (hdisk : host.disk.WellFormed) {path : Text} {p : Location}
    (h : host.disk.Spells path p) (hslash : Disk.asksForDirectory path = false) {mode : Nat}
    (hplace : host.disk.place path = .ok (p, some (.directory mode)))
    (htaken : host.disk.tree.TakesBelow path p) :
    ∃ disk, (removeTree path).runOn host = (.ok (), { host with disk }) ∧ host.disk.Clears disk path p := by
  have hnull : hasNull path = false := (htaken [] (by simp [Disk.lookup_of_place hplace])).1.1
  obtain ⟨below, hlisting, hwalk⟩ := runOn_walkUpwards hdisk (Disk.leadsTo_of_place hplace) hnull htaken
  obtain ⟨hsome, hclears⟩ := Disk.clears_of_listed hdisk h hslash hplace htaken hlisting
  have hlisted : (forIn _ PUnit.unit removeListed).runOn host = _ :=
    runOn_forIn_removeListed hdisk h htaken hlisting
  generalize (host.disk.tree.listed path p below).foldl Disk.dropped host.disk = rest at hsome hclears hlisted
  have hchanged : rest.dropped (path, true) ≠ rest := by
    intro hsame
    rw [← hsame, hclears.lookup, if_pos (List.prefix_refl p)] at hsome
    exact absurd hsome (by simp)
  have hlast : (change [path] (·.removeEntry true path)).runOn { host with disk := rest } =
      (.ok (), { host with disk := rest.dropped (path, true) }) :=
    runOn_removeEntry_of_dropped hchanged
  refine ⟨rest.dropped (path, true), ?_, hclears⟩
  rw [removeTree_eq, runOn_bind_of_ok hwalk, runOn_bind_of_ok hlisted]
  exact hlast

section

variable (h : host.disk.TakesCopy source target old new) {mode : Nat}
  (hplace : host.disk.place source = .ok (old, some (.directory mode)))

include h hplace

/-- A directory is renamed to a free place. -/
theorem exists_rename_of_takesCopy :
    ∃ disk', host.disk.rename source target = .ok disk' ∧ Moved host.disk.tree disk'.tree old new := by
  have hne : old ≠ new := fun heq => h.apart (heq ▸ List.prefix_refl old)
  have hrenames : host.disk.Renames source target old new (.directory mode) none :=
    ⟨hplace, h.place, .inl ⟨mode, rfl⟩, fun hle => absurd hle h.apart, fun hle => absurd hle h.apart'⟩
  obtain ⟨parent, n, hnew, -, -, -⟩ := Disk.place_spec h.wellFormed h.place
  obtain ⟨disk', hreplace⟩ := (Disk.exists_replace_iff (by simp [hnew])).2 fun x hx =>
    nomatch (Disk.lookup_of_place h.place).symm.trans hx
  exact ⟨disk', (Disk.rename_ok_iff_of_place hplace h.place).2 ⟨hrenames, .inr ⟨hne, hreplace⟩⟩,
    hrenames.lookup h.wellFormed hne hreplace⟩

/-- A directory is copied to a free place and removed, if it is given by itself. -/
theorem exists_runOn_copied_removed (hplain : host.disk.IsPlain source) :
    ∃ last, (do copyTree false source target; removeTree source).runOn host = (.ok (), last) ∧
      Moved host.disk.tree last.disk.tree old new := by
  obtain ⟨mid, hcopy, hcopied⟩ : ∃ mid, (copyTree false source target).runOn host = (.ok (), mid) ∧
      Copied host.disk.tree mid.disk.tree old new :=
    exists_runOn_copyTreeIn h (Nat.lt_add_left _ (Nat.lt_succ_self pathLimit))
  have hextends : host.Extends ((copyTree false source target).runOn host).2 :=
    extends_respectedByCopies.copyTreeIn false _ source target host
  rw [hcopy] at hextends
  obtain ⟨hmid, hwithin⟩ := hextends h.wellFormed
  -- The copy leaves the source and its paths as they were.
  have hsource : ∀ q, mid.disk.tree.lookup (old ++ q) = host.disk.tree.lookup (old ++ q) := fun q =>
    hcopied.others _ (not_prefix_append h.apart' h.apart q)
  have hspells : mid.disk.Spells source old :=
    (Disk.spells_of_place hplain hplace).congr (by rw [hwithin.directory])
  have hplace' : mid.disk.place source = .ok (old, some (.directory mode)) := by
    have hsame := hsource []
    rw [List.append_nil, Disk.lookup_of_place hplace] at hsame
    rw [hwithin.place hplace, hsame]
  obtain ⟨disk, hremove, hclears⟩ := exists_runOn_removeTree hmid hspells hplain.noSlash hplace'
    (h.takesSource.of_part fun q hq => by rwa [hsource] at hq)
  refine ⟨{ mid with disk }, (runOn_bind_of_ok hcopy _).trans hremove, fun p => ?_⟩
  rw [hclears.lookup]
  by_cases hle : new <+: p
  · obtain ⟨q, rfl⟩ := hle
    rw [if_pos (List.prefix_append new q), List.drop_left, if_neg (not_prefix_append h.apart h.apart' q),
      hcopied.copy]
  · rw [if_neg hle, hcopied.others p hle]

/-- A directory is moved by copying as by renaming to a free place that takes its copy, if it is given by
itself and the target does not lie inside it by its letters. -/
theorem alike_moveByCopy_directory (hplain : host.disk.IsPlain source) {shown : Text}
    (hinside : ((isInside source shown).runOn host).1 = .ok false) :
    Alike (renameOn source target) (moveByCopy source target shown) host := by
  obtain ⟨disk', hrename, hrenamed⟩ := exists_rename_of_takesCopy h hplace
  obtain ⟨last, hcopied, hmoved⟩ := exists_runOn_copied_removed h hplace hplain
  have hlink : ¬ host.disk.isLink source := by
    rw [Disk.isLink_iff_place, hplace]
    simp
  have hout : (isInside source shown).runOn host = (.ok false, host) :=
    Prod.ext hinside (keeps_isInside source shown host)
  have hmove : (moveByCopy source target shown).runOn host = (.ok (), last) := by
    rw [runOn_moveByCopy_directory (Disk.leadsToDirectory_iff.2 ⟨_, h.leads.resolve⟩) hlink,
      runOn_bind_of_ok hout]
    exact hcopied
  have hrun := runOn_renameOn_of_ok h.hasNull_source h.hasNull_target hrename
  refine ⟨by rw [hrun, hmove], fun p => ?_⟩
  rw [hrun, hmove]
  exact (hrenamed p).trans (hmoved p).symm

end

end Request

end Primitives
