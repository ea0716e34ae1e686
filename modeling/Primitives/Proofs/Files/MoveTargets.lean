import Primitives.Proofs.Files.Listings
import Primitives.Proofs.Files.Moves

/-!
# Targets in directories

A move to a path that leads to a directory goes to the name of the source in this directory. Where the
source, a directory, can be renamed to the path itself, which is an empty directory then, it can be renamed
into it as well, unless the longer path has too many bytes. No directory can be made at such a path, and
a move by copying fails too.

## Main definitions

* `Request.movedPath`: the path that a move into a directory goes to.

## Main results

* `Disk.place_joinTwo`: the place of a name in a directory.
* `Request.isOk_moveByCopy_movedPath`: a move into a directory that cannot be renamed fails.
-/

namespace Primitives

open FileTree PathText SplitPath

/-! ### Names of paths -/

namespace Disk

variable {disk : Disk} {source target path : Text} {p : Location}

/-- The name at the end of a path with a place is that of the place. -/
theorem name_of_place {entry : Option Entry} (h : disk.place path = .ok (p, entry)) :
    IsName (baseName (withoutTrailingSlashes path)) ∧
      isLongName (baseName (withoutTrailingSlashes path)) = false := by
  obtain ⟨links, parent, n, hparent, hlast, -, hn, hlookup, -⟩ := exists_walk_of_place h
  obtain ⟨-, -, -, hname, -⟩ := resolveParent_eq_ok_iff.1 hparent
  have hcomponents := eq_of_lastName (hname.symm.trans hlast)
  have hlastName := getLast?_splitComponents (p := path) (by rw [hcomponents]; simp)
  rw [hcomponents, List.getLast?_concat] at hlastName
  rw [← Option.some.inj hlastName]
  exact ⟨hn, (lookupName_ok_iff.1 hlookup).2.1⟩

/-- The place of a name in the working directory. -/
theorem place_name {n : Text} (hstanding : disk.directory.removed = 0) (hn : IsName n)
    (hshort : isLongName n = false) :
    disk.place n =
      .ok (disk.directory.location ++ [n], disk.tree.lookup (disk.directory.location ++ [n])) := by
  have hlength : (Utf8.encode n).length ≤ pathLimit := by
    have hle : ¬ nameLimit < (Utf8.encode n).length := by simpa [isLongName] using hshort
    exact (Nat.not_lt.1 hle).trans (by decide)
  have hrelative : (SplitPath.ofText n).start disk.directory = disk.directory := by
    cases n with
    | nil => rfl
    | cons c n =>
      have hc : c ≠ '/' := fun heq => hn.2.1 (heq ▸ List.mem_cons_self)
      simp [SplitPath.ofText, SplitPath.start, hc]
  have hparent : disk.tree.resolveParent disk.directory n =
      .ok ⟨disk.directory, .name n, asksForDirectory n⟩ := by
    rw [resolveParent_eq_ok_iff, splitComponents_word hn.1 hn.2.1, hrelative]
    refine ⟨hn.1, hlength, ⟨linkLimit, by simp [lead]⟩, ?_, rfl⟩
    simp [lastName, hn.2.2.1, hn.2.2.2]
  refine place_eq_ok_iff.2 ⟨_, n, hparent, rfl, ?_⟩
  exact lookupName_ok_iff.2 ⟨hstanding, hshort, rfl, rfl⟩

/-- The place of a name in a directory that is at its place, by a path that is not too long. -/
theorem place_joinTwo {n : Text} {mode : Nat} (h : disk.place path = .ok (p, some (.directory mode)))
    (hn : IsName n) (hshort : isLongName n = false)
    (hlength : (Utf8.encode (joinTwo path n)).length ≤ pathLimit) :
    disk.place (joinTwo path n) = .ok (p ++ [n], disk.tree.lookup (p ++ [n])) :=
  (leadsTo_of_place h).place_joinTwo hn hshort hlength

/-! ### Renames of directories -/

/-- A directory that would be moved onto itself, given by itself and not by a link. -/
def IsOntoItself (disk : Disk) (source target : Text) : Prop :=
  disk.sameTarget source target = .ok true ∧ ¬ disk.isLink source

section

variable {disk' : Disk} {old new : Location} {e : Entry} {entry : Option Entry}

/-- What is renamed and leads to a directory without being a link is a directory. -/
theorem Renames.isDirectoryEntry (h : Renames disk source target old new e entry)
    (hdirectory : disk.leadsToDirectory source) (hlink : ¬ disk.isLink source) : IsDirectoryEntry e := by
  obtain ⟨d, hd⟩ := leadsToDirectory_iff.1 hdirectory
  cases e with
  | directory mode => exact ⟨mode, rfl⟩
  | file mode content =>
    rw [resolve_of_place_file (by decide) h.origin] at hd
    split at hd <;> simp at hd
  | link other =>
    rcases h.slash with hentry | ⟨hslash, -⟩
    · exact hentry
    · exact absurd (isLink_iff_place.2 ⟨hslash, old, other, h.origin⟩) hlink

/-- A directory that is not moved onto itself replaces an empty directory where one is. -/
theorem Renames.replaces_directory (hdisk : disk.WellFormed)
    (h : Renames disk source target old new e entry) (he : IsDirectoryEntry e)
    (hlink : ¬ disk.isLink source) (htarget : disk.leadsToDirectory target)
    (hitself : ¬ disk.IsOntoItself source target)
    (hrename : disk.rename source target = .ok disk') :
    old ≠ new ∧ (∃ mode, entry = some (.directory mode)) ∧ disk.tree.children new = [] := by
  obtain ⟨mode, rfl⟩ := he
  obtain ⟨parent, m, rfl, -, -, hentry⟩ := place_spec hdisk h.goal
  have hsource := resolve_of_place_directory Purpose.look_ne_write h.origin
  have hne : old ≠ parent ++ [m] := by
    rintro rfl
    have hgoal := h.goal
    rw [hentry, h.lookup_old hdisk] at hgoal
    have hresolve := resolve_of_place_directory Purpose.look_ne_write hgoal
    exact hitself ⟨by simp [sameTarget, hsource, hresolve], hlink⟩
  obtain ⟨-, ⟨hsame, -⟩ | ⟨-, hreplace⟩⟩ := (rename_ok_iff_of_place h.origin h.goal).1 hrename
  · exact absurd hsame hne
  have hkind := (exists_replace_iff (by simp)).1 ⟨disk', hreplace⟩
  cases entry with
  | none =>
    obtain ⟨d, hd⟩ := leadsToDirectory_iff.1 htarget
    rw [resolve_of_place_none (by decide) h.goal] at hd
    split at hd <;> simp at hd
  | some x =>
    obtain ⟨hiff, hempty⟩ := hkind x hentry.symm
    obtain ⟨mode', rfl⟩ := hiff.1 ⟨mode, rfl⟩
    exact ⟨hne, ⟨mode', rfl⟩, hempty ⟨mode', rfl⟩⟩

end

/-- A directory that can be renamed to an empty directory can be renamed into it, by a path that is not
too long. -/
theorem exists_rename_joinTwo {disk' : Disk} (hdisk : disk.WellFormed)
    (hdirectory : disk.leadsToDirectory source) (hlink : ¬ disk.isLink source)
    (htarget : disk.leadsToDirectory target) (hitself : ¬ disk.IsOntoItself source target)
    (hrename : disk.rename source target = .ok disk')
    (hlength : (Utf8.encode (joinTwo target (baseName (withoutTrailingSlashes source)))).length ≤
      pathLimit) :
    ∃ disk'', disk.rename source (joinTwo target (baseName (withoutTrailingSlashes source))) =
      .ok disk'' := by
  obtain ⟨old, new, e, entry, h, -⟩ := rename_ok_iff.1 hrename
  have he := h.isDirectoryEntry hdirectory hlink
  obtain ⟨hne, ⟨mode, rfl⟩, hempty⟩ :=
    h.replaces_directory hdisk he hlink htarget hitself hrename
  obtain ⟨hname, hshort⟩ := name_of_place h.origin
  generalize baseName (withoutTrailingSlashes source) = n at hname hshort hlength ⊢
  have hgoal := place_joinTwo h.goal hname hshort hlength
  have hnone : disk.tree.lookup (new ++ [n]) = none :=
    hdisk.tree.closed.lookup_below_of_children hempty (List.cons_ne_nil n [])
  rw [hnone] at hgoal
  have hne' : old ≠ new ++ [n] := by
    rintro rfl
    exact nomatch hnone.symm.trans (h.lookup_old hdisk)
  have hrenames : Renames disk source (joinTwo target n) old (new ++ [n]) e none := by
    refine ⟨h.origin, hgoal, .inl he, fun hle => ?_, fun hle => ?_⟩
    · rcases List.prefix_concat_iff.1 hle with heq | hle
      · exact heq
      · exact absurd (h.notBelow hle) hne
    · exact absurd (h.notAbove ((List.prefix_append new [n]).trans hle)) hne
  obtain ⟨disk'', hreplace⟩ : ∃ disk'', disk.replace old (new ++ [n]) e = .ok disk'' := by
    refine (exists_replace_iff (by simp)).2 fun x hx => ?_
    exact nomatch hnone.symm.trans hx
  exact ⟨disk'', (rename_ok_iff_of_place h.origin hgoal).2 ⟨hrenames, .inr ⟨hne', hreplace⟩⟩⟩

theorem makeDirectory_ne_ok_of_long (h : pathLimit < (Utf8.encode path).length) (disk' : Disk) :
    disk.makeDirectory path ≠ .ok disk' := by
  intro hmake
  obtain ⟨p, hplace, -⟩ := makeDirectory_ok_iff.1 hmake
  obtain ⟨parent, n, hparent, -⟩ := place_eq_ok_iff.1 hplace
  have hlength := (resolveParent_eq_ok_iff.1 hparent).2.1
  omega

end Disk

namespace Request

/-! ### Requests that never succeed -/

/-- A request that ends with an error on every host. -/
def NeverSucceeds {α : Type} (request : Request α) : Prop :=
  ∀ host, (request.runOn host).1.isOk = false

section

variable {α β : Type} {request : Request α} {next : α → Request β}

theorem neverSucceeds_throw (e : HostError) : (throw e : Request α).NeverSucceeds :=
  fun _ => rfl

theorem neverSucceeds_change {paths : List Text} {f : Disk → Except Errno Disk}
    (h : ∀ disk disk', f disk ≠ .ok disk') : (change paths f).NeverSucceeds := by
  intro host
  obtain ⟨e, hrun⟩ : (change paths f).Fails host := fails_change (h host.disk)
  rw [hrun]
  rfl

theorem NeverSucceeds.bind (h : request.NeverSucceeds) (next : α → Request β) :
    (request >>= next).NeverSucceeds := by
  intro host
  have hfirst := h host
  rw [runOn_bind]
  rcases hrun : request.runOn host with ⟨_ | a, host'⟩
  · rfl
  · rw [hrun] at hfirst
    exact nomatch hfirst

theorem neverSucceeds_bind (h : ∀ a, (next a).NeverSucceeds) (request : Request α) :
    (request >>= next).NeverSucceeds := by
  intro host
  rw [runOn_bind]
  rcases request.runOn host with ⟨_ | a, host'⟩
  · rfl
  · exact h a host'

theorem NeverSucceeds.tryCatch {handle : HostError → Request α} (h : request.NeverSucceeds)
    (hhandle : ∀ e, (handle e).NeverSucceeds) : (tryCatch request handle).NeverSucceeds := by
  intro host
  have hfirst := h host
  rw [runOn_tryCatch]
  rcases hrun : request.runOn host with ⟨e | a, host'⟩
  · exact hhandle e host'
  · rw [hrun] at hfirst
    exact nomatch hfirst

end

variable {host : Host} {source target path : Text}

/-! ### Paths that are too long -/

/-- No directory is made at a path that is too long. -/
theorem makeDirectories_neverSucceeds (hlong : pathLimit < (Utf8.encode path).length)
    (hdot : (splitHead path).2 ≠ ['.']) : (makeDirectories false path).NeverSucceeds := by
  have hlast : (makeLast false path).NeverSucceeds := by
    refine (neverSucceeds_change fun disk => Disk.makeDirectory_ne_ok_of_long hlong).tryCatch fun e => ?_
    exact neverSucceeds_bind (fun present => neverSucceeds_throw e) _
  intro host
  rw [runOn_makeDirectories]
  split
  · have hbehind : ∀ make, (makeBehind false make path).NeverSucceeds := by
      intro make
      refine neverSucceeds_bind (fun _ => ?_) _
      rw [if_neg hdot]
      exact hlast
    exact hbehind _ host
  · exact hlast host

/-- The path that a move into a directory goes to. -/
def movedPath (source target : Text) : Text :=
  joinTwo target (baseName (withoutTrailingSlashes source))

/-- A directory that can be renamed to another one but not into it is not moved into it by copying. -/
theorem isOk_moveByCopy_movedPath {disk' : Disk} (hdisk : host.disk.WellFormed)
    (hdirectory : host.disk.leadsToDirectory source) (hlink : ¬ host.disk.isLink source)
    (htarget : host.disk.leadsToDirectory target) (hitself : ¬ host.disk.IsOntoItself source target)
    (hrename : host.disk.rename source target = .ok disk')
    (hrefused : ∀ disk, host.disk.rename source (movedPath source target) ≠ .ok disk) (shown : Text) :
    ((moveByCopy source (movedPath source target) shown).runOn host).1.isOk = false := by
  have hlong : pathLimit < (Utf8.encode (movedPath source target)).length := by
    by_contra hlength
    obtain ⟨disk, hmoved⟩ := Disk.exists_rename_joinTwo hdisk hdirectory hlink htarget hitself hrename
      (Nat.not_lt.1 hlength)
    exact hrefused disk hmoved
  obtain ⟨old, new, e, entry, h, -⟩ := Disk.rename_ok_iff.1 hrename
  obtain ⟨hname, -⟩ := Disk.name_of_place h.origin
  have hcomponents : splitComponents target ≠ [] := by
    obtain ⟨-, parent, n, hparent, hlast, -⟩ := Disk.exists_walk_of_place h.goal
    obtain ⟨-, -, -, hlastName, -⟩ := resolveParent_eq_ok_iff.1 hparent
    intro hnil
    rw [hnil, hlast] at hlastName
    exact nomatch hlastName
  have hdot : (splitHead (movedPath source target)).2 ≠ ['.'] := by
    rw [movedPath, splitHead_joinTwo hcomponents hname.1 hname.2.1]
    exact hname.2.2.1
  have hcopy : (copyTree false source (movedPath source target)).NeverSucceeds :=
    neverSucceeds_bind (fun names => (makeDirectories_neverSucceeds hlong hdot).bind _) _
  rw [runOn_moveByCopy_directory hdirectory hlink]
  refine neverSucceeds_bind (fun inside => ?_) _ host
  cases inside with
  | true => exact (neverSucceeds_throw _).bind _
  | false => exact hcopy.bind _

end Request

end Primitives
