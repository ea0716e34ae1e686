import Primitives.Proofs.Files.Walks
import Primitives.Proofs.Outcomes

/-!
# Places of paths

A path that ends with a name has a *place*: the location of this name in the directory in front of it,
with the entry there. The place is what calls change that make, remove and rename entries, while calls
that look at a path follow a link at its place. Here the two are related: a directory or a file is found
where its place is, and a path without a place leads to a directory or nowhere.

A disk is *well formed* when its tree is and its working directory stands in a directory.

## Main definitions

* `Target.opened?`: the location of a file that is there or may be created.
* `Disk.WellFormed`: well-formed disks.
* `Disk.place`: the place of a path.

## Main results

* `Disk.resolve_of_place_none`, `Disk.resolve_of_place_file`, …: resolution in terms of the place.
* `Disk.resolve_of_place_error`: resolution of a path without a place.
-/

namespace Primitives

open FileTree

/-! ### Targets that are opened -/

namespace Target

/-- The location of a file that is there or may be created. -/
def opened? : Target → Option Location
  | .file p _ _ => some p
  | .absent p => some p
  | _ => none

/-- The permission bits of a file that is opened; a new one has the usual ones. -/
def mode : Target → Nat
  | .file _ mode _ => mode
  | _ => FileTree.fileMode

/-- What stays in front of the bytes that are written to a target: what a file holds, if they are added. -/
def held (append : Bool) : Target → Bytes
  | .file _ _ content => if append then content else []
  | _ => []

@[simp] theorem held_false (target : Target) : target.held false = [] := by
  cases target <;> rfl

end Target

namespace Disk

variable {disk : Disk} {path : Text} {p : Location}

/-- A well-formed tree with a working directory that stands in one of its directories. -/
structure WellFormed (disk : Disk) : Prop where
  tree : disk.tree.WellFormed
  standing : disk.tree.isDirectory disk.directory.location

/-- The location that a path names, with the entry there. -/
def place (disk : Disk) (path : Text) : Except Errno (Location × Option Entry) := do
  let parent ← disk.tree.resolveParent disk.directory path
  match parent.last with
  | .name n => disk.tree.lookupName parent.directory n
  | _ => throw .busy

/-- Whether a path asks for a directory by a slash at its end. -/
def asksForDirectory (path : Text) : Bool :=
  path.getLast? == some '/'

/-! ### What looking tells -/

theorem leadsToDirectory_iff :
    disk.leadsToDirectory path ↔ ∃ d, disk.resolve .look path = .ok (.directory d) := by
  simp only [leadsToDirectory, status, if_true]
  cases disk.resolve .look path with
  | error errno => simp
  | ok target => cases target <;> simp [Status.isDirectory]

theorem isLink_iff :
    disk.isLink path ↔ ∃ p target, disk.resolve .lookAtLink path = .ok (.link p target) := by
  simp only [isLink, status, Bool.false_eq_true, if_false]
  cases disk.resolve .lookAtLink path with
  | error errno => simp
  | ok target => cases target <;> simp

theorem resolve_ne_link {purpose : Purpose} (hpurpose : purpose ≠ .lookAtLink) (target : Text) :
    disk.resolve purpose path ≠ .ok (.link p target) := by
  unfold resolve FileTree.resolve
  split
  · simp
  · split
    · simp
    · exact walk_ne_link hpurpose _ _ _ _ _ _

theorem isPresent_iff :
    disk.isPresent path ↔ (∃ d, disk.resolve .look path = .ok (.directory d)) ∨
      ∃ p mode content, disk.resolve .look path = .ok (.file p mode content) := by
  simp only [isPresent, status, if_true]
  cases hresolve : disk.resolve .look path with
  | error errno => simp [Except.isOk, Except.toBool]
  | ok target =>
    cases target with
    | link p target => exact absurd hresolve (resolve_ne_link (by decide) target)
    | _ => simp [Except.isOk, Except.toBool]

theorem isPresent_of_leads (h : disk.leadsToDirectory path) : disk.isPresent path :=
  isPresent_iff.2 (.inl (leadsToDirectory_iff.1 h))

/-! ### Places -/

/-- A path with a place leads to what its directory has under its name. -/
theorem exists_walk_of_place {entry : Option Entry} (hplace : disk.place path = .ok (p, entry)) :
    ∃ links parent n, disk.tree.resolveParent disk.directory path = .ok parent ∧
      parent.last = .name n ∧ parent.slash = asksForDirectory path ∧ IsName n ∧
        disk.tree.lookupName parent.directory n = .ok (p, entry) ∧
          ∀ purpose, disk.resolve purpose path =
            disk.tree.walk purpose links parent.directory [n] (asksForDirectory path) := by
  rcases disk.tree.resolve_cases disk.directory path with ⟨errno, hparent, -⟩ |
    ⟨parent, -, hparent, hlast, -⟩ | ⟨parent, links, n, hparent, hlast, hn, hresolve⟩
  · simp [place, hparent] at hplace
  · obtain ⟨d, last, slash⟩ := parent
    cases last with
    | name n => exact absurd rfl (hlast n)
    | _ => simp [place, hparent] at hplace
  · have hslash := (resolveParent_ok hparent).1
    refine ⟨links, parent, n, hparent, hlast, hslash, hn, ?_, fun purpose => ?_⟩
    · simpa [place, hparent, hlast] using hplace
    · rw [asksForDirectory, ← hslash]
      exact hresolve purpose

/-- A place holds what the tree has at its location. -/
theorem lookup_of_place {entry : Option Entry} (h : disk.place path = .ok (p, entry)) :
    disk.tree.lookup p = entry := by
  obtain ⟨_, _, _, _, _, _, _, hlookup, _⟩ := exists_walk_of_place h
  exact (lookupName_ok_iff.1 hlookup).2.2.2.symm

/-- A place lies in a directory, and what it holds is an entry of the tree. -/
theorem place_spec (h : disk.WellFormed) {entry : Option Entry}
    (hplace : disk.place path = .ok (p, entry)) :
    ∃ parent n, p = parent ++ [n] ∧ IsName n ∧ disk.tree.isDirectory parent ∧
      entry = disk.tree.lookup p := by
  obtain ⟨links, parent, n, hparent, -, -, hn, hlookup, -⟩ := exists_walk_of_place hplace
  obtain ⟨-, -, rfl, rfl⟩ := lookupName_ok_iff.1 hlookup
  exact ⟨parent.directory.location, n, rfl, hn,
    (resolveParent_ok hparent).2 h.tree.closed h.standing, rfl⟩

theorem isDirectory_iff_of_place {e : Entry} (h : disk.place path = .ok (p, some e)) :
    disk.tree.isDirectory p ↔ ∃ mode, e = .directory mode := by
  obtain ⟨_, parent, n, _, _, _, _, hlookup, _⟩ := exists_walk_of_place h
  obtain ⟨-, -, rfl, he⟩ := lookupName_ok_iff.1 hlookup
  rw [isDirectory_iff_lookup _ (by simp), ← he]
  simp

section

variable {purpose : Purpose} (hpurpose : purpose ≠ .write)

include hpurpose

theorem resolve_of_place_none (hplace : disk.place path = .ok (p, none)) :
    disk.resolve purpose path =
      if asksForDirectory path then .error .noEntry else .ok (.absent p) := by
  obtain ⟨links, parent, n, -, -, -, hn, hlookup, hresolve⟩ := exists_walk_of_place hplace
  rw [hresolve, walk_name _ _ _ _ hn, hlookup]
  simp [hpurpose]

theorem resolve_of_place_directory {mode : Nat}
    (hplace : disk.place path = .ok (p, some (.directory mode))) :
    disk.resolve purpose path = .ok (.directory (.live p)) := by
  obtain ⟨links, parent, n, -, -, -, hn, hlookup, hresolve⟩ := exists_walk_of_place hplace
  rw [hresolve, walk_name _ _ _ _ hn, hlookup]
  simp [hpurpose]

theorem resolve_of_place_file {mode : Nat} {content : Bytes}
    (hplace : disk.place path = .ok (p, some (.file mode content))) :
    disk.resolve purpose path =
      if asksForDirectory path then .error .notDirectory else .ok (.file p mode content) := by
  obtain ⟨links, parent, n, -, -, -, hn, hlookup, hresolve⟩ := exists_walk_of_place hplace
  rw [hresolve, walk_name _ _ _ _ hn, hlookup]
  simp [hpurpose]

end

/-- A link at its place is led to if it is looked at itself. -/
theorem resolve_of_place_link {target : Text} (hplace : disk.place path = .ok (p, some (.link target)))
    (hslash : asksForDirectory path = false) :
    disk.resolve .lookAtLink path = .ok (.link p target) := by
  obtain ⟨links, parent, n, -, -, -, hn, hlookup, hresolve⟩ := exists_walk_of_place hplace
  rw [hresolve, walk_name _ _ _ _ hn, hlookup]
  simp [hslash]

/-- The status of the entry at the place of a path, where a link is not followed. -/
theorem status_of_place {e : Entry} (hplace : disk.place path = .ok (p, some e))
    (hslash : asksForDirectory path = false) :
    disk.status path false = .ok (match e with
      | .file mode content => .file mode content.length
      | .directory mode => .directory mode
      | .link _ => .link) := by
  cases e with
  | file mode content =>
    simp [status, resolve_of_place_file Purpose.lookAtLink_ne_write hplace, hslash]
  | directory mode =>
    obtain ⟨_, parent, n, _, _, _, _, hlookup, _⟩ := exists_walk_of_place hplace
    obtain ⟨-, -, rfl, he⟩ := lookupName_ok_iff.1 hlookup
    simp [status, resolve_of_place_directory Purpose.lookAtLink_ne_write hplace, directoryMode,
      Standpoint.live, entry?_append_name, ← he]
  | link target => simp [status, resolve_of_place_link hplace hslash]

/-- A path without a place leads to the same directory for all purposes, or nowhere. -/
theorem resolve_of_place_error {errno : Errno} (hplace : disk.place path = .error errno) :
    (∃ d, ∀ purpose, disk.resolve purpose path = .ok (.directory d)) ∨
      ∀ purpose, ∃ errno, disk.resolve purpose path = .error errno := by
  rcases disk.tree.resolve_cases disk.directory path with ⟨errno, -, hresolve⟩ |
    ⟨-, d, -, -, hresolve⟩ | ⟨parent, links, n, hparent, hlast, hn, hresolve⟩
  · exact .inr fun purpose => ⟨errno, hresolve purpose⟩
  · exact .inl ⟨d, hresolve⟩
  · refine .inr fun purpose => ?_
    have hlookup : disk.tree.lookupName parent.directory n = .error errno := by
      simpa [place, hparent, hlast] using hplace
    rw [resolve, hresolve, walk_name _ _ _ _ hn, hlookup]
    by_cases hwrite : parent.slash && purpose = .write
    · exact ⟨_, if_pos hwrite⟩
    · exact ⟨_, if_neg hwrite⟩

/-- A path that has no place and leads nowhere. -/
structure IsNowhere (disk : Disk) (path : Text) : Prop where
  place : ∃ errno, disk.place path = .error errno
  resolve : ∀ purpose, ∃ errno, disk.resolve purpose path = .error errno

namespace IsNowhere

variable (h : disk.IsNowhere path)

include h

theorem place_ne_ok {entry : Option Entry} : disk.place path ≠ .ok (p, entry) := by
  obtain ⟨errno, herror⟩ := h.place
  simp [herror]

theorem resolve_ne_ok {purpose : Purpose} {target : Target} : disk.resolve purpose path ≠ .ok target := by
  obtain ⟨errno, herror⟩ := h.resolve purpose
  simp [herror]

theorem not_leads : ¬ disk.leadsToDirectory path := by
  rw [leadsToDirectory_iff]
  rintro ⟨d, hd⟩
  exact h.resolve_ne_ok hd

end IsNowhere

/-- A path is nowhere if it goes on behind a beginning that leads to no directory. -/
theorem isNowhere_of_head {head : Text} {rest : List Text} (hhead : head ≠ []) (hbegins : head <+: path)
    (hcomponents : SplitPath.splitComponents path = SplitPath.splitComponents head ++ rest)
    (hrest : rest ≠ []) (hnowhere : ¬ disk.leadsToDirectory head) : disk.IsNowhere path := by
  have hno : ∀ d, disk.resolve .look head ≠ .ok (.directory d) :=
    fun d hd => hnowhere (leadsToDirectory_iff.2 ⟨d, hd⟩)
  obtain ⟨errno, herror⟩ := resolveParent_error_of_head hhead hbegins hcomponents hrest hno
  refine ⟨⟨errno, by simp [place, herror]⟩, fun purpose => ?_⟩
  rcases disk.tree.resolve_cases disk.directory path with ⟨errno', -, hresolve⟩ |
    ⟨parent, -, hparent, -⟩ | ⟨parent, -, -, hparent, -⟩
  · exact ⟨errno', hresolve purpose⟩
  · exact nomatch herror.symm.trans hparent
  · exact nomatch herror.symm.trans hparent

/-! ### Kinds of places -/

/-- A path is a link by itself exactly if its place holds one and no slash follows. -/
theorem isLink_iff_place :
    disk.isLink path ↔ asksForDirectory path = false ∧
      ∃ p target, disk.place path = .ok (p, some (.link target)) := by
  rw [isLink_iff]
  cases hplace : disk.place path with
  | error errno =>
    rcases resolve_of_place_error hplace with ⟨d, hresolve⟩ | hnowhere
    · simp [hresolve]
    · obtain ⟨errno', hresolve⟩ := hnowhere .lookAtLink
      simp [hresolve]
  | ok found =>
    obtain ⟨p, entry⟩ := found
    cases entry with
    | none =>
      rw [resolve_of_place_none (by decide) hplace]
      split <;> simp
    | some e =>
      cases e with
      | directory mode => simp [resolve_of_place_directory Purpose.lookAtLink_ne_write hplace]
      | file mode content =>
        rw [resolve_of_place_file (by decide) hplace]
        split <;> simp
      | link target =>
        cases hslash : asksForDirectory path with
        | false => simp [resolve_of_place_link hplace hslash]
        | true =>
          obtain ⟨links, parent, n, -, -, -, -, -, hresolve⟩ := exists_walk_of_place hplace
          rw [hresolve, hslash, walk_slash _ (by decide)]
          cases disk.tree.lead links parent.directory [n] <;> simp

/-- A path that leads to a file without being a link has the file at its place. -/
theorem place_of_resolve_file {q : Location} {mode : Nat} {content : Bytes}
    (hresolve : disk.resolve .look path = .ok (.file q mode content)) (hlink : ¬ disk.isLink path) :
    disk.place path = .ok (q, some (.file mode content)) ∧ asksForDirectory path = false := by
  cases hplace : disk.place path with
  | error errno =>
    rcases resolve_of_place_error hplace with ⟨d, hdirectory⟩ | hnowhere
    · simp [hdirectory] at hresolve
    · obtain ⟨errno', herror⟩ := hnowhere .look
      simp [herror] at hresolve
  | ok found =>
    obtain ⟨p, entry⟩ := found
    cases entry with
    | none =>
      rw [resolve_of_place_none (by decide) hplace] at hresolve
      split at hresolve <;> simp at hresolve
    | some e =>
      cases e with
      | directory mode' =>
        simp [resolve_of_place_directory Purpose.look_ne_write hplace] at hresolve
      | file mode' content' =>
        rw [resolve_of_place_file (by decide) hplace] at hresolve
        split at hresolve <;> simp_all
      | link target =>
        cases hslash : asksForDirectory path with
        | false => exact absurd (isLink_iff_place.2 ⟨hslash, p, target, hplace⟩) hlink
        | true =>
          obtain ⟨links, parent, n, -, -, -, -, -, hwalk⟩ := exists_walk_of_place hplace
          rw [hwalk, hslash, walk_slash _ (by decide)] at hresolve
          cases hlead : disk.tree.lead links parent.directory [n] <;> simp [hlead] at hresolve

/-! ### Calls at places -/

theorem place_eq_ok_iff {result : Location × Option Entry} :
    disk.place path = .ok result ↔ ∃ parent n, disk.tree.resolveParent disk.directory path = .ok parent ∧
      parent.last = .name n ∧ disk.tree.lookupName parent.directory n = .ok result := by
  unfold place
  cases disk.tree.resolveParent disk.directory path with
  | error errno => simp
  | ok parent => cases hlast : parent.last <;> simp [hlast]

/-- The names that are listed are names. -/
theorem name_of_listNames (h : disk.WellFormed) {names : List Text} (hnames : disk.listNames path = .ok names)
    {n : Text} (hn : n ∈ names) : IsName n := by
  obtain ⟨target, -, htarget⟩ := Outcome.bind_eq_ok_iff.1 hnames
  cases target with
  | directory d =>
    simp only at htarget
    split at htarget
    · exact nomatch htarget
    · rw [← Except.ok.inj htarget] at hn
      exact h.tree.name_of_mem_children hn
  | _ => simp at htarget

/-- A directory is made at a free place. -/
theorem makeDirectory_ok_iff {disk' : Disk} :
    disk.makeDirectory path = .ok disk' ↔ ∃ p, disk.place path = .ok (p, none) ∧
      disk' = { disk with tree := disk.tree.put p (.directory FileTree.directoryMode) } := by
  unfold makeDirectory place
  cases disk.tree.resolveParent disk.directory path with
  | error errno => simp
  | ok parent =>
    cases hlast : parent.last with
    | name n =>
      cases hlookup : disk.tree.lookupName parent.directory n with
      | error errno => simp [hlast, hlookup]
      | ok found =>
        obtain ⟨p, entry⟩ := found
        cases entry <;> simp [hlast, hlookup, eq_comm]
    | _ => simp [hlast]

/-- A link is made at a free place that is not asked to be a directory. -/
theorem makeLink_ok {target : Text} {disk' : Disk} (h : disk.makeLink target path = .ok disk') :
    ∃ p, disk.place path = .ok (p, none) ∧ asksForDirectory path = false ∧
      disk' = { disk with tree := disk.tree.put p (.link target) } := by
  unfold makeLink at h
  by_cases hempty : target.isEmpty
  · simp [hempty] at h
  by_cases hlong : pathLimit < (Utf8.encode target).length
  · simp [hempty, hlong] at h
  simp only [hempty, hlong, if_false, Bool.false_eq_true] at h
  obtain ⟨parent, hparent, h⟩ := Outcome.bind_eq_ok_iff.1 h
  split at h
  · next n hlast =>
    obtain ⟨⟨p, entry⟩, hlookup, h⟩ := Outcome.bind_eq_ok_iff.1 h
    cases entry with
    | some e => simp at h
    | none =>
      have hslash := (resolveParent_ok hparent).1
      refine ⟨p, place_eq_ok_iff.2 ⟨parent, n, hparent, hlast, hlookup⟩, ?_⟩
      rw [asksForDirectory, ← hslash]
      cases hasks : parent.slash <;> simp_all
  · simp at h

theorem makeLink_of_place_none {target : Text} (hplace : disk.place path = .ok (p, none))
    (hslash : asksForDirectory path = false) (hne : target ≠ [])
    (hshort : (Utf8.encode target).length ≤ pathLimit) :
    disk.makeLink target path = .ok { disk with tree := disk.tree.put p (.link target) } := by
  obtain ⟨parent, n, hparent, hlast, hlookup⟩ := place_eq_ok_iff.1 hplace
  have hparentSlash : parent.slash = false := (resolveParent_ok hparent).1.trans hslash
  have hempty : target.isEmpty = false := by simpa using hne
  simp [makeLink, hempty, Nat.not_lt.2 hshort, hparent, hlast, hlookup, hparentSlash]

/-- Bytes are written to the file that a path leads to, or to a new one. -/
theorem writeBytes_ok_iff {bytes : Bytes} {append : Bool} {disk' : Disk} :
    disk.writeBytes path bytes append = .ok disk' ↔
      ∃ target p, disk.resolve .write path = .ok target ∧ target.opened? = some p ∧
        disk' = { disk with
          tree := disk.tree.put p (.file target.mode (target.held append ++ bytes)) } := by
  unfold writeBytes
  cases hresolve : disk.resolve .write path with
  | error errno => simp
  | ok target => cases target <;> cases append <;> simp [Target.opened?, Target.mode, Target.held, eq_comm]

/-- Permission bits are set at the location of a file or a directory, if at all. -/
theorem setMode_ok {mode : Nat} {disk' : Disk} (h : disk.setMode path mode = .ok disk') :
    disk' = disk ∨
      (∃ p mode' content, disk.resolve .look path = .ok (.file p mode' content) ∧
        disk' = { disk with tree := disk.tree.put p (.file mode content) }) ∨
      ∃ d, disk.resolve .look path = .ok (.directory d) ∧ d.location ≠ [] ∧
        disk' = { disk with tree := disk.tree.put d.location (.directory mode) } := by
  obtain ⟨target, hresolve, h⟩ := Outcome.bind_eq_ok_iff.1 h
  cases target with
  | file p mode' content => exact .inr (.inl ⟨p, mode', content, hresolve, by simpa using h.symm⟩)
  | directory d =>
    simp only at h
    split at h
    · exact .inl (by simpa using h.symm)
    · next hroot =>
      exact .inr (.inr ⟨d, hresolve, fun hnil => hroot (.inr hnil), by simpa using h.symm⟩)
  | _ => simp at h

/-- A file or a link is removed at its place, by a path that does not ask for a directory. -/
theorem unlink_ok_iff {disk' : Disk} :
    disk.unlink path = .ok disk' ↔ ∃ p e, disk.place path = .ok (p, some e) ∧
      (∀ mode, e ≠ .directory mode) ∧ asksForDirectory path = false ∧
        disk' = { disk with tree := disk.tree.erase p } := by
  unfold unlink place
  cases hparent : disk.tree.resolveParent disk.directory path with
  | error errno => simp
  | ok parent =>
    have hslash := (resolveParent_ok hparent).1
    rw [← asksForDirectory] at hslash
    cases hlast : parent.last with
    | name n =>
      cases hlookup : disk.tree.lookupName parent.directory n with
      | error errno => simp [hlast, hlookup]
      | ok found =>
        obtain ⟨p, entry⟩ := found
        cases entry with
        | none => simp [hlast, hlookup]
        | some e =>
          cases e with
          | directory mode => simp [hlast, hlookup]
          | _ =>
            cases hasks : asksForDirectory path with
            | true => simp [hlast, hlookup, hslash, hasks]
            | false =>
              simp [hlast, hlookup, hslash, hasks]
              exact eq_comm
    | _ => simp [hlast]

/-- A directory without entries is removed at its place. -/
theorem removeDirectory_ok_iff {disk' : Disk} :
    disk.removeDirectory path = .ok disk' ↔ ∃ p mode, disk.place path = .ok (p, some (.directory mode)) ∧
      disk.tree.children p = [] ∧ disk' = disk.dropDirectory p := by
  unfold removeDirectory place
  cases disk.tree.resolveParent disk.directory path with
  | error errno => simp
  | ok parent =>
    cases hlast : parent.last with
    | name n =>
      cases hlookup : disk.tree.lookupName parent.directory n with
      | error errno => simp [hlast, hlookup]
      | ok found =>
        obtain ⟨p, entry⟩ := found
        cases entry with
        | none => simp [hlast, hlookup]
        | some e =>
          cases e with
          | directory mode =>
            by_cases hchildren : disk.tree.children p = []
            · simp [hlast, hlookup, hchildren]
              exact eq_comm
            · simp [hlast, hlookup, hchildren]
          | _ => simp [hlast, hlookup]
    | _ => simp [hlast]

end Disk

end Primitives
