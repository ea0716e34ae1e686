import Primitives.Proofs.Files.Invariant
import Primitives.Proofs.Files.Listings

/-!
# Outlines of trees

Resolution sees of an entry only what kind it is and, of a link, where it leads. So a path that leads to
something in a tree leads to the same in every tree that holds these entries in outline, whatever else it
holds and whatever the bytes and permission bits are. A path that was opened for writing leads to the file
that is at its location later on.

The calls of a copy remove nothing and change no kind, so that the paths that lead somewhere on the way
still do so in the end.

## Main definitions

* `Entry.outline`: what resolution sees of an entry.
* `FileTree.Within`, `Disk.Within`: trees and disks that are held in outline by others.
* `Host.Extends`: a host that holds another one in outline.

## Main results

* `FileTree.Within.walk`: what a path leads to in a tree that holds another one in outline.
* `Disk.resolve_put_opened`: what a path leads to when a file was put where it could be opened.
* `Request.extends_respectedByCopies`: a copy extends the host.
-/

namespace Primitives

open FileTree PathText

/-- An entry without its bytes and permission bits. -/
def Entry.outline : Entry → Entry
  | .file _ _ => .file 0 []
  | .directory _ => .directory 0
  | .link target => .link target

namespace Entry

variable {e e' : Entry}

theorem outline_eq_directory_iff : e.outline = .directory 0 ↔ ∃ mode, e = .directory mode := by
  cases e <;> simp [outline]

theorem outline_eq_file_iff : e.outline = .file 0 [] ↔ ∃ mode content, e = .file mode content := by
  cases e <;> simp [outline]

theorem outline_eq_link_iff {target : Text} : e.outline = .link target ↔ e = .link target := by
  cases e <;> simp [outline]

end Entry

/-! ### Trees in outline -/

/-- Every entry of the tree is one of the other tree in outline. -/
def FileTree.Within (t u : FileTree) : Prop :=
  ∀ p e, t.lookup p = some e → ∃ e', u.lookup p = some e' ∧ e'.outline = e.outline

/-- What a target is in another tree, where a location that can be opened has a file. -/
inductive Target.Becomes (u : FileTree) : Target → Target → Prop
  | directory (d : Standpoint) : Becomes u (.directory d) (.directory d)
  | link (p : Location) (target : Text) : Becomes u (.link p target) (.link p target)
  | opened {target : Target} {p : Location} {mode : Nat} {content : Bytes}
      (hopened : target.opened? = some p) (hfile : u.lookup p = some (.file mode content)) :
      Becomes u target (.file p mode content)

namespace FileTree

variable {t u v : FileTree} {p : Location} {e e' : Entry} {purpose : Purpose} {links : Nat}
  {d : Standpoint} {components : List Text} {slash : Bool} {target target' : Target}

namespace Within

theorem refl (t : FileTree) : t.Within t :=
  fun _ e h => ⟨e, h, rfl⟩

theorem trans (h : t.Within u) (h' : u.Within v) : t.Within v := by
  intro p e hp
  obtain ⟨e', hp', heq⟩ := h p e hp
  obtain ⟨e'', hp'', heq'⟩ := h' p e' hp'
  exact ⟨e'', hp'', heq'.trans heq⟩

/-- An entry is put where nothing is, or in the place of one of its kind. -/
theorem put (h : ∀ old, t.lookup p = some old → e.outline = old.outline) : t.Within (t.put p e) := by
  intro q x hq
  rw [lookup_put]
  by_cases hsame : q = p
  · subst hsame
    exact ⟨e, if_pos rfl, h x hq⟩
  · exact ⟨x, by rw [if_neg hsame, hq], rfl⟩

/-- An entry is put into a larger tree, which holds one of its kind. -/
theorem put_right (h : t.Within u) (hp : u.lookup p = some e') (he : e.outline = e'.outline) :
    t.Within (u.put p e) :=
  h.trans (put fun old hold => by rw [he, Option.some.inj (hp.symm.trans hold)])

/-- An entry is put into a smaller tree, where the other one holds one of its kind. -/
theorem put_left (h : t.Within u) (hp : u.lookup p = some e') (he : e.outline = e'.outline) :
    (t.put p e).Within u := by
  intro q x hq
  rw [lookup_put] at hq
  split at hq
  · next hsame =>
    subst hsame
    exact ⟨e', hp, by rw [← Option.some.inj hq, he]⟩
  · exact h q x hq

theorem entry? (h : t.Within u) {q : Location} (hq : t.entry? q = some e) :
    ∃ e', u.entry? q = some e' ∧ e'.outline = e.outline := by
  by_cases hroot : q = []
  · subst hroot
    exact ⟨e, hq, rfl⟩
  · rw [entry?_of_ne hroot] at hq ⊢
    exact h q e hq

theorem isSome_lookup (h : t.Within u) (hp : (t.lookup p).isSome) : (u.lookup p).isSome := by
  obtain ⟨e, he⟩ := Option.isSome_iff_exists.1 hp
  obtain ⟨e', he', -⟩ := h p e he
  exact Option.isSome_of_eq_some he'

theorem lookup_link (h : t.Within u) {link : Text} (hp : t.lookup p = some (.link link)) :
    u.lookup p = some (.link link) := by
  obtain ⟨e', he', houtline⟩ := h p _ hp
  rwa [Entry.outline_eq_link_iff.1 houtline] at he'

/-- A path leads to the same in a tree that holds the other one in outline. -/
theorem walk (h : t.Within u) (hwalk : t.walk purpose links d components slash = .ok target)
    (hbecomes : target.Becomes u target') :
    u.walk purpose links d components slash = .ok target' := by
  revert hwalk
  fun_induction FileTree.walk t purpose links d components slash
  case case1 d slash =>
    intro hwalk
    obtain rfl : Target.directory d = target := Except.ok.inj hwalk
    cases hbecomes with
    | directory => rw [FileTree.walk]
    | opened hopened => cases hopened
  case case2 ih =>
    rw [FileTree.walk]
    simpa using ih
  case case3 ih =>
    rw [FileTree.walk]
    simpa using ih
  case case7 d slash name rest last p hdot hdots hwrite hremoved hlong hentry hlast =>
    intro hwalk
    obtain rfl : Target.absent p = target := Except.ok.inj hwalk
    cases hbecomes with
    | opened hopened hfile =>
      obtain rfl := Option.some.inj hopened
      have hend : (rest.isEmpty && !slash) = true := hlast
      have hstep := (entry?_append_name u d.location name).trans hfile
      rw [FileTree.walk]
      simp [hdot, hdots, hwrite, hremoved, hlong, hstep, hend, last, p]
  case case9 d slash name rest last p hdot hdots hwrite hremoved hlong mode hentry ih =>
    intro hwalk
    obtain ⟨e', hstep, houtline⟩ := h.entry? hentry
    obtain ⟨mode', rfl⟩ := Entry.outline_eq_directory_iff.1 houtline
    rw [FileTree.walk]
    simpa [hdot, hdots, hwrite, hremoved, hlong, hstep, last, p] using ih hwalk
  case case10 d slash name rest last p hdot hdots hwrite hremoved hlong mode content hentry hlast =>
    intro hwalk
    obtain rfl : Target.file p mode content = target := Except.ok.inj hwalk
    cases hbecomes with
    | opened hopened hfile =>
      obtain rfl := Option.some.inj hopened
      have hend : (rest.isEmpty && !slash) = true := hlast
      have hstep := (entry?_append_name u d.location name).trans hfile
      rw [FileTree.walk]
      simp [hdot, hdots, hwrite, hremoved, hlong, hstep, hend, last, p]
  case case12 d slash name rest last p hdot hdots hwrite hremoved hlong other hentry hlast =>
    intro hwalk
    obtain rfl : Target.link p other = target := Except.ok.inj hwalk
    cases hbecomes with
    | opened hopened => cases hopened
    | link =>
      obtain ⟨e', hstep, houtline⟩ := h.entry? hentry
      obtain rfl := Entry.outline_eq_link_iff.1 houtline
      have hend : (rest = [] ∧ slash = false) ∧ purpose = .lookAtLink := by simpa [last] using hlast
      rw [FileTree.walk]
      simp [hdot, hdots, hremoved, hlong, hstep, hend, p]
  case case14 d slash name rest last p hdot hdots hwrite hremoved hlong other hentry hlast links path ih =>
    intro hwalk
    obtain ⟨e', hstep, houtline⟩ := h.entry? hentry
    obtain rfl := Entry.outline_eq_link_iff.1 houtline
    rw [FileTree.walk]
    simpa [hdot, hdots, hwrite, hremoved, hlong, hstep, hlast, last, p] using ih hwalk
  all_goals
    rintro ⟨⟩

/-- Components lead to the same directory in a tree that holds the other one in outline. -/
theorem lead (h : t.Within u) {d' : Standpoint}
    (hlead : ∃ links', t.lead links d components = .ok (d', links')) :
    ∃ links', u.lead links d components = .ok (d', links') := by
  obtain ⟨links', hlead⟩ := hlead
  have hwalk := walk_slash t Purpose.look_ne_write links d components
  rw [hlead] at hwalk
  have hwalk' := h.walk hwalk (.directory d')
  rw [walk_slash _ Purpose.look_ne_write] at hwalk'
  cases hlead' : u.lead links d components with
  | error errno => simp [hlead'] at hwalk'
  | ok found =>
    obtain ⟨d'', links''⟩ := found
    obtain rfl : d'' = d' := by simpa [hlead'] using hwalk'
    exact ⟨links'', rfl⟩

end Within

/-! ### Locations that are opened -/

/-- A location that is opened is that of a name, and holds what the target tells of it. -/
theorem entry?_of_opened (h : t.walk purpose links d components slash = .ok target)
    (hopened : target.opened? = some p) :
    p ≠ [] ∧ ((target = .absent p ∧ t.lookup p = none) ∨
      ∃ mode content, target = .file p mode content ∧ t.lookup p = some (.file mode content)) := by
  revert h
  fun_induction FileTree.walk t purpose links d components slash
  case case2 ih => exact ih
  case case3 ih => exact ih
  case case7 p' _ _ _ _ _ hentry _ =>
    intro h
    obtain rfl : Target.absent p' = target := Except.ok.inj h
    obtain rfl : p' = p := Option.some.inj hopened
    exact ⟨by simp [p'], .inl ⟨rfl, by rwa [entry?_append_name] at hentry⟩⟩
  case case9 ih => exact ih
  case case10 p' _ _ _ _ _ mode content hentry _ =>
    intro h
    obtain rfl : Target.file p' mode content = target := Except.ok.inj h
    obtain rfl : p' = p := Option.some.inj hopened
    exact ⟨by simp [p'], .inr ⟨mode, content, rfl, by rwa [entry?_append_name] at hentry⟩⟩
  case case14 ih => exact ih
  all_goals
    rintro ⟨⟩
    try cases hopened

/-- A path that can be opened for writing leads to the same when it is looked at. -/
theorem walk_look_of_write (h : t.walk .write links d components slash = .ok target) :
    t.walk .look links d components slash = .ok target := by
  revert h
  fun_induction FileTree.walk t .write links d components slash
  case case1 =>
    rw [FileTree.walk]
    exact id
  case case2 ih =>
    rw [FileTree.walk]
    simpa using ih
  case case3 ih =>
    rw [FileTree.walk]
    simpa using ih
  case case7 p hdot hdots hwrite hremoved hlong hentry hlast =>
    have hend : (List.isEmpty _ && !_) = true := hlast
    rw [FileTree.walk]
    simp [hdot, hdots, hremoved, hlong, hentry, hend, p]
  case case9 p hdot hdots hwrite hremoved hlong mode hentry ih =>
    rw [FileTree.walk]
    simpa [hdot, hdots, hremoved, hlong, hentry, p] using ih
  case case10 p hdot hdots hwrite hremoved hlong mode content hentry hlast =>
    have hend : (List.isEmpty _ && !_) = true := hlast
    rw [FileTree.walk]
    simp [hdot, hdots, hremoved, hlong, hentry, hend, p]
  case case12 hlast => simp at hlast
  case case14 p hdot hdots hwrite hremoved hlong link hentry hlast links path ih =>
    rw [FileTree.walk]
    simpa [hdot, hdots, hremoved, hlong, hentry, p] using ih
  all_goals
    rintro ⟨⟩

end FileTree

/-! ### Disks in outline -/

/-- A disk that works in the same directory and holds another one in outline. -/
structure Disk.Within (a b : Disk) : Prop where
  directory : b.directory = a.directory
  tree : a.tree.Within b.tree

namespace Disk

variable {a b c : Disk} {path : Text} {p : Location} {e : Entry} {purpose : Purpose} {target target' : Target}

/-- What can be opened holds a file or nothing. -/
theorem lookup_of_opened (h : a.resolve purpose path = .ok target) (hopened : target.opened? = some p) :
    (target = .absent p ∧ a.tree.lookup p = none) ∨
      ∃ mode content, target = .file p mode content ∧ a.tree.lookup p = some (.file mode content) := by
  unfold resolve FileTree.resolve at h
  split_ifs at h
  exact (entry?_of_opened h hopened).2

theorem lookup_of_resolve_file {mode : Nat} {content : Bytes}
    (h : a.resolve purpose path = .ok (.file p mode content)) :
    a.tree.lookup p = some (.file mode content) := by
  rcases lookup_of_opened h rfl with ⟨hne, -⟩ | ⟨mode', content', heq, hfile⟩
  · cases hne
  · cases heq
    exact hfile

theorem resolve_look_of_write (h : a.resolve .write path = .ok target) :
    a.resolve .look path = .ok target := by
  unfold resolve FileTree.resolve at h ⊢
  split_ifs at h ⊢
  exact walk_look_of_write h

namespace Within

theorem refl (a : Disk) : a.Within a :=
  ⟨rfl, .refl a.tree⟩

theorem trans (h : a.Within b) (h' : b.Within c) : a.Within c :=
  ⟨h'.directory.trans h.directory, h.tree.trans h'.tree⟩

/-- An entry is put where nothing is, or in the place of one of its kind. -/
theorem put (h : ∀ old, a.tree.lookup p = some old → e.outline = old.outline) :
    a.Within { a with tree := a.tree.put p e } :=
  ⟨rfl, .put h⟩

theorem put_of_opened {mode : Nat} {content : Bytes} (h : a.resolve purpose path = .ok target)
    (hopened : target.opened? = some p) :
    a.Within { a with tree := a.tree.put p (.file mode content) } := by
  refine put fun old hold => ?_
  rcases lookup_of_opened h hopened with ⟨-, hnone⟩ | ⟨mode', content', -, hfile⟩
  · exact nomatch hold.symm.trans hnone
  · rw [Option.some.inj (hold.symm.trans hfile)]
    rfl

/-- A path leads to the same on a disk that holds the other one in outline. -/
theorem resolve (h : a.Within b) (hresolve : a.resolve purpose path = .ok target)
    (hbecomes : target.Becomes b.tree target') : b.resolve purpose path = .ok target' := by
  unfold Disk.resolve FileTree.resolve at hresolve ⊢
  rw [h.directory]
  split_ifs at hresolve ⊢
  exact h.tree.walk hresolve hbecomes

theorem resolve_directory (h : a.Within b) {d : Standpoint}
    (hresolve : a.resolve purpose path = .ok (.directory d)) :
    b.resolve purpose path = .ok (.directory d) :=
  h.resolve hresolve (.directory d)

/-- A file that a path leads to may have changed, but is at the same location. -/
theorem resolve_file (h : a.Within b) {mode : Nat} {content : Bytes}
    (hresolve : a.resolve purpose path = .ok (.file p mode content)) :
    ∃ mode' content', b.resolve purpose path = .ok (.file p mode' content') := by
  obtain ⟨e', he', houtline⟩ := h.tree p _ (lookup_of_resolve_file hresolve)
  obtain ⟨mode', content', rfl⟩ := Entry.outline_eq_file_iff.1 houtline
  exact ⟨mode', content', h.resolve hresolve (.opened rfl he')⟩

theorem leadsToDirectory (h : a.Within b) (ha : a.leadsToDirectory path) : b.leadsToDirectory path := by
  obtain ⟨d, hd⟩ := leadsToDirectory_iff.1 ha
  exact leadsToDirectory_iff.2 ⟨d, h.resolve_directory hd⟩

theorem leadsTo (h : a.Within b) (ha : a.LeadsTo path p) : b.LeadsTo path p :=
  ⟨ha.nonempty, ha.short, h.directory ▸ h.tree.lead ha.leads⟩

/-- A path has the same place on a disk that holds the other one in outline. -/
theorem place (h : a.Within b) {entry : Option Entry} (hplace : a.place path = .ok (p, entry)) :
    b.place path = .ok (p, b.tree.lookup p) := by
  obtain ⟨parent, n, hparent, hlast, hlookup⟩ := place_eq_ok_iff.1 hplace
  obtain ⟨hne, hlength, hlead, hname, hslash⟩ := resolveParent_eq_ok_iff.1 hparent
  obtain ⟨hlive, hshort, hlocation, -⟩ := lookupName_ok_iff.1 hlookup
  refine place_eq_ok_iff.2 ⟨parent, n, ?_, hlast, lookupName_ok_iff.2 ⟨hlive, hshort, hlocation, rfl⟩⟩
  exact resolveParent_eq_ok_iff.2 ⟨hne, hlength, h.directory ▸ h.tree.lead hlead, hname, hslash⟩

end Within

/-- A path that can be opened leads to the file that was put there. -/
theorem resolve_put_opened (h : a.resolve purpose path = .ok target) (hopened : target.opened? = some p)
    (mode : Nat) (content : Bytes) :
    Disk.resolve { a with tree := a.tree.put p (.file mode content) } purpose path =
      .ok (.file p mode content) :=
  (Within.put_of_opened h hopened).resolve h (.opened hopened (by rw [lookup_put, if_pos rfl]))

end Disk

/-- A host on which a well-formed disk is still one and held in outline. -/
def Host.Extends (a b : Host) : Prop :=
  a.disk.WellFormed → b.disk.WellFormed ∧ a.disk.Within b.disk

/-- The calls of a copy extend the host. -/
theorem Request.extends_respectedByCopies : RespectedByCopies Host.Extends where
  refl host h := ⟨h, .refl host.disk⟩
  trans a b c hab hbc h := by
    obtain ⟨hb, hwithin⟩ := hab h
    obtain ⟨hc, hwithin'⟩ := hbc hb
    exact ⟨hc, hwithin.trans hwithin'⟩
  makeDirectory host path disk hcall h := by
    refine ⟨h.makeDirectory hcall, ?_⟩
    obtain ⟨p, hplace, rfl⟩ := Disk.makeDirectory_ok_iff.1 hcall
    exact .put fun old hold => nomatch hold.symm.trans (Disk.lookup_of_place hplace)
  makeLink host link path disk hcall h := by
    refine ⟨h.makeLink hcall, ?_⟩
    obtain ⟨p, hplace, -, rfl⟩ := Disk.makeLink_ok hcall
    exact .put fun old hold => nomatch hold.symm.trans (Disk.lookup_of_place hplace)
  writeBytes host path bytes append disk hcall h := by
    refine ⟨h.writeBytes hcall, ?_⟩
    obtain ⟨target, p, hresolve, hopened, rfl⟩ := Disk.writeBytes_ok_iff.1 hcall
    exact .put_of_opened hresolve hopened
  setMode host path mode disk hcall h := by
    refine ⟨h.setMode hcall, ?_⟩
    rcases Disk.setMode_ok hcall with rfl | ⟨p, mode', content, hresolve, rfl⟩ | ⟨d, hresolve, hroot, rfl⟩
    · exact .refl _
    · exact .put_of_opened hresolve rfl
    · refine .put fun old hold => ?_
      obtain ⟨mode', hmode⟩ := (isDirectory_iff_lookup _ hroot).1 (Disk.resolve_isIn h hresolve)
      rw [Option.some.inj (hold.symm.trans hmode)]
      rfl

end Primitives
