import Primitives.Proofs.Files.SecondCopies

/-!
# Targets of their own

A copy may change its own source: by a target that lies in it, by the directories that are made in front of
the target, and by links at the target that lead back to it. Here the first is excluded by the locations of
source and target, the second because each new directory lies in front of the target, and the third because
there are no links. Then the source is after the copy what it was before.

## Main definitions

* `Disk.Lands`: the location of a directory that is there or would be made.
* `Disk.MakesTowards`: a disk with further directories in front of a location.
* `Disk.Spares`: a disk with the same source and no links at the target.

## Main results

* `Request.makesTowards_makeDirectories`: what is made for a target.
* `Request.spares_copyTreeIn`: a copy to a target of its own spares the source.
-/

namespace Primitives

open FileTree PathText

/-! ### Places of directories -/

namespace Disk

variable {disk a b c : Disk} {path head tail : Text} {p q d d' e s x : Location} {n : Text} {target : Target}

theorem LeadsTo.unique (h : disk.LeadsTo path p) (h' : disk.LeadsTo path q) : p = q := by
  cases h.resolve.symm.trans h'.resolve
  rfl

/-- The place of a path lies in the directory that its head leads to. -/
theorem exists_leadsTo_of_place (hhead : IsHead head tail path) (hne : head ≠ []) (hname : IsName tail)
    {entry : Option Entry} (hplace : disk.place path = .ok (p, entry)) :
    ∃ y, disk.LeadsTo head y ∧ p = y ++ [tail] := by
  obtain ⟨⟨d, last, slash⟩, n, hparent, hlast, hlookup⟩ := place_eq_ok_iff.1 hplace
  obtain ⟨-, hlength, ⟨links, hlead⟩, hlastName, -⟩ := resolveParent_eq_ok_iff.1 hparent
  obtain ⟨hlive, -, rfl, -⟩ := lookupName_ok_iff.1 hlookup
  rw [hhead.components, List.dropLast_concat, start_of_beginning hne hhead.begins] at hlead
  rw [hhead.components, lastName_append, if_neg hname.2.2.1, if_neg hname.2.2.2] at hlastName
  cases hlast.symm.trans hlastName
  obtain ⟨y, removed⟩ := d
  obtain rfl : removed = 0 := hlive
  exact ⟨y, ⟨hne, (length_encode_le_of_beginning hhead.begins).trans hlength, links, hlead⟩, rfl⟩

/-- A path that ends with a name and leads somewhere has a place. -/
theorem exists_place_of_resolve (hhead : IsHead head tail path) (hname : IsName tail)
    (hresolve : disk.resolve .look path = .ok target) :
    ∃ p, disk.place path = .ok (p, disk.tree.lookup p) := by
  rcases disk.tree.resolve_cases disk.directory path with ⟨errno, -, herror⟩ | ⟨parent, d, hparent, hlast, -⟩ |
    ⟨parent, links, n, hparent, hlast, hn, hwalk⟩
  · cases (herror .look).symm.trans hresolve
  · obtain ⟨-, -, -, hlastName, -⟩ := resolveParent_eq_ok_iff.1 hparent
    rw [hhead.components, lastName_append, if_neg hname.2.2.1, if_neg hname.2.2.2] at hlastName
    exact absurd hlastName (hlast tail)
  · cases hlookup : disk.tree.lookupName parent.directory n with
    | error errno =>
      rw [resolve, hwalk, walk_name _ _ _ _ hn, hlookup] at hresolve
      split at hresolve <;> cases hresolve
    | ok found =>
      obtain ⟨p, entry⟩ := found
      obtain ⟨-, -, -, rfl⟩ := lookupName_ok_iff.1 hlookup
      exact ⟨p, place_eq_ok_iff.2 ⟨parent, n, hparent, hlast, hlookup⟩⟩

/-- A path that leads to a directory leads to its place, if no link is there. -/
theorem leadsTo_of_place_of_ne_link (hplace : disk.place path = .ok (p, disk.tree.lookup p))
    (hlinks : ∀ link, disk.tree.lookup p ≠ some (.link link)) (hleads : disk.leadsToDirectory path) :
    disk.LeadsTo path p := by
  obtain ⟨d, hd⟩ := leadsToDirectory_iff.1 hleads
  cases he : disk.tree.lookup p with
  | none =>
    rw [he] at hplace
    rw [resolve_of_place_none Purpose.look_ne_write hplace] at hd
    split at hd <;> cases hd
  | some e =>
    rw [he] at hplace
    cases e with
    | directory mode => exact leadsTo_of_place hplace
    | file mode content =>
      rw [resolve_of_place_file Purpose.look_ne_write hplace] at hd
      split at hd <;> cases hd
    | link link => exact absurd he (hlinks link)

/-- A path has a place that is not too long behind a directory, if it leads somewhere. -/
theorem LeadsTo.place_of_resolve (h : disk.LeadsTo path p) (hn : IsName n) {purpose : Purpose}
    (hresolve : disk.resolve purpose (joinTwo path n) = .ok target) :
    disk.place (joinTwo path n) = .ok (p ++ [n], disk.tree.lookup (p ++ [n])) := by
  obtain ⟨hshort, hlength⟩ := h.short_of_resolve hn hresolve
  exact h.place_joinTwo hn hshort hlength

/-- A file is opened at its place, if no link is there. -/
theorem eq_of_opened_of_place (hplace : disk.place path = .ok (p, disk.tree.lookup p))
    (hlinks : ∀ link, disk.tree.lookup p ≠ some (.link link))
    (hopens : disk.resolve .write path = .ok target) (hopened : target.opened? = some q) : q = p := by
  have hlook := resolve_look_of_write hopens
  cases he : disk.tree.lookup p with
  | none =>
    rw [he] at hplace
    rw [resolve_of_place_none Purpose.look_ne_write hplace] at hlook
    split at hlook
    · cases hlook
    · cases hlook
      exact (Option.some.inj hopened).symm
  | some e =>
    rw [he] at hplace
    cases e with
    | directory mode =>
      rw [resolve_of_place_directory Purpose.look_ne_write hplace] at hlook
      cases hlook
      cases hopened
    | file mode content =>
      rw [resolve_of_place_file Purpose.look_ne_write hplace] at hlook
      split at hlook
      · cases hlook
      · cases hlook
        exact (Option.some.inj hopened).symm
    | link link => exact absurd he (hlinks link)

/-! ### Places of directories that would be made -/

/-- The location of a directory that a path leads to, or that would be made for it: by its name, in a
directory that is there or would be made itself. -/
inductive Lands (disk : Disk) : Text → Location → Prop
  | leads {path : Text} {d : Location} (h : disk.LeadsTo path d) : Lands disk path d
  | place {path : Text} {d : Location} (h : disk.place path = .ok (d, none)) : Lands disk path d
  | behind {path : Text} {d : Location} (hmissing : Request.isHeadMissing disk path)
      (hname : IsName (Request.splitHead path).2) (h : Lands disk (Request.splitHead path).1 d) :
      Lands disk path (d ++ [(Request.splitHead path).2])

/-- A disk with further directories, which lie at a location and in front of it. -/
structure MakesTowards (d : Location) (a b : Disk) : Prop where
  within : a.Within b
  new : ∀ p, b.tree.lookup p = a.tree.lookup p ∨
    (a.tree.lookup p = none ∧ ∃ mode, b.tree.lookup p = some (.directory mode))
  others : ∀ s, ¬ s <+: d → b.tree.below s = a.tree.below s

namespace MakesTowards

theorem refl (d : Location) (a : Disk) : MakesTowards d a a :=
  ⟨.refl a, fun _ => .inl rfl, fun _ _ => rfl⟩

theorem trans (h : MakesTowards d a b) (h' : MakesTowards d b c) : MakesTowards d a c := by
  refine ⟨h.within.trans h'.within, fun p => ?_, fun s hs => (h'.others s hs).trans (h.others s hs)⟩
  rcases h'.new p with heq | ⟨hnone, hmade⟩
  · rw [heq]
    exact h.new p
  · refine .inr ⟨?_, hmade⟩
    rcases h.new p with heq | ⟨hnone', -⟩
    · exact heq.symm.trans hnone
    · exact hnone'

theorem mono (h : MakesTowards d a b) (hle : d <+: d') : MakesTowards d' a b :=
  ⟨h.within, h.new, fun s hs => h.others s fun hs' => hs (hs'.trans hle)⟩

theorem put (hnone : a.tree.lookup d = none) (mode : Nat) :
    MakesTowards d a { a with tree := a.tree.put d (.directory mode) } := by
  refine ⟨.put fun old hold => (by cases hold.symm.trans hnone), fun p => ?_,
    fun s hs => below_put_of_not_le hs _ _⟩
  rw [lookup_put]
  split
  · next heq => exact .inr ⟨heq ▸ hnone, mode, rfl⟩
  · exact .inl rfl

/-- No links are made. -/
theorem ne_link (h : MakesTowards d a b) (hlinks : ∀ link, a.tree.lookup p ≠ some (.link link)) (link : Text) :
    b.tree.lookup p ≠ some (.link link) := by
  rcases h.new p with heq | ⟨-, mode, hmode⟩
  · rw [heq]
    exact hlinks link
  · simp [hmode]

end MakesTowards

namespace Lands

/-- Nothing lies at and below the location of a directory that is missing. -/
theorem free (hdisk : disk.WellFormed) (h : disk.Lands path d) (hmissing : ¬ disk.isPresent path)
    (q : Location) : disk.tree.lookup (d ++ q) = none := by
  induction h generalizing q with
  | leads h => exact absurd (isPresent_iff.2 (.inl ⟨_, h.resolve⟩)) hmissing
  | place h =>
    obtain ⟨parent, n, rfl, -, -, hnone⟩ := place_spec hdisk h
    by_cases hq : q = []
    · simpa [hq] using hnone.symm
    · exact hdisk.tree.closed.lookup_below (not_isDirectory_of_none (by simp) hnone.symm) hq
  | behind hmissing' hname h ih =>
    rw [List.append_assoc]
    exact ih (Request.isHeadMissing_spec hmissing').2.2 _

/-- When further directories are made, a path that leads to a directory leads to its location. -/
theorem leadsTo (hdisk : a.WellFormed) (h : a.Lands path d) (hmade : MakesTowards e a b)
    (hleads : b.leadsToDirectory path) : b.LeadsTo path d := by
  induction h with
  | leads h => exact hmade.within.leadsTo h
  | place h =>
    refine leadsTo_of_place_of_ne_link (hmade.within.place h) (hmade.ne_link fun link => ?_) hleads
    simp [lookup_of_place h]
  | @behind path d hmissing hname h ih =>
    have hhead := Request.isHead_of_isHeadMissing hmissing
    obtain ⟨hne, -, hnowhere⟩ := Request.isHeadMissing_spec hmissing
    obtain ⟨x, hx⟩ := leadsToDirectory_iff.1 hleads
    obtain ⟨p, hplace⟩ := exists_place_of_resolve hhead hname hx
    obtain ⟨y, hy, rfl⟩ := exists_leadsTo_of_place hhead hne hname hplace
    obtain rfl := hy.unique (ih (leadsToDirectory_iff.2 ⟨_, hy.resolve⟩))
    refine leadsTo_of_place_of_ne_link hplace (hmade.ne_link fun link => ?_) hleads
    simp [h.free hdisk hnowhere]

end Lands

end Disk

namespace Request

variable {host host' : Host} {path : Text} {d : Location}

theorem makesTowards_makeLast (h : ∀ p, host.disk.place path = .ok (p, none) → p = d) :
    Disk.MakesTowards d host.disk ((makeLast true path).runOn host).2.disk := by
  rw [runOn_makeLast]
  cases houtcome : outcome [path] (·.makeDirectory path) host.disk with
  | error e => exact .refl d host.disk
  | ok disk =>
    obtain ⟨p, hplace, rfl⟩ := Disk.makeDirectory_ok_iff.1 (of_outcome_ok houtcome)
    obtain rfl := h p hplace
    exact .put (Disk.lookup_of_place hplace) _

/-- Directories are only made at the location of a path and in front of it. -/
theorem makesTowards_makeDirectories (hdisk : host.disk.WellFormed) (h : host.disk.Lands path d) :
    Disk.MakesTowards d host.disk ((makeDirectories true path).runOn host).2.disk := by
  induction h with
  | @leads path d h =>
    rw [runOn_makeDirectories, if_neg (not_isHeadMissing_of_resolve h.resolve)]
    refine makesTowards_makeLast fun p hplace => ?_
    have hd := h.resolve
    rw [Disk.resolve_of_place_none Purpose.look_ne_write hplace] at hd
    split at hd <;> cases hd
  | @place path d h =>
    rw [runOn_makeDirectories, if_neg (not_isHeadMissing_of_place h)]
    refine makesTowards_makeLast fun p hplace => ?_
    cases h.symm.trans hplace
    rfl
  | @behind path d hmissing hname h ih =>
    have hhead := isHead_of_isHeadMissing hmissing
    have hne := (isHeadMissing_spec hmissing).1
    have hle : d <+: d ++ [(splitHead path).2] := List.prefix_append d _
    have hfirst : ((makeHead (makeDirectories true (splitHead path).1)).runOn host).2 =
        ((makeDirectories true (splitHead path).1).runOn host).2 := by
      rw [makeHead, runOn_tryCatch]
      rcases (makeDirectories true (splitHead path).1).runOn host with ⟨e | _, mid⟩
      · dsimp only
        split <;> rfl
      · rfl
    rw [runOn_makeDirectories, if_pos hmissing, makeBehind, runOn_bind]
    rcases hrun : (makeHead (makeDirectories true (splitHead path).1)).runOn host with ⟨e | _, mid⟩
    · rw [← hfirst, hrun] at ih
      exact ih.mono hle
    · rw [← hfirst, hrun] at ih
      dsimp only
      rw [if_neg hname.2.2.1]
      refine (ih.mono hle).trans (makesTowards_makeLast fun p hplace => ?_)
      obtain ⟨y, hy, rfl⟩ := Disk.exists_leadsTo_of_place hhead hne hname hplace
      rw [hy.unique (h.leadsTo hdisk ih (Disk.leadsToDirectory_iff.2 ⟨_, hy.resolve⟩))]

/-- A directory that was made is at its location. -/
theorem leadsTo_of_makeDirectories (hdisk : host.disk.WellFormed) (h : host.disk.Lands path d)
    (hrun : (makeDirectories true path).runOn host = (.ok (), host')) : host'.disk.LeadsTo path d := by
  have hmade := makesTowards_makeDirectories hdisk h
  rw [hrun] at hmade
  refine h.leadsTo hdisk hmade ?_
  rw [runOn_makeDirectories] at hrun
  split at hrun
  · next hmissing =>
    have hname : (splitHead path).2 ≠ ['.'] := by
      cases h with
      | leads h => exact absurd hmissing (not_isHeadMissing_of_resolve h.resolve)
      | place h => exact absurd hmissing (not_isHeadMissing_of_place h)
      | behind _ hname _ => exact hname.2.2.1
    obtain ⟨_, mid, -, hrun⟩ := runOn_bind_ok_iff.1 hrun
    rw [if_neg hname] at hrun
    exact leads_of_makeLast hrun
  · exact leads_of_makeLast hrun

end Request

/-! ### Sources that are spared -/

namespace Disk

variable {a b c : Disk} {s d p : Location} {e : Entry}

/-- A disk with the same source at `s` and no links at `d`. -/
structure Spares (s d : Location) (a b : Disk) : Prop where
  source : b.tree.below s = a.tree.below s
  links : a.tree.NoLinkBelow d → b.tree.NoLinkBelow d

namespace Spares

theorem refl (s d : Location) (a : Disk) : Spares s d a a :=
  ⟨rfl, id⟩

theorem trans (h : Spares s d a b) (h' : Spares s d b c) : Spares s d a c :=
  ⟨h'.source.trans h.source, fun hlinks => h'.links (h.links hlinks)⟩

theorem noLinkBelow_source (h : Spares s d a b) (hlinks : a.tree.NoLinkBelow s) : b.tree.NoLinkBelow s := by
  intro p link hle
  rw [lookup_of_below h.source hle]
  exact hlinks p link hle

variable (hsd : ¬ s <+: d) (hds : ¬ d <+: s) (hle : d <+: p)

include hsd hds hle

/-- What is put at the target is no link and does not lie in the source. -/
theorem put (he : ∀ link, e ≠ .link link) : Spares s d a { a with tree := a.tree.put p e } := by
  refine ⟨below_put_of_not_le ?_ _ _, fun hlinks q link hq hlink => ?_⟩
  · obtain ⟨q, rfl⟩ := hle
    exact not_prefix_append hsd hds q
  · rw [lookup_put] at hlink
    split at hlink
    · exact he link (Option.some.inj hlink)
    · exact hlinks q link hq hlink

/-- Directories that are made for a path at the target do not lie in the source. -/
theorem of_makesTowards (h : MakesTowards p a b) : Spares s d a b := by
  refine ⟨h.others s ?_, fun hlinks q link hq => h.ne_link (fun link => hlinks q link hq) link⟩
  obtain ⟨q, rfl⟩ := hle
  exact not_prefix_append hsd hds q

end Spares

end Disk

namespace Request

variable {s s' d d' p : Location} {a a' : Host} {source target : Text} {depth mode : Nat} {n : Text}
  {names : List Text} {content : Bytes} {e : Entry}

/-- A copy of a directory without links to a target of its own spares its source. -/
def TreesSpare (s d : Location) (depth : Nat) : Prop :=
  ∀ {source target s' d' a a'}, a.disk.WellFormed → a.disk.LeadsTo source s' → s <+: s' →
    a.disk.Lands target d' → d <+: d' → a.disk.tree.NoLinkBelow s → a.disk.tree.NoLinkBelow d →
      (copyTreeIn true depth source target).runOn a = (.ok (), a') → Disk.Spares s d a.disk a'.disk

/-- A directory in a directory that is copied has a location in the target, if its copy succeeds. -/
theorem lands_joinTwo (hwell : a.disk.WellFormed) (hleads : a.disk.LeadsTo source s')
    (hgoal : a.disk.LeadsTo target d') (hn : IsName n)
    (hlinks : ∀ link, a.disk.tree.lookup (d' ++ [n]) ≠ some (.link link))
    (hrun : (copyTreeIn true depth source (joinTwo target n)).runOn a = (.ok (), a')) :
    a.disk.Lands (joinTwo target n) (d' ++ [n]) := by
  cases depth with
  | zero =>
    obtain ⟨-, disk, hdisk, -⟩ := runOn_change_ok_iff.1 hrun
    cases hdisk
  | succ depth =>
    obtain ⟨-, a₁, a₂, steps⟩ := exists_treeSteps hwell hleads hrun
    have hwithin := steps.within₁.trans steps.within₂
    obtain ⟨x, hx⟩ := Disk.leadsToDirectory_iff.1 steps.leads₂
    obtain ⟨hshort, hlength⟩ := (hwithin.leadsTo hgoal).short_of_resolve hn hx
    have hplace := hgoal.place_joinTwo hn hshort hlength
    cases he : a.disk.tree.lookup (d' ++ [n]) with
    | none =>
      rw [he] at hplace
      exact .place hplace
    | some e =>
      rw [he] at hplace
      cases e with
      | directory mode => exact .leads (Disk.leadsTo_of_place hplace)
      | link link => exact absurd he (hlinks link)
      | file mode content =>
        obtain ⟨mode', content', hfile⟩ := hwithin.resolve_file
          ((Disk.resolve_of_place_file Purpose.look_ne_write hplace).trans
            (if_neg (by simp [Disk.asksForDirectory_joinTwo hn])))
        cases hfile.symm.trans hx

/-- The copy of a file lies in the target. -/
theorem prefix_of_copies (hgoal : a.disk.LeadsTo target d') (hle : d <+: d') (hn : IsName n)
    (hlinks : a.disk.tree.NoLinkBelow d)
    (h : a.disk.Copies (joinTwo source n) (a.disk.copyPath (joinTwo source n) (joinTwo target n)) s mode
      content p) : d <+: p := by
  have hle' : d <+: d' ++ [n] := hle.trans (List.prefix_append d' [n])
  obtain ⟨goal, hopens, hopened⟩ := h.goal
  unfold Disk.copyPath at hopens
  split at hopens
  · next hleads =>
    obtain ⟨x, hx⟩ := Disk.leadsToDirectory_iff.1 hleads
    have hgoal' := Disk.leadsTo_of_place_of_ne_link (hgoal.place_of_resolve hn hx)
      (fun link => hlinks _ link hle') hleads
    have hle'' : d <+: d' ++ [n] ++ [n] := hle'.trans (List.prefix_append _ [n])
    rw [baseName_joinTwo hn.2.1] at hopens
    rwa [Disk.eq_of_opened_of_place (hgoal'.place_of_resolve hn hopens) (fun link => hlinks _ link hle'')
      hopens hopened]
  · rwa [Disk.eq_of_opened_of_place (hgoal.place_of_resolve hn hopens) (fun link => hlinks _ link hle')
      hopens hopened]

section

variable (hsd : ¬ s <+: d) (hds : ¬ d <+: s)

include hsd hds

theorem spares_copyEntry (hbelow : TreesSpare s d depth) (hwell : a.disk.WellFormed)
    (hleads : a.disk.LeadsTo source s') (hle : s <+: s') (hgoal : a.disk.LeadsTo target d')
    (hle' : d <+: d') (hlinks : a.disk.tree.NoLinkBelow s) (hlinks' : a.disk.tree.NoLinkBelow d)
    (hn : IsName n) (he : a.disk.tree.lookup (s' ++ [n]) = some e)
    (hrun : (copyEntry true depth n (joinTwo source n) (joinTwo target n)).runOn a = (.ok [], a')) :
    Disk.Spares s d a.disk a'.disk := by
  have hchild : s <+: s' ++ [n] := hle.trans (List.prefix_append s' [n])
  have hchild' : d <+: d' ++ [n] := hle'.trans (List.prefix_append d' [n])
  obtain ⟨htaken, hrun⟩ := (copyEntry_ok_iff hleads hn he).1 hrun
  cases e with
  | link link => exact absurd he (hlinks _ link hchild)
  | directory mode =>
    have hplace := hleads.place_joinTwo hn htaken.2 htaken.1.2
    rw [he] at hplace
    have hleads' := Disk.leadsTo_of_place hplace
    exact hbelow hwell hleads' hchild
      (lands_joinTwo hwell hleads' hgoal hn (fun link => hlinks' _ link hchild') hrun) hchild' hlinks hlinks' hrun
  | file mode content =>
    obtain ⟨-, p, hcopies, rfl⟩ := hrun
    exact .put hsd hds (prefix_of_copies hgoal hle' hn hlinks' hcopies) fun link heq => nomatch heq

theorem spares_chain (hbelow : TreesSpare s d depth)
    (hchain : Chain (fun n => copyEntry true depth n (joinTwo source n) (joinTwo target n)) names a a')
    (hwell : a.disk.WellFormed) (hleads : a.disk.LeadsTo source s') (hle : s <+: s')
    (hgoal : a.disk.LeadsTo target d') (hle' : d <+: d') (hlinks : a.disk.tree.NoLinkBelow s)
    (hlinks' : a.disk.tree.NoLinkBelow d)
    (hnames : ∀ n ∈ names, IsName n ∧ (a.disk.tree.lookup (s' ++ [n])).isSome) :
    Disk.Spares s d a.disk a'.disk := by
  induction hchain with
  | nil host => exact .refl s d host.disk
  | @cons n l a mid a' head tail ih =>
    obtain ⟨hn, hsome⟩ := hnames n List.mem_cons_self
    obtain ⟨e, he⟩ := Option.isSome_iff_exists.1 hsome
    have hstep := spares_copyEntry hsd hds hbelow hwell hleads hle hgoal hle' hlinks hlinks' hn he head
    obtain ⟨hmid, hwithin⟩ := (extends_copyEntry depth n _ _).of_runOn head hwell
    have hnames' : ∀ m ∈ l, IsName m ∧ (mid.disk.tree.lookup (s' ++ [m])).isSome := fun m hm =>
      (hnames m (List.mem_cons_of_mem n hm)).imp_right hwithin.tree.isSome_lookup
    exact hstep.trans (ih hmid (hwithin.leadsTo hleads) (hwithin.leadsTo hgoal)
      (hstep.noLinkBelow_source hlinks) (hstep.links hlinks') hnames')

/-- A copy of a directory without links to a target of its own spares its source. -/
theorem spares_copyTreeIn (depth : Nat) : TreesSpare s d depth := by
  induction depth with
  | zero =>
    intro source target s' d' a a' hwell hleads hle hlands hle' hlinks hlinks' hrun
    obtain ⟨-, disk, hdisk, -⟩ := runOn_change_ok_iff.1 hrun
    cases hdisk
  | succ depth ih =>
    intro source target s' d' a a' hwell hleads hle hlands hle' hlinks hlinks' hrun
    obtain ⟨-, a₁, a₂, steps⟩ := exists_treeSteps hwell hleads hrun
    have hmade := makesTowards_makeDirectories hwell hlands
    rw [steps.make] at hmade
    have hspares₁ : Disk.Spares s d a.disk a₁.disk := .of_makesTowards hsd hds hle' hmade
    have hgoal := leadsTo_of_makeDirectories hwell hlands steps.make
    have hspares₂ := spares_chain hsd hds ih steps.chain steps.wellFormed₁ (steps.within₁.leadsTo hleads) hle
      hgoal hle' (hspares₁.noLinkBelow_source hlinks) (hspares₁.links hlinks') (steps.names hwell)
    refine (hspares₁.trans hspares₂).trans ?_
    obtain ⟨-, -, status, disk, -, hset, rfl⟩ := copyMode_ok_iff.1 steps.mode
    have hresolve := (steps.within₂.leadsTo hgoal).resolve
    rcases Disk.setMode_ok hset with rfl | ⟨_, _, _, hfile, -⟩ | ⟨x, hx, -, rfl⟩
    · exact .refl s d _
    · cases hresolve.symm.trans hfile
    · cases hresolve.symm.trans hx
      exact .put hsd hds hle' fun link heq => nomatch heq

end

end Request

end Primitives
