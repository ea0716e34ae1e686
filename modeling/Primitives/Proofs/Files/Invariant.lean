import Primitives.Proofs.Files.MoveFallback

/-!
# The invariant of disks

Every call keeps a disk well formed: it puts entries into directories only, removes entries that nothing
lies below, and never leaves the working directory at a location without a directory. So the disk stays
well formed in every sequence of calls, in particular in a move and its fallback.

What a path leads to lies in the tree: a directory or an entry at its location, or the free location of a
name in a directory.

## Main definitions

* `Target.IsIn`: targets that lie in a tree.
* `Host.Preserves`: a host that is well formed if another one is.
* `Request.RespectedByMoves`: relations between hosts that all calls of a move respect.

## Main results

* `Disk.resolve_isIn`: what a path leads to lies in the tree.
* `Disk.WellFormed.makeDirectory`, …, `Disk.WellFormed.enter`: calls keep a disk well formed.
* `Request.move_preserves`: a move keeps a disk well formed.
-/

namespace Primitives

open FileTree

/-! ### Targets -/

/-- A target that lies in a tree. -/
def Target.IsIn (t : FileTree) : Target → Prop
  | .directory d => t.isDirectory d.location
  | .file p mode content => t.lookup p = some (.file mode content)
  | .link p target => t.lookup p = some (.link target)
  | .absent p => ∃ parent n, p = parent ++ [n] ∧ IsName n ∧ t.isDirectory parent ∧ t.lookup p = none

/-- What components lead to lies in the tree, if they start from a directory. -/
theorem FileTree.walk_isIn {t : FileTree} (ht : t.Closed) {purpose : Purpose} {links : Nat}
    {d : Standpoint} {components : List Text} {slash : Bool} {target : Target}
    (hd : t.isDirectory d.location) (hnames : ∀ n ∈ components, n ≠ [] ∧ '/' ∉ n)
    (h : t.walk purpose links d components slash = .ok target) : target.IsIn t := by
  fun_induction walk t purpose links d components slash
  case case1 => exact Except.ok.inj h ▸ hd
  case case2 ih => exact ih hd (fun n hn => hnames n (List.mem_cons_of_mem _ hn)) h
  case case3 ih =>
    exact ih (ht.isDirectory_parent hd) (fun n hn => hnames n (List.mem_cons_of_mem _ hn)) h
  case case7 d slash name rest last p hdot hdots _ _ _ hentry _ =>
    obtain ⟨hne, hslash⟩ := hnames name List.mem_cons_self
    rw [← Except.ok.inj h]
    exact ⟨d.location, name, rfl, ⟨hne, hslash, hdot, hdots⟩, hd,
      (entry?_append_name t d.location name).symm.trans hentry⟩
  case case9 mode hentry ih =>
    exact ih ((t.isDirectory_iff _).2 ⟨mode, hentry⟩) (fun n hn => hnames n (List.mem_cons_of_mem _ hn)) h
  case case10 d slash name rest last p _ _ _ _ _ mode content hentry _ =>
    rw [← Except.ok.inj h]
    exact (entry?_append_name t d.location name).symm.trans hentry
  case case12 d slash name rest last p _ _ _ _ _ other hentry _ =>
    rw [← Except.ok.inj h]
    exact (entry?_append_name t d.location name).symm.trans hentry
  case case14 path ih =>
    refine ih (isDirectory_start hd path) (fun n hn => ?_) h
    rcases List.mem_append.1 hn with hn | hn
    · exact PathText.of_mem_splitComponents hn
    · exact hnames n (List.mem_cons_of_mem _ hn)
  all_goals cases h

/-- What a path leads to lies in the tree. -/
theorem Disk.resolve_isIn {disk : Disk} (h : disk.WellFormed) {purpose : Purpose} {path : Text}
    {target : Target} (hresolve : disk.resolve purpose path = .ok target) : target.IsIn disk.tree := by
  unfold Disk.resolve FileTree.resolve at hresolve
  split at hresolve
  · cases hresolve
  · split at hresolve
    · cases hresolve
    · exact walk_isIn h.tree.closed (isDirectory_start h.standing _)
        (fun n hn => PathText.of_mem_splitComponents hn) hresolve

/-! ### Calls -/

namespace Disk.WellFormed

variable {disk disk' : Disk} {path : Text}

theorem empty : WellFormed ⟨FileTree.empty, .root⟩ :=
  ⟨FileTree.WellFormed.empty, rfl⟩

/-- An entry is put into a directory; in place of a directory it is one as well. -/
theorem put (h : disk.WellFormed) {parent : Location} {n : Text} {e : Entry} (hn : IsName n)
    (hparent : disk.tree.isDirectory parent)
    (he : disk.tree.isDirectory (parent ++ [n]) → ∃ mode, e = .directory mode) :
    WellFormed { disk with tree := disk.tree.put (parent ++ [n]) e } :=
  ⟨h.tree.put hparent hn he, isDirectory_put he h.standing⟩

/-- An entry is put in the place of one that is no directory. -/
theorem put_of_lookup (h : disk.WellFormed) {p : Location} {old e : Entry}
    (hold : disk.tree.lookup p = some old) (he : ∀ mode, old = .directory mode → ∃ mode, e = .directory mode) :
    WellFormed { disk with tree := disk.tree.put p e } := by
  obtain ⟨parent, n, rfl, hn, hparent⟩ := h.tree.exists_parent (Option.isSome_of_eq_some hold)
  refine h.put hn hparent fun hdirectory => ?_
  obtain ⟨mode, hmode⟩ := (isDirectory_iff_lookup _ (by simp)).1 hdirectory
  rw [hold] at hmode
  exact he mode (Option.some.inj hmode)

/-- An entry is put where nothing is. -/
theorem put_of_absent (h : disk.WellFormed) {p : Location} (hp : Target.IsIn disk.tree (.absent p))
    (e : Entry) : WellFormed { disk with tree := disk.tree.put p e } := by
  obtain ⟨parent, n, rfl, hn, hparent, hnone⟩ := hp
  exact h.put hn hparent fun hdirectory =>
    absurd hdirectory (not_isDirectory_of_none (by simp) hnone)

/-- A free place is a free location of the tree. -/
theorem isIn_of_place (h : disk.WellFormed) {p : Location} (hplace : disk.place path = .ok (p, none)) :
    Target.IsIn disk.tree (.absent p) := by
  obtain ⟨parent, n, rfl, hn, hparent, hnone⟩ := place_spec h hplace
  exact ⟨parent, n, rfl, hn, hparent, hnone.symm⟩

theorem makeDirectory (h : disk.WellFormed) (hcall : disk.makeDirectory path = .ok disk') :
    disk'.WellFormed := by
  obtain ⟨p, hplace, rfl⟩ := makeDirectory_ok_iff.1 hcall
  exact h.put_of_absent (h.isIn_of_place hplace) _

theorem makeLink {target : Text} (h : disk.WellFormed) (hcall : disk.makeLink target path = .ok disk') :
    disk'.WellFormed := by
  obtain ⟨p, hplace, -, rfl⟩ := makeLink_ok hcall
  exact h.put_of_absent (h.isIn_of_place hplace) _

theorem writeBytes {bytes : Bytes} {append : Bool} (h : disk.WellFormed)
    (hcall : disk.writeBytes path bytes append = .ok disk') : disk'.WellFormed := by
  obtain ⟨target, p, hresolve, hopened, rfl⟩ := writeBytes_ok_iff.1 hcall
  have htarget := resolve_isIn h hresolve
  cases target with
  | file q mode content =>
    obtain rfl : q = p := Option.some.inj hopened
    exact h.put_of_lookup htarget fun _ heq => nomatch heq
  | absent q =>
    obtain rfl : q = p := Option.some.inj hopened
    exact h.put_of_absent htarget _
  | _ => cases hopened

theorem setMode {mode : Nat} (h : disk.WellFormed) (hcall : disk.setMode path mode = .ok disk') :
    disk'.WellFormed := by
  rcases setMode_ok hcall with rfl | ⟨p, mode', content, hresolve, rfl⟩ | ⟨d, hresolve, hroot, rfl⟩
  · exact h
  · exact h.put_of_lookup (resolve_isIn h hresolve) fun _ heq => nomatch heq
  · obtain ⟨mode', hmode⟩ := (isDirectory_iff_lookup _ hroot).1 (resolve_isIn h hresolve)
    exact h.put_of_lookup hmode fun _ _ => ⟨mode, rfl⟩

/-- A location that is no directory is erased. -/
theorem erase (h : disk.WellFormed) {p : Location} (hp : ¬ disk.tree.isDirectory p) :
    WellFormed { disk with tree := disk.tree.erase p } :=
  ⟨h.tree.erase fun _ hq => h.tree.closed.lookup_below hp hq,
    isDirectory_erase h.standing fun heq => hp (heq ▸ h.standing)⟩

theorem unlink (h : disk.WellFormed) (hcall : disk.unlink path = .ok disk') : disk'.WellFormed := by
  obtain ⟨p, e, hplace, he, -, rfl⟩ := unlink_ok_iff.1 hcall
  refine h.erase fun hdirectory => ?_
  obtain ⟨mode, hmode⟩ := (isDirectory_iff_of_place hplace).1 hdirectory
  exact he mode hmode

/-- An empty directory is dropped; the working directory leaves it. -/
theorem dropDirectory (h : disk.WellFormed) {p : Location} (hp : p ≠ [])
    (hchildren : disk.tree.children p = []) : (disk.dropDirectory p).WellFormed := by
  refine ⟨h.tree.erase fun q hq => h.tree.closed.lookup_below_of_children hchildren hq, ?_⟩
  unfold Disk.dropDirectory
  dsimp only
  split
  · next heq =>
    refine isDirectory_erase (h.tree.closed.isDirectory_dropLast (heq ▸ h.standing)) fun hsame => ?_
    have hlength := congrArg List.length hsame
    have hpos := List.length_pos_iff.2 hp
    rw [List.length_dropLast] at hlength
    omega
  · next hne => exact isDirectory_erase h.standing hne

theorem removeDirectory (h : disk.WellFormed) (hcall : disk.removeDirectory path = .ok disk') :
    disk'.WellFormed := by
  obtain ⟨p, mode, hplace, hchildren, rfl⟩ := removeDirectory_ok_iff.1 hcall
  obtain ⟨parent, n, rfl, -⟩ := place_spec h hplace
  exact h.dropDirectory (by simp) hchildren

/-- What stands at the new location is erased first, from a disk that stays well formed. -/
theorem exists_erased (h : disk.WellFormed) {old new : Location} {e : Entry} (hnew : new ≠ [])
    (hcall : disk.replace old new e = .ok disk') : ∃ erased : Disk, erased.WellFormed ∧
      erased.tree = disk.tree.erase new ∧ disk' = erased.relocate old new := by
  unfold Disk.replace at hcall
  split at hcall
  · next hnone =>
    have hfree : new ∉ disk.tree.locations := by
      rw [entry?_of_ne hnew] at hnone
      rw [← isSome_lookup_iff, hnone]
      simp
    exact ⟨disk, h, (erase_of_notMem hfree).symm, (Except.ok.inj hcall).symm⟩
  · split at hcall
    · cases hcall
    · next hchildren =>
      exact ⟨_, h.dropDirectory hnew (not_not.1 hchildren), rfl, (Except.ok.inj hcall).symm⟩
  · cases hcall
  · cases hcall
  · next hother _ _ hentry =>
    refine ⟨_, h.erase fun hdirectory => ?_, rfl, (Except.ok.inj hcall).symm⟩
    obtain ⟨mode, hmode⟩ := (isDirectory_iff _ _).1 hdirectory
    exact hother mode (Option.some.inj (hentry.symm.trans hmode))

theorem rename {source target : Text} (h : disk.WellFormed)
    (hcall : disk.rename source target = .ok disk') : disk'.WellFormed := by
  obtain ⟨old, new, e, entry, hrenames, ⟨-, rfl⟩ | ⟨hne, hreplace⟩⟩ := rename_ok_iff.1 hcall
  · exact h
  obtain ⟨_, _, hold, -⟩ := place_spec h hrenames.origin
  obtain ⟨parent, n, rfl, hn, hparent, -⟩ := place_spec h hrenames.goal
  have hroot : old ≠ [] := by simp [hold]
  have hnew : parent ++ [n] ≠ [] := by simp
  have htree := wellFormed_of_replace h.tree hroot hparent hn (fun hle => hne (hrenames.notBelow hle))
    hreplace
  obtain ⟨erased, herased, heq, rfl⟩ := h.exists_erased hnew hreplace
  refine ⟨htree, isDirectory_relocate herased.tree.closed hroot hnew (fun q => ?_) herased.standing⟩
  rw [heq, lookup_erase]
  split
  · rfl
  · next hq => exact lookup_below_of_replace h.tree.closed hnew hreplace (by simpa using hq)

theorem enter (h : disk.WellFormed) (hcall : disk.enter path = .ok disk') : disk'.WellFormed := by
  obtain ⟨target, hresolve, hcall⟩ := Outcome.bind_eq_ok_iff.1 hcall
  cases target with
  | directory d =>
    rw [← Except.ok.inj hcall]
    exact ⟨h.tree, resolve_isIn h hresolve⟩
  | _ => simp at hcall

end Disk.WellFormed

/-! ### Moves -/

/-- A host is well formed if another one is. -/
def Host.Preserves (a b : Host) : Prop :=
  a.disk.WellFormed → b.disk.WellFormed

namespace Request

/-- A relation between hosts that all calls of a move respect. -/
structure RespectedByMoves (R : Host → Host → Prop) : Prop extends RespectedByCopies R where
  unlink : ∀ (host : Host) path disk, host.disk.unlink path = .ok disk → R host { host with disk }
  removeDirectory : ∀ (host : Host) path disk, host.disk.removeDirectory path = .ok disk →
    R host { host with disk }
  rename : ∀ (host : Host) source target disk, host.disk.rename source target = .ok disk →
    R host { host with disk }
  record : ∀ (host : Host) r, R host { host with log := host.log ++ [r] }

namespace RespectedByMoves

variable {R : Host → Host → Prop} (hR : RespectedByMoves R)

include hR

theorem forIn {α β : Type} {f : α → β → Request (ForInStep β)} {l : List α}
    (h : ∀ a b, (f a b).Respects R) (b : β) : (forIn l b f).Respects R := by
  induction l generalizing b with
  | nil => exact hR.pure b
  | cons a l ih =>
    rw [List.forIn_cons]
    refine (h a b).bind hR.trans fun next => ?_
    cases next with
    | done b => exact hR.pure b
    | yield b => exact ih b

theorem walkUpwardsIn (depth : Nat) (path : Text) : (walkUpwardsIn depth path).Respects R :=
  respects_walkUpwardsIn hR.refl hR.trans hR.record depth path

theorem removeTree (path : Text) : (removeTree path).Respects R := by
  have hremove : ∀ p, (change [p] (·.removeDirectory p)).Respects R :=
    fun p => respects_change hR.refl fun host disk => hR.removeDirectory host p disk
  refine (hR.walkUpwardsIn _ path).bind hR.trans fun entries => ?_
  refine (hR.forIn (fun entry _ => ?_) _).bind hR.trans fun _ => hremove path
  obtain ⟨p, isDirectory⟩ := entry
  cases isDirectory with
  | true => exact (hremove p).bind hR.trans fun _ => hR.pure _
  | false =>
    refine Respects.bind hR.trans (respects_change hR.refl fun host disk => ?_) fun _ => hR.pure _
    exact hR.unlink host p disk

theorem moveByCopy (source target shown : Text) : (moveByCopy source target shown).Respects R := by
  have hunlink : (change [source] (·.unlink source)).Respects R :=
    respects_change hR.refl fun host disk => hR.unlink host source disk
  refine (respects_ask hR.refl _).bind hR.trans fun isLink => ?_
  cases isLink with
  | true =>
    refine (respects_look hR.refl _ _).bind hR.trans fun link => ?_
    refine Respects.bind hR.trans (respects_change hR.refl fun host disk => ?_) fun _ => hunlink
    exact hR.makeLink host link target disk
  | false =>
    refine (respects_ask hR.refl _).bind hR.trans fun isDirectory => ?_
    cases isDirectory with
    | true =>
      have hinside : (isInside source shown).Respects R := by
        intro host
        rw [keeps_isInside source shown host]
        exact hR.refl host
      refine hinside.bind hR.trans fun inside => ?_
      have hcopy : (do copyTree false source target; Request.removeTree source : Request Unit).Respects R :=
        (hR.copyTreeIn false _ source target).bind hR.trans fun _ => hR.removeTree source
      cases inside with
      | true => exact (hR.throw _).bind hR.trans fun _ => hcopy
      | false => exact hcopy
    | false => exact (hR.copyFileAs _ source target).discard.bind hR.trans fun _ => hunlink

theorem renameOn (source target : Text) : (renameOn source target).Respects R :=
  respects_change hR.refl fun host disk => hR.rename host source target disk

theorem renameOrCopy (source target shown : Text) : (renameOrCopy source target shown).Respects R := by
  refine (hR.renameOn source target).tryCatch hR.trans fun e => ?_
  split
  · exact hR.throw e
  · exact hR.moveByCopy source target shown

/-- A move respects what the calls respect that it consists of. -/
theorem move (source target : Text) : (move source target).Respects R := by
  have honto : (isMoveOntoItself source target).Respects R := by
    intro host
    rw [keeps_isMoveOntoItself source target host]
    exact hR.refl host
  have htarget : (moveTarget source target).Respects R := by
    refine (respects_ask hR.refl _).bind hR.trans fun present => ?_
    cases present with
    | true => exact hR.throw _
    | false => exact hR.pure _
  refine (respects_ask hR.refl _).bind hR.trans fun isDirectory => ?_
  cases isDirectory with
  | true =>
    refine honto.bind hR.trans fun onto => ?_
    have hinto : (do
        let real ← moveTarget source target
        Request.renameOrCopy source real target
        return some real : Request (Option Text)).Respects R :=
      htarget.bind hR.trans fun real => (hR.renameOrCopy source real target).bind hR.trans fun _ => hR.pure _
    cases onto with
    | true => exact (hR.renameOn source target).bind hR.trans fun _ => hR.pure none
    | false => exact hinto
  | false => exact (hR.renameOrCopy source target target).bind hR.trans fun _ => hR.pure _

end RespectedByMoves

/-- The calls of a move keep a disk well formed. -/
theorem preserves_respectedByMoves : RespectedByMoves Host.Preserves where
  refl _ := id
  trans _ _ _ hab hbc := hbc ∘ hab
  makeDirectory _ _ _ hcall h := h.makeDirectory hcall
  makeLink _ _ _ _ hcall h := h.makeLink hcall
  writeBytes _ _ _ _ _ hcall h := h.writeBytes hcall
  setMode _ _ _ _ hcall h := h.setMode hcall
  unlink _ _ _ hcall h := h.unlink hcall
  removeDirectory _ _ _ hcall h := h.removeDirectory hcall
  rename _ _ _ _ hcall h := h.rename hcall
  record _ _ := id

/-- A move keeps a disk well formed, also where it fails on the way. -/
theorem move_preserves (source target : Text) : (move source target).Respects Host.Preserves :=
  preserves_respectedByMoves.move source target

end Request

end Primitives
