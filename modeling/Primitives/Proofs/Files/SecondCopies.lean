import Primitives.Proofs.Files.CopiedSources

/-!
# Second copies

The second of two copies finds everything at the target that the first one has put there. It makes no
directory, opens for every file the location that the first one wrote, and puts the same there. So it
follows the first one step by step: at every location it holds what the first one holds at this step or
what the first one left in the end, and then both are the same.

Two things are needed for this. The source is the same for both copies, and it holds no link, since a copy
only makes links that are new.

## Main definitions

* `FileTree.below`: the entries at and below a location.
* `Disk.Follows`: a disk of a second copy, as against the same step of the first one.

## Main results

* `Request.exists_follows_copyTreeIn`: a second copy follows the first one.
-/

namespace Primitives

open FileTree PathText

/-! ### Entries at and below a location -/

namespace FileTree

variable {t u : FileTree} {s p : Location}

/-- The entries at and below a location, in their order. -/
def below (t : FileTree) (s : Location) : List (Location × Entry) :=
  t.entries.filter fun entry => s.isPrefixOf entry.1

/-- No link lies at or below a location. -/
def NoLinkBelow (t : FileTree) (s : Location) : Prop :=
  ∀ p link, s <+: p → t.lookup p ≠ some (.link link)

theorem lookup_of_below (h : t.below s = u.below s) (hle : s <+: p) : t.lookup p = u.lookup p := by
  have hfind : ∀ v : FileTree, v.lookup p = ((v.below s).find? (·.1 == p)).map Prod.snd := by
    intro v
    rw [lookup, below, List.find?_filter]
    congr 1
    refine List.find?_congr fun entry _ => ?_
    by_cases heq : entry.1 = p
    · simp [heq, List.isPrefixOf_iff_prefix.2 hle]
    · simp [heq]
  rw [hfind, hfind, h]

theorem children_of_below (h : t.below s = u.below s) (hle : s <+: p) : t.children p = u.children p := by
  have hchildren : ∀ v : FileTree, v.children p = (v.below s).filterMap fun entry => childName? p entry.1 := by
    intro v
    rw [children, below, List.filterMap_filter]
    refine List.filterMap_congr fun entry _ => ?_
    obtain ⟨q, e⟩ := entry
    cases hname : childName? p q with
    | none => simp [hname]
    | some n =>
      have hbelow : s.isPrefixOf q := by
        rw [childName?_eq_some_iff.1 hname]
        exact List.isPrefixOf_iff_prefix.2 (hle.trans (List.prefix_append p [n]))
      simp [hname, hbelow]
  rw [hchildren, hchildren, h]

theorem below_put_congr (h : t.below s = u.below s) (p : Location) (e : Entry) :
    (t.put p e).below s = (u.put p e).below s := by
  have hput : ∀ v : FileTree, (v.put p e).below s =
      (v.below s).filter (·.1 != p) ++ [(p, e)].filter fun entry => s.isPrefixOf entry.1 := by
    intro v
    simp only [below, put, erase, List.filter_append, List.filter_filter]
    congr 1
    exact List.filter_congr fun entry _ => Bool.and_comm ..
  rw [hput, hput, h]

theorem below_put_of_not_le (h : ¬ s <+: p) (t : FileTree) (e : Entry) :
    (t.put p e).below s = t.below s := by
  have hother : s.isPrefixOf p = false := Bool.eq_false_iff.2 fun hle => h (List.isPrefixOf_iff_prefix.1 hle)
  simp only [below, put, erase, List.filter_append, List.filter_filter, List.filter_singleton, hother,
    List.append_nil, cond_false]
  refine List.filter_congr fun entry _ => ?_
  by_cases heq : entry.1 = p
  · simp [heq, hother]
  · simp [heq]

end FileTree

/-! ### Calls that find what they would make -/

namespace Disk

variable {a b last : Disk} {source goal path : Text} {s p : Location} {mode : Nat} {content : Bytes}
  {e : Entry}

/-- A file that was copied is copied again, from the same bytes to the same location. -/
theorem Copies.again (h : a.Copies source (a.copyPath source goal) s mode content p) (hwithin : a.Within b)
    (hs : b.tree.lookup s = some (.file mode content))
    (hp : ∃ mode' content', b.tree.lookup p = some (.file mode' content')) :
    b.copyPath source goal = a.copyPath source goal ∧
      b.Copies source (a.copyPath source goal) s mode content p := by
  obtain ⟨mode', content', hfile⟩ := hp
  obtain ⟨target, hopens, hopened⟩ := h.goal
  have hagain := hwithin.resolve hopens (.opened hopened hfile)
  refine ⟨?_, hwithin.resolve h.source (.opened rfl hs), ⟨_, hagain, rfl⟩, h.apart⟩
  unfold copyPath at hagain ⊢
  by_cases hleads : a.leadsToDirectory goal
  · rw [if_pos hleads, if_pos (hwithin.leadsToDirectory hleads)]
  · rw [if_neg hleads] at hagain ⊢
    rw [if_neg]
    rw [leadsToDirectory_iff]
    rintro ⟨d, hd⟩
    cases (resolve_look_of_write hagain).symm.trans hd

end Disk

/-! ### The steps of a copy -/

namespace Request

variable {a a₁ a₂ a' : Host} {source target : Text} {s : Location} {depth : Nat}

theorem extends_copyEntry (depth : Nat) (n source target : Text) :
    (copyEntry true depth n source target).Respects Host.Extends :=
  extends_respectedByCopies.copyEntry (extends_respectedByCopies.copyTreeIn true depth) n source target

/-- A copy of a directory that succeeds: the directory is made, the entries are copied and then the permission
bits. Each step holds the one before in outline. -/
structure TreeSteps (depth : Nat) (source target : Text) (s : Location) (a a₁ a₂ a' : Host) : Prop where
  make : (makeDirectories true target).runOn a = (.ok (), a₁)
  chain : Chain (fun n => copyEntry true depth n (joinTwo source n) (joinTwo target n))
    (a.disk.tree.children s) a₁ a₂
  mode : (copyMode source target).runOn a₂ = (.ok (), a')
  wellFormed₁ : a₁.disk.WellFormed
  within₁ : a.disk.Within a₁.disk
  within₂ : a₁.disk.Within a₂.disk
  within₃ : a₂.disk.Within a'.disk

theorem exists_treeSteps (hwell : a.disk.WellFormed) (hleads : a.disk.LeadsTo source s)
    (h : (copyTreeIn true (depth + 1) source target).runOn a = (.ok (), a')) :
    hasNull source = false ∧ ∃ a₁ a₂, TreeSteps depth source target s a a₁ a₂ a' := by
  obtain ⟨hnull, names, a₁, a₂, hnames, hmake, hchain, hmode⟩ := copyTreeIn_ok_iff.1 h
  obtain rfl : names = a.disk.tree.children s := Except.ok.inj (hnames.symm.trans hleads.listNames)
  have hR := extends_respectedByCopies
  obtain ⟨hwell₁, hwithin₁⟩ :=
    (makeDirectories_respects hR.refl hR.trans hR.makeDirectory true target).of_runOn hmake hwell
  obtain ⟨hwell₂, hwithin₂⟩ := hchain.respects hR.refl hR.trans (fun n => extends_copyEntry depth n _ _) hwell₁
  obtain ⟨-, hwithin₃⟩ := (hR.copyMode source target).of_runOn hmode hwell₂
  exact ⟨hnull, a₁, a₂, hmake, hchain, hmode, hwell₁, hwithin₁, hwithin₂, hwithin₃⟩

namespace TreeSteps

variable (h : TreeSteps depth source target s a a₁ a₂ a')

include h

/-- The entries of the source are still there when they are copied. -/
theorem names (hdisk : a.disk.WellFormed) : ∀ n ∈ a.disk.tree.children s,
    IsName n ∧ (a₁.disk.tree.lookup (s ++ [n])).isSome := fun _ hn =>
  ⟨hdisk.tree.name_of_mem_children hn, h.within₁.tree.isSome_lookup (mem_children.1 hn)⟩

theorem hasNull_target : hasNull target = false :=
  (copyMode_ok_iff.1 h.mode).2.1

/-- The target leads to a directory once the entries are copied. -/
theorem leads₂ : a₂.disk.leadsToDirectory target := by
  obtain ⟨-, -, status, disk, -, hset, -⟩ := copyMode_ok_iff.1 h.mode
  obtain ⟨found, hresolve, -⟩ := Outcome.bind_eq_ok_iff.1 hset
  exact leads_of_makeDirectories h.make h.within₂ hresolve

end TreeSteps

end Request

/-! ### The second copy -/

namespace Disk

/-- The disk `b` of a second copy as against the disk `a` of the first one at the same step, where the first
one ends with `last`: it holds what the first one holds at this step or in the end, in the outline of the end,
and the source is the same for both. -/
structure Follows (last : Disk) (s : Location) (a b : Disk) : Prop where
  within : a.Within last
  outline : last.Within b
  outline' : b.Within last
  held : ∀ p, b.tree.lookup p = last.tree.lookup p ∨ b.tree.lookup p = a.tree.lookup p
  source : b.tree.below s = a.tree.below s

namespace Follows

variable {last a b : Disk} {s p : Location} {e : Entry}

theorem trans_within (h : Follows last s a b) : a.Within b :=
  h.within.trans h.outline

/-- Both copies put the same at the same location. -/
theorem put (h : Follows last s a b) (hlast : Within { a with tree := a.tree.put p e } last) :
    Follows last s { a with tree := a.tree.put p e } { b with tree := b.tree.put p e } := by
  obtain ⟨e', he', houtline⟩ := hlast.tree p e (by rw [lookup_put, if_pos rfl])
  obtain ⟨e'', he'', houtline'⟩ := h.outline.tree p e' he'
  refine ⟨hlast, ⟨h.outline.directory, h.outline.tree.put_right he'' (houtline.symm.trans houtline'.symm)⟩,
    ⟨h.outline'.directory, h.outline'.tree.put_left he' houtline.symm⟩, fun q => ?_,
    below_put_congr h.source p e⟩
  rw [lookup_put, lookup_put]
  split
  · exact .inr rfl
  · exact h.held q

/-- The first copy puts an entry where nothing is, and the second one finds it. -/
theorem put_left (h : Follows last s a b) (hnone : a.tree.lookup p = none)
    (hlast : Within { a with tree := a.tree.put p e } last) :
    Follows last s { a with tree := a.tree.put p e } b := by
  obtain ⟨e', he', -⟩ := hlast.tree p e (by rw [lookup_put, if_pos rfl])
  obtain ⟨e'', he'', -⟩ := h.outline.tree p e' he'
  refine ⟨hlast, h.outline, h.outline', fun q => ?_, ?_⟩
  · rw [lookup_put]
    split
    · next heq =>
      subst heq
      refine .inl ((h.held q).resolve_right fun hheld => ?_)
      rw [he'', hnone] at hheld
      cases hheld
    · exact h.held q
  · rw [h.source, below_put_of_not_le]
    intro hle
    rw [lookup_of_below h.source hle, hnone] at he''
    cases he''

end Follows

end Disk

namespace Request

variable {last : Disk} {s s' : Location} {a a' b : Host} {source target goal : Text} {depth : Nat} {n : Text}
  {names : List Text} {e : Entry}

/-- A directory that the first copy makes, the second one finds. -/
theorem follows_makeDirectories (path : Text) (hlast : ((makeDirectories true path).runOn a).2.disk.Within last)
    (h : last.Follows s a.disk b.disk) :
    last.Follows s ((makeDirectories true path).runOn a).2.disk b.disk := by
  let R := fun x y : Host => x.disk.Within y.disk ∧
    (y.disk.Within last → last.Follows s x.disk b.disk → last.Follows s y.disk b.disk)
  have hR : (makeDirectories true path).Respects R := by
    refine makeDirectories_respects (fun x => ⟨.refl _, fun _ h => h⟩) (fun x y z hxy hyz => ?_)
      (fun host path disk hmake => ?_) true path
    · exact ⟨hxy.1.trans hyz.1, fun hz h => hyz.2 hz (hxy.2 (hyz.1.trans hz) h)⟩
    · obtain ⟨p, hplace, rfl⟩ := Disk.makeDirectory_ok_iff.1 hmake
      have hnone := Disk.lookup_of_place hplace
      exact ⟨.put (fun old hold => by cases hold.symm.trans hnone), fun hlast h => h.put_left hnone hlast⟩
  exact (hR a).2 hlast h

/-- The second copy of a directory follows the first one. -/
def TreesFollow (last : Disk) (s : Location) (depth : Nat) : Prop :=
  ∀ {source target s' a a' b}, a.disk.WellFormed → a.disk.LeadsTo source s' → s <+: s' →
    (copyTreeIn true depth source target).runOn a = (.ok (), a') → a'.disk.Within last →
      last.Follows s a.disk b.disk →
        ∃ b', (copyTreeIn true depth source target).runOn b = (.ok (), b') ∧ last.Follows s a'.disk b'.disk

section

variable (hlinks : last.tree.NoLinkBelow s) (hbelow : TreesFollow last s depth) (hle : s <+: s')

include hlinks hbelow hle

/-- The second copy of an entry follows the first one. -/
theorem exists_follows_copyEntry (hwell : a.disk.WellFormed) (hleads : a.disk.LeadsTo source s')
    (hn : IsName n) (he : a.disk.tree.lookup (s' ++ [n]) = some e)
    (hrun : (copyEntry true depth n (joinTwo source n) goal).runOn a = (.ok [], a'))
    (hlast : a'.disk.Within last) (h : last.Follows s a.disk b.disk) :
    ∃ b', (copyEntry true depth n (joinTwo source n) goal).runOn b = (.ok [], b') ∧
      last.Follows s a'.disk b'.disk := by
  have hle' : s <+: s' ++ [n] := hle.trans (List.prefix_append s' [n])
  have he' : b.disk.tree.lookup (s' ++ [n]) = some e := (lookup_of_below h.source hle').trans he
  obtain ⟨htaken, hrun⟩ := (copyEntry_ok_iff hleads hn he).1 hrun
  simp only [copyEntry_ok_iff (h.trans_within.leadsTo hleads) hn he', and_iff_right htaken]
  cases e with
  | link link => exact absurd (h.within.tree.lookup_link he) (hlinks _ link hle')
  | directory mode =>
    have hplace := hleads.place_joinTwo hn htaken.2 htaken.1.2
    rw [he] at hplace
    exact hbelow hwell (Disk.leadsTo_of_place hplace) hle' hrun hlast h
  | file mode content =>
    obtain ⟨hnull, p, hcopies, rfl⟩ := hrun
    obtain ⟨x, hx, hfile⟩ := hlast.tree p (.file mode content) (by simp [lookup_put])
    obtain ⟨y, hy, hfile'⟩ := h.outline.tree p x hx
    obtain ⟨mode', content', rfl⟩ := Entry.outline_eq_file_iff.1 (hfile'.trans hfile)
    obtain ⟨hpath, hagain⟩ := hcopies.again h.trans_within he' ⟨mode', content', hy⟩
    refine ⟨b.put p (.file mode content), ⟨?_, p, ?_, rfl⟩, h.put hlast⟩
    · rwa [hpath]
    · rwa [hpath]

/-- The second copy of the entries of a directory follows the first one. -/
theorem exists_follows_chain
    (hchain : Chain (fun n => copyEntry true depth n (joinTwo source n) (joinTwo target n)) names a a')
    (hwell : a.disk.WellFormed) (hleads : a.disk.LeadsTo source s')
    (hnames : ∀ n ∈ names, IsName n ∧ (a.disk.tree.lookup (s' ++ [n])).isSome)
    (hlast : a'.disk.Within last) (h : last.Follows s a.disk b.disk) :
    ∃ b', Chain (fun n => copyEntry true depth n (joinTwo source n) (joinTwo target n)) names b b' ∧
      last.Follows s a'.disk b'.disk := by
  induction hchain generalizing b with
  | nil host => exact ⟨b, .nil b, h⟩
  | @cons n l a mid a' head tail ih =>
    obtain ⟨hn, hsome⟩ := hnames n List.mem_cons_self
    obtain ⟨e, he⟩ := Option.isSome_iff_exists.1 hsome
    obtain ⟨hmid, hwithin⟩ := (extends_copyEntry depth n _ _).of_runOn head hwell
    obtain ⟨-, hrest⟩ := tail.respects extends_respectedByCopies.refl extends_respectedByCopies.trans
      (fun n => extends_copyEntry depth n _ _) hmid
    obtain ⟨b₁, hb₁, hfollows⟩ := exists_follows_copyEntry hlinks hbelow hle hwell hleads hn he head
      (hrest.trans hlast) h
    have hnames' : ∀ m ∈ l, IsName m ∧ (mid.disk.tree.lookup (s' ++ [m])).isSome := fun m hm =>
      (hnames m (List.mem_cons_of_mem n hm)).imp_right hwithin.tree.isSome_lookup
    obtain ⟨b₂, hb₂, hfollows'⟩ := ih hmid (hwithin.leadsTo hleads) hnames' hlast hfollows
    exact ⟨b₂, .cons hb₁ hb₂, hfollows'⟩

end

/-- The second copy sets the permission bits of a directory as the first one does. -/
theorem exists_follows_copyMode (hleads : a.disk.LeadsTo source s') (hle : s <+: s')
    (hgoal : a.disk.leadsToDirectory target) (hrun : (copyMode source target).runOn a = (.ok (), a'))
    (hlast : a'.disk.Within last) (h : last.Follows s a.disk b.disk) :
    ∃ b', (copyMode source target).runOn b = (.ok (), b') ∧ last.Follows s a'.disk b'.disk := by
  obtain ⟨hsource, htarget, status, disk, hstatus, hset, rfl⟩ := copyMode_ok_iff.1 hrun
  have hmode : b.disk.directoryMode (.live s') = a.disk.directoryMode (.live s') := by
    by_cases hroot : s' = []
    · subst hroot
      rfl
    · simp only [Disk.directoryMode, Standpoint.live, entry?_of_ne hroot, lookup_of_below h.source hle]
  have hstatus' : b.disk.status source true = .ok status := by
    rw [← hstatus]
    simp only [Disk.status, if_true, hleads.resolve, (h.trans_within.leadsTo hleads).resolve,
      Outcome.ok_bind, hmode]
  suffices hset' : ∃ disk', b.disk.setMode target status.mode = .ok disk' ∧ last.Follows s disk disk' by
    obtain ⟨disk', hset', hfollows⟩ := hset'
    exact ⟨{ b with disk := disk' }, copyMode_ok_iff.2 ⟨hsource, htarget, status, disk', hstatus', hset', rfl⟩,
      hfollows⟩
  obtain ⟨d, hd⟩ := Disk.leadsToDirectory_iff.1 hgoal
  unfold Disk.setMode at hset ⊢
  rw [hd, Outcome.ok_bind] at hset
  rw [h.trans_within.resolve_directory hd, Outcome.ok_bind]
  dsimp only at hset ⊢
  split at hset
  · next hstays =>
    obtain rfl := Except.ok.inj hset
    exact ⟨b.disk, if_pos hstays, h⟩
  · next hstays =>
    obtain rfl := Except.ok.inj hset
    exact ⟨_, if_neg hstays, h.put hlast⟩

/-- The second copy of a directory without links follows the first one. -/
theorem exists_follows_copyTreeIn (hlinks : last.tree.NoLinkBelow s) (depth : Nat) :
    TreesFollow last s depth := by
  induction depth with
  | zero =>
    intro source target s' a a' b hwell hleads hle hrun hlast h
    obtain ⟨-, disk, hdisk, -⟩ := runOn_change_ok_iff.1 hrun
    cases hdisk
  | succ depth ih =>
    intro source target s' a a' b hwell hleads hle hrun hlast h
    obtain ⟨hnull, a₁, a₂, steps⟩ := exists_treeSteps hwell hleads hrun
    have hlast₂ := steps.within₃.trans hlast
    have hfollows₁ : last.Follows s a₁.disk b.disk := by
      have hmade := follows_makeDirectories target (by rw [steps.make]; exact steps.within₂.trans hlast₂) h
      rwa [steps.make] at hmade
    have hleads₁ := steps.within₁.leadsTo hleads
    obtain ⟨b₂, hchain, hfollows₂⟩ := exists_follows_chain hlinks ih hle steps.chain steps.wellFormed₁ hleads₁
      (steps.names hwell) hlast₂ hfollows₁
    obtain ⟨b₃, hmode, hfollows₃⟩ := exists_follows_copyMode (steps.within₂.leadsTo hleads₁) hle steps.leads₂
      steps.mode hlast hfollows₂
    have hlist : b.disk.listNames source = .ok (a.disk.tree.children s') := by
      rw [(h.trans_within.leadsTo hleads).listNames, children_of_below h.source hle]
    have hmake : (makeDirectories true target).runOn b = (.ok (), b) :=
      runOn_makeDirectories_of_leads ((hlast₂.trans h.outline).leadsToDirectory steps.leads₂)
        steps.hasNull_target
    exact ⟨b₃, copyTreeIn_ok_iff.2 ⟨hnull, _, b, b₂, hlist, hmake, hchain, hmode⟩, hfollows₃⟩

end Request

end Primitives
