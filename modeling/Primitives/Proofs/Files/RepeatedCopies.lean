import Primitives.Proofs.Files.CopiedSources
import Primitives.Proofs.Files.SeparateTargets

/-!
# Repeated copies

A copy overwrites its destination, so it should be possible to repeat it. This holds for files: the second
copy puts the same at the same location. It holds for directories exactly if they hold no links, as long as
the first copy leaves the source as it is. A link at the source is copied by making a new one, so that the
second copy cannot succeed without adding an entry.

## Main definitions

* `FileSystem.CopiesAgain`: a copy that succeeds and changes nothing.

## Main results

* `Request.exists_new_of_copied_link`: a link is copied to a new entry.
* `FileSystem.copy_repeats_iff`: when a copy can be repeated.
-/

namespace Primitives

open FileTree PathText

/-! ### Links -/

namespace Request

variable {a a' : Host} {source target : Text} {s : Location} {depth : Nat} {q : Location} {link : Text}

/-- A link below a directory is copied to a new entry. -/
theorem exists_new_of_copied_link (hdisk : a.disk.WellFormed) (hleads : a.disk.LeadsTo source s)
    (hq : q ≠ []) (hlink : a.disk.tree.lookup (s ++ q) = some (.link link))
    (hrun : (copyTreeIn true depth source target).runOn a = (.ok (), a')) :
    ∃ p, a.disk.tree.lookup p = none ∧ (a'.disk.tree.lookup p).isSome := by
  induction depth generalizing source target s a a' q with
  | zero =>
    obtain ⟨-, disk, hcall, -⟩ := runOn_change_ok_iff.1 hrun
    cases hcall
  | succ depth ih =>
    obtain ⟨-, a₁, a₂, steps⟩ := exists_treeSteps hdisk hleads hrun
    obtain ⟨n, r, rfl⟩ := List.exists_cons_of_ne_nil hq
    have hsplit : s ++ n :: r = s ++ [n] ++ r := List.append_cons s n r
    have hchild : (a.disk.tree.lookup (s ++ [n])).isSome := by
      by_cases hr : r = []
      · subst hr
        exact Option.isSome_of_eq_some hlink
      · rw [hsplit] at hlink
        obtain ⟨mode, hmode⟩ := (isDirectory_iff_lookup _ (by simp)).1
          (hdisk.tree.closed.isDirectory_of_append hr (Option.isSome_of_eq_some hlink))
        exact Option.isSome_of_eq_some hmode
    have hn := hdisk.tree.name_of_mem_children (mem_children.2 hchild)
    obtain ⟨mid, mid', hfront, hcopy, hrest⟩ := steps.chain.exists_of_mem extends_respectedByCopies.refl
      extends_respectedByCopies.trans (fun n => extends_copyEntry depth n _ _) (mem_children.2 hchild)
    obtain ⟨hmid, hwithin⟩ := hfront steps.wellFormed₁
    have hbefore := steps.within₁.trans hwithin
    obtain ⟨hmid', -⟩ := (extends_copyEntry depth n _ _).of_runOn hcopy hmid
    have hbehind := (hrest hmid').2.trans steps.within₃
    have hlink' := hbefore.tree.lookup_link hlink
    -- what is new for the copy of this entry is so for the whole copy
    suffices hnew : ∃ p, mid.disk.tree.lookup p = none ∧ (mid'.disk.tree.lookup p).isSome by
      obtain ⟨p, hnone, hsome⟩ := hnew
      refine ⟨p, ?_, hbehind.tree.isSome_lookup hsome⟩
      by_contra hne
      exact nomatch hnone ▸ hbefore.tree.isSome_lookup (Option.isSome_iff_ne_none.2 hne)
    have hleads' := hbefore.leadsTo hleads
    by_cases hr : r = []
    · subst hr
      obtain ⟨-, -, -, disk, hmake, rfl⟩ := (copyEntry_ok_iff hleads' hn hlink').1 hcopy
      obtain ⟨p, hplace, -, rfl⟩ := Disk.makeLink_ok hmake
      exact ⟨p, Disk.lookup_of_place hplace, by simp [lookup_put]⟩
    · rw [hsplit] at hlink'
      obtain ⟨mode, hmode⟩ := (isDirectory_iff_lookup _ (by simp)).1
        (hmid.tree.closed.isDirectory_of_append hr (Option.isSome_of_eq_some hlink'))
      obtain ⟨htaken, hcopy⟩ := (copyEntry_ok_iff hleads' hn hmode).1 hcopy
      have hplace := hleads'.place_joinTwo hn htaken.2 htaken.1.2
      rw [hmode] at hplace
      exact ih hmid (Disk.leadsTo_of_place hplace) hr hlink' hcopy

end Request

/-! ### Copies of a program -/

namespace FileSystem

variable {host once : Host} {source target : Text} {s d : Location}

/-- A copy that succeeds and leaves the tree as it is. -/
def CopiesAgain (host : Host) (source target : Text) : Prop :=
  ((copy source target).run host).1 = true ∧
    Same ((copy source target).run host).2.disk.tree host.disk.tree

/-- A copy of a directory that succeeds is one of its tree. -/
theorem exists_copyTree_of_copy (hdirectory : host.disk.leadsToDirectory source)
    (h : ((copy source target).run host).1 = true) :
    ∃ a a', a.disk = host.disk ∧ a'.disk = ((copy source target).run host).2.disk ∧
      (Request.copyTreeIn true (pathLimit + 1) source target).runOn a = (.ok (), a') := by
  obtain ⟨a, hdisk, hanswer, hafter⟩ := run_copy source target host
  rw [hanswer] at h
  rw [hafter]
  rw [copyRequest] at h ⊢
  split at h
  · next htree =>
    rw [if_pos htree]
    rcases hrun : (Request.copyTree true source target).runOn a with ⟨e | _, a'⟩
    · rw [hrun] at h
      cases h
    · exact ⟨a, a', hdisk, rfl, hrun⟩
  · next hfile =>
    rcases hrun : (discard (Request.copyFile source target)).runOn a with ⟨e | _, a'⟩
    · rw [hrun] at h
      cases h
    · obtain ⟨real, hcopy⟩ := Request.runOn_discard_ok_iff.1 hrun
      exact absurd ⟨(Request.copyFileAs_ok_iff.1 hcopy).2.1, hdirectory⟩ hfile

/-- A copy of a directory without links can be repeated if it has left the directory as it was. -/
theorem copiesAgain_of_below (hdisk : host.disk.WellFormed) (hleads : host.disk.LeadsTo source s)
    (hfirst : (copy source target).run host = (true, once)) (hlinks : host.disk.tree.NoLinkBelow s)
    (hkept : once.disk.tree.below s = host.disk.tree.below s) : CopiesAgain once source target := by
  have hdirectory := Disk.leadsToDirectory_iff.2 ⟨_, hleads.resolve⟩
  obtain ⟨a, a', ha, ha', hrun⟩ := exists_copyTree_of_copy hdirectory (congrArg Prod.fst hfirst)
  rw [hfirst] at ha'
  rw [← ha] at hdisk hleads hlinks hkept
  rw [← ha'] at hkept
  obtain ⟨-, hwithin⟩ := (Request.extends_respectedByCopies.copyTreeIn true _ source target).of_runOn hrun hdisk
  obtain ⟨b, hb, hanswer, hafter⟩ := run_copy source target once
  rw [← ha'] at hb
  have hfollows : a'.disk.Follows s a.disk b.disk := by
    rw [hb]
    exact ⟨hwithin, .refl _, .refl _, fun _ => .inl rfl, hkept⟩
  have hlinks' : a'.disk.tree.NoLinkBelow s := fun p link hle => by
    rw [lookup_of_below hkept hle]
    exact hlinks p link hle
  obtain ⟨b', hrun', hfollows'⟩ := Request.exists_follows_copyTreeIn hlinks' (pathLimit + 1) hdisk hleads
    (List.prefix_refl s) hrun (.refl _) hfollows
  have hnull := (Request.resolve_of_copyTreeIn hrun).1
  rw [ha] at hwithin
  have hdirectory' : once.disk.leadsToDirectory source := by
    rw [← ha']
    exact hwithin.leadsToDirectory hdirectory
  rw [copyRequest, if_pos ⟨hnull, hdirectory'⟩, Request.copyTree, hrun'] at hanswer hafter
  refine ⟨hanswer, fun p => ?_⟩
  rw [hafter, ← ha']
  exact (hfollows'.held p).elim id id

/-- A copy of a directory with links cannot be repeated. -/
theorem noLinkBelow_of_copiesAgain (hdisk : host.disk.WellFormed) (hleads : host.disk.LeadsTo source s)
    (h : CopiesAgain host source target) : host.disk.tree.NoLinkBelow s := by
  obtain ⟨hagain, hsame⟩ := h
  have hdirectory := Disk.leadsToDirectory_iff.2 ⟨_, hleads.resolve⟩
  obtain ⟨a, a', ha, ha', hrun⟩ := exists_copyTree_of_copy hdirectory hagain
  rw [← ha] at hdisk hleads hsame ⊢
  rw [← ha'] at hsame
  rintro p link ⟨q, rfl⟩ hlink
  by_cases hq : q = []
  · rw [hq, List.append_nil] at hlink
    obtain ⟨mode, hmode⟩ := (a.disk.tree.isDirectory_iff s).1 (Disk.resolve_isIn hdisk hleads.resolve)
    by_cases hroot : s = []
    · subst hroot
      exact hdisk.tree.below ((isSome_lookup_iff _ _).1 (Option.isSome_of_eq_some hlink))
    · rw [entry?_of_ne hroot, hlink] at hmode
      cases hmode
  · obtain ⟨p, hnone, hsome⟩ := Request.exists_new_of_copied_link hdisk hleads hq hlink hrun
    rw [hsame, hnone] at hsome
    cases hsome

/-- A copy of a file can be repeated. -/
theorem copiesAgain_of_file (hfile : ¬ host.disk.leadsToDirectory source)
    (hfirst : (copy source target).run host = (true, once)) : CopiesAgain once source target := by
  obtain ⟨hnull, hnull', s, mode, content, p, hcopies, hafter⟩ :=
    (run_copy_file_iff hfile).1 ⟨congrArg Prod.fst hfirst, rfl⟩
  rw [hfirst] at hafter
  dsimp only at hafter
  obtain ⟨found, hopens, hopened⟩ := hcopies.goal
  have hwithin : host.disk.Within once.disk := by
    rw [hafter]
    exact .put_of_opened hopens hopened
  have hsource : once.disk.tree.lookup s = some (.file mode content) := by
    rw [hafter, lookup_put, if_neg hcopies.apart.symm]
    exact Disk.lookup_of_resolve_file hcopies.source
  have hcopy : once.disk.tree.lookup p = some (.file mode content) := by
    rw [hafter, lookup_put, if_pos rfl]
  obtain ⟨hpath, hagain⟩ := hcopies.again hwithin hsource ⟨mode, content, hcopy⟩
  rw [← hpath] at hnull' hagain
  obtain ⟨hanswer, hdisk⟩ := (run_copy_file_iff (not_leadsToDirectory_of_file hagain.source)).2
    ⟨hnull, hnull', s, mode, content, p, hagain, rfl⟩
  refine ⟨hanswer, fun q => ?_⟩
  rw [hdisk, lookup_put]
  split
  · next heq => rw [heq, hcopy]
  · rfl

/-- When a copy that succeeded can be repeated. A copy of a file always can. A copy of a directory cannot if
a link lies in it afterwards. If the first copy has left the directory as it was, this is the only exception,
and so it is for every target that lies apart from the source, at a location without links. -/
theorem copy_repeats_iff (hdisk : host.disk.WellFormed)
    (hfirst : (copy source target).run host = (true, once)) :
    (¬ host.disk.leadsToDirectory source → CopiesAgain once source target) ∧
      (host.disk.leadsToDirectory source → ∃ s, host.disk.LeadsTo source s ∧
        (CopiesAgain once source target → once.disk.tree.NoLinkBelow s) ∧
        (once.disk.tree.below s = host.disk.tree.below s →
          (CopiesAgain once source target ↔ host.disk.tree.NoLinkBelow s)) ∧
        ∀ d, host.disk.Lands target d → ¬ s <+: d → ¬ d <+: s → host.disk.tree.NoLinkBelow d →
          (CopiesAgain once source target ↔ host.disk.tree.NoLinkBelow s)) := by
  refine ⟨fun hfile => copiesAgain_of_file hfile hfirst, fun hdirectory => ?_⟩
  obtain ⟨a, a', ha, ha', hrun⟩ := exists_copyTree_of_copy hdirectory (congrArg Prod.fst hfirst)
  rw [hfirst] at ha'
  obtain ⟨-, names, -, -, hnames, -⟩ := Request.copyTreeIn_ok_iff.1 hrun
  rw [ha] at hnames
  obtain ⟨s, hleads⟩ := Disk.exists_leadsTo_of_listNames hnames
  have hextends := (Request.extends_respectedByCopies.copyTreeIn true _ source target).of_runOn hrun
  unfold Host.Extends at hextends
  rw [ha, ha'] at hextends
  obtain ⟨honce, hwithin⟩ := hextends hdisk
  have hnecessary : CopiesAgain once source target → once.disk.tree.NoLinkBelow s :=
    noLinkBelow_of_copiesAgain honce (hwithin.leadsTo hleads)
  have hnecessary' : CopiesAgain once source target → host.disk.tree.NoLinkBelow s :=
    fun h p link hle hlink => hnecessary h p link hle (hwithin.tree.lookup_link hlink)
  refine ⟨s, hleads, hnecessary, fun hkept =>
    ⟨hnecessary', fun hlinks => copiesAgain_of_below hdisk hleads hfirst hlinks hkept⟩,
    fun d hlands hsd hds hlinks' => ⟨hnecessary', fun hlinks => ?_⟩⟩
  refine copiesAgain_of_below hdisk hleads hfirst hlinks ?_
  have hspares := Request.spares_copyTreeIn hsd hds (pathLimit + 1) (ha ▸ hdisk) (ha ▸ hleads)
    (List.prefix_refl s) (ha ▸ hlands) (List.prefix_refl d) (ha ▸ hlinks) (ha ▸ hlinks') hrun
  rw [← ha, ← ha']
  exact hspares.source

/-- The copy of a directory with a file can be repeated, and that of a directory with a link cannot. -/
theorem copy_repeats_iff_names :
    let file := directoryWith ['x'] (.file fileMode [])
    let link := directoryWith ['l'] (.link ['x'])
    ((copy ['d'] ['e']).run (.ofDisk file)).1 = true ∧
      CopiesAgain ((copy ['d'] ['e']).run (.ofDisk file)).2 ['d'] ['e'] ∧
      ((copy ['d'] ['e']).run (.ofDisk link)).1 = true ∧
      ¬ CopiesAgain ((copy ['d'] ['e']).run (.ofDisk link)).2 ['d'] ['e'] := by
  intro file link
  have hrepeats : ∀ disk : Disk, disk.TakesCopy ['d'] ['e'] [['d']] [['e']] →
      ((copy ['d'] ['e']).run (.ofDisk disk)).1 = true ∧
        (CopiesAgain ((copy ['d'] ['e']).run (.ofDisk disk)).2 ['d'] ['e'] ↔
          disk.tree.NoLinkBelow [['d']]) := by
    intro disk h
    obtain ⟨hsuccess, -⟩ := @run_copy_of_takesCopy (.ofDisk disk) _ _ _ _ h
    obtain ⟨s, hleads, -, -, hiff⟩ := (@copy_repeats_iff (.ofDisk disk) _ _ _ h.wellFormed
      (Prod.ext hsuccess rfl)).2 (Disk.leadsToDirectory_iff.2 ⟨_, h.leads.resolve⟩)
    obtain rfl := hleads.unique h.leads
    refine ⟨hsuccess, hiff [['e']] (.place h.place) (by decide) (by decide) ?_⟩
    rintro p link ⟨q, rfl⟩ hlink
    cases hlink.symm.trans (h.free q)
  obtain ⟨hfirst, hfile⟩ := hrepeats file (takesCopy_directoryWith (by decide) (by decide)
    ⟨by decide, by decide⟩ ⟨by decide, by decide⟩ fun link heq => nomatch heq)
  obtain ⟨hfirst', hlink⟩ := hrepeats link (takesCopy_directoryWith (by decide) (by decide)
    ⟨by decide, by decide⟩ ⟨by decide, by decide⟩
    fun link heq => Entry.link.inj heq ▸ ⟨by decide, by decide, by decide⟩)
  refine ⟨hfirst, hfile.2 fun p other _ hother => ?_, hfirst',
    fun h => hlink.1 h [['d'], ['l']] ['x'] (by decide) (by decide)⟩
  rw [lookup_directoryWith] at hother
  split at hother
  · cases hother
  · split at hother <;> cases hother

end FileSystem

end Primitives
