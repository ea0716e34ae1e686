import Primitives.Proofs.Files.MadeDirectories
import Primitives.Proofs.Files.RemovedTrees

/-!
# What a copy holds

A directory that is copied to a free place is found there with everything below it, and nothing else has
changed. The entries of the directory are copied one by one, each to a free location below the new
directory, so that what was copied stays as it is and the source is read as it was in the beginning.

A file is copied over the file that its target leads to, if that is another one, and then this file has
its bytes and permission bits.

## Main definitions

* `FileTree.Copied`: a tree that holds a copy and otherwise what it held.
* `FileTree.CopiedUpTo`: a tree on the way to this.
* `FileTree.HasTakenLinks`: links whose targets are taken by calls.

## Main results

* `Request.exists_runOn_copyTreeIn`: a directory is copied to a free place.
* `FileSystem.copy_reproduces`: what is found at the target of a copy, and that nothing else changes.
-/

namespace Primitives

open FileTree PathText

/-! ### Copies of entries -/

namespace FileTree

variable {t u v : FileTree} {s d : Location} {n : Text} {names : List Text} {e : Entry}

/-- A tree that holds at and below `d` what another one holds at and below `s`, and everywhere else what
that one holds. -/
structure Copied (t u : FileTree) (s d : Location) : Prop where
  copy : ∀ q, u.lookup (d ++ q) = t.lookup (s ++ q)
  others : ∀ p, ¬ d <+: p → u.lookup p = t.lookup p

/-- A directory with copies of the entries that have the given names, and none of the others. -/
structure CopiedUpTo (t u : FileTree) (s d : Location) (names : List Text) : Prop where
  directory : ∃ mode, u.lookup d = some (.directory mode)
  done : ∀ n ∈ names, ∀ q, u.lookup (d ++ n :: q) = t.lookup (s ++ n :: q)
  free : ∀ n, n ∉ names → ∀ q, u.lookup (d ++ n :: q) = none
  others : ∀ p, ¬ d <+: p → u.lookup p = t.lookup p

theorem lookup_put_of_not_le (t : FileTree) {p : Location} (hp : ¬ d <+: p) (e : Entry) :
    (t.put d e).lookup p = t.lookup p := by
  rw [lookup_put, if_neg]
  rintro rfl
  exact hp (List.prefix_refl p)

/-- An entry that is no directory is copied by putting it at a free location. -/
theorem copied_put (ht : t.Closed) (hs : t.lookup s = some e) (he : ∀ mode, e ≠ .directory mode)
    (hroot : s ≠ []) (hfree : ∀ q, t.lookup (d ++ q) = none) : Copied t (t.put d e) s d := by
  have hbelow : ∀ q, q ≠ [] → t.lookup (s ++ q) = none := fun q hq => by
    refine ht.lookup_below (fun hdirectory => ?_) hq
    obtain ⟨mode, hmode⟩ := (t.isDirectory_iff_lookup hroot).1 hdirectory
    exact he mode (Option.some.inj (hs.symm.trans hmode))
  refine ⟨fun q => ?_, fun p hp => lookup_put_of_not_le t hp e⟩
  rw [lookup_put]
  by_cases hq : q = []
  · subst hq
    simp [hs]
  · rw [if_neg (by simpa using hq), hfree, hbelow q hq]

namespace CopiedUpTo

/-- A new directory at a free location holds no copies yet. -/
theorem nil (hfree : ∀ q, t.lookup (d ++ q) = none) (mode : Nat) :
    CopiedUpTo t (t.put d (.directory mode)) s d [] where
  directory := ⟨mode, by rw [lookup_put, if_pos rfl]⟩
  done := fun _ h => nomatch h
  free n _ q := by rw [lookup_put, if_neg (by simp), hfree]
  others _ hp := lookup_put_of_not_le t hp _

/-- The copy of one more entry. -/
theorem concat (h : CopiedUpTo t u s d names) (hds : ¬ d <+: s) (hsd : ¬ s <+: d)
    (hcopied : Copied u v (s ++ [n]) (d ++ [n])) : CopiedUpTo t v s d (names ++ [n]) := by
  have hapart : ∀ m q, m ≠ n → v.lookup (d ++ m :: q) = u.lookup (d ++ m :: q) := fun m q hne =>
    hcopied.others _ fun hle => by
      rw [List.prefix_append_right_inj, List.cons_prefix_cons] at hle
      exact hne hle.1.symm
  refine ⟨?_, fun m hm q => ?_, fun m hm q => ?_, fun p hp => ?_⟩
  · obtain ⟨mode, hmode⟩ := h.directory
    refine ⟨mode, (hcopied.others d fun hle => ?_).trans hmode⟩
    have hlength := hle.length_le
    rw [List.length_append, List.length_singleton] at hlength
    omega
  · by_cases hne : m = n
    · subst hne
      have hcopy := hcopied.copy q
      rw [List.append_assoc, List.singleton_append, List.append_assoc, List.singleton_append] at hcopy
      rw [hcopy, h.others _ (not_prefix_append hds hsd _)]
    · rw [hapart m q hne]
      refine h.done m ?_ q
      simpa [hne] using hm
  · have hne : m ≠ n := by
      rintro rfl
      simp at hm
    rw [hapart m q hne]
    exact h.free m (fun hmem => hm (List.mem_append_left _ hmem)) q
  · rw [hcopied.others p fun hle => hp ((List.prefix_append d [n]).trans hle), h.others p hp]

/-- A directory with copies of all entries is a copy when it has the same permission bits. -/
theorem copied (h : CopiedUpTo t u s d (t.children s)) (ht : t.Closed) {mode : Nat}
    (hs : t.lookup s = some (.directory mode)) : Copied t (u.put d (.directory mode)) s d := by
  refine ⟨fun q => ?_, fun p hp => ?_⟩
  · rw [lookup_put]
    cases q with
    | nil => simp [hs]
    | cons n q =>
      rw [if_neg (by simp)]
      by_cases hn : n ∈ t.children s
      · exact h.done n hn q
      · have hnone : t.lookup (s ++ n :: q) = none := by
          by_contra hne
          rw [List.append_cons] at hne
          refine hn (mem_children.2 ?_)
          by_cases hq : q = []
          · simpa [hq] using Option.isSome_iff_ne_none.2 hne
          · obtain ⟨mode', hmode'⟩ := (isDirectory_iff_lookup _ (by simp)).1
              (ht.isDirectory_of_append hq (Option.isSome_iff_ne_none.2 hne))
            simp [hmode']
        rw [h.free n hn, hnone]
  · rw [lookup_put_of_not_le u hp, h.others p hp]

end CopiedUpTo

/-- The links at and below a location lead to texts that are taken by calls. -/
def HasTakenLinks (t : FileTree) (s : Location) : Prop :=
  ∀ q link, t.lookup (s ++ q) = some (.link link) → link ≠ [] ∧ Request.IsTaken link

end FileTree

/-! ### Free places -/

namespace Disk

variable {disk : Disk} {path : Text} {p : Location}

/-- A free place can be opened, by a path that asks for no directory. -/
theorem resolve_write_of_place_none (hplace : disk.place path = .ok (p, none))
    (hslash : asksForDirectory path = false) : disk.resolve .write path = .ok (.absent p) := by
  obtain ⟨links, parent, n, -, -, -, hn, hlookup, hresolve⟩ := exists_walk_of_place hplace
  rw [hresolve, walk_name _ _ _ _ hn, hlookup, hslash]
  rfl

theorem copyPath_of_place_none (hplace : disk.place path = .ok (p, none)) (source : Text) :
    disk.copyPath source path = path := by
  rw [copyPath, if_neg]
  rw [leadsToDirectory_iff, resolve_of_place_none Purpose.look_ne_write hplace]
  rintro ⟨_, h⟩
  split at h <;> cases h

end Disk

/-! ### Copies of directories -/

/-- A directory with a free place to copy it to, which does not lie below it: the paths of its entries are
taken by calls, and those of the copies and the targets of links as well. -/
structure Disk.TakesCopy (disk : Disk) (source target : Text) (s d : Location) : Prop where
  wellFormed : disk.WellFormed
  leads : disk.LeadsTo source s
  place : disk.place target = .ok (d, none)
  apart : ¬ s <+: d
  takesSource : disk.tree.TakesBelow source s
  takesTarget : disk.tree.TakesBelow target s
  takesLinks : disk.tree.HasTakenLinks s

namespace Disk.TakesCopy

variable {disk disk' : Disk} {source target : Text} {s d : Location} (h : disk.TakesCopy source target s d)

include h

theorem free (q : Location) : disk.tree.lookup (d ++ q) = none := by
  obtain ⟨parent, n, rfl, -, -, hnone⟩ := place_spec h.wellFormed h.place
  by_cases hq : q = []
  · simpa [hq] using hnone.symm
  · exact h.wellFormed.tree.closed.lookup_below (not_isDirectory_of_none (by simp) hnone.symm) hq

theorem isDirectory_source : disk.tree.isDirectory s :=
  resolve_isIn h.wellFormed h.leads.resolve

theorem source_ne_nil : s ≠ [] := by
  rintro rfl
  exact h.apart (List.nil_prefix)

theorem exists_mode : ∃ mode, disk.tree.lookup s = some (.directory mode) :=
  (isDirectory_iff_lookup _ h.source_ne_nil).1 h.isDirectory_source

/-- The source does not lie at or below the free place. -/
theorem apart' : ¬ d <+: s := by
  rintro ⟨q, rfl⟩
  obtain ⟨mode, hmode⟩ := h.exists_mode
  exact nomatch hmode.symm.trans (h.free q)

theorem hasNull_source : Request.hasNull source = false := by
  obtain ⟨mode, hmode⟩ := h.exists_mode
  exact (h.takesSource [] (by simp [hmode])).1.1

theorem hasNull_target : Request.hasNull target = false := by
  obtain ⟨mode, hmode⟩ := h.exists_mode
  exact (h.takesTarget [] (by simp [hmode])).1.1

end Disk.TakesCopy

namespace Request

variable {host host' mid : Host} {source target path : Text} {s d p : Location} {depth : Nat} {n : Text}
  {names : List Text} {existing : Bool}

/-- A copy of a directory on its way: the entries with the given names have been copied. -/
structure CopiedPart (host mid : Host) (target : Text) (s d : Location) (names : List Text) : Prop where
  wellFormed : mid.disk.WellFormed
  within : host.disk.Within mid.disk
  leads : mid.disk.LeadsTo target d
  copied : CopiedUpTo host.disk.tree mid.disk.tree s d names

section

variable (h : host.disk.TakesCopy source target s d)

include h

/-- The new directory is there and holds nothing. -/
theorem copiedPart_nil : CopiedPart host (host.put d (.directory directoryMode)) target s d [] := by
  have hwithin : host.disk.Within (host.put d (.directory directoryMode)).disk :=
    .put fun old hold => nomatch hold.symm.trans (Disk.lookup_of_place h.place)
  have hplace := hwithin.place h.place
  rw [Host.tree_put, lookup_put, if_pos rfl] at hplace
  exact ⟨h.wellFormed.put_of_absent (h.wellFormed.isIn_of_place h.place) _, hwithin,
    Disk.leadsTo_of_place hplace, .nil h.free _⟩

theorem CopiedPart.lookup_source (hpart : CopiedPart host mid target s d names) (q : Location) :
    mid.disk.tree.lookup (s ++ q) = host.disk.tree.lookup (s ++ q) :=
  hpart.copied.others _ (not_prefix_append h.apart' h.apart q)

/-- The next entry has a free place to be copied to. -/
theorem CopiedPart.place_goal (hpart : CopiedPart host mid target s d names)
    (hn : n ∈ host.disk.tree.children s) (hnew : n ∉ names) :
    mid.disk.place (joinTwo target n) = .ok (d ++ [n], none) := by
  obtain ⟨⟨-, hlength⟩, hshort⟩ := h.takesTarget [n] (mem_children.1 hn)
  rw [hpart.leads.place_joinTwo (h.wellFormed.tree.name_of_mem_children hn)
    (hshort n List.mem_cons_self) hlength, hpart.copied.free n hnew []]

/-- A directory in a directory that is copied can be copied itself. -/
theorem CopiedPart.child (hpart : CopiedPart host mid target s d names)
    (hn : n ∈ host.disk.tree.children s) (hnew : n ∉ names)
    (hdirectory : host.disk.tree.isDirectory (s ++ [n])) :
    mid.disk.TakesCopy (joinTwo source n) (joinTwo target n) (s ++ [n]) (d ++ [n]) := by
  have hlookup : ∀ q, mid.disk.tree.lookup (s ++ [n] ++ q) = host.disk.tree.lookup (s ++ [n] ++ q) := by
    intro q
    rw [List.append_assoc]
    exact hpart.lookup_source h ([n] ++ q)
  refine ⟨hpart.wellFormed, hpart.within.leadsTo (h.leads.child h.wellFormed h.takesSource hdirectory),
    hpart.place_goal h hn hnew, fun hle => ?_, ?_, ?_, ?_⟩
  · rcases List.prefix_concat_iff.1 hle with heq | hle
    · obtain ⟨rfl, -⟩ := List.append_inj' heq rfl
      exact h.apart (List.prefix_refl s)
    · exact h.apart ((List.prefix_append s [n]).trans hle)
  · exact (h.takesSource.child n).of_part fun q hq => by rwa [hlookup] at hq
  · exact (h.takesTarget.child n).of_part fun q hq => by rwa [hlookup] at hq
  · intro q link hlink
    rw [hlookup, List.append_assoc] at hlink
    exact h.takesLinks _ link hlink

/-- The next entry is copied, if this holds for the directories below. -/
theorem CopiedPart.concat (hpart : CopiedPart host mid target s d names)
    (hn : n ∈ host.disk.tree.children s) (hnew : n ∉ names)
    (hbelow : mid.disk.TakesCopy (joinTwo source n) (joinTwo target n) (s ++ [n]) (d ++ [n]) →
      ∃ next, (copyTreeIn existing depth (joinTwo source n) (joinTwo target n)).runOn mid = (.ok (), next) ∧
        Copied mid.disk.tree next.disk.tree (s ++ [n]) (d ++ [n])) :
    ∃ next, (copyEntry existing depth n (joinTwo source n) (joinTwo target n)).runOn mid = (.ok [], next) ∧
      CopiedPart host next target s d (names ++ [n]) := by
  obtain ⟨e, he⟩ := Option.isSome_iff_exists.1 (mem_children.1 hn)
  have hlookup : mid.disk.tree.lookup (s ++ [n]) = some e := (hpart.lookup_source h [n]).trans he
  have hname := h.wellFormed.tree.name_of_mem_children hn
  have hgoal := hpart.place_goal h hn hnew
  have hslash : Disk.asksForDirectory (PathText.joinTwo target n) = false := Disk.asksForDirectory_joinTwo hname
  have hfree : ∀ q, mid.disk.tree.lookup (d ++ [n] ++ q) = none := fun q => by
    simpa using hpart.copied.free n hnew q
  obtain ⟨htaken, hshort⟩ := h.takesSource [n] (mem_children.1 hn)
  have hnull := (h.takesTarget [n] (mem_children.1 hn)).1.1
  have hput : ∀ x, (∀ mode, e ≠ .directory mode) → x = mid.put (d ++ [n]) e →
      Copied mid.disk.tree x.disk.tree (s ++ [n]) (d ++ [n]) := by
    rintro x hfile rfl
    exact copied_put hpart.wellFormed.tree.closed hlookup hfile (by simp) hfree
  obtain ⟨next, hrun, hcopied⟩ : ∃ next,
      (copyEntry existing depth n (joinTwo source n) (joinTwo target n)).runOn mid = (.ok [], next) ∧
        Copied mid.disk.tree next.disk.tree (s ++ [n]) (d ++ [n]) := by
    simp only [copyEntry_ok_iff (hpart.within.leadsTo h.leads) hname hlookup]
    have htaken' : IsTaken (joinTwo source n) ∧ isLongName n = false := ⟨htaken, hshort n List.mem_cons_self⟩
    simp only [and_iff_right htaken']
    cases e with
    | link link =>
      obtain ⟨hne, hlinkNull, hlinkShort⟩ := h.takesLinks [n] link he
      exact ⟨_, ⟨hlinkNull, hnull, _, Disk.makeLink_of_place_none hgoal hslash hne hlinkShort, rfl⟩,
        hput _ (fun _ heq => nomatch heq) rfl⟩
    | directory mode =>
      exact hbelow (hpart.child h hn hnew ((isDirectory_iff_lookup _ (by simp)).2 ⟨mode, he⟩))
    | file mode content =>
      rw [Disk.copyPath_of_place_none hgoal]
      have hplace := (hpart.within.leadsTo h.leads).place_joinTwo hname (hshort n List.mem_cons_self) htaken.2
      rw [hlookup] at hplace
      have hfile := Disk.resolve_of_place_file Purpose.look_ne_write hplace
      rw [Disk.asksForDirectory_joinTwo hname] at hfile
      have hapart : d ++ [n] ≠ s ++ [n] := fun heq => h.apart (List.append_cancel_right heq ▸ List.prefix_refl s)
      exact ⟨_, ⟨hnull, d ++ [n], ⟨hfile, ⟨_, Disk.resolve_write_of_place_none hgoal hslash, rfl⟩, hapart⟩, rfl⟩,
        hput _ (fun _ heq => nomatch heq) rfl⟩
  obtain ⟨hwell, hwithin⟩ := extends_respectedByCopies.copyEntry
    (extends_respectedByCopies.copyTreeIn existing depth) n (joinTwo source n) (joinTwo target n) mid hpart.wellFormed
  rw [hrun] at hwell hwithin
  exact ⟨next, hrun, hwell, hpart.within.trans hwithin, hwithin.leadsTo hpart.leads,
    hpart.copied.concat h.apart' h.apart hcopied⟩

/-- All entries are copied one after another, if this holds for the directories below. -/
theorem exists_chain_of_copiedPart
    (hbelow : ∀ mid n, mid.disk.TakesCopy (joinTwo source n) (joinTwo target n) (s ++ [n]) (d ++ [n]) →
      n ∈ host.disk.tree.children s →
      ∃ next, (copyTreeIn existing depth (joinTwo source n) (joinTwo target n)).runOn mid = (.ok (), next) ∧
        Copied mid.disk.tree next.disk.tree (s ++ [n]) (d ++ [n]))
    {done rest : List Text} (hnames : host.disk.tree.children s = done ++ rest)
    (hpart : CopiedPart host mid target s d done) :
    ∃ last, Chain (fun n => copyEntry existing depth n (joinTwo source n) (joinTwo target n)) rest mid last ∧
      CopiedPart host last target s d (host.disk.tree.children s) := by
  induction rest generalizing done mid with
  | nil =>
    rw [List.append_nil] at hnames
    exact ⟨mid, .nil mid, hnames ▸ hpart⟩
  | cons n rest ih =>
    have hn : n ∈ host.disk.tree.children s := by simp [hnames]
    have hnew : n ∉ done := by
      have hnodup := nodup_children h.wellFormed.tree.nodup s
      rw [hnames, List.nodup_append] at hnodup
      exact fun hmem => hnodup.2.2 n hmem n List.mem_cons_self rfl
    obtain ⟨next, hrun, hnext⟩ := hpart.concat h hn hnew fun hcopy => hbelow mid n hcopy hn
    obtain ⟨last, hchain, hlast⟩ := ih (by rw [hnames, List.append_assoc]; rfl) hnext
    exact ⟨last, .cons hrun hchain, hlast⟩

/-- The permission bits of a directory are set behind the copies of its entries. -/
theorem CopiedPart.runOn_copyMode (hpart : CopiedPart host mid target s d (host.disk.tree.children s)) :
    ∃ last, (copyMode source target).runOn mid = (.ok (), last) ∧
      Copied host.disk.tree last.disk.tree s d := by
  obtain ⟨mode, hmode⟩ := h.exists_mode
  have hsource : mid.disk.tree.lookup s = some (.directory mode) := by
    simpa [hmode] using hpart.lookup_source h []
  have hstatus : mid.disk.status source true = .ok (.directory mode) := by
    simp [Disk.status, (hpart.within.leadsTo h.leads).resolve, Disk.directoryMode, Standpoint.live,
      entry?_of_ne h.source_ne_nil, hsource]
  have htarget : d ≠ [] := by
    rintro rfl
    exact h.apart' List.nil_prefix
  have hset : mid.disk.setMode target mode = .ok (mid.put d (.directory mode)).disk := by
    simp [Disk.setMode, hpart.leads.resolve, Standpoint.live, htarget]
    rfl
  exact ⟨_, copyMode_ok_iff.2 ⟨h.hasNull_source, h.hasNull_target, _, _, hstatus, hset, rfl⟩,
    hpart.copied.copied h.wellFormed.tree.closed hmode⟩

end

/-- A directory is copied to a free place, by as many levels as the length of its path leaves. -/
theorem exists_runOn_copyTreeIn (h : host.disk.TakesCopy source target s d)
    (hdepth : pathLimit < (Utf8.encode source).length + depth) :
    ∃ last, (copyTreeIn existing depth source target).runOn host = (.ok (), last) ∧
      Copied host.disk.tree last.disk.tree s d := by
  -- The path of the source gets longer with each level, and stays within its limit.
  induction depth generalizing host source target s d with
  | zero => exact absurd h.leads.short (by omega)
  | succ depth ih =>
    obtain ⟨mid, hchain, hpart⟩ := exists_chain_of_copiedPart h (fun mid n hcopy hn => by
      have hlonger := length_lt_joinTwo source (h.wellFormed.tree.name_of_mem_children hn)
      exact ih hcopy (by omega)) rfl (copiedPart_nil h)
    obtain ⟨last, hmode, hcopied⟩ := hpart.runOn_copyMode h
    exact ⟨last, copyTreeIn_ok_iff.2 ⟨h.hasNull_source, _, _, mid, h.leads.listNames,
      runOn_makeDirectories_of_place h.place h.hasNull_target existing, hchain, hmode⟩, hcopied⟩

/-- A file is not copied onto itself. -/
theorem copyFileAs_same_fails {mode mode' : Nat} {content content' : Bytes}
    (hsource : host.disk.resolve .look source = .ok (.file s mode content))
    (hgoal : host.disk.resolve .look (host.disk.copyPath source target) = .ok (.file s mode' content'))
    (shown : Text) : (copyFileAs shown source target).Fails host := by
  have hsame : (isSameTarget source (host.disk.copyPath source target)).Fails host ∨
      (isSameTarget source (host.disk.copyPath source target)).runOn host = (.ok true, host) := by
    have hstatus : host.disk.status source true = .ok (.file mode content.length) := by
      simp [Disk.status, hsource]
    rw [Fails, runOn_isSameTarget, hstatus]
    by_cases hnull : hasNull source
    · exact .inl ⟨_, by rw [if_pos hnull]⟩
    · by_cases hnull' : hasNull (host.disk.copyPath source target)
      · exact .inl ⟨_, by rw [if_neg hnull, if_pos hnull']⟩
      · refine .inr ?_
        rw [if_neg hnull, if_neg hnull']
        simp [Disk.sameTarget, hsource, hgoal, Except.toOption]
  refine fails_bind_of_ok (runOn_copyTarget source target host) (Fails.bind ?_ _)
  rcases hsame with hfails | htrue
  · exact hfails.bind _
  · exact fails_bind_of_ok htrue (fails_throw _)

end Request

/-! ### Copies of a program -/

namespace FileSystem

variable {host : Host} {source target : Text}

theorem not_leadsToDirectory_of_file {disk : Disk} {s : Location} {mode : Nat} {content : Bytes}
    (h : disk.resolve .look source = .ok (.file s mode content)) : ¬ disk.leadsToDirectory source := by
  rw [Disk.leadsToDirectory_iff]
  rintro ⟨d, hd⟩
  cases h.symm.trans hd

/-- A directory is copied to a free place with everything below it. -/
theorem run_copy_of_takesCopy {s d : Location} (h : host.disk.TakesCopy source target s d) :
    ((copy source target).run host).1 = true ∧
      Copied host.disk.tree ((copy source target).run host).2.disk.tree s d := by
  obtain ⟨host₁, hdisk, hanswer, hafter⟩ := run_copy source target host
  rw [← hdisk] at h
  have hleads := Disk.leadsToDirectory_iff.2 ⟨_, h.leads.resolve⟩
  obtain ⟨last, hrun, hcopied⟩ :=
    Request.exists_runOn_copyTreeIn h (Nat.lt_add_left _ (Nat.lt_succ_self pathLimit))
  rw [copyRequest, ← hdisk, if_pos ⟨h.hasNull_source, hleads⟩, Request.copyTree, hrun] at hanswer hafter
  rw [hdisk] at hcopied
  exact ⟨hanswer, hafter ▸ hcopied⟩

/-- A copy reproduces its source and touches nothing else. A directory is copied to a free place, with
everything below it: then the same is found at and below the target, and everything else is what it was. A
file is not copied onto itself; where a copy of it succeeds, the file that its target leads to has its bytes
and permission bits, and everything else is what it was. -/
theorem copy_reproduces (host : Host) (source target : Text) :
    let after := (copy source target).run host
    let goal := host.disk.copyPath source target
    (∀ s d, host.disk.TakesCopy source target s d →
      after.1 = true ∧ Copied host.disk.tree after.2.disk.tree s d) ∧
    ∀ s mode content, host.disk.resolve .look source = .ok (.file s mode content) →
      ((∃ mode' content', host.disk.resolve .look goal = .ok (.file s mode' content')) →
        after.1 = false ∧ after.2.disk = host.disk) ∧
      (after.1 = true → ∃ p, after.2.disk.resolve .look goal = .ok (.file p mode content) ∧
        ∀ q, q ≠ p → after.2.disk.tree.lookup q = host.disk.tree.lookup q) := by
  intro after goal
  refine ⟨fun s d h => run_copy_of_takesCopy h,
    fun s mode content hsource => ⟨fun ⟨mode', content', hgoal⟩ => ?_, fun hsuccess => ?_⟩⟩
  · have hother := not_leadsToDirectory_of_file hsource
    obtain ⟨host₁, hdisk, hanswer, hafter⟩ := run_copy source target host
    have hsame : host₁.disk.resolve .look (host₁.disk.copyPath source target) =
        .ok (.file s mode' content') := by
      rw [hdisk]
      exact hgoal
    rw [← hdisk] at hsource
    obtain ⟨e, hrun⟩ := (Request.copyFileAs_same_fails hsource hsame source.quoted).discard
    rw [copyRequest, if_neg fun h => hother h.2, Request.copyFile, hrun] at hanswer hafter
    exact ⟨hanswer, hafter.trans hdisk⟩
  · have hother := not_leadsToDirectory_of_file hsource
    obtain ⟨-, -, s', mode', content', p, hcopies, hafter⟩ := (run_copy_file_iff hother).1 ⟨hsuccess, rfl⟩
    cases hsource.symm.trans hcopies.source
    obtain ⟨found, hopens, hopened⟩ := hcopies.goal
    have hwithin : host.disk.Within { host.disk with tree := host.disk.tree.put p (.file mode content) } :=
      .put_of_opened hopens hopened
    rw [hafter]
    exact ⟨p, hwithin.resolve (Disk.resolve_look_of_write hopens) (.opened hopened (by simp [lookup_put])),
      fun q hq => by rw [lookup_put, if_neg hq]⟩

/-- A disk with a directory that holds one entry. -/
def directoryWith (n : Text) (e : Entry) : Disk :=
  ⟨(FileTree.empty.put [['d']] (.directory FileTree.directoryMode)).put [['d'], n] e, .root⟩

theorem lookup_directoryWith (n : Text) (e : Entry) (p : Location) : (directoryWith n e).tree.lookup p =
    if p = [['d'], n] then some e else if p = [['d']] then some (.directory directoryMode) else none := by
  rw [directoryWith, lookup_put, lookup_put]
  rfl

theorem takesCopy_directoryWith {n : Text} {e : Entry} (hn : IsName n) (hlong : isLongName n = false)
    (hsource : Request.IsTaken (joinTwo ['d'] n)) (htarget : Request.IsTaken (joinTwo ['e'] n))
    (hlink : ∀ link, e = .link link → link ≠ [] ∧ Request.IsTaken link) :
    (directoryWith n e).TakesCopy ['d'] ['e'] [['d']] [['e']] := by
  have hdirectory := Disk.WellFormed.empty.put_of_absent ⟨[], ['d'], rfl, by decide, rfl, rfl⟩
    (.directory FileTree.directoryMode)
  have hd : (directoryWith n e).tree.lookup [['d']] = some (.directory directoryMode) := by
    simp [lookup_directoryWith]
  have he : (directoryWith n e).tree.lookup [['e']] = none := by simp [lookup_directoryWith]
  have hbelow : ∀ q, ((directoryWith n e).tree.lookup ([['d']] ++ q)).isSome → q = [] ∨ q = [n] := by
    intro q hq
    by_contra hother
    simp_all [lookup_directoryWith]
  have hplace : (directoryWith n e).place ['d'] = .ok ([['d']], some (.directory directoryMode)) := by
    rw [Disk.place_name rfl (by decide) (by decide), ← hd]
    rfl
  have hgoal : (directoryWith n e).place ['e'] = .ok ([['e']], none) := by
    rw [Disk.place_name rfl (by decide) (by decide), ← he]
    rfl
  refine ⟨hdirectory.put_of_absent ⟨[['d']], n, rfl, hn, rfl, by rw [lookup_put]; simp; rfl⟩ e,
    Disk.leadsTo_of_place hplace, hgoal, by decide, ?_, ?_, ?_⟩
  · intro q hq
    obtain rfl | rfl := hbelow q hq
    · exact ⟨⟨by decide, by decide⟩, by simp⟩
    · exact ⟨hsource, by simpa using hlong⟩
  · intro q hq
    obtain rfl | rfl := hbelow q hq
    · exact ⟨⟨by decide, by decide⟩, by simp⟩
    · exact ⟨htarget, by simpa using hlong⟩
  · intro q link hq
    obtain rfl | rfl := hbelow q (Option.isSome_of_eq_some hq)
    · cases hq.symm.trans hd
    · simp only [List.singleton_append, lookup_directoryWith, if_true, Option.some.injEq] at hq
      exact hlink link hq

/-- A directory with a file is copied to a new name, and a file to a new name, but not onto itself. -/
theorem copy_reproduces_names :
    let disk := directoryWith ['x'] (.file fileMode [])
    ((copy ['d'] ['e']).run (.ofDisk disk)).1 = true ∧
      ((copy ['d'] ['e']).run (.ofDisk disk)).2.disk.tree.lookup [['e'], ['x']] = some (.file fileMode []) ∧
      ((copy ['a'] ['a']).run (.ofDisk fileAndDirectory)).1 = false ∧
      ((copy ['a'] ['b']).run (.ofDisk fileAndDirectory)).1 = true ∧
      ∃ p, ((copy ['a'] ['b']).run (.ofDisk fileAndDirectory)).2.disk.resolve .look ['b'] =
        .ok (.file p fileMode []) := by
  intro disk
  have htakes : disk.TakesCopy ['d'] ['e'] [['d']] [['e']] :=
    takesCopy_directoryWith (by decide) (by decide) ⟨by decide, by decide⟩ ⟨by decide, by decide⟩
      fun link heq => nomatch heq
  obtain ⟨hsuccess, hcopied⟩ := (copy_reproduces (.ofDisk disk) ['d'] ['e']).1 _ _ htakes
  have hfile : fileAndDirectory.resolve .look ['a'] = .ok (.file [['a']] fileMode []) := by
    rw [Disk.resolve_of_place_file Purpose.look_ne_write
      (@Disk.place_name fileAndDirectory _ rfl (by decide) (by decide))]
    rfl
  have hother := not_leadsToDirectory_of_file hfile
  have hitself : fileAndDirectory.copyPath ['a'] ['a'] = ['a'] := if_neg hother
  obtain ⟨hfailure, -⟩ := ((copy_reproduces (.ofDisk fileAndDirectory) ['a'] ['a']).2 _ _ _ hfile).1
    ⟨_, _, (congrArg (fileAndDirectory.resolve .look) hitself).trans hfile⟩
  have hfree : fileAndDirectory.place ['b'] = .ok ([['b']], none) :=
    Disk.place_name rfl (by decide) (by decide)
  have hpath := Disk.copyPath_of_place_none hfree ['a']
  obtain ⟨hnew, -⟩ := (@run_copy_file_iff (.ofDisk fileAndDirectory) _ ['b'] _ hother).2
    ⟨by decide, (congrArg Request.hasNull hpath).trans (by decide), [['a']], fileMode, [], [['b']],
      ⟨hfile, ⟨_, (congrArg (fileAndDirectory.resolve .write) hpath).trans
        (Disk.resolve_write_of_place_none hfree (by decide)), rfl⟩, by decide⟩, rfl⟩
  obtain ⟨p, hresolve, -⟩ := ((copy_reproduces (.ofDisk fileAndDirectory) ['a'] ['b']).2 _ _ _ hfile).2 hnew
  rw [show (Host.ofDisk fileAndDirectory).disk.copyPath ['a'] ['b'] = ['b'] from hpath] at hresolve
  exact ⟨hsuccess, (hcopied.copy [['x']]).trans (by decide), hfailure, hnew, p, hresolve⟩

end FileSystem

end Primitives
