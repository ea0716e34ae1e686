import Mathlib.Data.List.Permutation
import Primitives.Proofs.Files.RemovedTrees

/-!
# Removed links

A plain path that names a link, with or without slashes at its end, goes on to name nothing once the link is
removed: neither does any path that continues it. So the removal of everything at such a path ends with the
link, if it gets there. With a slash at its end the path stands for the directory that the link leads to,
and what is listed below it comes first. All other entries are left as they are exactly if the first entry
that can be removed is the link itself, or none can.

## Main definitions

* `PathText.Continues`: paths continued by further components.
* `Disk.removable`: entries whose removal succeeds.

## Main results

* `Request.reads_walkUpwardsIn`: all listed paths continue that of the directory.
* `Disk.foldl_dropped_of_first`: a removal of many entries begins with the first that can be removed.
* `FileSystem.removeAll_keeps_others_iff`: when the removal at a link leaves all other entries.
-/

namespace Primitives

open FileTree PathText SplitPath

/-! ### Continued paths -/

/-- A path that continues another one by further components. -/
def PathText.Continues (path longer : Text) : Prop :=
  path <+: longer ∧ ∃ more, more ≠ [] ∧ splitComponents longer = splitComponents path ++ more

namespace PathText.Continues

variable {path middle longer : Text}

theorem trans (h : Continues path middle) (h' : Continues middle longer) : Continues path longer := by
  obtain ⟨hbegins, more, hne, hcomponents⟩ := h
  obtain ⟨hbegins', more', -, hcomponents'⟩ := h'
  exact ⟨hbegins.trans hbegins', more ++ more', by simp [hne],
    by rw [hcomponents', hcomponents, List.append_assoc]⟩

theorem joinTwo (path : Text) {n : Text} (hn : IsName n) : Continues path (joinTwo path n) :=
  ⟨prefix_joinTwo path hn.2.1, [n], by simp, splitComponents_joinTwo hn.1 hn.2.1⟩

end PathText.Continues

namespace Request

variable {disk : Disk}

/-- All paths that a walk lists continue that of its directory. -/
theorem reads_walkUpwardsIn (hdisk : disk.WellFormed) (depth : Nat) (path : Text) :
    (walkUpwardsIn depth path).Reads disk fun entries => ∀ entry ∈ entries, Continues path entry.1 := by
  induction depth generalizing path with
  | zero => exact reads_pure (by simp)
  | succ depth ih =>
    let Named := fun p => ∃ n, IsName n ∧ p = PathText.joinTwo path n
    have hnamed : ∀ p, Named p → Continues path p := by
      rintro p ⟨n, hn, rfl⟩
      exact .joinTwo path hn
    unfold walkUpwardsIn
    refine Reads.bind (P := fun names => ∀ ns, names = some ns → ∀ n ∈ ns, IsName n)
      (Reads.tryCatch ?_ fun e => ?_) fun names hnames => ?_
    · refine Reads.bind (reads_look (P := fun ns => ∀ n ∈ ns, IsName n) fun ns hns n hn => ?_)
        fun ns hns => reads_pure fun ns' heq => Option.some.inj heq ▸ hns
      exact Disk.name_of_listNames hdisk hns hn
    · have hreport : ∀ r, (do record r; return none : Request (Option (List Text))).Reads disk
          fun names => ∀ ns, names = some ns → ∀ n ∈ ns, IsName n :=
        fun r => (reads_record r).bind fun _ _ => reads_pure (by simp)
      dsimp only
      split
      · exact Reads.bind (reads_throw (P := fun _ => True) e) fun _ _ => hreport _
      · exact hreport _
    · cases names with
      | none => exact reads_pure (by simp)
      | some names =>
        have hnames := hnames names rfl
        refine Reads.bind (P := fun parts => (∀ p ∈ parts.1, Named p) ∧ ∀ p ∈ parts.2, Named p)
          (reads_ask ?_) fun parts hparts => ?_
        · have hpaths : ∀ p ∈ names.map (PathText.joinTwo path), Named p := by
            intro p hp
            obtain ⟨n, hn, rfl⟩ := List.mem_map.1 hp
            exact ⟨n, hnames n hn, rfl⟩
          rw [List.partition_eq_filter_filter]
          exact ⟨fun p hp => hpaths p (List.mem_filter.1 hp).1, fun p hp => hpaths p (List.mem_filter.1 hp).1⟩
        refine Reads.bind (P := fun real => ∀ p ∈ real, Named p)
          (reads_ask fun p hp => hparts.1 p (List.mem_filter.1 hp).1) fun real hreal => ?_
        have hbelow : ∀ p ∈ real, (walkUpwardsIn depth p).Reads disk
            fun entries => ∀ entry ∈ entries, Continues path entry.1 := fun p hp =>
          (ih p).imp fun entries hentries entry hentry =>
            (hnamed p (hreal p hp)).trans (hentries entry hentry)
        refine (Reads.mapM hbelow).bind fun below hbelow => reads_pure fun entry hentry => ?_
        simp only [List.mem_append, List.mem_flatten, List.mem_map] at hentry
        rcases hentry with (⟨entries, hentries, hentry⟩ | ⟨p, hp, rfl⟩) | ⟨p, hp, rfl⟩
        · exact hbelow entries hentries entry hentry
        · exact hnamed p (hparts.2 p hp)
        · exact hnamed p (hparts.1 p hp)

end Request

/-! ### Behind the removal of a link -/

namespace Disk

variable {disk : Disk} {path : Text} {p : Location}

/-- A plain path and its continuations name nothing once the entry at its location is erased. -/
theorem place_ne_some_of_erased (hdisk : WellFormed { disk with tree := disk.tree.erase p })
    (hplain : disk.IsPlain path) (h : disk.Spells path p) {longer : Text} (more : List Text)
    (hbegins : path <+: longer) (hcomponents : splitComponents longer = splitComponents path ++ more)
    (q : Location) (e : Entry) :
    place { disk with tree := disk.tree.erase p } longer ≠ .ok (q, some e) := by
  intro hplace
  obtain ⟨parent, n, hparent, hlast, hlookup⟩ := place_eq_ok_iff.1 hplace
  obtain ⟨-, -, ⟨links, hlead⟩, hname, -⟩ := resolveParent_eq_ok_iff.1 hparent
  rw [start_of_beginning h.nonempty hbegins] at hlead
  have hlocation := h.location
  have hnames := hplain.names
  have herased : (disk.tree.erase p).lookup p = none := by rw [lookup_erase, if_pos rfl]
  -- No proper beginning of the path is a link, also without the erased entry.
  have hlinks : ∀ front rest, splitComponents path = front ++ rest → front ≠ [] → rest ≠ [] →
      ∀ target, (disk.tree.erase p).lookup
        (((SplitPath.ofText path).start disk.directory).location ++ front) ≠ some (.link target) := by
    intro front rest heq hfront hrest target hlink
    rw [lookup_erase] at hlink
    split at hlink
    · exact nomatch hlink
    · exact hplain.noLink front rest heq hfront hrest target hlink
  -- The path itself ends at the erased location, and a continuation had to go on from there.
  by_cases hmore : more = []
  · have hwhole := eq_of_lastName (hname.symm.trans hlast)
    rw [hmore, List.append_nil] at hcomponents
    rw [hcomponents] at hlead hwhole
    obtain ⟨hfront, -⟩ := lead_names_inv (fun m hm => hnames m (List.dropLast_subset _ hm))
      (fun front rest heq hne => hlinks front (rest ++ [n])
        (by rw [hwhole, heq, List.append_assoc]) hne (by simp)) hlead
    obtain ⟨-, -, rfl, hentry⟩ := lookupName_ok_iff.1 hlookup
    rw [hfront, List.append_assoc, ← hwhole, hlocation, herased] at hentry
    exact nomatch hentry
  · rw [hcomponents, List.dropLast_append_of_ne_nil hmore, lead_append] at hlead
    obtain ⟨⟨d, links'⟩, hlead, -⟩ := Outcome.bind_eq_ok_iff.1 hlead
    obtain ⟨hend, -⟩ := lead_names_inv hnames (fun front rest heq hne target => by
      by_cases hrest : rest = []
      · rw [hrest, List.append_nil] at heq
        simp [← heq, hlocation, herased]
      · exact hlinks front rest heq hne hrest target) hlead
    have hdirectory := isDirectory_of_lead hdisk.tree.closed
      (isDirectory_start hdisk.standing (SplitPath.ofText path)) hlead
    rw [hend, hlocation] at hdirectory
    have hroot : p ≠ [] := by simp [← hlocation, h.components]
    exact not_isDirectory_of_none hroot herased hdirectory

/-- Whether the removal of an entry succeeds. -/
def removable (disk : Disk) (entry : Text × Bool) : Bool :=
  (Request.outcome [entry.1] (·.removeEntry entry.2 entry.1) disk).isOk

theorem dropped_of_not_removable {entry : Text × Bool} (h : disk.removable entry = false) :
    disk.dropped entry = disk := by
  unfold removable at h
  unfold Disk.dropped
  cases houtcome : Request.outcome [entry.1] (·.removeEntry entry.2 entry.1) disk with
  | ok disk' => simp [houtcome, Except.isOk, Except.toBool] at h
  | error e => rfl

/-- A removed entry was at the place of its path. -/
theorem place_of_removable {entry : Text × Bool} (h : disk.removable entry = true) :
    ∃ q e, disk.place entry.1 = .ok (q, some e) ∧ (disk.dropped entry).tree = disk.tree.erase q := by
  unfold removable at h
  unfold Disk.dropped
  cases houtcome : Request.outcome [entry.1] (·.removeEntry entry.2 entry.1) disk with
  | ok disk' => exact removeEntry_ok (Request.of_outcome_ok houtcome)
  | error e => simp [houtcome, Except.isOk, Except.toBool] at h

/-- A link is removed as a link. -/
theorem dropped_of_link {entry : Text × Bool} {target : Text} (h : disk.removable entry = true)
    (hplace : disk.place entry.1 = .ok (p, some (.link target))) :
    disk.dropped entry = { disk with tree := disk.tree.erase p } := by
  obtain ⟨path, isDirectory⟩ := entry
  unfold removable at h
  unfold Disk.dropped
  cases houtcome : Request.outcome [path] (·.removeEntry isDirectory path) disk with
  | error e => simp [houtcome, Except.isOk, Except.toBool] at h
  | ok disk' =>
    have hcall := Request.of_outcome_ok houtcome
    cases isDirectory with
    | true =>
      obtain ⟨q, mode, hplace', -⟩ := removeDirectory_ok_iff.1 hcall
      simp [hplace'] at hplace
    | false =>
      obtain ⟨q, e, hplace', -, -, rfl⟩ := unlink_ok_iff.1 hcall
      obtain ⟨rfl, -⟩ := Prod.mk.inj (Except.ok.inj (hplace'.symm.trans hplace))
      rfl

theorem foldl_dropped_of_not_removable {entries : List (Text × Bool)}
    (h : ∀ entry ∈ entries, disk.removable entry = false) : entries.foldl Disk.dropped disk = disk := by
  induction entries with
  | nil => rfl
  | cons entry entries ih =>
    rw [List.foldl_cons, dropped_of_not_removable (h entry List.mem_cons_self)]
    exact ih fun other hother => h other (List.mem_cons_of_mem entry hother)

/-- A removal of many entries begins with the first that can be removed. -/
theorem foldl_dropped_of_first {entries : List (Text × Bool)} {entry : Text × Bool}
    (h : entries.find? disk.removable = some entry) : disk.removable entry = true ∧
      ∃ others, others ⊆ entries ∧
        entries.foldl Disk.dropped disk = others.foldl Disk.dropped (disk.dropped entry) := by
  obtain ⟨hentry, before, others, rfl, hbefore⟩ := List.find?_eq_some_iff_append.1 h
  refine ⟨hentry, others, fun other hother => by simp [hother], ?_⟩
  have hskipped : before.foldl Disk.dropped disk = disk :=
    foldl_dropped_of_not_removable fun other hother => by simpa using hbefore other hother
  rw [List.foldl_append, hskipped, List.foldl_cons]

/-- Removals do not bring anything back. -/
theorem lookup_foldl_dropped {entries : List (Text × Bool)} {q : Location}
    (h : disk.tree.lookup q = none) : (entries.foldl Disk.dropped disk).tree.lookup q = none := by
  induction entries generalizing disk with
  | nil => exact h
  | cons entry entries ih =>
    refine ih ?_
    cases hentry : disk.removable entry with
    | false => rwa [dropped_of_not_removable hentry]
    | true =>
      obtain ⟨r, -, -, htree⟩ := place_of_removable hentry
      rw [htree, lookup_erase, h, ite_self]

end Disk

/-! ### Removals at a link -/

namespace FileSystem

variable {host : Host} {path : Text} {p : Location} {target : Text}

/-- All entries that the removal at a path goes through are at continuations of the path, or the path
itself. -/
theorem continues_of_mem_removals (hdisk : host.disk.WellFormed) {entry : Text × Bool}
    (h : entry ∈ removals path host) : entry.1 = path ∨ Continues path entry.1 := by
  unfold removals at h
  split at h
  · cases h
  · split at h
    · rcases List.mem_append.1 h with h | h
      · right
        obtain ⟨-, hvalue⟩ := Request.reads_walkUpwardsIn hdisk (pathLimit + 1) path host rfl
        rcases hrun : (Request.walkUpwards path).runOn host with ⟨e | entries, host'⟩
        · obtain ⟨f, log, -, hfailure⟩ := Host.run_guarded_of_error hrun "walk" path
          rw [Host.walkUpwards, hfailure] at h
          cases h
        · rw [Host.walkUpwards, Host.run_guarded_of_ok hrun] at h
          exact hvalue entries (congrArg Prod.fst hrun) entry h
      · left
        rw [List.mem_singleton.1 h]
    · left
      rw [List.mem_singleton.1 h]

/-- A link without a slash behind it is removed alone. -/
theorem eq_of_mem_removals (hslash : Disk.asksForDirectory path = false)
    (hplace : host.disk.place path = .ok (p, some (.link target))) {entry : Text × Bool}
    (h : entry ∈ removals path host) : entry = (path, false) := by
  have hlink : host.disk.status path false = .ok .link := by
    obtain ⟨q, target', hresolve⟩ := Disk.isLink_iff.1 (Disk.isLink_iff_place.2 ⟨hslash, p, target, hplace⟩)
    simp [Disk.status, hresolve]
  unfold removals at h
  split at h
  · cases h
  · next status hstatus =>
    obtain rfl : Status.link = status := Except.ok.inj (hlink.symm.trans (Request.of_outcome_ok hstatus))
    simpa [Status.isDirectory] using h

/-- Behind the removal of the link no entry of a removal at its path can be removed. -/
theorem not_removable_of_erased (hdisk : host.disk.WellFormed) (hplain : host.disk.IsPlain path)
    (hplace : host.disk.place path = .ok (p, some (.link target))) {slashes : Text}
    (hslashes : ∀ c ∈ slashes, c = '/') {entry : Text × Bool}
    (h : entry ∈ removals (path ++ slashes) host) :
    Disk.removable { host.disk with tree := host.disk.tree.erase p } entry = false := by
  have hnot : ¬ host.disk.tree.isDirectory p := by simp [Disk.isDirectory_iff_of_place hplace]
  have hspells := Disk.spells_of_place hplain hplace
  have hcomponents := splitComponents_append_slashes path hslashes
  rw [← Bool.not_eq_true]
  intro hremovable
  obtain ⟨q, e, hentry, -⟩ := Disk.place_of_removable hremovable
  rcases continues_of_mem_removals hdisk h with heq | ⟨hbegins, more, -, hmore⟩
  · exact Disk.place_ne_some_of_erased (hdisk.erase hnot) hplain hspells [] ⟨slashes, heq.symm⟩
      (by rw [heq, hcomponents, List.append_nil]) q e hentry
  · exact Disk.place_ne_some_of_erased (hdisk.erase hnot) hplain hspells more
      ((List.prefix_append path slashes).trans hbegins) (by rw [hmore, hcomponents]) q e hentry

/-- The removal of everything at a plain path that names a link, with or without slashes behind it, leaves
all other entries as they are exactly if no slash is there, or if the link is the first entry that can be
removed of those listed below the directory that it leads to, or none of them can be removed. -/
theorem removeAll_keeps_others_iff (hdisk : host.disk.WellFormed) (hplain : host.disk.IsPlain path)
    (hplace : host.disk.place path = .ok (p, some (.link target))) {slashes : Text}
    (hslashes : ∀ c ∈ slashes, c = '/') :
    (∀ q, q ≠ p → ((removeAll (path ++ slashes)).run host).2.disk.tree.lookup q =
        host.disk.tree.lookup q) ↔
      slashes = [] ∨ ∀ entry, (removals (path ++ slashes) host).find? host.disk.removable = some entry →
        host.disk.place entry.1 = .ok (p, some (.link target)) := by
  have halone : slashes = [] → ∀ entry,
      (removals (path ++ slashes) host).find? host.disk.removable = some entry →
        host.disk.place entry.1 = .ok (p, some (.link target)) := by
    rintro rfl entry hfirst
    rw [List.append_nil] at hfirst
    rw [eq_of_mem_removals hplain.noSlash hplace (List.mem_of_find?_eq_some hfirst)]
    exact hplace
  rw [or_iff_right_of_imp halone, disk_removeAll]
  cases hfirst : (removals (path ++ slashes) host).find? host.disk.removable with
  | none =>
    have hnone := List.find?_eq_none.1 hfirst
    rw [Disk.foldl_dropped_of_not_removable fun entry hentry => by simpa using hnone entry hentry]
    simp
  | some entry =>
    obtain ⟨hremovable, others, hothers, hfold⟩ := Disk.foldl_dropped_of_first hfirst
    obtain ⟨q, e, hentry, htree⟩ := Disk.place_of_removable hremovable
    have he := Disk.lookup_of_place hentry
    rw [hfold]
    -- Without the link no path through it removes anything, and another entry that is lost stays lost.
    by_cases hq : q = p
    · subst hq
      obtain rfl : e = .link target := Option.some.inj (he.symm.trans (Disk.lookup_of_place hplace))
      rw [Disk.dropped_of_link hremovable hentry, Disk.foldl_dropped_of_not_removable fun other hother =>
        not_removable_of_erased hdisk hplain hplace hslashes (hothers hother)]
      refine iff_of_true (fun r hr => by rw [lookup_erase, if_neg hr]) ?_
      rintro _ ⟨⟩
      exact hentry
    · refine iff_of_false (fun hkept => ?_) fun hlink => ?_
      · have hgone : (host.disk.dropped entry).tree.lookup q = none := by
          rw [htree, lookup_erase, if_pos rfl]
        have hnone := hkept q hq
        rw [Disk.lookup_foldl_dropped hgone, he] at hnone
        exact nomatch hnone
      · have hsame := hentry.symm.trans (hlink entry rfl)
        exact hq (Prod.mk.inj (Except.ok.inj hsame)).1

/-- By its name the link to the directory is removed alone. With a slash behind it the file in the directory
is removed. -/
theorem removeAll_keeps_others_iff_linkedDirectory :
    (∀ q, q ≠ [['l']] → ((removeAll ['l']).run (.ofDisk linkedDirectory)).2.disk.tree.lookup q =
        linkedDirectory.tree.lookup q) ∧
      ¬ ∀ q, q ≠ [['l']] → ((removeAll ['l', '/']).run (.ofDisk linkedDirectory)).2.disk.tree.lookup q =
        linkedDirectory.tree.lookup q := by
  have hdisk : (Host.ofDisk linkedDirectory).disk.WellFormed := wellFormed_linkedDirectory
  have hplain : linkedDirectory.IsPlain ['l'] := linkedDirectory.isPlain_name (by decide)
  have hplace : linkedDirectory.place ['l'] = .ok ([['l']], some (.link ['d'])) :=
    Disk.place_name rfl (by decide) (by decide)
  have hnone : ∀ c ∈ ([] : Text), c = '/' := by simp
  have hslash : ∀ c ∈ ['/'], c = '/' := by simp
  refine ⟨(removeAll_keeps_others_iff hdisk hplain hplace hnone).2 (.inl rfl), fun hkept => ?_⟩
  have hstatus : Request.outcome [['l', '/']] (·.status ['l', '/'] false) (Host.ofDisk linkedDirectory).disk =
      .ok (.directory FileTree.directoryMode) := by cbv
  have hnames : (Host.ofDisk linkedDirectory).disk.listNames ['l', '/'] = .ok [['x']] := by cbv
  have hfile : linkedDirectory.isRealDirectory (joinTwo ['l', '/'] ['x']) = false := by cbv
  have hwalk : (Request.walkUpwards ['l', '/']).runOn (.ofDisk linkedDirectory) =
      (.ok [(joinTwo ['l', '/'] ['x'], false)], .ofDisk linkedDirectory) := by
    have hbelow : ∀ n ∈ [['x']], linkedDirectory.isRealDirectory (joinTwo ['l', '/'] n) →
        (Request.walkUpwardsIn pathLimit (joinTwo ['l', '/'] n)).runOn (.ofDisk linkedDirectory) =
          (.ok [], .ofDisk linkedDirectory) := by
      intro n hn hdirectory
      rw [List.mem_singleton.1 hn] at hdirectory
      exact absurd (hfile.symm.trans hdirectory) Bool.false_ne_true
    have hnull : Request.hasNull ['l', '/'] = false := by decide
    obtain ⟨listed, hperm, hstep⟩ := Request.runOn_walkUpwardsIn_succ hnull hnames hbelow
    rw [List.perm_singleton.1 hperm] at hstep
    rw [Request.walkUpwards, hstep]
    simp [Host.ofDisk, hfile]
  have hinside : linkedDirectory.place ['l', '/', 'x'] =
      .ok ([['d'], ['x']], some (.file FileTree.fileMode [])) := by cbv
  have hunlink : linkedDirectory.unlink ['l', '/', 'x'] = .ok _ :=
    Disk.unlink_ok_iff.2 ⟨_, _, hinside, by simp, by decide, rfl⟩
  have hremovable : linkedDirectory.removable (joinTwo ['l', '/'] ['x'], false) = true := by
    change (Request.outcome [['l', '/', 'x']] (·.unlink ['l', '/', 'x']) linkedDirectory).isOk = true
    rw [Request.outcome, if_neg (by decide), hunlink]
    rfl
  have hfirst : (removals ['l', '/'] (.ofDisk linkedDirectory)).find? linkedDirectory.removable =
      some (['l', '/', 'x'], false) := by
    rw [removals, hstatus, Host.walkUpwards, Host.run_guarded_of_ok hwalk]
    exact List.find?_cons_of_pos hremovable
  rcases (removeAll_keeps_others_iff hdisk hplain hplace hslash).1 hkept with hnil | hlink
  · cases hnil
  · have hentry := hinside.symm.trans (hlink _ hfirst)
    simp at hentry

end FileSystem

end Primitives
