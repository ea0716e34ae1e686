import Primitives.Proofs.Files.SuccessfulCopies

/-!
# Made directories

Making a directory with its missing parents takes the path apart by its letters, while the host resolves it
against the tree, along links and upwards. Still the answer tells what is there. If the request fails at its
last level, the path leads to no directory or holds the null character. If it fails at a level above, a
beginning of the path leads to no directory, and then the path does not either. The one case in which the
request succeeds without the directory, a link to nowhere with a `.` behind it, is found by the look that
follows.

## Main definitions

* `Disk.AddsDirectories`: a disk with further directories.

## Main results

* `Request.runOn_makeLast`: the last level.
* `Request.not_leads_of_makeDirectories_error`: a request that fails.
* `FileSystem.makeDirectories_isDir_adds_stable`: the answer, what is added, and that the request can be
  repeated.
-/

namespace Primitives

open FileTree PathText

/-! ### Further directories -/

namespace Disk

variable {a b c : Disk} {path : Text}

/-- A disk that holds every entry of another one as it is, and apart from these only directories. -/
structure AddsDirectories (a b : Disk) : Prop where
  keeps : ∀ p e, a.tree.lookup p = some e → b.tree.lookup p = some e
  new : ∀ p e, a.tree.lookup p = none → b.tree.lookup p = some e → e = .directory FileTree.directoryMode
  directory : b.directory = a.directory

namespace AddsDirectories

theorem refl (a : Disk) : a.AddsDirectories a :=
  ⟨fun _ _ h => h, fun _ _ hnone h => (nomatch hnone.symm.trans h), rfl⟩

theorem trans (h : a.AddsDirectories b) (h' : b.AddsDirectories c) : a.AddsDirectories c := by
  refine ⟨fun p e hp => h'.keeps p e (h.keeps p e hp), fun p e hnone hp => ?_,
    h'.directory.trans h.directory⟩
  cases hb : b.tree.lookup p with
  | none => exact h'.new p e hb hp
  | some e' =>
    obtain rfl := Option.some.inj (hp.symm.trans (h'.keeps p e' hb))
    exact h.new p e hnone hb

theorem of_makeDirectory (h : a.makeDirectory path = .ok b) : a.AddsDirectories b := by
  obtain ⟨p, hplace, rfl⟩ := makeDirectory_ok_iff.1 h
  have hfree := lookup_of_place hplace
  refine ⟨fun q e hq => ?_, fun q e hnone hq => ?_, rfl⟩ <;> by_cases hsame : q = p
  · subst hsame
    exact nomatch hfree.symm.trans hq
  · rw [lookup_put, if_neg hsame, hq]
  · rw [lookup_put, if_pos hsame] at hq
    exact (Option.some.inj hq).symm
  · rw [lookup_put, if_neg hsame] at hq
    exact nomatch hnone.symm.trans hq

end AddsDirectories

/-- Nothing is made at a path that leads to a directory. -/
theorem makeDirectory_ne_ok (h : a.leadsToDirectory path) (disk : Disk) : a.makeDirectory path ≠ .ok disk := by
  intro hmake
  obtain ⟨p, hplace, -⟩ := makeDirectory_ok_iff.1 hmake
  obtain ⟨d, hd⟩ := leadsToDirectory_iff.1 h
  rw [resolve_of_place_none Purpose.look_ne_write hplace] at hd
  split at hd <;> cases hd

/-- A path leads to the directory that was made at it. -/
theorem leads_of_makeDirectory (h : a.makeDirectory path = .ok b) : b.leadsToDirectory path := by
  obtain ⟨p, hplace, rfl⟩ := makeDirectory_ok_iff.1 h
  have hwithin : a.Within { a with tree := a.tree.put p (.directory FileTree.directoryMode) } :=
    .put fun old hold => nomatch hold.symm.trans (lookup_of_place hplace)
  have hplace' := hwithin.place hplace
  rw [lookup_put, if_pos rfl] at hplace'
  exact leadsToDirectory_iff.2 ⟨_, resolve_of_place_directory Purpose.look_ne_write hplace'⟩

/-- A path that ends with the component for the directory in front of it leads to a directory or nowhere. -/
theorem leadsToDirectory_of_dot {front : List Text}
    (hcomponents : SplitPath.splitComponents path = front ++ [['.']]) {target : Target}
    (h : a.resolve .look path = .ok target) : a.leadsToDirectory path := by
  rcases a.tree.resolve_cases a.directory path with ⟨errno, -, hresolve⟩ | ⟨_, d, -, -, hresolve⟩ |
    ⟨parent, links, n, hparent, hlast, -⟩
  · cases (hresolve .look).symm.trans h
  · exact leadsToDirectory_iff.2 ⟨d, hresolve .look⟩
  · obtain ⟨-, -, -, hname, -⟩ := resolveParent_eq_ok_iff.1 hparent
    rw [hcomponents, lastName_append, if_pos rfl, hlast] at hname
    cases hname

end Disk

/-! ### Requests for directories -/

namespace Request

variable {host host' : Host} {path : Text} {e : HostError}

/-- A directory is made or, if that fails, already there; the null character is in no path. -/
theorem runOn_makeLast (path : Text) (host : Host) :
    (makeLast true path).runOn host =
      match outcome [path] (·.makeDirectory path) host.disk with
      | .ok disk => (.ok (), { host with disk })
      | .error e =>
        (if hasNull path = false ∧ host.disk.leadsToDirectory path then .ok () else .error e, host) := by
  rw [makeLast, runOn_tryCatch, runOn_change]
  cases houtcome : outcome [path] (·.makeDirectory path) host.disk with
  | ok disk => rfl
  | error e =>
    have hnull : hasNull path = false ↔ e ≠ .embeddedNull := by
      rw [ne_eq, eq_embeddedNull_iff houtcome, Bool.not_eq_true]
    simp only [runOn_bind, runOn_ask, Bool.true_and]
    by_cases hthere : hasNull path = false ∧ host.disk.leadsToDirectory path
    · rw [if_pos hthere, if_pos (by simp [hthere.2, hnull.1 hthere.1])]
      rfl
    · rw [if_neg hthere, if_neg (by simpa [hnull, and_comm] using hthere)]
      rfl

/-- A directory is made at a free place, of which the head is there. -/
theorem runOn_makeDirectories_of_place {p : Location} (hplace : host.disk.place path = .ok (p, none))
    (hnull : hasNull path = false) (existing : Bool) :
    (makeDirectories existing path).runOn host = (.ok (), host.put p (.directory directoryMode)) := by
  rw [runOn_makeDirectories, if_neg (not_isHeadMissing_of_place hplace)]
  exact runOn_tryCatch_of_ok (runOn_change_ok_iff.2 ⟨by simpa using hnull, _,
    Disk.makeDirectory_ok_iff.2 ⟨p, hplace, rfl⟩, rfl⟩) _

/-- Making a directory that is there changes nothing. -/
theorem runOn_makeDirectories_of_leads (h : host.disk.leadsToDirectory path) (hnull : hasNull path = false) :
    (makeDirectories true path).runOn host = (.ok (), host) := by
  have hhead : ¬ isHeadMissing host.disk path :=
    fun hmissing => (isNowhere_of_isHeadMissing hmissing).not_leads h
  rw [runOn_makeDirectories, if_neg hhead, runOn_makeLast]
  cases houtcome : outcome [path] (·.makeDirectory path) host.disk with
  | ok disk => exact absurd (of_outcome_ok houtcome) (Disk.makeDirectory_ne_ok h disk)
  | error e => simp only [if_pos (⟨hnull, h⟩ : hasNull path = false ∧ _)]

/-- The last level succeeds exactly if the directory is there afterwards. -/
theorem makeLast_ok_iff (path : Text) (host : Host) :
    ((makeLast true path).runOn host).1 = .ok () ↔
      hasNull path = false ∧ ((makeLast true path).runOn host).2.disk.leadsToDirectory path := by
  rw [runOn_makeLast]
  cases houtcome : outcome [path] (·.makeDirectory path) host.disk with
  | ok disk =>
    obtain ⟨hnull, hmake⟩ := Disk.outcome_single.1 houtcome
    exact iff_of_true rfl ⟨hnull, Disk.leads_of_makeDirectory hmake⟩
  | error e =>
    by_cases hthere : hasNull path = false ∧ host.disk.leadsToDirectory path
    · exact iff_of_true (if_pos hthere) hthere
    · exact iff_of_false (by simp [if_neg hthere]) hthere

theorem leads_of_makeLast (h : (makeLast true path).runOn host = (.ok (), host')) :
    host'.disk.leadsToDirectory path := by
  have hiff := makeLast_ok_iff path host
  rw [h] at hiff
  exact (hiff.1 rfl).2

theorem not_leads_of_makeLast_error (h : (makeLast true path).runOn host = (.error e, host')) :
    ¬ (hasNull path = false ∧ host'.disk.leadsToDirectory path) := by
  have hiff := makeLast_ok_iff path host
  rw [h] at hiff
  exact fun hthere => nomatch hiff.2 hthere

/-- A directory that was made is there, if anything is: a path that stands for its own head may lead nowhere
even though making it succeeds. -/
theorem leads_of_makeDirectories (h : (makeDirectories true path).runOn host = (.ok (), host')) {disk : Disk}
    (hwithin : host'.disk.Within disk) {target : Target} (hpresent : disk.resolve .look path = .ok target) :
    disk.leadsToDirectory path := by
  rw [runOn_makeDirectories] at h
  split at h
  · next hmissing =>
    obtain ⟨_, mid, -, h⟩ := runOn_bind_ok_iff.1 h
    split at h
    · next hdot =>
      have hcomponents := (isHead_of_isHeadMissing hmissing).components
      rw [hdot] at hcomponents
      exact Disk.leadsToDirectory_of_dot hcomponents hpresent
    · exact hwithin.leadsToDirectory (leads_of_makeLast h)
  · exact hwithin.leadsToDirectory (leads_of_makeLast h)

theorem of_makeHead_error {make : Request Unit} (h : (makeHead make).runOn host = (.error e, host')) :
    make.runOn host = (.error e, host') := by
  rw [makeHead, runOn_tryCatch] at h
  rcases hrun : make.runOn host with ⟨e' | _, mid⟩
  · simp only [hrun] at h
    split at h
    · cases (Prod.mk.inj h).1
    · exact h
  · simp only [hrun] at h
    cases (Prod.mk.inj h).1

/-- If a directory with its parents cannot be made, there is none. -/
theorem not_leads_of_makeDirectories_error
    (h : (makeDirectories true path).runOn host = (.error e, host')) :
    ¬ (hasNull path = false ∧ host'.disk.leadsToDirectory path) := by
  induction hlength : path.length using Nat.strong_induction_on generalizing path host host' e with
  | _ length ih =>
    rw [runOn_makeDirectories] at h
    split at h
    · next hmissing =>
      have hhead := isHead_of_isHeadMissing hmissing
      rw [makeBehind, runOn_bind] at h
      rcases hrun : (makeHead (makeDirectories true (splitHead path).1)).runOn host with ⟨e' | _, mid⟩
      -- The head failed: the path goes on behind it.
      · simp only [hrun] at h
        obtain ⟨-, rfl⟩ := Prod.mk.inj h
        rintro ⟨hnull, hleads⟩
        refine ih _ (hlength ▸ hhead.shorter) (of_makeHead_error hrun) rfl ⟨?_, ?_⟩
        · simp only [hasNull, List.contains_eq_mem, decide_eq_false_iff_not] at hnull ⊢
          exact fun hmem => hnull (hhead.begins.subset hmem)
        · by_contra hnot
          exact (Disk.isNowhere_of_head (isHeadMissing_spec hmissing).1 hhead.begins hhead.components
            (by simp) hnot).not_leads hleads
      · simp only [hrun] at h
        split at h
        · cases (Prod.mk.inj h).1
        · exact not_leads_of_makeLast_error h
    · exact not_leads_of_makeLast_error h

end Request

/-! ### Directories of a program -/

namespace FileSystem

variable {host : Host} {path : Text}

/-- A directory is asked for and then looked for. -/
theorem run_makeDirectories (path : Text) (host : Host) :
    let after := ((Request.makeDirectories true path).runOn host).2
    ∃ log, (makeDirectories path).run host =
      (decide (Request.hasNull path = false ∧ after.disk.leadsToDirectory path), { after with log }) := by
  rcases hrun : (Request.makeDirectories true path).runOn host with ⟨e | _, after⟩
  · obtain ⟨f, log, -, hguarded⟩ := Host.run_guarded_of_error hrun "mkdirp" path
    refine ⟨log, ?_⟩
    rw [decide_eq_false (Request.not_leads_of_makeDirectories_error hrun)]
    exact Host.run_bind_of_run hguarded _
  · obtain ⟨log, hdir⟩ := run_isDir path after
    refine ⟨log, ?_⟩
    rw [← hdir]
    exact Host.run_bind_of_run (Host.run_guarded_of_ok hrun "mkdirp" path) _

/-- Making a directory that is there changes nothing. -/
theorem run_makeDirectories_of_leads (hnull : Request.hasNull path = false)
    (h : host.disk.leadsToDirectory path) : (makeDirectories path).run host = (true, host) := by
  have hguarded :=
    Host.run_guarded_of_ok (Request.runOn_makeDirectories_of_leads h hnull) "mkdirp" path
  rw [← run_isDir_of_leads hnull h]
  exact Host.run_bind_of_run hguarded _

/-- A directory is made with its missing parents exactly if it is there afterwards, however its path is
spelled. In either case what was there stays as it is, and only directories are new. Making it once more
succeeds and changes nothing. -/
theorem makeDirectories_isDir_adds_stable (path : Text) (host : Host) :
    let after := (makeDirectories path).run host
    (after.1 = true ↔ ((isDir path).run after.2).1 = true) ∧
      host.disk.AddsDirectories after.2.disk ∧
      (after.1 = true → (makeDirectories path).run after.2 = (true, after.2)) := by
  obtain ⟨log, hrun⟩ := run_makeDirectories path host
  have hadds : host.disk.AddsDirectories ((Request.makeDirectories true path).runOn host).2.disk :=
    Request.makeDirectories_respects (R := fun a b => a.disk.AddsDirectories b.disk)
      (fun _ => .refl _) (fun _ _ _ h h' => h.trans h') (fun _ _ _ h => .of_makeDirectory h) true path host
  rw [hrun]
  refine ⟨?_, hadds, fun hmade => ?_⟩
  · obtain ⟨log', hdir⟩ := run_isDir path { ((Request.makeDirectories true path).runOn host).2 with log }
    rw [hdir]
  · obtain ⟨hnull, hleads⟩ := of_decide_eq_true hmade
    exact run_makeDirectories_of_leads hnull hleads

/-- A directory that is made by its name on an empty disk, twice. -/
theorem makeDirectories_isDir_adds_stable_name :
    ∃ host', (makeDirectories "a").run (.ofDisk ⟨.empty, .root⟩) = (true, host') ∧
      host'.disk.tree.lookup ["a"] = some (.directory FileTree.directoryMode) ∧
        (makeDirectories "a").run host' = (true, host') := by
  have hplace : Disk.place ⟨.empty, .root⟩ "a" = .ok (["a"], none) :=
    Disk.place_name rfl (by decide) (by decide)
  have hnull : Request.hasNull "a" = false := by decide
  have hleads := Disk.leads_of_makeDirectory (Disk.makeDirectory_ok_iff.2 ⟨_, hplace, rfl⟩)
  obtain ⟨log, hrun⟩ := run_makeDirectories "a" (.ofDisk ⟨.empty, .root⟩)
  rw [Request.runOn_makeDirectories_of_place hplace hnull true, decide_eq_true ⟨hnull, hleads⟩] at hrun
  obtain ⟨-, -, hagain⟩ := makeDirectories_isDir_adds_stable "a" (.ofDisk ⟨.empty, .root⟩)
  rw [hrun] at hagain
  exact ⟨_, hrun, by rw [Host.tree_put, lookup_put, if_pos rfl], hagain rfl⟩

end FileSystem

end Primitives
