import Primitives.Proofs.Files.FileSystem

/-!
# Removals

A call that removes an entry erases exactly one location or leaves the disk as it is. So a removal of many
entries, one by one, can be followed on the disk alone, where each listed entry is dropped or kept, and it
accounts for what it removes: the number that it gives is the number of entries that are there no longer,
and all others are what they were.

## Main definitions

* `FileTree.gone`, `FileTree.Loses`: the entries that a tree has lost.
* `Disk.dropped`: a disk after one removal, whether it succeeds or not.
* `FileSystem.removals`: the entries that the removal of a path goes through.

## Main results

* `FileTree.Loses.length_gone`: the number of lost entries.
* `FileSystem.removeAll_loses`: removing everything below a path gives the number of lost entries.
* `FileSystem.disk_removeAll`: the disk after the removal of everything below a path.
-/

namespace Primitives

open FileTree

/-! ### Lost entries -/

namespace FileTree

variable {t u v : FileTree} {m n : Nat}

/-- The locations of the entries that a tree has lost on the way to another one. -/
def gone (t u : FileTree) : List Location :=
  t.locations.filter fun q => (u.lookup q).isNone

/-- A tree loses `n` entries on the way to another one, which holds nothing new. -/
structure Loses (t u : FileTree) (n : Nat) : Prop where
  part : ∀ q, u.lookup q = none ∨ u.lookup q = t.lookup q
  count : u.entries.length + n = t.entries.length

namespace Loses

theorem refl (t : FileTree) : t.Loses t 0 :=
  ⟨fun _ => .inr rfl, rfl⟩

theorem trans (h : t.Loses u m) (h' : u.Loses v n) : t.Loses v (m + n) := by
  refine ⟨fun q => ?_, ?_⟩
  · rcases h'.part q with hnone | hsame
    · exact .inl hnone
    · rw [hsame]
      exact h.part q
  · have hcount := h.count
    have hcount' := h'.count
    omega

theorem erase (ht : t.locations.Nodup) {p : Location} (hp : (t.lookup p).isSome) :
    t.Loses (t.erase p) 1 := by
  refine ⟨fun q => ?_, length_erase ht ((isSome_lookup_iff t p).1 hp)⟩
  rw [lookup_erase]
  split
  · exact .inl rfl
  · exact .inr rfl

/-- The number of entries that a tree loses is the number of locations that hold none any more. -/
theorem length_gone (h : t.Loses u n) (ht : t.locations.Nodup) (hu : u.locations.Nodup) :
    (t.gone u).length = n := by
  have hkept : u.locations.Perm (t.locations.filter fun q => (u.lookup q).isSome) := by
    refine (List.perm_ext_iff_of_nodup hu (ht.filter _)).2 fun q => ?_
    rw [List.mem_filter, ← isSome_lookup_iff, ← isSome_lookup_iff]
    refine ⟨fun hq => ⟨?_, hq⟩, And.right⟩
    rcases h.part q with hnone | hsame
    · simp [hnone] at hq
    · rwa [← hsame]
  have hparts := List.length_eq_length_filter_add (l := t.locations) fun q => (u.lookup q).isSome
  have hlength := hkept.length_eq
  have hcount := h.count
  simp only [Option.not_isSome, locations, List.length_map] at hparts hlength
  simp only [gone, locations]
  omega

end Loses

end FileTree

/-! ### Single removals -/

namespace Disk

variable {disk disk' : Disk} {path : Text}

/-- The call that removes a directory without entries, or a file or a link. -/
def removeEntry (disk : Disk) (isDirectory : Bool) (path : Text) : Except Errno Disk :=
  if isDirectory then disk.removeDirectory path else disk.unlink path

/-- A disk behind the removal of an entry, which may fail. -/
def dropped (disk : Disk) (entry : Text × Bool) : Disk :=
  match Request.outcome [entry.1] (·.removeEntry entry.2 entry.1) disk with
  | .ok disk' => disk'
  | .error _ => disk

/-- A removal erases the entry at the place of the path. -/
theorem removeEntry_ok {isDirectory : Bool} (h : disk.removeEntry isDirectory path = .ok disk') :
    ∃ p e, disk.place path = .ok (p, some e) ∧ disk'.tree = disk.tree.erase p := by
  cases isDirectory with
  | true =>
    obtain ⟨p, mode, hplace, -, rfl⟩ := removeDirectory_ok_iff.1 h
    exact ⟨p, _, hplace, rfl⟩
  | false =>
    obtain ⟨p, e, hplace, -, -, rfl⟩ := unlink_ok_iff.1 h
    exact ⟨p, e, hplace, rfl⟩

theorem WellFormed.removeEntry {isDirectory : Bool} (h : disk.WellFormed)
    (hcall : disk.removeEntry isDirectory path = .ok disk') : disk'.WellFormed := by
  cases isDirectory with
  | true => exact h.removeDirectory hcall
  | false => exact h.unlink hcall

theorem WellFormed.dropped (h : disk.WellFormed) (entry : Text × Bool) :
    (disk.dropped entry).WellFormed := by
  unfold Disk.dropped
  cases houtcome : Request.outcome [entry.1] (·.removeEntry entry.2 entry.1) disk with
  | ok disk' => exact h.removeEntry (Request.of_outcome_ok houtcome)
  | error e => exact h

/-- A disk that is well formed and has lost `n` entries. -/
structure Loses (disk disk' : Disk) (n : Nat) : Prop where
  wellFormed : disk'.WellFormed
  tree : disk.tree.Loses disk'.tree n

theorem loses_refl (h : disk.WellFormed) : disk.Loses disk 0 :=
  ⟨h, .refl _⟩

theorem Loses.trans {disk'' : Disk} {m n : Nat} (h : disk.Loses disk' m) (h' : disk'.Loses disk'' n) :
    disk.Loses disk'' (m + n) :=
  ⟨h'.wellFormed, h.tree.trans h'.tree⟩

theorem loses_of_removeEntry {isDirectory : Bool} (h : disk.WellFormed)
    (hcall : disk.removeEntry isDirectory path = .ok disk') : disk.Loses disk' 1 := by
  obtain ⟨p, e, hplace, htree⟩ := removeEntry_ok hcall
  refine ⟨h.removeEntry hcall, ?_⟩
  rw [htree]
  exact .erase h.tree.nodup (Option.isSome_of_eq_some (lookup_of_place hplace))

end Disk

/-! ### Removals of a host -/

namespace Host

variable {host : Host} {path : Text}

theorem run_bind_of_run {α β : Type} {step : HostM α} {a : α} {host' : Host}
    (h : step.run host = (a, host')) (next : α → HostM β) :
    (step >>= next).run host = (next a).run host' := by
  rw [StateT.run_bind, h]
  rfl

/-- The removal of a directory without entries, or of a file or a link. -/
def removeEntry (isDirectory : Bool) (path : Text) : HostM (HostResult Unit) :=
  if isDirectory then removeDirectory path else removeFile path

/-- A removal succeeds if its call does, and a failure leaves the disk as it is. -/
theorem run_removeEntry (isDirectory : Bool) (path : Text) (host : Host) :
    let outcome := Request.outcome [path] (·.removeEntry isDirectory path) host.disk
    let result := (removeEntry isDirectory path).run host
    result.1.isSuccess = outcome.isOk ∧ result.2.disk = host.disk.dropped (path, isDirectory) := by
  have hrun : ∃ operation, removeEntry isDirectory path =
      guarded operation path (Request.change [path] (·.removeEntry isDirectory path)) := by
    cases isDirectory with
    | true => exact ⟨"rmdir", rfl⟩
    | false => exact ⟨"unlink", rfl⟩
  obtain ⟨operation, heq⟩ := hrun
  have hchange := Request.runOn_change [path] (·.removeEntry isDirectory path) host
  intro outcome result
  simp only [result, outcome, Disk.dropped, heq]
  cases houtcome : Request.outcome [path] (·.removeEntry isDirectory path) host.disk with
  | ok disk =>
    rw [houtcome] at hchange
    rw [run_guarded_of_ok hchange]
    exact ⟨rfl, rfl⟩
  | error e =>
    rw [houtcome] at hchange
    obtain ⟨f, log, -, hfailure⟩ := run_guarded_of_error hchange operation path
    rw [hfailure]
    exact ⟨rfl, rfl⟩

/-- A removal loses one entry, or it fails and the disk is what it was. -/
theorem removeEntry_loses (h : host.disk.WellFormed) (isDirectory : Bool) (path : Text) :
    let result := (removeEntry isDirectory path).run host
    (result.1.isSuccess = true ∧ host.disk.Loses result.2.disk 1) ∨
      (result.1.isSuccess = false ∧ result.2.disk = host.disk) := by
  intro result
  obtain ⟨hsuccess, hdisk⟩ := run_removeEntry isDirectory path host
  rw [hsuccess, hdisk, Disk.dropped]
  cases houtcome : Request.outcome [path] (·.removeEntry isDirectory path) host.disk with
  | ok disk => exact .inl ⟨rfl, Disk.loses_of_removeEntry h (Request.of_outcome_ok houtcome)⟩
  | error e => exact .inr ⟨rfl, rfl⟩

/-- A walk leaves the disk as it is. -/
theorem disk_walkUpwards (path : Text) (host : Host) :
    ((walkUpwards path).run host).2.disk = host.disk := by
  have hdisk : ((Request.walkUpwards path).runOn host).2.disk = host.disk :=
    Request.respects_walkUpwardsIn (R := fun a b => b.disk = a.disk) (fun _ => rfl)
      (fun _ _ _ hab hbc => hbc.trans hab) (fun _ _ => rfl) _ path host
  rcases hrun : (Request.walkUpwards path).runOn host with ⟨e | entries, host'⟩ <;>
    rw [hrun] at hdisk
  · obtain ⟨f, log, -, hfailure⟩ := run_guarded_of_error hrun "walk" path
    rw [walkUpwards, hfailure]
    exact hdisk
  · rw [walkUpwards, run_guarded_of_ok hrun]
    exact hdisk

end Host

/-! ### Removals of a program -/

namespace FileSystem

variable {host : Host} {path : Text}

theorem run_status?_of_ok {follow : Bool} {status : Status}
    (h : Request.outcome [path] (·.status path follow) host.disk = .ok status) :
    (status? path follow).run host = (some status, host) := by
  have hlook := Request.runOn_look [path] (·.status path follow) host
  rw [h] at hlook
  unfold status?
  rw [StateT.run_bind, Host.status, Host.run_guarded_of_ok hlook]
  rfl

theorem run_status?_of_error {follow : Bool} {e : HostError}
    (h : Request.outcome [path] (·.status path follow) host.disk = .error e) :
    ∃ log, (status? path follow).run host = (none, { host with log }) := by
  have hlook := Request.runOn_look [path] (·.status path follow) host
  rw [h] at hlook
  obtain ⟨f, log, -, hfailure⟩ := Host.run_guarded_of_error hlook "stat" path
  refine ⟨log, ?_⟩
  unfold status?
  rw [StateT.run_bind, Host.status, hfailure]
  rfl

/-- The entries of a list are removed one after another. -/
theorem run_removeEntries_cons (entry : Text × Bool) (entries : List (Text × Bool)) (host : Host) :
    (removeEntries (entry :: entries)).run host =
      let result := (Host.removeEntry entry.2 entry.1).run host
      let rest := (removeEntries entries).run result.2
      (if result.1.isSuccess then rest.1 + 1 else rest.1, rest.2) := by
  obtain ⟨path, isDirectory⟩ := entry
  cases isDirectory <;> rfl

/-- The disk after a removal of entries one by one. -/
theorem disk_removeEntries (entries : List (Text × Bool)) (host : Host) :
    ((removeEntries entries).run host).2.disk = entries.foldl Disk.dropped host.disk := by
  induction entries generalizing host with
  | nil => rfl
  | cons entry entries ih =>
    rw [run_removeEntries_cons, List.foldl_cons,
      ← (Host.run_removeEntry entry.2 entry.1 host).2]
    exact ih _

/-- The removal of entries one by one gives the number of entries that the disk loses. -/
theorem removeEntries_loses (h : host.disk.WellFormed) (entries : List (Text × Bool)) :
    host.disk.Loses ((removeEntries entries).run host).2.disk ((removeEntries entries).run host).1 := by
  induction entries generalizing host with
  | nil => exact Disk.loses_refl h
  | cons entry entries ih =>
    rw [run_removeEntries_cons]
    dsimp only
    rcases Host.removeEntry_loses h entry.2 entry.1 with ⟨hsuccess, hloses⟩ | ⟨hfailure, hdisk⟩
    · have hrest := ih hloses.wellFormed
      rw [if_pos hsuccess, Nat.add_comm]
      exact hloses.trans hrest
    · rw [if_neg (by simp [hfailure]), ← hdisk]
      exact ih (hdisk.symm ▸ h)

/-- The entries that the removal of everything at a path goes through: what is listed below a directory and
then the directory, or the entry at the path alone. -/
def removals (path : Text) (host : Host) : List (Text × Bool) :=
  match Request.outcome [path] (·.status path false) host.disk with
  | .error _ => []
  | .ok status =>
    if status.isDirectory then
      ((Host.walkUpwards path).run host).1.valueOr [] ++ [(path, true)]
    else [(path, false)]

theorem run_removeAll_of_missing {e : HostError}
    (h : Request.outcome [path] (·.status path false) host.disk = .error e) :
    ∃ log, (removeAll path).run host = (0, { host with log }) := by
  obtain ⟨log, hrun⟩ := run_status?_of_error h
  exact ⟨log, Host.run_bind_of_run hrun _⟩

theorem run_removeAll_of_other {status : Status}
    (h : Request.outcome [path] (·.status path false) host.disk = .ok status)
    (hother : status.isDirectory = false) :
    (removeAll path).run host =
      let result := (Host.removeEntry false path).run host
      (if result.1.isSuccess then 1 else 0, result.2) := by
  unfold removeAll
  rw [Host.run_bind_of_run (run_status?_of_ok h)]
  simp only [hother]
  rfl

theorem run_removeAll_of_directory {status : Status}
    (h : Request.outcome [path] (·.status path false) host.disk = .ok status)
    (hdirectory : status.isDirectory = true) :
    let walk := (Host.walkUpwards path).run host
    let below := (removeEntries (walk.1.valueOr [])).run walk.2
    let last := (Host.removeEntry true path).run below.2
    ((removeAll path).run host).1 = (if last.1.isSuccess then below.1 + 1 else below.1) ∧
      ((removeAll path).run host).2.disk = last.2.disk := by
  intro walk below last
  have hwalk : (Host.walkUpwards path).run host = (walk.1, walk.2) := rfl
  have hbelow : (removeEntries (walk.1.valueOr [])).run walk.2 = (below.1, below.2) := rfl
  have hlast : (Host.removeDirectory path).run below.2 = (last.1, last.2) := rfl
  unfold removeAll
  rw [Host.run_bind_of_run (run_status?_of_ok h)]
  simp only [hdirectory, Bool.not_true, Bool.false_eq_true, if_false]
  rw [Host.run_bind_of_run hwalk, Host.run_bind_of_run hbelow, Host.run_bind_of_run hlast]
  cases last.1.isSuccess <;> exact ⟨rfl, rfl⟩

/-- The disk after the removal of everything at a path. -/
theorem disk_removeAll (path : Text) (host : Host) :
    ((removeAll path).run host).2.disk = (removals path host).foldl Disk.dropped host.disk := by
  unfold removals
  cases hstatus : Request.outcome [path] (·.status path false) host.disk with
  | error e =>
    obtain ⟨log, hrun⟩ := run_removeAll_of_missing hstatus
    rw [hrun]
    rfl
  | ok status =>
    cases hkind : status.isDirectory with
    | false =>
      rw [run_removeAll_of_other hstatus hkind]
      simpa [hkind] using (Host.run_removeEntry false path host).2
    | true =>
      rw [(run_removeAll_of_directory hstatus hkind).2, (Host.run_removeEntry true path _).2,
        disk_removeEntries, Host.disk_walkUpwards]
      simp [hkind]

/-- The removal of everything at a path gives the number of entries that the disk loses. -/
theorem removeAll_loses (h : host.disk.WellFormed) (path : Text) :
    host.disk.Loses ((removeAll path).run host).2.disk ((removeAll path).run host).1 := by
  cases hstatus : Request.outcome [path] (·.status path false) host.disk with
  | error e =>
    obtain ⟨log, hrun⟩ := run_removeAll_of_missing hstatus
    rw [hrun]
    exact Disk.loses_refl h
  | ok status =>
    cases hkind : status.isDirectory with
    | false =>
      rw [run_removeAll_of_other hstatus hkind]
      rcases Host.removeEntry_loses h false path with ⟨hsuccess, hloses⟩ | ⟨hfailure, hdisk⟩
      · simpa [hsuccess] using hloses
      · simpa [hfailure, hdisk] using Disk.loses_refl h
    | true =>
      obtain ⟨hcount, hdisk⟩ := run_removeAll_of_directory hstatus hkind
      have hwalk := Host.disk_walkUpwards path host
      have hbelow := removeEntries_loses (hwalk.symm ▸ h)
        (((Host.walkUpwards path).run host).1.valueOr [])
      rw [hcount, hdisk, ← hwalk]
      rcases Host.removeEntry_loses hbelow.wellFormed true path with
        ⟨hsuccess, hloses⟩ | ⟨hfailure, hkept⟩
      · rw [if_pos hsuccess]
        exact hbelow.trans hloses
      · rw [if_neg (by simp [hfailure]), hkept]
        exact hbelow

/-- The removal of a single entry loses it, or it fails and the disk is what it was. -/
theorem remove_loses (h : host.disk.WellFormed) (path : Text) :
    let result := (remove path).run host
    (result.1 = true ∧ host.disk.Loses result.2.disk 1) ∨
      (result.1 = false ∧ result.2.disk = host.disk) := by
  intro result
  cases hstatus : Request.outcome [path] (·.status path false) host.disk with
  | error e =>
    obtain ⟨log, hrun⟩ := run_status?_of_error hstatus
    have hresult : result = (false, { host with log }) := Host.run_bind_of_run hrun _
    rw [hresult]
    exact .inr ⟨rfl, rfl⟩
  | ok status =>
    have hresult : result = (((Host.removeEntry status.isDirectory path).run host).1.isSuccess,
        ((Host.removeEntry status.isDirectory path).run host).2) := by
      simp only [result]
      unfold remove
      rw [Host.run_bind_of_run (run_status?_of_ok hstatus)]
      cases hkind : status.isDirectory <;> simp only [hkind] <;> rfl
    rw [hresult]
    exact Host.removeEntry_loses h status.isDirectory path

end FileSystem

end Primitives
