import Primitives.Files.FileSystem
import Primitives.Proofs.Files.Invariant

/-!
# Moves of the file system

The file system moves an entry by a rename of the host, and by another request where the host reports that
this crosses devices. The host never reports this by itself, so that either only the rename is made or, if
it is refused from the start, only the other request.

The two ways of moving were meant to agree. They do not: moving a file to a directory fails in the one way
and puts the file into the directory in the other one. The cases in which they agree are those of
`Request.Agrees`.

## Main definitions

* `FileSystem.MovesAlike`: a move succeeds in both ways or in none, and leaves the same tree.

## Main results

* `FileSystem.wellFormed_move`: a move keeps the disk well formed.
* `FileSystem.movesAlike_iff`: when both ways are alike.
-/

namespace Primitives

open FileTree

/-! ### Reports of crossed devices -/

namespace FileTree

variable {t : FileTree} {d : Standpoint}

theorem resolveParent_ne_crossDevice (path : Text) :
    t.resolveParent d path ≠ .error .crossDevice := by
  rw [resolveParent_eq]
  split
  · simp
  split
  · simp
  · have hlead := t.lead_ne_crossDevice linkLimit ((SplitPath.ofText path).start d)
      (SplitPath.ofText path).components.dropLast
    cases h : t.lead linkLimit ((SplitPath.ofText path).start d)
        (SplitPath.ofText path).components.dropLast with
    | error errno => simpa [h] using hlead
    | ok found => simp [h]

theorem lookupName_ne_crossDevice (name : Text) : t.lookupName d name ≠ .error .crossDevice := by
  unfold lookupName
  split
  · simp
  · split <;> simp

end FileTree

namespace Disk

variable {disk : Disk}

theorem replace_ne_crossDevice (old new : Location) (e : Entry) :
    disk.replace old new e ≠ .error .crossDevice := by
  unfold replace
  split <;> try simp
  split <;> simp

/-- No rename reports that it crosses devices. -/
theorem rename_ne_crossDevice (source target : Text) :
    disk.rename source target ≠ .error .crossDevice := by
  refine Outcome.bind_ne_error (resolveParent_ne_crossDevice source) fun origin => ?_
  refine Outcome.bind_ne_error (resolveParent_ne_crossDevice target) fun goal => ?_
  split
  · refine Outcome.bind_ne_error (lookupName_ne_crossDevice _) fun ⟨old, found⟩ => ?_
    cases found with
    | none => simp
    | some e =>
      refine Outcome.bind_ne_error (lookupName_ne_crossDevice _) fun ⟨new, entry⟩ => ?_
      have hreplace := disk.replace_ne_crossDevice old new e
      by_cases hsame : old = new
      · cases e <;> simp [hsame]
        all_goals split <;> simp
      · cases e <;> simp [hsame]
        all_goals split_ifs <;> simp_all
  · simp

end Disk

/-! ### Guarded requests -/

namespace Host

variable {α : Type}

/-- The number of a failure is that of the host call that failed. -/
theorem code_failureOf (operation path : Text) (e : HostError) :
    (failureOf operation path e).1.code = e.code? := by
  unfold failureOf
  dsimp only
  split
  · rfl
  · split
    · next hnull => simp [hnull, HostError.code?]
    · rfl

theorem run_guarded_of_ok {request : Request α} {host host' : Host} {a : α}
    (h : request.runOn host = (.ok a, host')) (operation path : Text) :
    (guarded operation path request).run host = (.success a operation, host') := by
  unfold guarded
  unfold Request.runOn at h
  rw [StateT.run_bind, h]
  rfl

/-- An error of a guarded request becomes a failure and is reported. -/
theorem run_guarded_of_error {request : Request α} {host host' : Host} {e : HostError}
    (h : request.runOn host = (.error e, host')) (operation path : Text) :
    ∃ f log, f.code = e.code? ∧
      (guarded operation path request).run host = (.failure f, { host' with log }) := by
  refine ⟨(failureOf operation path e).1, host'.log ++ [⟨Request.hostLogger,
    (failureOf operation path e).2.1, (failureOf operation path e).2.2⟩],
      code_failureOf operation path e, ?_⟩
  unfold guarded
  unfold Request.runOn at h
  rw [StateT.run_bind, h]
  rfl

end Host

namespace FileSystem

variable {host : Host} {source target : Text}

/-- The error of a rename has not the number of crossed devices. -/
theorem code_of_renameOn {host' : Host} {e : HostError}
    (h : (Request.renameOn source target).runOn host = (.error e, host')) :
    e.code? ≠ some Errno.crossDevice.code := by
  rw [Request.renameOn, Request.runOn_change] at h
  cases houtcome : Request.outcome [source, target] (·.rename source target) host.disk with
  | ok disk => simp [houtcome] at h
  | error e' =>
    obtain rfl : e' = e := by simpa [houtcome] using congrArg Prod.fst h
    rcases Request.of_outcome_error houtcome with rfl | ⟨errno, herrno, rfl⟩
    · simp [HostError.code?]
    · have hne : errno ≠ .crossDevice := by
        rintro rfl
        exact host.disk.rename_ne_crossDevice source target herrno
      cases errno <;> simp_all [HostError.code?, Errno.code]

/-- A move goes on after a failed rename only if this was for crossed devices. -/
theorem run_move_of_failure {f : HostFailure} {host' : Host}
    (h : (Host.rename source target).run host = (.failure f, host')) :
    (move source target).run host =
      if f.code = some Errno.crossDevice.code then
        (do return (← Host.moveAcrossDevices source target).isSuccess : HostM Bool).run host'
      else (false, host') := by
  unfold move
  rw [StateT.run_bind, h]
  change StateT.run (if f.code = some Errno.crossDevice.code then _ else _) host' = _
  split <;> rfl

/-- A move is a rename where this is not refused from the start. -/
theorem run_move_of_renames (source target : Text) (host : Host) (h : host.refusesRename = false) :
    ((move source target).run host).1 = ((Request.renameOn source target).runOn host).1.isOk ∧
      ((move source target).run host).2.disk = ((Request.renameOn source target).runOn host).2.disk := by
  have hrename : (Host.rename source target).run host =
      (Host.guarded "rename" source (Request.renameOn source target)).run host := by
    unfold Host.rename
    rw [StateT.run_bind]
    change StateT.run (if host.refusesRename then _ else _) host = _
    rw [h]
    rfl
  rcases hrun : (Request.renameOn source target).runOn host with ⟨e | _, host'⟩
  · obtain ⟨f, log, hcode, hguarded⟩ := Host.run_guarded_of_error hrun "rename" source
    rw [run_move_of_failure (hrename.trans hguarded), hcode, if_neg (code_of_renameOn hrun)]
    exact ⟨rfl, rfl⟩
  · unfold move
    rw [StateT.run_bind, hrename, Host.run_guarded_of_ok hrun]
    exact ⟨rfl, rfl⟩

/-- A move is the other request where renaming is refused from the start. -/
theorem run_move_of_refuses (source target : Text) (host : Host) (h : host.refusesRename = true) :
    ((move source target).run host).1 = ((Request.move source target).runOn host).1.isOk ∧
      ((move source target).run host).2.disk = ((Request.move source target).runOn host).2.disk := by
  have hrename : (Host.rename source target).run host = (.failure ⟨.ioFailure, Errno.crossDevice.text,
      "rename", some Errno.crossDevice.code⟩, host) := by
    unfold Host.rename
    rw [StateT.run_bind]
    change StateT.run (if host.refusesRename then _ else _) host = _
    rw [h]
    rfl
  rw [run_move_of_failure hrename, if_pos rfl, StateT.run_bind, Host.moveAcrossDevices]
  rcases hrun : (Request.move source target).runOn host with ⟨e | path, host'⟩
  · obtain ⟨f, log, -, hguarded⟩ := Host.run_guarded_of_error hrun "move" source
    rw [hguarded]
    exact ⟨rfl, rfl⟩
  · rw [Host.run_guarded_of_ok hrun]
    exact ⟨rfl, rfl⟩

/-- A move keeps the disk well formed, whether it succeeds or not. -/
theorem wellFormed_move (hdisk : host.disk.WellFormed) (source target : Text) :
    ((move source target).run host).2.disk.WellFormed := by
  cases hrefuses : host.refusesRename with
  | false =>
    rw [(run_move_of_renames source target host hrefuses).2]
    exact Request.preserves_respectedByMoves.renameOn source target host hdisk
  | true =>
    rw [(run_move_of_refuses source target host hrefuses).2]
    exact Request.move_preserves source target host hdisk

/-- A rename depends on the disk only. -/
theorem runOn_renameOn_congr (source target : Text) (host host' : Host) (h : host.disk = host'.disk) :
    ((Request.renameOn source target).runOn host).1 = ((Request.renameOn source target).runOn host').1 ∧
      ((Request.renameOn source target).runOn host).2.disk =
        ((Request.renameOn source target).runOn host').2.disk := by
  rw [Request.renameOn, Request.runOn_change, Request.runOn_change, h]
  cases Request.outcome [source, target] (·.rename source target) host'.disk with
  | error e => exact ⟨rfl, h⟩
  | ok disk => exact ⟨rfl, rfl⟩

/-- A move gives the same answer and leaves the same tree whether or not the host reports that it crosses
devices. -/
def MovesAlike (host : Host) (source target : Text) : Prop :=
  let renamed := (move source target).run { host with refusesRename := false }
  let moved := (move source target).run { host with refusesRename := true }
  renamed.1 = moved.1 ∧ Same renamed.2.disk.tree moved.2.disk.tree

/-- A move that falls back gives the same answer and leaves the same tree as the rename in the listed
cases and in no other one. -/
theorem movesAlike_iff (hdisk : host.disk.WellFormed) (source target : Text) :
    MovesAlike host source target ↔ Request.Agrees { host with refusesRename := true } source target := by
  have hdisk' : ({ host with refusesRename := true } : Host).disk.WellFormed := hdisk
  rw [← Request.alike_move_iff hdisk']
  have hrenamed := run_move_of_renames source target { host with refusesRename := false } rfl
  have hmoved := run_move_of_refuses source target { host with refusesRename := true } rfl
  have hrename := runOn_renameOn_congr source target { host with refusesRename := false }
    { host with refusesRename := true } rfl
  unfold MovesAlike
  dsimp only
  rw [hrenamed.1, hmoved.1, hrenamed.2, hmoved.2, hrename.1, hrename.2]
  exact ⟨fun ⟨hanswer, htree⟩ => ⟨hanswer, htree⟩, fun ⟨hanswer, htree⟩ => ⟨hanswer, htree⟩⟩

/-- A disk with a file and a directory beside it. -/
def fileAndDirectory : Disk :=
  ⟨(FileTree.empty.put [['a']] (.file FileTree.fileMode [])).put [['d']]
    (.directory FileTree.directoryMode), .root⟩

theorem wellFormed_fileAndDirectory : fileAndDirectory.WellFormed := by
  have hfile := Disk.WellFormed.empty.put_of_absent ⟨[], ['a'], rfl, by decide, rfl, rfl⟩
    (.file FileTree.fileMode [])
  exact hfile.put_of_absent ⟨[], ['d'], rfl, by decide, rfl, rfl⟩ (.directory FileTree.directoryMode)

/-- The file is moved alike to a new name, and not to the directory. -/
theorem movesAlike_fileAndDirectory :
    MovesAlike (.ofDisk fileAndDirectory) ['a'] ['b'] ∧
      ¬ MovesAlike (.ofDisk fileAndDirectory) ['a'] ['d'] := by
  have hdisk := wellFormed_fileAndDirectory
  have hfile : fileAndDirectory.place ['a'] = .ok ([['a']], some (.file FileTree.fileMode [])) :=
    Disk.place_name rfl (by decide) (by decide)
  have hfree : fileAndDirectory.place ['b'] = .ok ([['b']], none) :=
    Disk.place_name rfl (by decide) (by decide)
  have hdirectory : fileAndDirectory.place ['d'] =
      .ok ([['d']], some (.directory FileTree.directoryMode)) :=
    Disk.place_name rfl (by decide) (by decide)
  have hmoved : fileAndDirectory.place (Request.movedPath ['a'] ['d']) = .ok ([['d'], ['a']], none) :=
    Disk.place_joinTwo hdirectory (by decide) (by decide) (by decide)
  have hentry : ¬ Disk.IsDirectoryEntry (.file FileTree.fileMode []) := by simp [Disk.IsDirectoryEntry]
  constructor
  · obtain ⟨disk, hrename⟩ := Disk.exists_rename hdisk hfile hfree hentry (by simp) rfl rfl
    refine (movesAlike_iff hdisk ['a'] ['b']).2 (.renamed ?_ disk hrename)
    have hresolve := Disk.resolve_of_place_none Purpose.look_ne_write hfree
    simp [Host.ofDisk, Disk.leadsToDirectory_iff, hresolve, Disk.asksForDirectory]
  · intro hmoves
    have hleads : fileAndDirectory.leadsToDirectory ['d'] :=
      Disk.leadsToDirectory_iff.2 ⟨_, Disk.resolve_of_place_directory Purpose.look_ne_write hdirectory⟩
    obtain ⟨disk, hinto⟩ := Disk.exists_rename hdisk hfile hmoved hentry (by simp) rfl rfl
    cases (movesAlike_iff hdisk ['a'] ['d']).1 hmoves with
    | null h => simp [Request.hasNull] at h
    | renamed h => exact h hleads
    | refused h => exact h hleads
    | itself _ h =>
      have hsame := h.1
      simp [Host.ofDisk, Disk.sameTarget, Disk.resolve_of_place_file Purpose.look_ne_write hfile,
        Disk.resolve_of_place_directory Purpose.look_ne_write hdirectory,
        Disk.asksForDirectory] at hsame
    | taken _ h =>
      have hresolve := Disk.resolve_of_place_none Purpose.look_ne_write hmoved
      have hnot : Disk.asksForDirectory (Request.movedPath ['a'] ['d']) = false := rfl
      simp [Host.ofDisk, Disk.isPresent_iff, hresolve, hnot] at h
    | refusedTwice _ _ _ h => exact h disk hinto
    | same _ _ disk _ h =>
      obtain ⟨-, ⟨heq, -⟩ | ⟨-, hreplace⟩⟩ := (Disk.rename_ok_iff_of_place hfile hdirectory).1 h
      · exact absurd heq (by decide)
      · have hkinds := (Disk.exists_replace_iff (by decide)).1 ⟨disk, hreplace⟩ _ rfl
        exact hentry (hkinds.1.2 ⟨_, rfl⟩)

end FileSystem

end Primitives
