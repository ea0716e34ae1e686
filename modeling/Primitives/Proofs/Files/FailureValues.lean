import Primitives.Proofs.Files.LineFiles

/-!
# Failures of the host in file operations

A file operation tells a failure of the host by one value of its own: none, false, -1, zero or an empty
text or list. Operations that make several requests give this value whichever of them fails, except for the
removal of everything below a path, which goes on and counts what it removed.

## Main definitions

* `Host.ShowsAs`: the value that a step gives when a request fails.
* `FileSystem.FailureValues`: the values of the file operations.

## Main results

* `FileSystem.failureValues`: these values are given.
-/

namespace Primitives

namespace Host

variable {α β γ : Type}

/-- A step gives a value on every host on which the result of a request is a failure. -/
def ShowsAs (failed : γ → Prop) (request : HostM γ) (step : HostM β) (v : β) : Prop :=
  ∀ host, failed (request.run host).1 → (step.run host).1 = v

/-- A step that begins with a request shows its failures as what it gives for each of them. -/
theorem showsAs_bind {failed : γ → Prop} {request : HostM γ} {next : γ → HostM β} {v : β}
    (h : ∀ r host, failed r → ((next r).run host).1 = v) :
    ShowsAs failed request (request >>= next) v := by
  intro host hfailed
  rw [StateT.run_bind]
  exact h _ _ hfailed

/-- What goes on with the value that shows a failure shows it as what it makes of that value. -/
theorem ShowsAs.bind {δ : Type} {failed : γ → Prop} {request : HostM γ} {step : HostM β} {v : β}
    {next : β → HostM δ} {w : δ} (h : ShowsAs failed request step v)
    (hnext : ∀ host, ((next v).run host).1 = w) : ShowsAs failed request (step >>= next) w := by
  intro host hfailed
  rw [StateT.run_bind]
  have hv := h host hfailed
  rcases hrun : step.run host with ⟨v', host'⟩
  obtain rfl : v' = v := by rw [← hv, hrun]
  exact hnext host'

/-- The result of a request is a failure. -/
def IsFailure (r : HostResult α) : Prop :=
  r.isSuccess = false

/-- The result of a request for a text is a failure of the host. -/
def IsTextFailure (r : Except EncodingFault (HostResult α)) : Prop :=
  ∃ f, r = .ok (.failure f)

end Host

namespace FileSystem

open Host

/-- The values by which the file operations tell that a request to the host has failed. -/
structure FailureValues [Surroundings] (encoding : Text) : Prop where
  readFile : ∀ path, ShowsAs IsTextFailure (readText path encoding) (readFile encoding path) (.ok none)
  readLines : ∀ path, ShowsAs IsTextFailure (readText path encoding) (readLines encoding path) (.ok [])
  writeFile : ∀ path content, ShowsAs IsTextFailure (writeText path content encoding false)
    (writeFile encoding path content) (.ok false)
  appendFile : ∀ path content, ShowsAs IsTextFailure (writeText path content encoding true)
    (appendFile encoding path content) (.ok false)
  writeLines : ∀ path ls, ShowsAs IsTextFailure (writeText path (unlines ls) encoding false)
    (writeLines encoding path ls) (.ok false)
  «exists» : ∀ path, ShowsAs IsFailure (status path true) («exists» path) false
  isFile : ∀ path, ShowsAs IsFailure (status path true) (isFile path) false
  isDir : ∀ path, ShowsAs IsFailure (status path true) (isDir path) false
  fileSize : ∀ path, ShowsAs IsFailure (status path true) (fileSize path) (-1)
  listDir : ∀ path, ShowsAs IsFailure (listNames path) (listDir path) []
  workingDirectory : ShowsAs IsFailure workingPath workingDirectory []
  enter : ∀ path, ShowsAs IsFailure (Host.enter path) (enter path) false
  makeDirectory : ∀ path, ShowsAs IsFailure (Host.makeDirectory path) (makeDirectory path) false
  makeDirectories : ∀ path,
    ShowsAs IsFailure (Host.makeDirectories path) (makeDirectories path) false
  remove : ∀ path, ShowsAs IsFailure (status path false) (remove path) false
  removeEntry : ∀ path host found host',
    (status? path false).run host = (some found, host') →
      IsFailure ((Host.removeEntry found.isDirectory path).run host').1 →
        ((FileSystem.remove path).run host).1 = false
  removeAll : ∀ path, ShowsAs IsFailure (status path false) (removeAll path) 0
  removeAllFile : ∀ path host found host',
    (status? path false).run host = (some found, host') → found.isDirectory = false →
      IsFailure ((removeFile path).run host').1 → ((FileSystem.removeAll path).run host).1 = 0
  copy : ∀ source target host isDirectory host',
    (FileSystem.isDir source).run host = (isDirectory, host') →
      IsFailure ((if isDirectory then copyTree source target else copyFile source target).run host').1 →
        ((copy source target).run host).1 = false
  move : ∀ source target host f host', (rename source target).run host = (.failure f, host') →
    (f.code = some Errno.crossDevice.code →
      IsFailure ((moveAcrossDevices source target).run host').1) →
        ((move source target).run host).1 = false

section

variable {γ : Type}

theorem showsAs_isSuccess {request : HostM (HostResult γ)} :
    ShowsAs IsFailure request (do return (← request).isSuccess) false :=
  showsAs_bind fun _ _ h => h

theorem showsAs_valueOr {request : HostM (HostResult γ)} (default : γ) :
    ShowsAs IsFailure request (do return (← request).valueOr default) default :=
  showsAs_bind fun r _ h => by cases r with
    | success a operation => exact nomatch h
    | failure f => rfl

/-- An entry that is not removed does not count. -/
theorem showsAs_removed {request : HostM (HostResult γ)} :
    ShowsAs IsFailure request (do return if (← request).isSuccess then 1 else 0) 0 :=
  showsAs_bind fun _ _ h => if_neg (by simpa [IsFailure] using h)

/-- A text that the host does not write. -/
theorem showsAs_written {request : HostM (Except EncodingFault (HostResult γ))} :
    ShowsAs IsTextFailure request (do return (← request).map HostResult.isSuccess) (.ok false) :=
  showsAs_bind fun _ _ ⟨_, h⟩ => by rw [h]; rfl

end

theorem showsAs_readFile [Surroundings] (encoding path : Text) :
    ShowsAs IsTextFailure (readText path encoding) (readFile encoding path) (.ok none) :=
  showsAs_bind fun _ _ ⟨_, h⟩ => by rw [h]; rfl

theorem showsAs_status? (path : Text) (follow : Bool) :
    ShowsAs IsFailure (status path follow) (status? path follow) none :=
  showsAs_bind fun r _ h => by cases r with
    | success found operation => exact nomatch h
    | failure f => rfl

/-- All failures of the host are told by these values. -/
theorem failureValues [Surroundings] (encoding : Text) : FailureValues encoding where
  readFile path := showsAs_readFile encoding path
  readLines path := (showsAs_readFile encoding path).bind fun _ => congrArg Except.ok lines_nil
  writeFile _ _ := showsAs_written
  appendFile _ _ := showsAs_written
  writeLines _ _ := showsAs_written
  «exists» path := (showsAs_status? path true).bind fun _ => rfl
  isFile path := (showsAs_status? path true).bind fun _ => rfl
  isDir path := (showsAs_status? path true).bind fun _ => rfl
  fileSize path := (showsAs_status? path true).bind fun _ => rfl
  listDir _ := showsAs_valueOr []
  workingDirectory := showsAs_valueOr []
  enter _ := showsAs_isSuccess
  makeDirectory _ := showsAs_isSuccess
  makeDirectories path := showsAs_bind fun r host h => by
    rw [IsFailure] at h
    rw [h]
    rfl
  remove path := (showsAs_status? path false).bind fun _ => rfl
  removeEntry path host found host' hrun h := by
    rw [FileSystem.remove, run_bind_of_run hrun]
    cases hfound : found.isDirectory <;> simp only [hfound, Host.removeEntry] at h ⊢
    · exact showsAs_isSuccess host' h
    · exact showsAs_isSuccess host' h
  removeAll path := (showsAs_status? path false).bind fun _ => rfl
  removeAllFile path host found host' hrun hother h := by
    rw [FileSystem.removeAll, run_bind_of_run hrun]
    simp only [hother]
    exact showsAs_removed host' h
  copy source target host isDirectory host' hrun h := by
    rw [FileSystem.copy, run_bind_of_run hrun]
    cases isDirectory
    · exact showsAs_isSuccess host' h
    · exact showsAs_isSuccess host' h
  move source target host f host' hrun h := by
    rw [run_move_of_failure hrun]
    by_cases hcode : f.code = some Errno.crossDevice.code
    · rw [if_pos hcode]
      exact showsAs_isSuccess host' (h hcode)
    · rw [if_neg hcode]

end FileSystem

end Primitives
