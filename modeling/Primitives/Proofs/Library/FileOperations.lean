import Primitives.Library.FileOperations
import Primitives.Proofs.Files.FailureValues
import Primitives.Proofs.Files.NamedEncodings
import Primitives.Proofs.Library.Names
import Primitives.Proofs.Session.Returns

/-!
# Outcomes of file operations

A file operation ends with a value, in every state of the host, once the settings name an encoding for
texts. There is one exception: the absolute form of a relative path asks for the working directory and ends
with the error of the host when that directory was removed.

## Main definitions

* `Arguments.Yields`: what is read from arguments, whatever they are.

## Main results

* `Action.returns_absolutePath_iff`: when the absolute form of a path is known.
* `fileOperations_return_iff`: when the file operations end with a value.
-/

namespace Primitives

namespace Action

variable {α : Type} {session : Session}

/-- A step of the host that may end with a fault returns if the step does. -/
theorem returns_fallible_iff {ε : Type} (fault : ε → Fault) (step : HostM (Except ε α)) :
    Returns (do ofExcept fault (← onHost step)) session ↔
      ∃ a, (step.run session.host).1 = .ok a := by
  have hrun := runOn_bind_of_ok (runOn_onHost step session) (ofExcept fault)
  rw [runOn_ofExcept] at hrun
  cases hstep : (step.run session.host).1 with
  | error e =>
    rw [hstep] at hrun
    exact iff_of_false (not_returns_of_run hrun) (by simp)
  | ok a =>
    rw [hstep] at hrun
    exact iff_of_true (returns_of_run hrun) ⟨a, rfl⟩

/-- A step with the encoding of the settings returns if the step does. -/
theorem returns_withEncoding_iff [Surroundings] {settings : Numbered Settings}
    (h : session.settings = some settings) {step : Text → HostM (Except EncodingFault α)} :
    Returns (withEncoding step) session ↔
      Host.Returns (step settings.content.fileEncoding) session.host := by
  rw [Host.Returns, ← returns_fallible_iff .encoding]
  unfold Returns withEncoding
  rw [runOn_bind_of_ok (runOn_settings h)]

/-- The path of the working directory, which a removed one has no longer. -/
theorem runOn_workingPath (host : Host) :
    (Request.look [] (·.workingPath)).runOn host =
      (if host.disk.directory.removed = 0 then .ok (Disk.pathOf host.disk.directory.location)
        else .error (.call .noEntry []), host) := by
  rw [Request.runOn_look, Request.outcome, Disk.workingPath]
  by_cases hremoved : host.disk.directory.removed = 0 <;> simp [hremoved]

/-- The working directory is asked for if a path is relative. -/
theorem run_hostAbsolutePath (path : Text) (host : Host) :
    (Host.absolutePath path).run host =
      (if PathText.isAbsolute path then .ok (PathText.normalize path)
        else if host.disk.directory.removed = 0 then
          .ok (PathText.absolute (Disk.pathOf host.disk.directory.location) path)
        else .error (.call .noEntry []), host) := by
  have hworking := runOn_workingPath host
  unfold Host.absolutePath
  by_cases habsolute : PathText.isAbsolute path
  · simp only [habsolute, if_true]
    rfl
  · simp only [habsolute]
    by_cases hremoved : host.disk.directory.removed = 0
    · rw [if_pos hremoved] at hworking ⊢
      exact Request.runOn_bind_of_ok hworking _
    · rw [if_neg hremoved] at hworking ⊢
      exact Request.runOn_bind_of_error hworking _

/-- The absolute form of a path is known if the path is absolute or the working directory is there. -/
theorem returns_absolutePath_iff {path : Text} :
    Returns (absolutePath path) session ↔
      PathText.isAbsolute path ∨ session.host.disk.directory.removed = 0 := by
  have hmap : absolutePath path =
      Value.text <$> (do ofExcept .host (← onHost (Host.absolutePath path))) := by
    rw [map_eq_pure_bind, bind_assoc]
    rfl
  rw [hmap, returns_map_iff, returns_fallible_iff, run_hostAbsolutePath]
  by_cases habsolute : PathText.isAbsolute path
  · simp [habsolute]
  · by_cases hremoved : session.host.disk.directory.removed = 0 <;> simp [habsolute, hremoved]

end Action

/-! ### Arguments -/

namespace Arguments

variable {α β : Type}

/-- What is read from arguments satisfies a condition, whatever they are. -/
def Yields (P : α → Prop) (read : Arguments α) : Prop :=
  ∀ args a rest, read.run args = some (a, rest) → P a

theorem yields_pure {P : α → Prop} {a : α} (h : P a) : Yields P (pure a) := by
  intro args b rest hrun
  obtain ⟨rfl, -⟩ := Prod.mk.inj (Option.some.inj hrun)
  exact h

theorem Yields.bind {P : α → Prop} {Q : β → Prop} {read : Arguments α} {next : α → Arguments β}
    (h : Yields P read) (hnext : ∀ a, P a → Yields Q (next a)) : Yields Q (read >>= next) := by
  intro args b rest hrun
  rw [StateT.run_bind] at hrun
  obtain ⟨⟨a, args'⟩, hread, hnext'⟩ := Option.bind_eq_some_iff.1 hrun
  exact hnext a (h _ _ _ hread) _ _ _ hnext'

theorem yields_trivial (read : Arguments α) : Yields (fun _ => True) read :=
  fun _ _ _ _ => trivial

end Arguments

/-! ### File operations -/

open Primitives.Action Primitives.Arguments Surroundings

theorem yields_onPath {α : Type} (name remark : String) (toValue : α → Value)
    (step : Text → HostM α) (session : Session) :
    Yields (Returns · session) (onPath name remark toValue step).run :=
  (yields_trivial _).bind fun _ _ =>
    yields_pure ((returns_map_iff toValue).2 (returns_onHost _))

theorem yields_plain (name remark : String) (f : Arguments Value) (session : Session) :
    Yields (Returns · session) (Operation.plain name remark f).run :=
  (yields_trivial _).bind fun _ _ => yields_pure (returns_pure _)

/-- The operation that gives the absolute form of a path. -/
def absoluteOperation : Operation :=
  .acting "absolute" "" do return absolutePath (← text)

theorem absoluteOperation_run_iff {args : List Value} {action : Action Value} :
    absoluteOperation.run args = some (action, []) ↔
      ∃ path, args = [.text path] ∧ action = absolutePath path := by
  constructor
  · intro h
    unfold absoluteOperation Operation.acting at h
    cases args with
    | nil => exact nomatch h
    | cons v rest =>
      cases v with
      | text path =>
        obtain ⟨rfl, rfl⟩ := Prod.mk.inj (Option.some.inj h)
        exact ⟨path, rfl, rfl⟩
      | _ => exact nomatch h
  · rintro ⟨path, rfl, rfl⟩
    rfl

section

variable [Surroundings] {session : Session} {settings : Numbered Settings}

theorem absoluteOperation_mem : absoluteOperation ∈ fileOperations :=
  List.mem_of_getElem? (i := 13) rfl

/-- The operations are told apart by their names. -/
theorem eq_absoluteOperation {op : Operation} (hop : op ∈ fileOperations) (hname : op.name = "absolute") :
    op = absoluteOperation := by
  have hmodule : ("fs", fileOperations) ∈ Library.modules := List.mem_of_getElem? (i := 3) rfl
  exact List.inj_on_of_nodup_map (Library.nodup_operationNames _ hmodule) hop absoluteOperation_mem hname

/-- All file operations but one return, whatever their arguments are. -/
theorem yields_of_mem (hsettings : session.settings = some settings)
    (htext : IsForTexts settings.content.fileEncoding) :
    ∀ op ∈ fileOperations, op = absoluteOperation ∨ Yields (Returns · session) op.run := by
  have hencoded {α : Type} {step : Text → HostM (Except EncodingFault α)} (toValue : α → Value)
      (hstep : Host.Returns (step settings.content.fileEncoding) session.host) :
      Yields (Returns · session) (pure (toValue <$> withEncoding step)) :=
    yields_pure ((returns_map_iff toValue).2 ((returns_withEncoding_iff hsettings).2 hstep))
  have hread {path : Text} : Host.Returns
      (FileSystem.readFile settings.content.fileEncoding path) session.host :=
    FileSystem.returns_readFile_iff.2 (Host.returns_readText_iff.2 (.inl htext))
  have honHost {α : Type} (step : HostM α) (toValue : α → Value) :
      Yields (Returns · session) (pure (toValue <$> onHost step)) :=
    yields_pure ((returns_map_iff toValue).2 (returns_onHost step))
  simp only [fileOperations, List.forall_mem_cons]
  refine ⟨.inr ?readFile, .inr ?writeFile, .inr ?appendFile, .inr ?readLines, .inr ?writeLines, .inr ?present,
    .inr ?isFile, .inr ?isDir, .inr ?fileSize, .inr ?extension, .inr ?filename, .inr ?parent, .inr ?join, .inl rfl,
    .inr ?mkdir, .inr ?mkdirp, .inr ?remove, .inr ?removeAll, .inr ?copy, .inr ?move, .inr ?listDir, .inr ?cwd,
    .inr ?chdir, by simp⟩
  case readFile => exact (yields_trivial _).bind fun path _ => hencoded _ hread
  case readLines =>
    exact (yields_trivial _).bind fun path _ =>
      hencoded _ (FileSystem.returns_readLines_iff.2 hread)
  case writeFile =>
    exact (yields_trivial _).bind fun path _ => (yields_trivial _).bind fun content _ =>
      hencoded _ (FileSystem.returns_writeFile_iff.2 htext)
  case appendFile =>
    exact (yields_trivial _).bind fun path _ => (yields_trivial _).bind fun content _ =>
      hencoded _ (FileSystem.returns_appendFile_iff.2 htext)
  case writeLines =>
    exact (yields_trivial _).bind fun path _ => (yields_trivial _).bind fun ls _ =>
      hencoded _ (FileSystem.returns_writeFile_iff.2 htext)
  case copy | move =>
    exact (yields_trivial _).bind fun source _ => (yields_trivial _).bind fun target _ =>
      honHost _ _
  case cwd => exact honHost _ _
  case extension | filename | parent | join => exact yields_plain _ _ _ session
  all_goals exact yields_onPath _ _ _ _ session

/-- With an encoding for texts, a file operation ends with a value in every state of the host, unless it
gives the absolute form of a relative path and the working directory was removed. The failures of the host
are told by values of the operations. -/
theorem fileOperations_return_iff (hsettings : session.settings = some settings)
    (htext : IsForTexts settings.content.fileEncoding) :
    (∀ op ∈ fileOperations, ∀ args action, op.run args = some (action, []) →
      (Returns action session ↔
        ¬ (op.name = "absolute" ∧ session.host.disk.directory.removed ≠ 0 ∧
          ∃ path, args = [.text path] ∧ PathText.isAbsolute path = false))) ∧
      FileSystem.FailureValues settings.content.fileEncoding := by
  refine ⟨fun op hop args action hargs => ?_, FileSystem.failureValues _⟩
  by_cases habsolute : op = absoluteOperation
  · subst habsolute
    obtain ⟨path, rfl, rfl⟩ := absoluteOperation_run_iff.1 hargs
    have hname : absoluteOperation.name = "absolute" := rfl
    rw [returns_absolutePath_iff]
    cases hpath : PathText.isAbsolute path <;> simp [hpath, hname]
  · have hyields := (yields_of_mem hsettings htext op hop).resolve_left habsolute
    exact iff_of_true (hyields args action [] hargs) fun h => habsolute (eq_absoluteOperation hop h.1)

end

/-- A session whose working directory was removed, below the root. -/
def removedDirectory : Session :=
  (Session.fresh ⟨.empty, ⟨[], 1⟩⟩).withSettings {}

/-- In a removed directory the absolute form of a relative path is not known, that of an absolute one is,
and the path of the working directory is empty. -/
theorem fileOperations_return_iff_removedDirectory :
    removedDirectory.settings = some ⟨0, {}⟩ ∧ IsForTexts ({} : Settings).fileEncoding ∧
      absoluteOperation ∈ fileOperations ∧
      ¬ Returns (absolutePath "x") removedDirectory ∧ Returns (absolutePath "/x") removedDirectory ∧
      (FileSystem.workingDirectory.run removedDirectory.host).1 = [] := by
  have hsettings : removedDirectory.settings = some ⟨0, {}⟩ := rfl
  have htext : IsForTexts (⟨0, {}⟩ : Numbered Settings).content.fileEncoding :=
    ⟨StandardCharset.latin1.toCharset, rfl⟩
  have hop : absoluteOperation ∈ fileOperations := absoluteOperation_mem
  obtain ⟨hreturns, hvalues⟩ := fileOperations_return_iff hsettings htext
  refine ⟨hsettings, htext, hop, ?_, ?_, hvalues.workingDirectory _ ?_⟩
  · intro h
    have hargs := absoluteOperation_run_iff.2 ⟨"x", rfl, rfl⟩
    exact (hreturns _ hop _ _ hargs).1 h ⟨rfl, by decide, "x", rfl, by decide⟩
  · have hargs := absoluteOperation_run_iff.2 ⟨"/x", rfl, rfl⟩
    refine (hreturns _ hop _ _ hargs).2 ?_
    rintro ⟨-, -, path, hpath, hrelative⟩
    obtain rfl : "/x" = path := by simpa using hpath
    exact absurd hrelative (by decide)
  · rfl

end Primitives
