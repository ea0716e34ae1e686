import Primitives.Library.Basic
import Primitives.Proofs.Files.MoveTargets
import Primitives.Proofs.Outcomes
import Primitives.Proofs.Session.Runs

/-!
# Loading settings

Loading settings passes through three layers: the file is read, its bytes are loaded as a document, and the
settings are made from the datum of the document. An error of the host, a malformed document and data that
are no settings are configuration errors. Three faults are not: a path with the null character, any fault of
the loader other than a malformed document, bytes that encode no text among them, and a mapping with a key
that is no text. So an outcome is settings or a configuration error exactly if none of the three is met. This
holds whatever the loader makes of the bytes.

The settings of a session and its library are loaded only if there are none, and then from the file that the
session names.

## Main definitions

* `Fault.IsConfiguration`, `Action.Configured`: configuration errors, and outcomes without other faults.
* `Settings.IsReadable`, `Disk.IsSettingsFile`: bytes and files that meet none of the three faults.
* `Action.loaded`: the outcome of loading as a function of the disk.

## Main results

* `Action.runOn_loadSettings`: loading changes nothing but the log.
* `Action.loading_configured_iff`: when loading settings and what depends on it ends with a value or a
  configuration error.
-/

namespace Primitives

/-! ### Configuration errors -/

/-- A reported error of the class of configuration errors. -/
def Fault.IsConfiguration (fault : Fault) : Prop :=
  ∃ e, fault.report? = some e ∧ e.errorClass = .configuration

namespace Action

/-- An outcome that is a value or a configuration error. -/
def Configured {α : Type} (outcome : Except Fault α) : Prop :=
  ∀ fault, outcome = .error fault → fault.IsConfiguration

@[simp] theorem configured_ok {α : Type} (a : α) : Configured (.ok a : Except Fault α) :=
  fun _ h => nomatch h

@[simp] theorem configured_error_iff {α : Type} {fault : Fault} :
    Configured (.error fault : Except Fault α) ↔ fault.IsConfiguration := by
  refine ⟨fun h => h fault rfl, ?_⟩
  rintro h other ⟨⟩
  exact h

/-- What follows an action leaves it as configured as it is, if it meets no fault of its own. -/
theorem configured_bind_iff {α β : Type} {a : Action α} {f : α → Action β}
    (hf : ∀ x s, Configured ((f x).runOn s).1) (s : Session) :
    Configured ((a >>= f).runOn s).1 ↔ Configured (a.runOn s).1 := by
  rw [runOn_bind]
  rcases a.runOn s with ⟨fault | x, s'⟩
  · simp
  · simpa using hf x s'

end Action

/-! ### Settings from data -/

namespace Settings

/-- The keys of entries are texts exactly if the entries can be read by them. -/
theorem textEntries?_isSome_iff (entries : List (Datum × Datum)) :
    (Datum.textEntries? entries).isSome ↔ ∀ entry ∈ entries, ∃ key, entry.1 = .text key := by
  induction entries with
  | nil => simp [Datum.textEntries?]
  | cons entry entries ih =>
    obtain ⟨key, d⟩ := entry
    cases key <;> simp [Datum.textEntries?, ih]

variable [Surroundings]

/-- Entries that are no settings are invalid, with the issues of their fields. -/
theorem ofEntries_error {entries : List (Text × Datum)} {fault : SettingsFault}
    (h : ofEntries entries = .error fault) : ∃ issues, fault = .invalid issues := by
  simp only [ofEntries] at h
  split at h
  · simp at h
  · exact ⟨_, (Except.error.inj h).symm⟩

/-- Bytes that the loader finds malformed at worst, and whose keys are texts if they are loaded as a
mapping. -/
structure IsReadable (bytes : Bytes) : Prop where
  fault : ∀ fault, Surroundings.load bytes = .error fault → fault = .malformed
  keys : ∀ entries, Surroundings.load bytes = .ok (.mapping entries) →
    ∀ entry ∈ entries, ∃ key, entry.1 = .text key

/-- Settings are made from a datum, or it is a configuration error that they are not, exactly if the
datum is no mapping or has texts as its keys. -/
theorem ofDatum_configured_iff (d : Datum) :
    Action.Configured ((ofDatum d).mapError .settings) ↔
      ∀ entries, d = .mapping entries → ∀ entry ∈ entries, ∃ key, entry.1 = .text key := by
  have hentries : ∀ entries, Action.Configured ((ofEntries entries).mapError .settings) := by
    intro entries
    cases hmade : ofEntries entries with
    | ok settings => exact Action.configured_ok settings
    | error fault =>
      obtain ⟨issues, rfl⟩ := ofEntries_error hmade
      exact Action.configured_error_iff.2 ⟨_, rfl, rfl⟩
  cases d with
  | mapping entries =>
    have hkeys := textEntries?_isSome_iff entries
    cases htexts : Datum.textEntries? entries with
    | some texts =>
      have hall := hkeys.1 (by simp [htexts])
      simp only [ofDatum, htexts, hentries, Datum.mapping.injEq, forall_eq', true_iff]
      exact hall
    | none =>
      simp only [ofDatum, htexts, Outcome.mapError_error, Action.configured_error_iff,
        Datum.mapping.injEq, forall_eq']
      constructor
      · rintro ⟨e, he, -⟩
        simp [Fault.report?] at he
      · intro hall
        simpa [htexts] using hkeys.2 hall
  | null => exact iff_of_true (hentries []) (by simp)
  | _ => exact iff_of_true (Action.configured_error_iff.2 ⟨_, rfl, rfl⟩) (by simp)

end Settings

/-! ### Faults of files -/

namespace Action

/-- The fault of a file that cannot be read. -/
def fileFault (path : Text) : HostError → Fault
  | .embeddedNull => .settingsPath
  | e => .unreadableSettings path e

theorem runOn_readSettingsFile (path : Text) (s : Session) :
    (readSettingsFile path).runOn s =
      ((Request.outcome [path] (·.readBytes path) s.host.disk).mapError (fileFault path), s) := by
  have hlook := Request.runOn_look [path] (·.readBytes path) s.host
  unfold Request.runOn at hlook
  unfold readSettingsFile
  rw [runOn_bind, runOn_onHost, hlook]
  cases Request.outcome [path] (·.readBytes path) s.host.disk with
  | ok bytes => rfl
  | error e => cases e <;> rfl

/-- An error of the host is a configuration error unless the path has the null character. -/
theorem fileFault_isConfiguration_iff (path : Text) (e : HostError) :
    (fileFault path e).IsConfiguration ↔ e ≠ .embeddedNull := by
  cases e <;> simp [fileFault, Fault.IsConfiguration, Fault.report?, ErrorReport.plain]

/-- A fault of the loader is a configuration error only if it is that of a malformed document. -/
theorem loadFault_isConfiguration_iff (path : Text) (fault : LoadFault) :
    (loadFault path fault).IsConfiguration ↔ fault = .malformed := by
  cases fault with
  | document fault =>
    cases fault <;> simp [loadFault, Fault.IsConfiguration, Fault.report?, ErrorReport.plain]
  | _ => simp [loadFault, Fault.IsConfiguration, Fault.report?]

end Action

/-! ### Loading a file -/

section

variable [Surroundings]

/-- A path without the null character behind which no file is found, or one whose bytes are readable. -/
structure Disk.IsSettingsFile (disk : Disk) (path : Text) : Prop where
  noNull : '\x00' ∉ path
  content : ∀ bytes, disk.readBytes path = .ok bytes → Settings.IsReadable bytes

namespace Action

/-- The outcome of loading the settings of a file. -/
def loaded (disk : Disk) (path : Text) : Except Fault Settings := do
  let bytes ← (Request.outcome [path] (·.readBytes path) disk).mapError (fileFault path)
  let d ← (Surroundings.load bytes).mapError (loadFault path)
  (Settings.ofDatum d).mapError .settings

/-- Loading settings changes nothing but the log. -/
theorem runOn_loadSettings (path : Text) (s : Session) :
    ∃ log, (loadSettings path).runOn s =
      (loaded s.host.disk path, { s with host := { s.host with log } }) := by
  simp only [loadSettings, loaded, runOn_bind, runOn_readSettingsFile, runOn_ofExcept, runOn_report]
  cases hbytes : Request.outcome [path] (·.readBytes path) s.host.disk with
  | error e => exact ⟨s.host.log, rfl⟩
  | ok bytes =>
    cases hload : Surroundings.load bytes with
    | error fault => exact ⟨s.host.log, by simp [hload]⟩
    | ok d =>
      refine ⟨s.host.log ++ [⟨"KaedeRT.config", .debug,
        "Loaded runtime configuration from " ++ path⟩], ?_⟩
      simp [hload]

theorem loaded_of_unreadable {disk : Disk} {path : Text} {e : Errno} (hnull : '\x00' ∉ path)
    (h : disk.readBytes path = .error e) :
    loaded disk path = .error (.unreadableSettings path (.call e [path])) := by
  simp [loaded, Request.outcome, Request.hasNull, hnull, h, fileFault]

/-! ### When loading is configured -/

/-- The bytes of a file are read as settings, or it is a configuration error that they are not, exactly if
they are readable. -/
theorem bytes_configured_iff (path : Text) (bytes : Bytes) :
    Configured (do
      let d ← (Surroundings.load bytes).mapError (loadFault path)
      (Settings.ofDatum d).mapError .settings) ↔ Settings.IsReadable bytes := by
  cases hload : Surroundings.load bytes with
  | error fault =>
    refine configured_error_iff.trans ((loadFault_isConfiguration_iff path fault).trans ?_)
    constructor
    · rintro rfl
      exact ⟨by simp [hload], by simp [hload]⟩
    · exact fun hreadable => hreadable.fault fault hload
  | ok d =>
    refine (Settings.ofDatum_configured_iff d).trans ?_
    constructor
    · exact fun hkeys => ⟨by simp [hload], by simpa [hload] using hkeys⟩
    · rintro hreadable entries rfl
      exact hreadable.keys entries hload

/-- Loading is configured exactly for files of settings. -/
theorem loaded_configured_iff (disk : Disk) (path : Text) :
    Configured (loaded disk path) ↔ disk.IsSettingsFile path := by
  by_cases hnull : '\x00' ∈ path
  · have hfault : loaded disk path = .error .settingsPath := by
      simp [loaded, Request.outcome, Request.hasNull, hnull, fileFault]
    rw [hfault, configured_error_iff]
    refine iff_of_false ?_ fun hfile => hfile.noNull hnull
    rintro ⟨e, he, -⟩
    simp [Fault.report?] at he
  · have houtcome : Request.outcome [path] (·.readBytes path) disk =
        (disk.readBytes path).mapError (.call · [path]) := by
      simp [Request.outcome, Request.hasNull, hnull]
    unfold loaded
    rw [houtcome]
    cases hbytes : disk.readBytes path with
    | error errno =>
      refine iff_of_true (configured_error_iff.2 ?_) ⟨hnull, by simp [hbytes]⟩
      exact (fileFault_isConfiguration_iff _ _).2 (by simp)
    | ok bytes =>
      refine (bytes_configured_iff path bytes).trans ?_
      constructor
      · intro hcontent
        refine ⟨hnull, fun other hother => ?_⟩
        obtain rfl : bytes = other := by simpa [hbytes] using hother
        exact hcontent
      · exact fun hfile => hfile.content bytes hbytes

theorem loadSettings_configured_iff (path : Text) (s : Session) :
    Configured ((loadSettings path).runOn s).1 ↔ s.host.disk.IsSettingsFile path := by
  obtain ⟨log, hrun⟩ := runOn_loadSettings path s
  rw [hrun]
  exact loaded_configured_iff s.host.disk path

end Action

/-- A session that names no file or a file of settings. -/
def Session.NamesSettings (s : Session) : Prop :=
  ∀ path, s.settingsPath = some path → path ≠ [] → s.host.disk.IsSettingsFile path

namespace Action

theorem settingsOfSession_configured_iff (s : Session) :
    Configured (settingsOfSession.runOn s).1 ↔ s.NamesSettings := by
  simp only [settingsOfSession, runOn_bind, runOn_get, Session.NamesSettings]
  cases hpath : s.settingsPath with
  | none => simp
  | some path =>
    cases path with
    | nil => simp
    | cons c path => simpa using loadSettings_configured_iff (c :: path) s

theorem settings_configured_iff (s : Session) :
    Configured (settings.runOn s).1 ↔ (s.settings = none → s.NamesSettings) := by
  refine (configured_bind_iff ?_ s).trans ?_
  · exact fun _ _ => configured_ok _
  · rw [numberedSettings, runOn_bind, runOn_get]
    cases hsettings : s.settings with
    | some settings => simp [hsettings]
    | none =>
      simp only [hsettings, true_imp_iff]
      refine (configured_bind_iff ?_ s).trans (settingsOfSession_configured_iff s)
      exact fun _ _ => configured_ok _

/-- Loading settings of a file, of a session and for its library ends with a value or a configuration
error exactly if what is loaded, if anything is, is a file of settings. -/
theorem loading_configured_iff (s : Session) :
    (∀ path, Configured ((loadSettings path).runOn s).1 ↔ s.host.disk.IsSettingsFile path) ∧
    (Configured (settingsOfSession.runOn s).1 ↔ s.NamesSettings) ∧
    (Configured (settings.runOn s).1 ↔ (s.settings = none → s.NamesSettings)) ∧
    (Configured (library.runOn s).1 ↔
      (s.library = none → s.settings = none → s.NamesSettings)) := by
  refine ⟨fun path => loadSettings_configured_iff path s, settingsOfSession_configured_iff s,
    settings_configured_iff s, ?_⟩
  rw [library, runOn_bind, runOn_get]
  cases hlibrary : s.library with
  | some number => simp [hlibrary]
  | none =>
    simp only [hlibrary, true_imp_iff]
    refine (configured_bind_iff ?_ s).trans (settings_configured_iff s)
    exact fun _ _ => configured_ok _

end Action

end

/-- A file with one byte that encodes no text ends loading with another fault than a configuration error. -/
theorem Action.loading_configured_iff_undecodable :
    ¬ Configured ((loadSettings "c.yaml").runOn
      (.fresh ⟨FileTree.empty.put ["c.yaml"] (.file FileTree.fileMode [0xe9]), .root⟩)).1 := by
  let disk : Disk := ⟨FileTree.empty.put ["c.yaml"] (.file FileTree.fileMode [0xe9]), .root⟩
  have hplace : disk.place "c.yaml" = .ok (["c.yaml"], some (.file FileTree.fileMode [0xe9])) :=
    Disk.place_name rfl (by decide) (by decide)
  have hread : disk.readBytes "c.yaml" = .ok [0xe9] := by
    rw [Disk.readBytes, Disk.resolve_of_place_file FileTree.Purpose.look_ne_write hplace]
    rfl
  have hload : ∃ message, Surroundings.load [0xe9] = .error (.encoding message) := ⟨_, rfl⟩
  intro hconfigured
  have hfile := ((loading_configured_iff (.fresh disk)).1 "c.yaml").1 hconfigured
  obtain ⟨message, hmessage⟩ := hload
  exact nomatch (hfile.content _ hread).fault _ hmessage

end Primitives
