import Primitives.Session.Basic

/-!
# Settings of a session

Settings are loaded on first use from the file that the session names, or are the defaults if it names
none, and are kept until they are replaced. The bytes of a file go to the loader of documents, and the
settings are made of the datum that it gives. A malformed document is reported; any other fault of the
loader is passed on.

## Main definitions

* `Action.loadSettings`: the settings of a file.
* `Action.settings`: the settings of the session.
* `Action.setSettings`: replaces or drops the settings.
* `Action.setUpLog`: opens an output of the log and sets its threshold.
-/

namespace Primitives

namespace Action

variable [Surroundings]

/-! ### Loading -/

/-- The bytes of a settings file. -/
def readSettingsFile (path : Text) : Action Bytes := do
  match ← onHost (Request.look [path] (·.readBytes path)).run with
  | .ok bytes => return bytes
  | .error .embeddedNull => throw .settingsPath
  | .error e => throw (.unreadableSettings path e)

/-- The fault that one of the loader amounts to. -/
def loadFault (path : Text) : LoadFault → Fault
  | .malformed => .unparsableSettings path
  | .document fault => .settingsDocument fault
  | .encoding message => .settingsEncoding message
  | .other kind message => .settingsLoading kind message

/-- The settings of a file. -/
def loadSettings (path : Text) : Action Settings := do
  let bytes ← readSettingsFile path
  let d ← ofExcept (loadFault path) (Surroundings.load bytes)
  report "KaedeRT.config" .debug ("Loaded runtime configuration from " ++ path)
  ofExcept .settings (Settings.ofDatum d)

/-- The settings of the file that the session names, or the defaults if it names none. -/
def settingsOfSession : Action Settings := do
  match (← get).settingsPath with
  | none | some [] => return {}
  | some path => loadSettings path

/-! ### The settings in force -/

/-- The settings with their number, loaded if there are none. -/
def numberedSettings : Action (Numbered Settings) := do
  match (← get).settings with
  | some settings => return settings
  | none =>
    let content ← settingsOfSession
    let settings := ⟨← makeNumber, content⟩
    modify fun session => { session with settings := some settings }
    return settings

/-- The settings in force. -/
def settings : Action Settings := do
  return (← numberedSettings).content

/-- Replaces the settings; none are loaded again on next use. -/
def setSettings : Option Settings → Action Unit
  | none => modify fun session => { session with settings := none }
  | some content => do
    let settings := ⟨← makeNumber, content⟩
    modify fun session => { session with settings := some settings }

/-- The settings in force, and whether they are the ones that were shown last. -/
def showSettings : Action (Bool × Settings) := do
  let settings ← numberedSettings
  let same := (← get).shownSettings == some settings.number
  modify fun session => { session with shownSettings := some settings.number }
  return (same, settings.content)

/-- Names the file that settings are loaded from. -/
def setSettingsPath (path : Option Text) : Action Unit :=
  modify fun session => { session with settingsPath := path }

/-! ### The log -/

/-- The threshold of a level name, which is in upper case; some levels have a second name, and one name
stands for no threshold. -/
def threshold? (name : Text) : Option (Option Level) :=
  if name = "NOTSET".toList then some none
  else if name = "FATAL".toList then some (some .critical)
  else if name = "WARN".toList then some (some .warning)
  else (Settings.levelNamed? name).map some

/-- Opens an output of the log if there is none, and sets the threshold to a level, which is the one of
the settings by default. -/
def setUpLog (level : Option Text) : Action Unit := do
  let name ← match level with
    | some name => pure (Settings.upperLevel name)
    | none => pure (← settings).logLevel.name
  modify fun session =>
    { session with log := { session.log with outputs := max session.log.outputs 1 } }
  match threshold? name with
  | some level => modify fun session => { session with log := { session.log with level } }
  | none => throw (.unknownLevel name)

end Action

/-- The name of the threshold of the log. -/
def LogSetup.levelName (log : LogSetup) : Text :=
  log.level.elim "NOTSET" Level.name

end Primitives
