import Primitives.Console.Basic
import Primitives.Fault
import Primitives.Format.Cache
import Primitives.Random.Stream

/-!
# Sessions

A session is all that the primitives of one program work on: the settings and the random stream, which
are loaded and created on first use, the console, the host, the kept templates and the state of the log.
An action is a step of a session that ends with a value or a fault; what it changed before a fault stays
changed.

## Main definitions

* `Session`: sessions.
* `Action`: steps of a session.
* `Action.report`, `Action.ofExcept`, `Action.onHost`, `Action.onConsole`: elementary actions.
-/

namespace Primitives

/-- The threshold of the log, none for all records, and the number of its outputs. -/
structure LogSetup where
  level : Option Level
  outputs : Nat
deriving DecidableEq

/-- A thing with the number of its making: two things made apart have different numbers. -/
structure Numbered (α : Type) where
  number : Nat
  content : α

/-- A session. `made` counts the settings and libraries made so far, and `shownSettings` and
`shownLibrary` are the numbers of those that were shown last. -/
structure Session where
  settings : Option (Numbered Settings)
  settingsPath : Option Text
  library : Option (Numbered Unit)
  stream : Option RandomStream
  entropy : UInt32
  console : Console
  templates : TemplateCache
  host : Host
  log : LogSetup
  made : Nat
  shownSettings : Option Nat
  shownLibrary : Option Nat

/-- A step of a session, which ends with a value or a fault. -/
abbrev Action (α : Type) := ExceptT Fault (StateM Session) α

/-- A session in which nothing was loaded or created yet. -/
def Session.fresh (disk : Disk) : Session where
  settings := none
  settingsPath := none
  library := none
  stream := none
  entropy := 0
  console := .ofInput []
  templates := .empty
  host := .ofDisk disk
  log := ⟨none, 0⟩
  made := 0
  shownSettings := none
  shownLibrary := none

/-- A session with given settings. -/
def Session.withSettings (session : Session) (settings : Settings) : Session :=
  { session with settings := some ⟨session.made, settings⟩, made := session.made + 1 }

namespace Action

/-- Runs an action. -/
def runOn {α : Type} (action : Action α) (session : Session) : Except Fault α × Session :=
  StateT.run (ExceptT.run action) session

/-- Adds a record to the log. -/
def report (logger : Text) (level : Level) (message : Text) : Action Unit :=
  modify fun session =>
    { session with
      host := { session.host with log := session.host.log ++ [⟨logger, level, message⟩] } }

/-- The value of a computation, or its fault. -/
def ofExcept {ε α : Type} (fault : ε → Fault) : Except ε α → Action α
  | .ok a => return a
  | .error e => throw (fault e)

/-- A step of the host. -/
def onHost {α : Type} (step : HostM α) : Action α := do
  let session ← get
  let (a, host) := step.run session.host
  set { session with host }
  return a

/-- A step of the console. -/
def onConsole {α : Type} (step : Console → α × Console) : Action α := do
  let session ← get
  let (a, console) := step session.console
  set { session with console }
  return a

/-- The number of a thing made now. -/
def makeNumber : Action Nat := do
  let session ← get
  set { session with made := session.made + 1 }
  return session.made

end Action

end Primitives
