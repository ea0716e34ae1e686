import Primitives.Proofs.Session.SettingsInForce

/-!
# Steps of a program

A program takes steps on one session, one after another, and a step that ends with a fault does not end the
program. Between steps the host changes as it likes: files, the name of the settings file, and the entropy
that it supplies.

What a step may do is said once, and all else is derived from that. The settings of a session are kept by
every step that does not set them, or are loaded by it if there were none. A step that is meant to make a call
of the stream makes it on the stream in force; all others leave the stream alone.

## Main definitions

* `Step`, `Answer`: steps, and what they report.
* `Step.outcome`, `Step.next`, `Session.after`: what steps report and leave behind.
* `Step.replaced?`, `Step.performed?`: the settings that a step sets, and the call of the stream it makes.
* `Step.Run`: what steps may do.

## Main results

* `Step.run`: steps do nothing else.
* `Step.settingsKept_next`: steps keep or load settings.
* `Step.operational_outcome`: no configuration error where settings are present.
* `Step.performs`, `Step.stream_next`: what steps do to the stream.
-/

namespace Primitives

/-- A step of a program, or of the host around it. -/
inductive Step where
  | changeHost (change : HostM Unit)
  | supplyEntropy (word : UInt32)
  | nameSettings (path : Option Text)
  | setSettings (settings : Option Settings)
  | readSettings (data : Datum)
  | showSettings
  | loadNamed
  | load (path : Text)
  | showLibrary
  | dropLibrary
  | call (name : Text) (args : List Value)
  | stream (call : StreamCall)
  | dropStream
  | setUpLog (level : Option Text)

/-- What a step reports. -/
inductive Answer where
  | done
  | settings (same : Bool) (content : Settings)
  | loaded (content : Settings)
  | modules (same : Bool) (names : List Text)
  | value (v : Value)

variable [Surroundings]

namespace Step

def action : Step → Action Answer
  | changeHost change => (fun _ => .done) <$> Action.onHost change
  | supplyEntropy word => (fun _ => .done) <$> (modify fun s => { s with entropy := word } : Action Unit)
  | nameSettings path => (fun _ => .done) <$> Action.setSettingsPath path
  | setSettings settings => (fun _ => .done) <$> Action.setSettings settings
  | readSettings data => (fun _ => .done) <$> do
    Action.setSettings (some (← Action.ofExcept .settings (Settings.ofDatum data)))
  | showSettings => (fun shown => .settings shown.1 shown.2) <$> Action.showSettings
  | loadNamed => Answer.loaded <$> Action.settingsOfSession
  | load path => Answer.loaded <$> Action.loadSettings path
  | showLibrary => (fun shown => .modules shown.1 shown.2) <$> Action.showLibrary
  | dropLibrary => (fun _ => .done) <$> Action.dropLibrary
  | call name args => Answer.value <$> Action.call name args
  | stream c => Answer.value <$> c.action
  | dropStream => (fun _ => .done) <$> Action.dropStream
  | setUpLog level => (fun _ => .done) <$> Action.setUpLog level

/-- What a step reports on a session. -/
def outcome (step : Step) (s : Session) : Except Fault Answer :=
  (step.action.runOn s).1

/-- The session that a step leaves behind. -/
def next (step : Step) (s : Session) : Session :=
  (step.action.runOn s).2

/-- The settings, or none, that a step puts in place of those in force. -/
def replaced? : Step → Option (Option Settings)
  | setSettings settings => some settings
  | readSettings data => (Settings.ofDatum data).toOption.map some
  | _ => none

/-- Steps that make settings from data or a file whatever the session has. -/
def MakesSettings : Step → Prop
  | readSettings _ | loadNamed | load _ => True
  | _ => False

/-- Steps that use the library. -/
def UsesLibrary : Step → Prop
  | showLibrary | call _ _ => True
  | _ => False

/-- The call of the stream that a step is meant to make. -/
def streamCall? : Step → Option StreamCall
  | call name args => StreamCall.ofCall? name args
  | stream c => some c
  | _ => none

/-- The stream that a step makes its call on; a call by name needs the library before. -/
def streamFor : Step → Action RandomStream
  | call _ _ => do
    let _ ← Action.library
    Action.stream
  | _ => Action.stream

/-- The call of the stream that a step makes on a session: the one that it is meant to make, unless there is
no stream and none can be created. -/
def performed? (step : Step) (s : Session) : Option StreamCall :=
  match (step.streamFor.runOn s).1 with
  | .ok _ => step.streamCall?
  | .error _ => none

end Step

namespace Session

/-- The session that steps leave behind. -/
def after (s : Session) (steps : List Step) : Session :=
  steps.foldl (fun s step => step.next s) s

@[simp] theorem after_nil (s : Session) : s.after [] = s :=
  rfl

@[simp] theorem after_cons (s : Session) (step : Step) (steps : List Step) :
    s.after (step :: steps) = (step.next s).after steps :=
  rfl

@[simp] theorem after_append (s : Session) (steps steps' : List Step) :
    s.after (steps ++ steps') = (s.after steps).after steps' :=
  List.foldl_append

end Session

/-! ### What a step may do -/

namespace Action

omit [Surroundings] in
/-- The level of settings has a threshold. -/
theorem threshold?_name (level : Level) : threshold? level.name = some (some level) := by
  cases level <;> rfl

end Action

namespace Step

open Primitives.Action

/-- What a step may do: its report and the session that it leaves. -/
inductive Run (s : Session) : Step → Except Fault Answer → Session → Prop
  | changeHost (change : HostM Unit) :
      Run s (.changeHost change) (.ok .done) { s with host := (change.run s.host).2 }
  | supplyEntropy (word : UInt32) : Run s (.supplyEntropy word) (.ok .done) { s with entropy := word }
  | nameSettings (path : Option Text) :
      Run s (.nameSettings path) (.ok .done) { s with settingsPath := path }
  | dropSettings : Run s (.setSettings none) (.ok .done) { s with settings := none }
  | setSettings (content : Settings) : Run s (.setSettings (some content)) (.ok .done) (s.withSettings content)
  | readSettings {data : Datum} {content : Settings} (h : Settings.ofDatum data = .ok content) :
      Run s (.readSettings data) (.ok .done) (s.withSettings content)
  | rejectSettings {data : Datum} {fault : SettingsFault} (h : Settings.ofDatum data = .error fault) :
      Run s (.readSettings data) (.error (.settings fault)) s
  | showSettings {x : Numbered Settings} {s₁ : Session} (h : SettingsRun s (.ok x) s₁) :
      Run s .showSettings (.ok (.settings (s₁.shownSettings == some x.number) x.content))
        { s₁ with shownSettings := some x.number }
  | loadNamed (log : List Record) :
      Run s .loadNamed ((settingsOfSession.runOn s).1.map .loaded) { s with host := { s.host with log } }
  | load (path : Text) (log : List Record) :
      Run s (.load path) ((loaded s.host.disk path).map .loaded) { s with host := { s.host with log } }
  | showLibrary {number : Nat} {s₁ : Session} (h : LibraryRun s (.ok number) s₁) :
      Run s .showLibrary (.ok (.modules (s₁.shownLibrary == some number) Library.moduleNames))
        { s₁ with shownLibrary := some number }
  | dropLibrary : Run s .dropLibrary (.ok .done) { s with library := none }
  | call (name : Text) (args : List Value) {number : Nat} {s₁ : Session} (h : LibraryRun s (.ok number) s₁) :
      Run s (.call name args) (((Library.call name args).runOn s₁).1.map .value)
        ((Library.call name args).runOn s₁).2
  | stream (c : StreamCall) {r : RandomStream} {s₁ : Session} {log : List Record}
      (h : StreamRun s (.ok r) s₁) : Run s (.stream c) ((c.on r).1.map .value)
        { s₁ with stream := some (c.on r).2, host := { s₁.host with log } }
  | dropStream : Run s .dropStream (.ok .done) { s with stream := none }
  | setUpLog {name : Text} {level : Option Level}
      (h : threshold? (Settings.upperLevel name) = some level) :
      Run s (.setUpLog (some name)) (.ok .done) { s with log := ⟨level, max s.log.outputs 1⟩ }
  | rejectLevel {name : Text} (h : threshold? (Settings.upperLevel name) = none) :
      Run s (.setUpLog (some name)) (.error (.unknownLevel (Settings.upperLevel name)))
        { s with log := { s.log with outputs := max s.log.outputs 1 } }
  | setUpLogOfSettings {x : Numbered Settings} {s₁ : Session} (h : SettingsRun s (.ok x) s₁) :
      Run s (.setUpLog none) (.ok .done)
        { s₁ with log := ⟨some x.content.logLevel, max s₁.log.outputs 1⟩ }
  | withoutSettings {step : Step} {fault : Fault} {s₁ : Session}
      (hstep : step = .showSettings ∨ step = .setUpLog none) (h : SettingsRun s (.error fault) s₁) :
      Run s step (.error fault) s₁
  | withoutLibrary {step : Step} {fault : Fault} {s₁ : Session} (hstep : step.UsesLibrary)
      (h : LibraryRun s (.error fault) s₁) : Run s step (.error fault) s₁
  | withoutStream (c : StreamCall) {fault : Fault} {s₁ : Session} (h : StreamRun s (.error fault) s₁) :
      Run s (.stream c) (.error fault) s₁

theorem run_setUpLog (level : Option Text) (s : Session) :
    Run s (.setUpLog level) ((Step.setUpLog level).outcome s) ((Step.setUpLog level).next s) := by
  rw [outcome, next, action, runOn_map]
  cases level with
  | some name =>
    rw [Action.setUpLog, pure_bind, runOn_bind_of_ok (runOn_modify _ _)]
    cases hlevel : threshold? (Settings.upperLevel name) with
    | some level => exact .setUpLog hlevel
    | none => exact .rejectLevel hlevel
  | none =>
    rw [Action.setUpLog]
    dsimp only
    rcases hrun : numberedSettings.runOn s with ⟨fault | x, s₁⟩
    · have hsettings : settings.runOn s = (.error fault, s₁) := by rw [runOn_settings_eq, hrun]; rfl
      rw [runOn_bind_of_error hsettings]
      exact .withoutSettings (.inr rfl) (settingsRun hrun)
    · have hsettings : settings.runOn s = (.ok x.content, s₁) := by rw [runOn_settings_eq, hrun]; rfl
      rw [runOn_bind_of_ok hsettings, pure_bind, runOn_bind_of_ok (runOn_modify _ _), threshold?_name]
      exact .setUpLogOfSettings (settingsRun hrun)

/-- Steps do nothing else. -/
theorem run (step : Step) (s : Session) : Run s step (step.outcome s) (step.next s) := by
  cases step with
  | changeHost change => exact .changeHost change
  | supplyEntropy word => exact .supplyEntropy word
  | nameSettings path => exact .nameSettings path
  | dropLibrary => exact .dropLibrary
  | dropStream => exact .dropStream
  | setUpLog level => exact run_setUpLog level s
  | setSettings settings =>
    cases settings with
    | none => exact .dropSettings
    | some content => exact .setSettings content
  | readSettings data =>
    rw [outcome, next, action, runOn_map]
    cases hdata : Settings.ofDatum data with
    | ok content => exact .readSettings hdata
    | error fault => exact .rejectSettings hdata
  | showSettings =>
    rw [outcome, next, action, runOn_map, Action.showSettings, runOn_bind]
    rcases hrun : numberedSettings.runOn s with ⟨fault | x, s₁⟩
    · exact .withoutSettings (.inl rfl) (settingsRun hrun)
    · exact .showSettings (settingsRun hrun)
  | loadNamed =>
    obtain ⟨log, hlog⟩ := runOn_settingsOfSession s
    rw [outcome, next, action, runOn_map, hlog]
    exact .loadNamed log
  | load path =>
    obtain ⟨log, hrun⟩ := runOn_loadSettings path s
    rw [outcome, next, action, runOn_map, hrun]
    exact .load path log
  | showLibrary =>
    rw [outcome, next, action, runOn_map, Action.showLibrary, runOn_bind]
    rcases hrun : library.runOn s with ⟨fault | number, s₁⟩
    · exact .withoutLibrary trivial (libraryRun hrun)
    · exact .showLibrary (libraryRun hrun)
  | call name args =>
    rw [outcome, next, action, runOn_map, Action.call, runOn_bind]
    rcases hrun : library.runOn s with ⟨fault | number, s₁⟩
    · exact .withoutLibrary trivial (libraryRun hrun)
    · exact .call name args (libraryRun hrun)
  | stream c =>
    rw [outcome, next, action, runOn_map]
    rcases hrun : Action.stream.runOn s with ⟨fault | r, s₁⟩
    · rw [c.runOn_action_of_error hrun]
      exact .withoutStream c (streamRun hrun)
    · obtain ⟨log, haction⟩ := c.runOn_action hrun
      rw [haction]
      exact .stream c (streamRun hrun)

/-! ### Settings -/

variable {s s' s₁ : Session} {step : Step} {out : Except Fault Answer} {c : StreamCall} {r : RandomStream}

theorem Run.settingsKept (h : Run s step out s') (hset : step.replaced? = none) : s.SettingsKept s' := by
  cases h with
  | dropSettings | setSettings => cases hset
  | readSettings hdata => simp [replaced?, hdata, Except.toOption] at hset
  | showSettings h | setUpLogOfSettings h | withoutSettings _ h => exact h.settingsKept.congr rfl
  | showLibrary h | withoutLibrary _ h => exact h.settingsKept.congr rfl
  | stream _ h | withoutStream _ h => exact h.settingsKept.congr rfl
  | call name args h => exact h.settingsKept_trans (Library.settingsKept_call name args _)
  | _ => exact .kept rfl

/-- Steps keep or load settings, unless they set them. -/
theorem settingsKept_next (h : step.replaced? = none) (s : Session) : s.SettingsKept (step.next s) :=
  (step.run s).settingsKept h

theorem Run.operational {x : Numbered Settings} (h : Run s step out s') (hx : s.settings = some x)
    (hstep : ¬ step.MakesSettings) : Operational out := by
  cases h with
  | rejectSettings | loadNamed | load => exact absurd trivial hstep
  | call name args h => exact (Library.operational_call name args (h.settingsKept.of_some hx)).map _
  | stream c h => exact (c.operational_on _).map _
  | rejectLevel => exact operational_error (Fault.not_isConfiguration rfl)
  | withoutSettings _ h => cases h.of_present hx
  | withoutLibrary _ h =>
    obtain ⟨number, hok⟩ := h.ok_of_present hx
    cases hok
  | withoutStream _ h =>
    obtain ⟨r, hok⟩ := h.ok_of_present hx
    cases hok
  | _ => exact operational_ok _

/-- Where settings are present, no step ends with a configuration error, unless it makes settings from data
or a file. -/
theorem operational_outcome {x : Numbered Settings} (hx : s.settings = some x) (h : ¬ step.MakesSettings) :
    Operational (step.outcome s) :=
  (step.run s).operational hx h

theorem Run.settings_of_replaced {settings : Option Settings} (h : Run s step out s')
    (hset : step.replaced? = some settings) : s'.settings = settings.map (⟨s.made, ·⟩) := by
  cases h with
  | dropSettings | setSettings =>
    cases hset
    rfl
  | readSettings hdata =>
    obtain rfl : _ = settings := by simpa [replaced?, hdata, Except.toOption] using hset
    rfl
  | rejectSettings hdata => simp [replaced?, hdata, Except.toOption] at hset
  | withoutSettings hstep _ => rcases hstep with rfl | rfl <;> cases hset
  | withoutLibrary hstep _ =>
    cases step with
    | showLibrary | call => cases hset
    | _ => exact hstep.elim
  | _ => cases hset

/-- A step that sets settings leaves those behind. -/
theorem settings_next_of_replaced {settings : Option Settings} (h : step.replaced? = some settings)
    (s : Session) : (step.next s).settings = settings.map (⟨s.made, ·⟩) :=
  (step.run s).settings_of_replaced h

/-- Only a step that sets no settings drops them. -/
theorem eq_of_replaced_none (h : step.replaced? = some none) : step = .setSettings none := by
  cases step with
  | setSettings settings => rw [Option.some.inj h]
  | readSettings data => cases hdata : Settings.ofDatum data <;> simp [replaced?, hdata, Except.toOption] at h
  | _ => cases h

/-! ### The stream -/

/-- A step that is not meant to make a call of the stream leaves it alone, unless it drops it. -/
theorem Run.stream_eq (h : Run s step out s') (hcall : step.streamCall? = none) (hdrop : step ≠ .dropStream) :
    s'.stream = s.stream := by
  cases h with
  | dropStream => exact absurd rfl hdrop
  | stream | withoutStream => cases hcall
  | showSettings h | setUpLogOfSettings h | withoutSettings _ h => exact h.stream
  | showLibrary h | withoutLibrary _ h => exact h.stream
  | call name args h => exact ((Library.call_quiet hcall).stream _).trans h.stream
  | _ => rfl

/-- A step that is meant to make a call of the stream makes it on the session, or, if it is made by name, on
the session with its library, unless there is none and none can be built. -/
theorem streamCall_cases (h : step.streamCall? = some c) (s : Session) :
    (∃ fault s₁, s₁.stream = s.stream ∧ step.streamFor.runOn s = (.error fault, s₁) ∧
      step.action.runOn s = (.error fault, s₁)) ∨
    ∃ s₁, s₁.stream = s.stream ∧ (∀ r, s₁.StreamInForce r → s.StreamInForce r) ∧
      step.streamFor.runOn s = Action.stream.runOn s₁ ∧
      step.action.runOn s = (Answer.value <$> c.action).runOn s₁ := by
  cases step with
  | stream other =>
    obtain rfl : other = c := Option.some.inj h
    exact .inr ⟨s, rfl, fun _ hr => hr, rfl, rfl⟩
  | call name args =>
    have hcall : StreamCall.ofCall? name args = some c := h
    rcases hrun : library.runOn s with ⟨fault | number, s₁⟩
    · refine .inl ⟨fault, s₁, (libraryRun hrun).stream, runOn_bind_of_error hrun _, ?_⟩
      rw [action, runOn_map, Action.call, runOn_bind_of_error hrun]
      rfl
    · refine .inr ⟨s₁, (libraryRun hrun).stream, fun r => (libraryRun hrun).streamInForce,
        runOn_bind_of_ok hrun _, ?_⟩
      rw [action, runOn_map, Action.call, runOn_bind_of_ok hrun, Library.call_of_streamCall hcall, runOn_map]
  | _ => cases h

/-- The call that a step makes acts on the stream in force. -/
theorem performs (h : step.performed? s = some c) : ∃ r, s.StreamInForce r ∧
    step.outcome s = (c.on r).1.map .value ∧ (step.next s).stream = some (c.on r).2 := by
  unfold performed? at h
  split at h
  · next r hr =>
    obtain ⟨fault, s₁, -, hfor, -⟩ | ⟨s₁, -, hforce, hfor, hrun⟩ := streamCall_cases h s
    · rw [hfor] at hr
      cases hr
    · rcases hstream : Action.stream.runOn s₁ with ⟨out, s₂⟩
      rw [hfor, hstream] at hr
      obtain rfl : out = .ok r := hr
      obtain ⟨log, haction⟩ := c.runOn_action hstream
      rw [outcome, next, hrun, runOn_map, haction]
      exact ⟨r, hforce r (streamRun hstream).streamInForce, rfl, rfl⟩
  · cases h

/-- A step that makes no call of the stream leaves it alone, unless it drops it. -/
theorem stream_next (h : step.performed? s = none) (hdrop : step ≠ .dropStream) :
    (step.next s).stream = s.stream := by
  cases hcall : step.streamCall? with
  | none => exact (step.run s).stream_eq hcall hdrop
  | some c =>
    obtain ⟨fault, s₁, heq, -, hrun⟩ | ⟨s₁, heq, -, hfor, hrun⟩ := streamCall_cases hcall s
    · rw [next, hrun]
      exact heq
    · rcases hstream : Action.stream.runOn s₁ with ⟨fault | r, s₂⟩
      · rw [next, hrun, runOn_map, c.runOn_action_of_error hstream]
        exact (streamRun hstream).stream_of_error.trans heq
      · rw [performed?, hfor, hstream] at h
        cases hcall.symm.trans h

end Step

end Primitives
