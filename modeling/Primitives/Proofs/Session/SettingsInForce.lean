import Primitives.Proofs.Library.QuietOperations

/-!
# Settings and stream in force

Whatever uses the settings, the library or the stream keeps the settings that are there, or loads them where
there are none. Where settings are there, no use fails, and no call ends with a configuration error.

A call of the stream acts on the stream in force: the one of the session, or one created with the seed of the
settings in force. The use of the library before the call keeps the stream in force.

## Main definitions

* `Session.SettingsKept`: settings are kept or loaded.
* `Session.StreamInForce`: the stream of the next call.

## Main results

* `Library.settingsKept_call`, `Library.operational_call`: calls by name.
* `Action.StreamRun.streamInForce`, `Action.LibraryRun.streamInForce`: the stream in force is found.
-/

namespace Primitives

variable [Surroundings]

namespace Action

/-! ### Uses of settings -/

namespace SettingsRun

variable {s s' : Session} {out : Except Fault (Numbered Settings)} {x : Numbered Settings}

/-- A use of settings has one outcome. -/
theorem fst_runOn (h : SettingsRun s out s') : (numberedSettings.runOn s).1 = out := by
  rcases hrun : numberedSettings.runOn s with ⟨out', s''⟩
  cases settingsRun hrun <;> cases h <;> simp_all

theorem fst_runOn_settings (h : SettingsRun s (.ok x) s') : (settings.runOn s).1 = .ok x.content := by
  rw [runOn_settings_eq, h.fst_runOn]
  rfl

theorem settings_ok (h : SettingsRun s (.ok x) s') : s'.settings = some x := by
  cases h with
  | present hx => exact hx
  | loaded _ _ => rfl

theorem of_present (h : SettingsRun s out s') (hx : s.settings = some x) : out = .ok x := by
  cases h <;> simp_all

theorem library (h : SettingsRun s out s') : s'.library = s.library := by
  cases h <;> rfl

theorem stream (h : SettingsRun s out s') : s'.stream = s.stream := by
  cases h <;> rfl

theorem console (h : SettingsRun s out s') : s'.console = s.console := by
  cases h <;> rfl

end SettingsRun

/-- The use of the settings in force leaves the console alone. -/
theorem console_runOn_settings (s : Session) : (settings.runOn s).2.console = s.console := by
  rw [runOn_settings_eq]
  exact (settingsRun rfl).console

end Action

/-- Settings are kept, or there were none and they are loaded. -/
inductive Session.SettingsKept (s s' : Session) : Prop
  | kept (h : s'.settings = s.settings)
  | loaded {x : Numbered Settings} (hnone : s.settings = none)
      (hload : (Action.settingsOfSession.runOn s).1 = .ok x.content) (h : s'.settings = some x)

namespace Session.SettingsKept

variable {s s₁ s' : Session} {x : Numbered Settings}

theorem congr (h : s.SettingsKept s₁) (heq : s'.settings = s₁.settings) : s.SettingsKept s' := by
  cases h with
  | kept h => exact .kept (heq.trans h)
  | loaded hnone hload h => exact .loaded hnone hload (heq.trans h)

/-- Settings that are there are kept. -/
theorem of_some (h : s.SettingsKept s') (hx : s.settings = some x) : s'.settings = some x := by
  cases h with
  | kept h => exact h.trans hx
  | loaded hnone _ _ => cases hnone.symm.trans hx

end Session.SettingsKept

namespace Action

variable {s s' : Session}

theorem SettingsRun.settingsKept {out : Except Fault (Numbered Settings)} (h : SettingsRun s out s') :
    s.SettingsKept s' := by
  cases h with
  | present _ => exact .kept rfl
  | @loaded content log hnone hload => exact @Session.SettingsKept.loaded _ s _ ⟨s.made, content⟩ hnone hload rfl
  | failed _ _ => exact .kept rfl

namespace LibraryRun

variable {out : Except Fault Nat} {number : Nat} {x : Numbered Settings}

theorem settingsKept (h : LibraryRun s out s') : s.SettingsKept s' := by
  cases h with
  | present _ => exact .kept rfl
  | built _ hsettings => exact hsettings.settingsKept.congr rfl
  | failed _ hsettings => exact hsettings.settingsKept

theorem stream (h : LibraryRun s out s') : s'.stream = s.stream := by
  cases h with
  | present _ => rfl
  | built _ hsettings => exact hsettings.stream
  | failed _ hsettings => exact hsettings.stream

/-- The library is there or can be built where settings are present. -/
theorem ok_of_present (h : LibraryRun s out s') (hx : s.settings = some x) : ∃ number, out = .ok number := by
  cases h with
  | present _ => exact ⟨_, rfl⟩
  | built _ _ => exact ⟨_, rfl⟩
  | failed _ hsettings => cases hsettings.of_present hx

/-- Settings are kept by what follows the use of the library, if they are by that use and then by the rest. -/
theorem settingsKept_trans {s₁ : Session} (h : LibraryRun s (.ok number) s₁) (hrest : s₁.SettingsKept s') :
    s.SettingsKept s' := by
  cases h with
  | present _ => exact hrest
  | @built x s₀ _ hsettings =>
    have hx : s'.settings = some x := hrest.of_some hsettings.settings_ok
    exact hsettings.settingsKept.congr (hx.trans hsettings.settings_ok.symm)

end LibraryRun

namespace StreamRun

variable {out : Except Fault RandomStream} {x : Numbered Settings}

theorem settingsKept (h : StreamRun s out s') : s.SettingsKept s' := by
  cases h with
  | present _ => exact .kept rfl
  | created _ hsettings => exact hsettings.settingsKept.congr rfl
  | failed _ hsettings => exact hsettings.settingsKept

theorem ok_of_present (h : StreamRun s out s') (hx : s.settings = some x) : ∃ r, out = .ok r := by
  cases h with
  | present _ => exact ⟨_, rfl⟩
  | created _ _ => exact ⟨_, rfl⟩
  | failed _ hsettings => cases hsettings.of_present hx

end StreamRun

namespace Quiet

variable {α : Type} {action : Action α}

theorem settingsKept (h : Quiet action) (s : Session) : s.SettingsKept (action.runOn s).2 := by
  cases hsettings : s.settings with
  | some x => exact .kept (h.state s (by simp [hsettings])).settings
  | none =>
    rcases h.loads s hsettings with hstate | ⟨x, hload, hstate⟩
    · exact .kept hstate.settings
    · exact .loaded hsettings hload hstate.settings

theorem stream (h : Quiet action) (s : Session) : (action.runOn s).2.stream = s.stream := by
  cases hsettings : s.settings with
  | some x => exact (h.state s (by simp [hsettings])).stream
  | none =>
    rcases h.loads s hsettings with hstate | ⟨x, -, hstate⟩
    · exact hstate.stream
    · exact hstate.stream

end Quiet

end Action

namespace StreamCall

variable {s : Session} {x : Numbered Settings}

theorem settingsKept (c : StreamCall) (s : Session) : s.SettingsKept (c.action.runOn s).2 := by
  rcases hrun : Action.stream.runOn s with ⟨fault | r, s₁⟩
  · rw [runOn_action_of_error c hrun]
    exact (Action.streamRun hrun).settingsKept
  · obtain ⟨log, haction⟩ := runOn_action c hrun
    rw [haction]
    exact (Action.streamRun hrun).settingsKept.congr rfl

omit [Surroundings] in
/-- A call of the stream ends with no configuration error. -/
theorem operational_on (c : StreamCall) (r : RandomStream) : Action.Operational (c.on r).1 := by
  cases c with
  | word | fraction | seed => exact Action.operational_ok _
  | int low high =>
    rw [on]
    cases r.int low high with
    | none => exact Action.operational_error (Fault.not_isConfiguration rfl)
    | some _ => exact Action.operational_ok _
  | double low high => exact Action.operational_mapError (fun _ => Fault.not_isConfiguration rfl) _

theorem operational_action (c : StreamCall) (hx : s.settings = some x) :
    Action.Operational (c.action.runOn s).1 := by
  rcases hrun : Action.stream.runOn s with ⟨out, s₁⟩
  obtain ⟨r, rfl⟩ := (Action.streamRun hrun).ok_of_present hx
  obtain ⟨log, haction⟩ := runOn_action c hrun
  rw [haction]
  exact operational_on c r

end StreamCall

/-! ### Calls by name -/

namespace Library

variable {s : Session} {x : Numbered Settings}

theorem settingsKept_call (name : Text) (args : List Value) (s : Session) :
    s.SettingsKept ((call name args).runOn s).2 := by
  cases hcall : StreamCall.ofCall? name args with
  | none => exact (call_quiet hcall).settingsKept s
  | some c =>
    rw [call_of_streamCall hcall]
    exact c.settingsKept s

theorem operational_call (name : Text) (args : List Value) (hx : s.settings = some x) :
    Action.Operational ((call name args).runOn s).1 := by
  cases hcall : StreamCall.ofCall? name args with
  | none => exact (call_quiet hcall).operational s (by simp [hx])
  | some c =>
    rw [call_of_streamCall hcall]
    exact c.operational_action hx

end Library

/-! ### The stream in force -/

/-- The stream that a call made now acts on: the one of the session, or one created with the seed of the
settings in force. -/
inductive Session.StreamInForce (s : Session) (r : RandomStream) : Prop
  | present (h : s.stream = some r)
  | created {x : Settings} (h : s.stream = none) (hsettings : (Action.settings.runOn s).1 = .ok x)
      (hr : r = .ofSeed s.entropy x.randomSeed)

namespace Action

variable {s s₁ s' : Session} {r : RandomStream}

theorem StreamRun.streamInForce (h : StreamRun s (.ok r) s') : s.StreamInForce r := by
  cases h with
  | present h => exact .present h
  | created h hsettings => exact .created h hsettings.fst_runOn_settings rfl

theorem StreamRun.stream_of_error {fault : Fault} (h : StreamRun s (.error fault) s') :
    s'.stream = s.stream := by
  cases h with
  | failed _ hsettings => exact hsettings.stream

/-- The use of the library keeps the settings in force. -/
theorem LibraryRun.fst_runOn_settings {number : Nat} (h : LibraryRun s (.ok number) s₁) :
    (settings.runOn s₁).1 = (settings.runOn s).1 := by
  cases h with
  | present _ => rfl
  | built _ hsettings =>
    rw [hsettings.fst_runOn_settings]
    refine congrArg Prod.fst (runOn_settings ?_)
    exact hsettings.settings_ok

theorem LibraryRun.entropy {number : Nat} (h : LibraryRun s (.ok number) s₁) : s₁.entropy = s.entropy := by
  cases h with
  | present _ => rfl
  | built _ hsettings => exact hsettings.entropy

/-- The use of the library keeps the stream in force. -/
theorem LibraryRun.streamInForce {number : Nat} (h : LibraryRun s (.ok number) s₁)
    (hr : s₁.StreamInForce r) : s.StreamInForce r := by
  cases hr with
  | present hpresent => exact .present (h.stream.symm.trans hpresent)
  | created hnone hsettings hr =>
    refine .created (h.stream.symm.trans hnone) (h.fst_runOn_settings.symm.trans hsettings) ?_
    rw [hr, h.entropy]

end Action

end Primitives
