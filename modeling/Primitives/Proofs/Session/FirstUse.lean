import Primitives.Proofs.Session.Loading
import Primitives.Session.Draws

/-!
# What a session creates on first use

The settings, the library and the stream of a session are there once they are used. Each of them is taken as
it is if it is there, and otherwise created; the library and the stream need the settings for that, which are
loaded if they are missing. If loading fails nothing is created, and only the log of the host has changed.

A call of the stream creates it before anything else, and then acts on it alone.

## Main definitions

* `Action.SettingsRun`, `Action.LibraryRun`, `Action.StreamRun`: what the use of each may do.
* `StreamCall`: calls of the stream, with what they do to it.

## Main results

* `Action.settingsRun`, `Action.libraryRun`, `Action.streamRun`: uses do nothing else.
* `StreamCall.runOn_action`: a call acts on the stream that it finds or creates.
-/

namespace Primitives

variable [Surroundings]

namespace Action

variable {s s' : Session}

/-! ### Settings -/

/-- The use of settings: they are there, or they are loaded and kept, or loading them fails. -/
inductive SettingsRun (s : Session) : Except Fault (Numbered Settings) → Session → Prop
  | present {x : Numbered Settings} (h : s.settings = some x) : SettingsRun s (.ok x) s
  | loaded {content : Settings} {log : List Record} (h : s.settings = none)
      (hload : (settingsOfSession.runOn s).1 = .ok content) :
      SettingsRun s (.ok ⟨s.made, content⟩)
        { s with settings := some ⟨s.made, content⟩, made := s.made + 1, host := { s.host with log } }
  | failed {fault : Fault} {log : List Record} (h : s.settings = none)
      (hload : (settingsOfSession.runOn s).1 = .error fault) :
      SettingsRun s (.error fault) { s with host := { s.host with log } }

/-- Loading the settings that a session names changes nothing but the log. -/
theorem runOn_settingsOfSession (s : Session) :
    ∃ log, (settingsOfSession.runOn s).2 = { s with host := { s.host with log } } := by
  unfold settingsOfSession
  rw [runOn_bind, runOn_get]
  dsimp only
  split
  · exact ⟨s.host.log, rfl⟩
  · exact ⟨s.host.log, rfl⟩
  · next path _ _ =>
    obtain ⟨log, hrun⟩ := runOn_loadSettings path s
    exact ⟨log, congrArg Prod.snd hrun⟩

theorem settingsRun {out : Except Fault (Numbered Settings)} (h : numberedSettings.runOn s = (out, s')) :
    SettingsRun s out s' := by
  rw [numberedSettings, runOn_bind, runOn_get] at h
  dsimp only at h
  cases hsettings : s.settings with
  | some x =>
    rw [hsettings] at h
    cases h
    exact .present hsettings
  | none =>
    rw [hsettings] at h
    obtain ⟨log, hlog⟩ := runOn_settingsOfSession s
    rcases hload : settingsOfSession.runOn s with ⟨fault | content, s₁⟩
    · rw [hload] at hlog
      cases (runOn_bind_of_error hload _).symm.trans h
      obtain rfl : s' = _ := hlog
      exact .failed hsettings (congrArg Prod.fst hload)
    · rw [hload] at hlog
      obtain rfl : s₁ = _ := hlog
      cases (runOn_bind_of_ok hload _).symm.trans h
      exact .loaded hsettings (congrArg Prod.fst hload)

/-- The settings in force are the content of the numbered ones. -/
theorem runOn_settings_eq (s : Session) :
    settings.runOn s = ((numberedSettings.runOn s).1.map (·.content), (numberedSettings.runOn s).2) := by
  rw [settings, runOn_bind]
  rcases numberedSettings.runOn s with ⟨fault | x, s'⟩ <;> rfl

/-! ### The library -/

/-- The use of the library: it is there, or it is built with settings, or these cannot be loaded. -/
inductive LibraryRun (s : Session) : Except Fault Nat → Session → Prop
  | present {x : Numbered Unit} (h : s.library = some x) : LibraryRun s (.ok x.number) s
  | built {x : Numbered Settings} {s₁ : Session} (h : s.library = none) (hsettings : SettingsRun s (.ok x) s₁) :
      LibraryRun s (.ok s₁.made) { s₁ with library := some ⟨s₁.made, ()⟩, made := s₁.made + 1 }
  | failed {fault : Fault} {s₁ : Session} (h : s.library = none)
      (hsettings : SettingsRun s (.error fault) s₁) : LibraryRun s (.error fault) s₁

theorem libraryRun {out : Except Fault Nat} (h : library.runOn s = (out, s')) : LibraryRun s out s' := by
  rw [library, runOn_bind, runOn_get] at h
  dsimp only at h
  cases hlibrary : s.library with
  | some x =>
    rw [hlibrary] at h
    cases h
    exact .present hlibrary
  | none =>
    rw [hlibrary, runOn_bind, runOn_settings_eq] at h
    rcases hrun : numberedSettings.runOn s with ⟨fault | x, s₁⟩
    · rw [hrun] at h
      cases h
      exact .failed hlibrary (settingsRun hrun)
    · rw [hrun] at h
      cases h
      exact .built hlibrary (settingsRun hrun)

/-! ### The stream -/

end Action

/-- A stream with a seed, or without one. -/
def RandomStream.ofSeed (entropy : UInt32) (seed : Option Int) : RandomStream :=
  seed.elim (.unseeded entropy) (RandomStream.unseeded entropy).seed

namespace Action

variable {s s' : Session}

/-- The use of the stream: it is there, or it is created with the seed of the settings, or these cannot be
loaded. -/
inductive StreamRun (s : Session) : Except Fault RandomStream → Session → Prop
  | present {r : RandomStream} (h : s.stream = some r) : StreamRun s (.ok r) s
  | created {x : Numbered Settings} {s₁ : Session} {log : List Record} (h : s.stream = none)
      (hsettings : SettingsRun s (.ok x) s₁) :
      StreamRun s (.ok (.ofSeed s.entropy x.content.randomSeed))
        { s₁ with
          stream := some (.ofSeed s.entropy x.content.randomSeed), host := { s₁.host with log } }
  | failed {fault : Fault} {s₁ : Session} (h : s.stream = none)
      (hsettings : SettingsRun s (.error fault) s₁) : StreamRun s (.error fault) s₁

omit [Surroundings] in
/-- A new stream is made of the entropy of the session and a seed, which is recorded. -/
theorem runOn_newStream (seed : Option Int) (s : Session) : ∃ log,
    (newStream seed).runOn s = (.ok (.ofSeed s.entropy seed), { s with host := { s.host with log } }) := by
  cases seed with
  | none => exact ⟨s.host.log, rfl⟩
  | some n => exact ⟨_, rfl⟩

theorem SettingsRun.entropy {out : Except Fault (Numbered Settings)} (h : SettingsRun s out s') :
    s'.entropy = s.entropy := by
  cases h <;> rfl

theorem streamRun {out : Except Fault RandomStream} (h : stream.runOn s = (out, s')) :
    StreamRun s out s' := by
  rw [stream, runOn_bind, runOn_get] at h
  dsimp only at h
  cases hstream : s.stream with
  | some r =>
    rw [hstream] at h
    cases h
    exact .present hstream
  | none =>
    rw [hstream, runOn_bind, runOn_settings_eq] at h
    rcases hrun : numberedSettings.runOn s with ⟨fault | x, s₁⟩
    · rw [hrun] at h
      cases h
      exact .failed hstream (settingsRun hrun)
    · rw [hrun] at h
      have hsettings := settingsRun hrun
      obtain ⟨log, hnew⟩ := runOn_newStream x.content.randomSeed s₁
      cases (runOn_bind_of_ok hnew _).symm.trans h
      have hseed : RandomStream.ofSeed s₁.entropy x.content.randomSeed =
          .ofSeed s.entropy x.content.randomSeed := by rw [hsettings.entropy]
      rw [hseed]
      exact @StreamRun.created _ s x s₁ log hstream hsettings

end Action

/-! ### Calls of the stream -/

/-- A call of the stream. -/
inductive StreamCall where
  | word
  | fraction
  | int (low high : Int)
  | double (low high : Number)
  | seed (n : Int)

namespace StreamCall

/-- What a call gives and leaves of a stream. -/
def on : StreamCall → RandomStream → Except Fault Value × RandomStream
  | word, r => (.ok (.int r.nextWord.1.toNat), r.nextWord.2)
  | fraction, r => (.ok (.double r.fraction.1), r.fraction.2)
  | int low high, r =>
    match r.int low high with
    | some (n, r') => (.ok (.int n), r')
    | none => (.error .abandonedDraw, r)
  | double low high, r =>
    (((r.double low high).1.map Value.ofNumber).mapError fun _ => .tooLargeForDouble,
      (r.double low high).2)
  | seed n, r => (.ok .null, r.seed n)

/-- The call on the stream of a session. -/
def action : StreamCall → Action Value
  | word => (fun w => .int w.toNat) <$> Action.drawWord
  | fraction => Value.double <$> Action.drawFraction
  | int low high => Value.int <$> Action.drawInt low high
  | double low high => Value.ofNumber <$> Action.drawDouble low high
  | seed n => do
    Action.seedStream n
    return .null

variable {s s₁ : Session} {r : RandomStream} {fault : Fault}

omit [Surroundings] in
theorem runOn_keepStream (before after : RandomStream) (s : Session) : ∃ log,
    (Action.keepStream before after).runOn s =
      (.ok (), { s with stream := some after, host := { s.host with log } }) := by
  unfold Action.keepStream
  split
  · exact ⟨_, rfl⟩
  · exact ⟨s.host.log, rfl⟩

/-- A call acts on the stream that it finds or creates. -/
theorem runOn_action (c : StreamCall) (h : Action.stream.runOn s = (.ok r, s₁)) : ∃ log,
    c.action.runOn s =
      ((c.on r).1, { s₁ with stream := some (c.on r).2, host := { s₁.host with log } }) := by
  cases c with
  | word =>
    obtain ⟨log, hkeep⟩ := runOn_keepStream r r.nextWord.2 s₁
    refine ⟨log, ?_⟩
    rw [action, Action.runOn_map, Action.drawWord, Action.runOn_bind_of_ok h]
    dsimp only
    rw [Action.runOn_bind_of_ok hkeep]
    rfl
  | fraction =>
    obtain ⟨log, hkeep⟩ := runOn_keepStream r r.fraction.2 s₁
    refine ⟨log, ?_⟩
    rw [action, Action.runOn_map, Action.drawFraction, Action.runOn_bind_of_ok h]
    dsimp only
    rw [Action.runOn_bind_of_ok hkeep]
    rfl
  | int low high =>
    rw [action, Action.runOn_map, Action.drawInt, Action.runOn_bind_of_ok h, on]
    cases hdraw : r.int low high with
    | none =>
      have hstream : s₁.stream = some r := by
        cases Action.streamRun h with
        | present hpresent => exact hpresent
        | created _ _ => rfl
      refine ⟨s₁.host.log, ?_⟩
      dsimp only
      rw [← hstream]
      rfl
    | some found =>
      obtain ⟨n, r'⟩ := found
      obtain ⟨log, hkeep⟩ := runOn_keepStream r r' s₁
      refine ⟨log, ?_⟩
      dsimp only
      rw [Action.runOn_bind_of_ok hkeep]
      rfl
  | double low high =>
    obtain ⟨log, hkeep⟩ := runOn_keepStream r (r.double low high).2 s₁
    refine ⟨log, ?_⟩
    rw [action, Action.runOn_map, Action.drawDouble, Action.runOn_bind_of_ok h]
    dsimp only
    rw [Action.runOn_bind_of_ok hkeep, Action.runOn_ofExcept, on]
    cases (r.double low high).1 <;> rfl
  | seed n =>
    rw [action, Action.seedStream, bind_assoc, Action.runOn_bind_of_ok h]
    exact ⟨_, rfl⟩

/-- A call does nothing if there is no stream and none can be created. -/
theorem runOn_action_of_error (c : StreamCall) (h : Action.stream.runOn s = (.error fault, s₁)) :
    c.action.runOn s = (.error fault, s₁) := by
  cases c with
  | word => rw [action, Action.runOn_map, Action.drawWord, Action.runOn_bind_of_error h]; rfl
  | fraction => rw [action, Action.runOn_map, Action.drawFraction, Action.runOn_bind_of_error h]; rfl
  | int low high => rw [action, Action.runOn_map, Action.drawInt, Action.runOn_bind_of_error h]; rfl
  | double low high => rw [action, Action.runOn_map, Action.drawDouble, Action.runOn_bind_of_error h]; rfl
  | seed n => rw [action, Action.seedStream, bind_assoc, Action.runOn_bind_of_error h]

end StreamCall

end Primitives
