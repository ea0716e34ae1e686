import Primitives.Proofs.Session.LifeCycle

/-!
# Steps that fail

A step that ends with a fault leaves settings, library, stream and log as they were, since what is loaded or
created is kept only after nothing can fail any more. Two steps are exceptions. The draw of a double looks
for the stream first, which may create it and load settings for it, and takes its outputs before the numbers
turn out to be too large. Setting up the log opens an output before the name of the level turns out to be
unknown.

## Main definitions

* `Step.LeavesTraces`: when a failing step leaves something behind.
* `Step.Failed`: what a failing step may have done.

## Main results

* `RandomStream.fraction_ne`: a draw of a fraction moves the stream.
* `Step.failed_of_error`: failing steps.
-/

namespace Primitives

/-! ### Draws move the stream -/

theorem Twister.position_next (t : Twister) :
    t.next.2.position = if t.position < wordCount then t.position + 1 else 1 := by
  unfold Twister.next
  split <;> rfl

/-- Two outputs further the generator is at another position. -/
theorem Twister.next_next_ne (t : Twister) : t.next.2.next.2 ≠ t := by
  intro h
  have hposition := congrArg Twister.position h
  have hle := t.position_le
  have hcount : wordCount = 624 := rfl
  rw [position_next, position_next] at hposition
  split at hposition <;> split at hposition <;> omega

namespace RandomStream

variable {r : RandomStream} {low high : Number} {fault : TooLargeForDouble}

theorem fraction_ne (r : RandomStream) : r.fraction.2 ≠ r := by
  intro h
  have hgenerator : some (r.ready.next.2.next.2) = r.generator := congrArg RandomStream.generator h
  have hready : r.ready = r.ready.next.2.next.2 := by
    conv_lhs => rw [ready, ← hgenerator]
    rfl
  exact r.ready.next_next_ne hready.symm

/-- A draw of a double that fails leaves the stream as it was only if the difference of the bounds failed. -/
theorem snd_double_eq_iff (h : (r.double low high).1 = .error fault) :
    (r.double low high).2 = r ↔ ∀ span, high.sub low ≠ .ok span := by
  by_cases heq : low.eqv high
  · rw [double, if_pos heq] at h
    cases h
  · rw [double, if_neg heq]
    cases high.sub low with
    | error fault => simp
    | ok span => simpa using r.fraction_ne

/-- A draw of a double fails if the difference of its bounds is an integer that is too large. -/
theorem fst_double_of_tooLarge (low high : Number) {n : Int} (heq : low.eqv high = false)
    (hsub : high.sub low = .ok (.int n)) (hn : (Number.int n).toDouble = .error fault) (r : RandomStream) :
    (r.double low high).1 = .error fault := by
  have hstep : (Number.int n).mul (.double r.fraction.1) = .error fault := by
    rw [Number.mul, Number.combine, hn]
    · rfl
    · simp
  rw [double, heq, if_neg Bool.false_ne_true, hsub]
  dsimp only
  rw [Draw.between, hstep]
  rfl

end RandomStream

/-! ### Uses that fail -/

section

variable [Surroundings]

namespace Action

variable {s s' : Session} {fault : Fault} {r : RandomStream}

theorem SettingsRun.sameState_of_error (h : SettingsRun s (.error fault) s') : s.SameState s' := by
  cases h with
  | failed _ _ => exact ⟨rfl, rfl, rfl, rfl⟩

theorem LibraryRun.sameState_of_error (h : LibraryRun s (.error fault) s') : s.SameState s' := by
  cases h with
  | failed _ hsettings => exact hsettings.sameState_of_error

theorem StreamRun.sameState_of_error (h : StreamRun s (.error fault) s') : s.SameState s' := by
  cases h with
  | failed _ hsettings => exact hsettings.sameState_of_error

/-- The use of the stream does not fail if there is a stream in force. -/
theorem StreamRun.not_streamInForce_of_error (h : StreamRun s (.error fault) s') :
    ¬ s.StreamInForce r := by
  cases h with
  | failed hnone hsettings =>
    intro hr
    cases hr with
    | present hpresent => cases hnone.symm.trans hpresent
    | created _ hload _ =>
      rw [runOn_settings_eq, hsettings.fst_runOn] at hload
      cases hload

end Action

namespace Step

variable {s s' s₁ : Session} {step : Step} {fault : Fault} {r : RandomStream} {low high : Number}

/-- A failing step leaves something behind: a draw of a double for which there is a stream in force, if that is
created or the difference of the bounds can be formed, and an unknown level if the log has no output. -/
def LeavesTraces (s : Session) : Step → Prop
  | stream (.double low high) =>
    (∃ r, s.StreamInForce r) ∧ (s.stream = none ∨ ∃ span, high.sub low = .ok span)
  | setUpLog (some _) => s.log.outputs = 0
  | _ => False

/-- What a failing step may have done. -/
structure Failed (step : Step) (s s' : Session) : Prop where
  sameState_iff : s.SameState s' ↔ ¬ step.LeavesTraces s
  settings : s.SettingsKept s'
  library : s'.library = s.library
  stream : s'.stream = s.stream ∨ ∃ low high r, step = .stream (.double low high) ∧ s.StreamInForce r ∧
    s'.stream = some (r.double low high).2
  log : s'.log = s.log ∨ (∃ name, step = .setUpLog (some name)) ∧
    s'.log = { s.log with outputs := max s.log.outputs 1 }

theorem Failed.of_sameState (h : s.SameState s') (hnot : ¬ step.LeavesTraces s) : step.Failed s s' where
  sameState_iff := iff_of_true h hnot
  settings := .kept h.settings
  library := h.library
  stream := .inl h.stream
  log := .inl h.log

/-- A draw of a double from a stream in force that fails leaves the stream that it found or created, moved on
if its outputs were taken. -/
theorem failed_double (hrun : Action.StreamRun s (.ok r) s₁) {error : TooLargeForDouble}
    (herror : (r.double low high).1 = .error error) {log : List Record} :
    (Step.stream (.double low high)).Failed s
      { s₁ with stream := some (r.double low high).2, host := { s₁.host with log } } := by
  have hforce := hrun.streamInForce
  refine ⟨?same, hrun.settingsKept.congr rfl, ?library, .inr ⟨low, high, r, rfl, hforce, rfl⟩, ?log⟩
  case same =>
    cases hrun with
    | present hr =>
      have hleaves : (Step.stream (.double low high)).LeavesTraces s ↔ ∃ span, high.sub low = .ok span := by
        refine ⟨fun ⟨_, h⟩ => ?_, fun h => ⟨⟨r, hforce⟩, .inr h⟩⟩
        exact h.resolve_left (by simp [hr])
      rw [hleaves, not_exists]
      refine Iff.trans ⟨fun h => ?_, fun h => ⟨rfl, rfl, ?_, rfl⟩⟩ (RandomStream.snd_double_eq_iff herror)
      · exact Option.some.inj (h.stream.trans hr)
      · exact (congrArg some h).trans hr.symm
    | created hnone hsettings =>
      refine iff_of_false (fun h => ?_) fun h => h ⟨⟨_, hforce⟩, .inl hnone⟩
      cases h.stream.trans hnone
  case library =>
    cases hrun with
    | present _ => rfl
    | created _ hsettings => exact hsettings.library
  case log =>
    cases hrun with
    | present _ => exact .inl rfl
    | created _ hsettings =>
      refine .inl ?_
      cases hsettings <;> rfl

/-- A call on a stream in force that fails. -/
theorem failed_stream {c : StreamCall} (hrun : Action.StreamRun s (.ok r) s₁) (h : (c.on r).1 = .error fault)
    (hfault : fault ≠ .abandonedDraw) {log : List Record} : (Step.stream c).Failed s
      { s₁ with stream := some (c.on r).2, host := { s₁.host with log } } := by
  cases c with
  | word | fraction | seed => cases h
  | int low high =>
    rw [StreamCall.on] at h
    cases hdraw : r.int low high with
    | some found => simp [hdraw] at h
    | none =>
      rw [hdraw] at h
      cases h
      exact absurd rfl hfault
  | double low high =>
    rw [StreamCall.on] at h
    cases hdraw : (r.double low high).1 with
    | ok x => simp [hdraw] at h
    | error error => exact failed_double hrun hdraw

/-- A level that is unknown leaves the log with an output. -/
theorem failed_setUpLog (name : Text) (s : Session) : (Step.setUpLog (some name)).Failed s
    { s with log := { s.log with outputs := max s.log.outputs 1 } } := by
  refine ⟨⟨fun hsame hleaves => ?_, fun hnot => ⟨rfl, rfl, rfl, ?_⟩⟩, .kept rfl, rfl, .inl rfl,
    .inr ⟨⟨name, rfl⟩, rfl⟩⟩
  · have houtputs : max s.log.outputs 1 = s.log.outputs := congrArg LogSetup.outputs hsame.log
    have hzero : s.log.outputs = 0 := hleaves
    omega
  · have hpositive : s.log.outputs ≠ 0 := hnot
    have houtputs : max s.log.outputs 1 = s.log.outputs := by omega
    exact congrArg (LogSetup.mk s.log.level) houtputs

theorem Run.failed {out : Except Fault Answer} (h : Run s step out s') (hout : out = .error fault)
    (hcall : ∀ name args, step ≠ .call name args) (hfault : fault ≠ .abandonedDraw) : step.Failed s s' := by
  cases h with
  | rejectSettings => exact .of_sameState (.refl s) id
  | loadNamed | load => exact .of_sameState ⟨rfl, rfl, rfl, rfl⟩ id
  | call name args => exact absurd rfl (hcall name args)
  | @stream c r s₁ log h =>
    refine failed_stream h ?_ hfault
    cases hon : (c.on r).1 with
    | ok v => simp [hon] at hout
    | error other => simpa [hon] using hout
  | @rejectLevel name => exact failed_setUpLog name s
  | withoutSettings hstep h =>
    refine .of_sameState h.sameState_of_error ?_
    rcases hstep with rfl | rfl <;> exact id
  | withoutLibrary hstep h =>
    refine .of_sameState h.sameState_of_error ?_
    cases step with
    | showLibrary | call => exact id
    | _ => exact hstep.elim
  | withoutStream c h =>
    refine .of_sameState h.sameState_of_error ?_
    cases c with
    | double low high => exact fun ⟨⟨_, hr⟩, _⟩ => h.not_streamInForce_of_error hr
    | _ => exact id
  | _ => cases hout

/-- A step that ends with a fault leaves settings, library, stream and log as they were, unless it is one of the
two that leave traces; and then these are the stream, found or created with settings for it and moved on, or
an output of the log. Operations of the library that are called by name are apart, and so is a draw that
has no end. -/
theorem failed_of_error (hcall : ∀ name args, step ≠ .call name args) (h : step.outcome s = .error fault)
    (hfault : fault ≠ .abandonedDraw) : step.Failed s (step.next s) :=
  (step.run s).failed h hcall hfault

end Step

end

/-- A draw between bounds whose difference is too large for a double takes its outputs before it fails, and an unknown
level leaves the log with an output. -/
theorem Step.failed_draw_and_level :
    let s := { Session.fresh ⟨.empty, .root⟩ with stream := some (.unseeded 0) }
    let draw := Step.stream (.double (.int 0) (.int (10 ^ 400)))
    let level := Step.setUpLog (some "nope")
    (draw.outcome s = .error .tooLargeForDouble ∧ draw.Failed s (draw.next s) ∧ ¬ s.SameState (draw.next s)) ∧
    (level.outcome s = .error (.unknownLevel "NOPE") ∧ level.Failed s (level.next s) ∧
      ¬ s.SameState (level.next s)) := by
  intro s draw level
  have hdraw : draw.outcome s = .error .tooLargeForDouble := by
    obtain ⟨log, hrun⟩ := StreamCall.runOn_action (.double (.int 0) (.int (10 ^ 400)))
      (show Action.stream.runOn s = (.ok (.unseeded 0), s) from rfl)
    have hdifference : (Number.int (10 ^ 400)).sub (.int 0) = .ok (.int (10 ^ 400)) := by decide +kernel
    have htooLarge : (Number.int (10 ^ 400)).toDouble = .error {} := by decide +kernel
    have herror := RandomStream.fst_double_of_tooLarge (.int 0) (.int (10 ^ 400)) (by decide +kernel)
      hdifference htooLarge (.unseeded 0)
    rw [outcome, action, Action.runOn_map, hrun, StreamCall.on, herror]
    rfl
  have hlevel : level.outcome s = .error (.unknownLevel "NOPE") := rfl
  have hfailedDraw : draw.Failed s (draw.next s) := failed_of_error (fun _ _ => Step.noConfusion) hdraw (by simp)
  have hfailedLevel : level.Failed s (level.next s) := failed_of_error (fun _ _ => Step.noConfusion) hlevel (by simp)
  refine ⟨⟨hdraw, hfailedDraw, ?_⟩, hlevel, hfailedLevel, ?_⟩
  · exact fun hsame => hfailedDraw.sameState_iff.1 hsame ⟨⟨_, .present rfl⟩, .inr ⟨_, rfl⟩⟩
  · exact fun hsame => hfailedLevel.sameState_iff.1 hsame rfl

end Primitives
