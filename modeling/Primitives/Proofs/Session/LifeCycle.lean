import Primitives.Proofs.Session.ProgramSteps

/-!
# The life cycle of a session

Over a run of a program from a fresh session, the settings and the stream that are there have a history: a
step set or loaded the settings, and none has set others since; a step created the stream, with the seed of
the settings in force then, and it was not dropped since. All calls of the stream since that step were made
on it one after another, whichever way they were made and whatever became of the settings meanwhile.

Once a library was built, or used where settings were present, settings stay present until a step drops
them, so that nothing has to be loaded and no configuration error can come up. The use of a library that is
kept from before does not bring settings back that were dropped.

## Main definitions

* `RandomStream.Gives`: the calls of a stream one after another, with what they report.
* `Session.SettingsHistory`, `Session.StreamHistory`: where settings and stream come from.
* `Session.Serves`: sessions with settings in force, and what steps report there.

## Main results

* `Session.settingsHistory`, `Session.streamHistory`: settings and stream have a history.
* `Session.life_cycle`: what holds over a whole run.
-/

namespace Primitives

/-! ### Calls one after another -/

/-- The calls made on a stream one after another with what they report, and the stream that is left. -/
inductive RandomStream.Gives : RandomStream → List (StreamCall × Except Fault Answer) → RandomStream → Prop
  | nil (r : RandomStream) : Gives r [] r
  | cons (c : StreamCall) {r r' : RandomStream} {calls : List (StreamCall × Except Fault Answer)}
      (h : Gives (c.on r).2 calls r') : Gives r ((c, (c.on r).1.map .value) :: calls) r'

namespace RandomStream.Gives

variable {r r' r'' : RandomStream} {calls calls' : List (StreamCall × Except Fault Answer)}

theorem append (h : Gives r calls r') (h' : Gives r' calls' r'') : Gives r (calls ++ calls') r'' := by
  induction h with
  | nil _ => exact h'
  | cons c _ ih => exact .cons c (ih h')

theorem single (c : StreamCall) (r : RandomStream) : Gives r [(c, (c.on r).1.map .value)] (c.on r).2 :=
  .cons c (.nil _)

end RandomStream.Gives

namespace Session

section

variable [Surroundings] {s s₀ : Session} {step : Step} {steps steps' history : List Step} {r : RandomStream}
  {x : Numbered Settings}

/-- The calls of the stream that steps make, with what they report. -/
def performed (s : Session) : List Step → List (StreamCall × Except Fault Answer)
  | [] => []
  | step :: steps =>
    match step.performed? s with
    | some c => (c, step.outcome s) :: (step.next s).performed steps
    | none => (step.next s).performed steps

theorem performed_append (s : Session) (steps steps' : List Step) :
    s.performed (steps ++ steps') = s.performed steps ++ (s.after steps).performed steps' := by
  induction steps generalizing s with
  | nil => rfl
  | cons step steps ih =>
    rw [List.cons_append, performed, performed, after_cons]
    cases step.performed? s with
    | none => exact ih _
    | some c => exact congrArg _ (ih _)

theorem performed_cons_append (s : Session) (step : Step) (steps steps' : List Step) :
    s.performed (step :: (steps ++ steps')) =
      s.performed (step :: steps) ++ (s.after (step :: steps)).performed steps' :=
  performed_append s (step :: steps) steps'

theorem performed_of_none (h : step.performed? s = none) : s.performed [step] = [] := by
  rw [performed, h]
  rfl

theorem performed_of_some {c : StreamCall} (h : step.performed? s = some c) :
    s.performed [step] = [(c, step.outcome s)] := by
  rw [performed, h]
  rfl

/-! ### Where settings come from -/

/-- The settings after a history were set by a step, or loaded by a step that found none, and no step has set
others since. -/
inductive SettingsHistory (s₀ : Session) : List Step → Numbered Settings → Prop
  | set (front : List Step) {step : Step} {rest : List Step} {x : Numbered Settings}
      (hset : step.replaced? = some (some x.content)) (hx : (s₀.after (front ++ [step])).settings = some x)
      (hkept : ∀ later ∈ rest, later.replaced? = none) : SettingsHistory s₀ (front ++ step :: rest) x
  | loaded (front : List Step) {step : Step} {rest : List Step} {x : Numbered Settings}
      (hstep : step.replaced? = none) (hnone : (s₀.after front).settings = none)
      (hload : (Action.settingsOfSession.runOn (s₀.after front)).1 = .ok x.content)
      (hx : (s₀.after (front ++ [step])).settings = some x)
      (hkept : ∀ later ∈ rest, later.replaced? = none) : SettingsHistory s₀ (front ++ step :: rest) x

theorem SettingsHistory.concat (h : SettingsHistory s₀ history x) (hstep : step.replaced? = none) :
    SettingsHistory s₀ (history ++ [step]) x := by
  have hlater : ∀ {rest : List Step}, (∀ later ∈ rest, later.replaced? = none) →
      ∀ later ∈ rest ++ [step], later.replaced? = none := by
    intro rest hkept later hmem
    rcases List.mem_append.1 hmem with hmem | hmem
    · exact hkept later hmem
    · rwa [List.mem_singleton.1 hmem]
  cases h with
  | set front hset hx hkept =>
    rw [List.append_assoc]
    exact .set front hset hx (hlater hkept)
  | loaded front hother hnone hload hx hkept =>
    rw [List.append_assoc]
    exact .loaded front hother hnone hload hx (hlater hkept)

/-- The settings that are there after a run have a history. -/
theorem settingsHistory (hfresh : s₀.settings = none) (history : List Step) {x : Numbered Settings}
    (hx : (s₀.after history).settings = some x) : s₀.SettingsHistory history x := by
  induction history using List.reverseRecOn generalizing x with
  | nil => cases hfresh.symm.trans hx
  | append_singleton history step ih =>
    have hnext : (step.next (s₀.after history)).settings = some x := by simpa using hx
    cases hstep : step.replaced? with
    | none =>
      cases step.settingsKept_next hstep (s₀.after history) with
      | kept h => exact (ih (h.symm.trans hnext)).concat hstep
      | @loaded y hnone hload h =>
        obtain rfl : y = x := Option.some.inj (h.symm.trans hnext)
        exact .loaded history hstep hnone hload hx (by simp)
    | some settings =>
      rw [Step.settings_next_of_replaced hstep] at hnext
      cases settings with
      | none => cases hnext
      | some content =>
        cases hnext
        exact .set history hstep hx (by simp)

/-! ### Where the stream comes from -/

/-- The stream after a history was created by a step, with the seed of the settings in force then, and was not
dropped since. That step and those since made their calls on it. -/
inductive StreamHistory (s₀ : Session) : List Step → RandomStream → Prop
  | created (front : List Step) {step : Step} {rest : List Step} {x : Settings} {r : RandomStream}
      (hnone : (s₀.after front).stream = none) (hcall : (step.performed? (s₀.after front)).isSome)
      (hsettings : (Action.settings.runOn (s₀.after front)).1 = .ok x) (hkept : Step.dropStream ∉ rest)
      (hgives : (RandomStream.ofSeed (s₀.after front).entropy x.randomSeed).Gives
        ((s₀.after front).performed (step :: rest)) r) :
      StreamHistory s₀ (front ++ step :: rest) r

theorem StreamHistory.concat {r' : RandomStream} (h : StreamHistory s₀ history r) (hstep : step ≠ .dropStream)
    (hgives : r.Gives ((s₀.after history).performed [step]) r') :
    StreamHistory s₀ (history ++ [step]) r' := by
  cases h with
  | created front hnone hcall hsettings hkept hbefore =>
    rw [List.append_assoc, List.cons_append]
    refine .created front hnone hcall hsettings ?_ ?_
    · simpa [List.mem_append, hkept] using hstep.symm
    · rw [after_append] at hgives
      rw [performed_cons_append]
      exact hbefore.append hgives

/-- The stream that is there after a run has a history. -/
theorem streamHistory (hfresh : s₀.stream = none) (history : List Step) {r : RandomStream}
    (hr : (s₀.after history).stream = some r) : s₀.StreamHistory history r := by
  induction history using List.reverseRecOn generalizing r with
  | nil => cases hfresh.symm.trans hr
  | append_singleton history step ih =>
    have hnext : (step.next (s₀.after history)).stream = some r := by simpa using hr
    by_cases hdrop : step = .dropStream
    · subst hdrop
      cases hnext
    · cases hcall : step.performed? (s₀.after history) with
      | none =>
        rw [Step.stream_next hcall hdrop] at hnext
        refine (ih hnext).concat hdrop ?_
        rw [performed_of_none hcall]
        exact .nil r
      | some c =>
        obtain ⟨before, hforce, houtcome, hleft⟩ := Step.performs hcall
        obtain rfl : (c.on before).2 = r := Option.some.inj (hleft.symm.trans hnext)
        have hgives : before.Gives ((s₀.after history).performed [step]) (c.on before).2 := by
          rw [performed_of_some hcall, houtcome]
          exact .single c before
        cases hforce with
        | present hpresent => exact (ih hpresent).concat hdrop hgives
        | created hnone hsettings hbefore =>
          subst hbefore
          exact .created history hnone (by simp [hcall]) hsettings (by simp) hgives

/-- Steps that do not drop the stream make their calls on it one after another. -/
theorem gives_of_present (hr : s.stream = some r) (hkept : Step.dropStream ∉ steps) :
    ∃ r', (s.after steps).stream = some r' ∧ r.Gives (s.performed steps) r' := by
  induction steps generalizing s r with
  | nil => exact ⟨r, hr, .nil r⟩
  | cons step steps ih =>
    obtain ⟨hdrop, hkept⟩ : Step.dropStream ≠ step ∧ Step.dropStream ∉ steps := by simpa using hkept
    rw [performed]
    cases hcall : step.performed? s with
    | none => exact ih ((Step.stream_next hcall hdrop.symm).trans hr) hkept
    | some c =>
      obtain ⟨before, hforce, houtcome, hleft⟩ := Step.performs hcall
      obtain rfl : before = r := by
        cases hforce with
        | present h => exact Option.some.inj (h.symm.trans hr)
        | created h _ _ => cases h.symm.trans hr
      obtain ⟨r', hr', hgives⟩ := ih hleft hkept
      refine ⟨r', hr', ?_⟩
      rw [houtcome]
      exact .cons c hgives

/-! ### Settings in force -/

/-- Settings are in force: steps show them, find or build the library, and end with no configuration error,
unless they make settings from data or a file themselves. -/
structure Serves (s : Session) (x : Numbered Settings) : Prop where
  settings : s.settings = some x
  shows : Step.showSettings.outcome s = .ok (.settings (s.shownSettings == some x.number) x.content)
  library : ∃ same, Step.showLibrary.outcome s = .ok (.modules same Library.moduleNames)
  operational : ∀ step : Step, ¬ step.MakesSettings → Action.Operational (step.outcome s)

theorem shown_of_present {out : Except Fault Answer} {s' : Session} (h : Step.Run s .showSettings out s')
    (hx : s.settings = some x) : out = .ok (.settings (s.shownSettings == some x.number) x.content) := by
  cases h with
  | showSettings h =>
    obtain rfl := Except.ok.inj (h.of_present hx)
    cases h with
    | present _ => rfl
    | loaded hnone _ => cases hnone.symm.trans hx
  | withoutSettings _ h => cases h.of_present hx
  | withoutLibrary hstep _ => exact hstep.elim

theorem modules_of_present {out : Except Fault Answer} {s' : Session} (h : Step.Run s .showLibrary out s')
    (hx : s.settings = some x) : ∃ same, out = .ok (.modules same Library.moduleNames) := by
  cases h with
  | showLibrary _ => exact ⟨_, rfl⟩
  | withoutLibrary _ h =>
    obtain ⟨number, hok⟩ := h.ok_of_present hx
    cases hok
  | withoutSettings hstep _ => rcases hstep with hstep | hstep <;> cases hstep

theorem serves_of_present (hx : s.settings = some x) : s.Serves x where
  settings := hx
  shows := shown_of_present (Step.showSettings.run s) hx
  library := modules_of_present (Step.showLibrary.run s) hx
  operational step h := step.operational_outcome hx h

/-- Settings stay present until a step drops them. -/
theorem settings_isSome_after (hsome : s.settings.isSome) (hkept : Step.setSettings none ∉ steps) :
    (s.after steps).settings.isSome := by
  induction steps generalizing s with
  | nil => exact hsome
  | cons step steps ih =>
    obtain ⟨hstep, hkept⟩ : Step.setSettings none ≠ step ∧ Step.setSettings none ∉ steps := by
      simpa using hkept
    refine ih ?_ hkept
    cases hreplaced : step.replaced? with
    | none =>
      obtain ⟨x, hx⟩ := Option.isSome_iff_exists.1 hsome
      rw [(step.settingsKept_next hreplaced s).of_some hx]
      rfl
    | some settings =>
      rw [Step.settings_next_of_replaced hreplaced]
      cases settings with
      | none => exact absurd (Step.eq_of_replaced_none hreplaced).symm hstep
      | some content => rfl

/-- The library is used where there was none, or where settings are present: they are present afterwards. -/
theorem settings_isSome_next {number : Nat} (huse : step.UsesLibrary)
    (hok : (Action.library.runOn s).1 = .ok number) (h : s.library = none ∨ s.settings.isSome) :
    (step.next s).settings.isSome := by
  rcases hrun : Action.library.runOn s with ⟨out, s₁⟩
  obtain rfl : out = .ok number := (congrArg Prod.fst hrun).symm.trans hok
  obtain ⟨x, hx⟩ : ∃ x, s₁.settings = some x := by
    cases Action.libraryRun hrun with
    | present hlibrary =>
      rcases h with hnone | hsome
      · cases hnone.symm.trans hlibrary
      · exact Option.isSome_iff_exists.1 hsome
    | built _ hsettings => exact ⟨_, hsettings.settings_ok⟩
  rw [Step.next]
  cases step with
  | showLibrary =>
    rw [Step.action, Action.runOn_map, Action.showLibrary, Action.runOn_bind_of_ok hrun]
    exact Option.isSome_iff_exists.2 ⟨x, hx⟩
  | call name args =>
    rw [Step.action, Action.runOn_map, Action.call, Action.runOn_bind_of_ok hrun]
    exact Option.isSome_iff_exists.2 ⟨x, (Library.settingsKept_call name args s₁).of_some hx⟩
  | _ => exact huse.elim

/-! ### Settings that cannot be loaded -/

/-- No settings are loaded by a name in the working directory behind which there is nothing. -/
theorem fst_settingsOfSession_of_absent {name : Text} (hpath : s.settingsPath = some name)
    (hstanding : s.host.disk.directory.removed = 0) (hname : FileTree.IsName name)
    (hshort : isLongName name = false) (hnull : '\x00' ∉ name) (hfile : Disk.asksForDirectory name = false)
    (hnone : s.host.disk.tree.lookup (s.host.disk.directory.location ++ [name]) = none) :
    (Action.settingsOfSession.runOn s).1 = .error (.unreadableSettings name (.call .noEntry [name])) := by
  have hplace := hnone ▸ Disk.place_name hstanding hname hshort
  have hread : s.host.disk.readBytes name = .error .noEntry := by
    rw [Disk.readBytes, Disk.resolve_of_place_none FileTree.Purpose.look_ne_write hplace, hfile]
    rfl
  obtain ⟨log, hrun⟩ := Action.runOn_loadSettings name s
  rw [Action.loaded_of_unreadable hnull hread] at hrun
  cases name with
  | nil => exact absurd rfl hname.1
  | cons c name =>
    rw [Action.settingsOfSession, Action.runOn_bind, Action.runOn_get]
    simp only [hpath]
    exact congrArg Prod.fst hrun

theorem fault_of_load {out : Except Fault Answer} {s' : Session} {fault : Fault}
    (h : Step.Run s .showSettings out s') (hnone : s.settings = none)
    (hload : (Action.settingsOfSession.runOn s).1 = .error fault) : out = .error fault := by
  cases h with
  | showSettings h =>
    cases h with
    | present hx => cases hnone.symm.trans hx
    | loaded _ hother => cases hload.symm.trans hother
  | withoutSettings _ h =>
    cases h with
    | failed _ hother =>
      cases hload.symm.trans hother
      rfl
  | withoutLibrary hstep _ => exact hstep.elim

/-! ### Whole runs -/

/-- Nothing was loaded or created yet. -/
structure IsFresh (s : Session) : Prop where
  settings : s.settings = none
  library : s.library = none
  stream : s.stream = none

omit [Surroundings] in
theorem isFresh_fresh (disk : Disk) : (Session.fresh disk).IsFresh :=
  ⟨rfl, rfl, rfl⟩

/-- In every run of a program from a fresh session:

1. once the library was used successfully, where there was none before or settings were present, and as long
   as no step drops the settings, settings with a history are in force;
2. the stream that is there has a history;
3. a call that seeds the stream starts it over: the calls after it are made on a new stream with that seed,
   until the stream is dropped. -/
theorem life_cycle {s₀ : Session} (hfresh : s₀.IsFresh) (before : List Step) :
    (∀ use steps number, Step.UsesLibrary use → (Action.library.runOn (s₀.after before)).1 = .ok number →
      ((s₀.after before).library = none ∨ (s₀.after before).settings.isSome) →
      Step.setSettings none ∉ steps → ∃ x, (s₀.after (before ++ use :: steps)).Serves x ∧
        s₀.SettingsHistory (before ++ use :: steps) x) ∧
    (∀ r, (s₀.after before).stream = some r → s₀.StreamHistory before r) ∧
    (∀ step n rest, step.performed? (s₀.after before) = some (.seed n) → Step.dropStream ∉ rest →
      ∃ entropy r, (s₀.after (before ++ step :: rest)).stream = some r ∧
        (RandomStream.ofSeed entropy (some n)).Gives ((s₀.after (before ++ [step])).performed rest) r) := by
  refine ⟨?settings, fun r hr => streamHistory hfresh.stream before hr, ?seed⟩
  case settings =>
    intro use steps number huse hok hbefore hkept
    have hsome : (s₀.after (before ++ use :: steps)).settings.isSome := by
      rw [after_append, after_cons]
      exact settings_isSome_after (settings_isSome_next huse hok hbefore) hkept
    obtain ⟨x, hx⟩ := Option.isSome_iff_exists.1 hsome
    exact ⟨x, serves_of_present hx, settingsHistory hfresh.settings _ hx⟩
  case seed =>
    intro step n rest hcall hkept
    obtain ⟨r, -, -, hleft⟩ := Step.performs hcall
    obtain ⟨r', hr', hgives⟩ := gives_of_present hleft hkept
    rw [after_append, after_append]
    exact ⟨r.entropy, r', hr', hgives⟩

end

/-- A library that is shown, kept while another file is named, and dropped, with settings in force all the while; and
a stream that a call seeds, on which the call after it is made. -/
theorem life_cycle_seeded :
    (Session.fresh ⟨.empty, .root⟩).IsFresh ∧
    (∃ x, ((Session.fresh ⟨.empty, .root⟩).after
        [.showLibrary, .nameSettings (some "missing.yaml"), .dropLibrary]).Serves x ∧
      (Session.fresh ⟨.empty, .root⟩).SettingsHistory
        [.showLibrary, .nameSettings (some "missing.yaml"), .dropLibrary] x) ∧
    (Session.fresh ⟨.empty, .root⟩).StreamHistory [.stream (.seed 7)] (.ofSeed 0 (some 7)) ∧
    ∃ entropy r, ((Session.fresh ⟨.empty, .root⟩).after [.stream (.seed 7), .stream .word]).stream = some r ∧
      (RandomStream.ofSeed entropy (some 7)).Gives
        (((Session.fresh ⟨.empty, .root⟩).after [.stream (.seed 7)]).performed [.stream .word]) r := by
  have hfresh := isFresh_fresh ⟨.empty, .root⟩
  refine ⟨hfresh, ?library, ?stream, ?seed⟩
  case library =>
    exact (life_cycle hfresh []).1 .showLibrary [.nameSettings (some "missing.yaml"), .dropLibrary] 1 trivial rfl
      (.inl rfl) (by simp)
  case stream => exact (life_cycle hfresh [.stream (.seed 7)]).2.1 _ rfl
  case seed => exact (life_cycle hfresh []).2.2 (.stream (.seed 7)) 7 [.stream .word] rfl (by simp)

/-- A library that is kept from before is found without settings: after they were dropped they are loaded on
their next use only, from the file that is named then. -/
theorem kept_library_without_settings :
    let before := [Step.showLibrary, .setSettings none, .nameSettings (some "missing.yaml")]
    let s := (Session.fresh ⟨.empty, .root⟩).after (before ++ [.showLibrary])
    (Session.fresh ⟨.empty, .root⟩).IsFresh ∧
    (∃ same names, Step.showLibrary.outcome ((Session.fresh ⟨.empty, .root⟩).after before) =
      .ok (.modules same names)) ∧
    s.settings = none ∧
    ∃ fault, Step.showSettings.outcome s = .error fault ∧ fault.IsConfiguration := by
  intro before s
  refine ⟨isFresh_fresh _, ⟨true, _, rfl⟩, rfl,
    .unreadableSettings "missing.yaml" (.call .noEntry ["missing.yaml"]), ?_, _, rfl, rfl⟩
  exact fault_of_load (Step.showSettings.run s) rfl
    (fst_settingsOfSession_of_absent rfl rfl (by decide) (by decide) (by decide) rfl rfl)

end Session

end Primitives
