import Primitives.Session.Basic

/-!
# Runs of actions

An action is run on a session and ends with a value or a fault and with a session. This file says how
the elementary actions and their compositions run, so that no later proof opens the two layers that an
action is made of.

Two runs are compared by a relation between sessions: two actions *agree* along it when they have the
same outcome on related sessions and leave related sessions behind.

## Main definitions

* `Action.AgreesAlong`: agreement of two actions along a relation between sessions.

## Main results

* `Action.runOn_bind`: the run of a composition.
* `Action.AgreesAlong.bind`, `Action.AgreesAlong.getBind`: compositions of agreeing actions agree.
-/

namespace Primitives.Action

variable {α β : Type}

/-! ### Elementary actions -/

@[simp] theorem runOn_pure (a : α) (s : Session) : (pure a : Action α).runOn s = (.ok a, s) :=
  rfl

@[simp] theorem runOn_throw (fault : Fault) (s : Session) :
    (throw fault : Action α).runOn s = (.error fault, s) :=
  rfl

@[simp] theorem runOn_get (s : Session) : (get : Action Session).runOn s = (.ok s, s) :=
  rfl

@[simp] theorem runOn_modify (f : Session → Session) (s : Session) :
    (modify f : Action Unit).runOn s = (.ok (), f s) :=
  rfl

@[simp] theorem runOn_set (s' s : Session) : (set s' : Action Unit).runOn s = (.ok (), s') :=
  rfl

/-- A composition runs its second part on what the first one leaves behind, unless that ends with a
fault. -/
theorem runOn_bind (a : Action α) (f : α → Action β) (s : Session) :
    (a >>= f).runOn s =
      match a.runOn s with
      | (.ok x, s') => (f x).runOn s'
      | (.error fault, s') => (.error fault, s') := by
  change StateT.run (ExceptT.run (a >>= f)) s = _
  simp only [ExceptT.run_bind, StateT.run_bind, runOn]
  rcases StateT.run (ExceptT.run a) s with ⟨_ | x, s'⟩ <;> rfl

theorem runOn_bind_of_ok {a : Action α} {s s' : Session} {x : α} (h : a.runOn s = (.ok x, s'))
    (f : α → Action β) : (a >>= f).runOn s = (f x).runOn s' := by
  rw [runOn_bind, h]

theorem runOn_bind_of_error {a : Action α} {s s' : Session} {fault : Fault}
    (h : a.runOn s = (.error fault, s')) (f : α → Action β) :
    (a >>= f).runOn s = (.error fault, s') := by
  rw [runOn_bind, h]

theorem runOn_map (f : α → β) (a : Action α) (s : Session) :
    (f <$> a).runOn s = ((a.runOn s).1.map f, (a.runOn s).2) := by
  rw [map_eq_pure_bind, runOn_bind]
  rcases a.runOn s with ⟨_ | x, s'⟩ <;> rfl

@[simp] theorem runOn_report (logger : Text) (level : Level) (message : Text) (s : Session) :
    (report logger level message).runOn s =
      (.ok (), { s with host := { s.host with log := s.host.log ++ [⟨logger, level, message⟩] } }) :=
  rfl

@[simp] theorem runOn_ofExcept {ε : Type} (fault : ε → Fault) (x : Except ε α) (s : Session) :
    (ofExcept fault x).runOn s = (x.mapError fault, s) := by
  cases x <;> rfl

@[simp] theorem runOn_onHost (step : HostM α) (s : Session) :
    (onHost step).runOn s = (.ok (step.run s.host).1, { s with host := (step.run s.host).2 }) :=
  rfl

@[simp] theorem runOn_onConsole (step : Console → α × Console) (s : Session) :
    (onConsole step).runOn s = (.ok (step s.console).1, { s with console := (step s.console).2 }) :=
  rfl

@[simp] theorem runOn_makeNumber (s : Session) :
    makeNumber.runOn s = (.ok s.made, { s with made := s.made + 1 }) :=
  rfl

/-! ### Agreement along a relation -/

/-- Two actions agree along a relation when they have the same outcome on related sessions and leave
related sessions behind. -/
def AgreesAlong (R : Session → Session → Prop) (a b : Action α) : Prop :=
  ∀ s t, R s t → (a.runOn s).1 = (b.runOn t).1 ∧ R (a.runOn s).2 (b.runOn t).2

namespace AgreesAlong

variable {R : Session → Session → Prop}

theorem pure (a : α) : AgreesAlong R (Pure.pure a) (Pure.pure a) :=
  fun _ _ h => ⟨rfl, h⟩

theorem throw (fault : Fault) :
    AgreesAlong R (MonadExcept.throw fault : Action α) (MonadExcept.throw fault) :=
  fun _ _ h => ⟨rfl, h⟩

theorem ofExcept {ε : Type} (fault : ε → Fault) (x : Except ε α) :
    AgreesAlong R (Action.ofExcept fault x) (Action.ofExcept fault x) := by
  intro s t h
  simpa using h

theorem modify {f g : Session → Session} (hfg : ∀ s t, R s t → R (f s) (g t)) :
    AgreesAlong R (MonadState.modifyGet fun s => ((), f s) : Action Unit)
      (MonadState.modifyGet fun s => ((), g s)) :=
  fun s t h => ⟨rfl, hfg s t h⟩

theorem bind {a b : Action α} {f g : α → Action β} (hab : AgreesAlong R a b)
    (hfg : ∀ x, AgreesAlong R (f x) (g x)) : AgreesAlong R (a >>= f) (b >>= g) := by
  intro s t h
  obtain ⟨heq, hR⟩ := hab s t h
  rw [runOn_bind, runOn_bind]
  rcases ha : a.runOn s with ⟨_ | x, s'⟩ <;> rcases hb : b.runOn t with ⟨_ | y, t'⟩ <;>
    simp only [ha, hb, reduceCtorEq, Except.ok.injEq, Except.error.injEq] at heq hR
  · subst heq
    exact ⟨rfl, hR⟩
  · subst heq
    exact hfg x s' t' hR

/-- What follows a look at the session may use it, if related sessions lead to agreeing actions. -/
theorem getBind {f g : Session → Action α} (hfg : ∀ s t, R s t → AgreesAlong R (f s) (g t)) :
    AgreesAlong R (get >>= f) (get >>= g) :=
  fun s t h => hfg s t h s t h

theorem map (f : α → β) {a b : Action α} (hab : AgreesAlong R a b) :
    AgreesAlong R (f <$> a) (f <$> b) := by
  rw [map_eq_pure_bind, map_eq_pure_bind]
  exact hab.bind fun x => .pure (f x)

end AgreesAlong

end Primitives.Action
