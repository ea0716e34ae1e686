import Primitives.Proofs.Session.Runs
import Primitives.Session.Settings

/-!
# Actions that return

An action returns on a session if it ends with a value there and not with a fault. Whether a composition
returns is told by its parts.

## Main definitions

* `Action.Returns`: actions that end with a value.

## Main results

* `Action.returns_map_iff`, `Action.returns_bind_iff`: compositions.
* `Action.runOn_settings`: settings in force are found.
-/

namespace Primitives.Action

variable {α β : Type} {session : Session}

/-- An action that ends with a value on a session, and not with a fault. -/
def Returns (action : Action α) (session : Session) : Prop :=
  ∃ a, (action.runOn session).1 = .ok a

theorem returns_pure (a : α) : Returns (pure a) session :=
  ⟨a, rfl⟩

theorem returns_of_run {action : Action α} {a : α} {session' : Session}
    (h : action.runOn session = (.ok a, session')) : Returns action session :=
  ⟨a, congrArg Prod.fst h⟩

theorem not_returns_of_run {action : Action α} {fault : Fault} {session' : Session}
    (h : action.runOn session = (.error fault, session')) : ¬ Returns action session := by
  rintro ⟨a, hrun⟩
  exact nomatch (congrArg Prod.fst h).symm.trans hrun

/-- What is made from the value of an action does not change whether it returns. -/
theorem returns_map_iff {action : Action α} (f : α → β) :
    Returns (f <$> action) session ↔ Returns action session := by
  rw [map_eq_pure_bind]
  rcases hrun : action.runOn session with ⟨fault | a, session'⟩
  · exact iff_of_false (not_returns_of_run (runOn_bind_of_error hrun _)) (not_returns_of_run hrun)
  · exact iff_of_true (returns_of_run (runOn_bind_of_ok hrun _)) (returns_of_run hrun)

/-- A composition returns if its first part does and the rest does on what that leaves behind. -/
theorem returns_bind_iff {action : Action α} {next : α → Action β} :
    Returns (action >>= next) session ↔
      ∃ a session', action.runOn session = (.ok a, session') ∧ Returns (next a) session' := by
  rcases hrun : action.runOn session with ⟨fault | a, session'⟩
  · exact iff_of_false (not_returns_of_run (runOn_bind_of_error hrun _)) (by simp)
  · rw [Returns, runOn_bind_of_ok hrun]
    refine ⟨fun h => ⟨a, session', rfl, h⟩, ?_⟩
    rintro ⟨_, _, ⟨⟩, h⟩
    exact h

/-- A default that is reported is a value. -/
theorem returns_reported (logger : Text) (level : Level) (message : Text) (a : α) :
    Returns (do report logger level message; return a) session :=
  ⟨a, rfl⟩

/-- Steps of the host return, also those that fail. -/
theorem returns_onHost (step : HostM α) : Returns (onHost step) session :=
  ⟨_, congrArg Prod.fst (runOn_onHost step session)⟩

/-- Settings that are in force are not loaded again. -/
theorem runOn_settings [Surroundings] {settings : Numbered Settings} (h : session.settings = some settings) :
    Action.settings.runOn session = (.ok settings.content, session) := by
  have hnumbered : numberedSettings.runOn session = (.ok settings, session) := by
    unfold numberedSettings
    rw [runOn_bind, runOn_get]
    simp only [h]
    rfl
  exact runOn_bind_of_ok hnumbered _

end Primitives.Action
