import Primitives.Proofs.Console.InputCalls
import Primitives.Proofs.Library.Names
import Primitives.Proofs.Number.DoubleTexts
import Primitives.Proofs.Number.Misspellings
import Primitives.Proofs.Session.SettingsInForce

/-!
# Numbers as texts

The operations that read numbers, from a text or from the input of the console, return whatever they find:
malformed numbers become a default. There is one exception, the misspelled words for infinity, which end the
reading of a double with a fault. The reading of input also needs a default, so that the settings must be usable
where the caller gives none.

The text of a double is read as this double again, whatever the default is.

## Main definitions

* `Action.HasDefault`: readings of input that have a default.

## Main results

* `Action.returns_readInt_iff`, `Action.returns_readDouble_iff`: readings of input.
* `numericTexts_return_iff`: when the operations that read numbers return.
* `toFloat_fromFloat`: the text of a double is read as the double.
-/

namespace Primitives

namespace Action

variable {α : Type} {session : Session}

/-! ### Texts -/

theorem returns_intOrDefault (s : Text) (default : Value) : Returns (intOrDefault s default) session := by
  unfold intOrDefault
  cases parseInt s with
  | some n => exact returns_pure _
  | none => exact returns_reported _ _ _ _

/-- A text is read as a double or a default, unless it is misspelled. -/
theorem returns_doubleOrDefault_iff (s : Text) (default : Value) :
    Returns (doubleOrDefault s default) session ↔ ¬ IsMisspelled s := by
  rw [← parseDouble_ok_iff, doubleOrDefault]
  cases parseDouble s with
  | error fault => exact iff_of_false (by rintro ⟨_, ⟨⟩⟩) (by simp)
  | ok x =>
    refine iff_of_true ?_ ⟨x, rfl⟩
    cases x with
    | some x => exact returns_pure _
    | none => exact returns_reported _ _ _ _

/-! ### Input -/

theorem runOn_onReader (step : Reader → α × Reader) (session : Session) :
    (onReader step).runOn session =
      (.ok (step session.console.reader).1,
        { session with console := { session.console with reader := (step session.console.reader).2 } }) :=
  rfl

section Defaults

variable [Surroundings]

/-- A reading of input has a default: one is given, or the settings that name one can be used. -/
def HasDefault (default : Option Value) (session : Session) : Prop :=
  default.isSome ∨ Returns settings session

/-- What follows the choice of a default runs on a session with the same console. -/
theorem returns_default_iff {default : Option Value} {ofSettings : Settings → Value} {next : Value → Action α}
    {P : Prop} (hnext : ∀ v session', session'.console = session.console → (Returns (next v) session' ↔ P)) :
    Returns ((default.getDM do return ofSettings (← settings)) >>= next) session ↔
      HasDefault default session ∧ P := by
  cases default with
  | some v =>
    have hdefault : HasDefault (some v) session := .inl rfl
    simp only [Option.getDM, pure_bind, hnext v session rfl, hdefault, true_and]
  | none =>
    have hsettings : HasDefault none session ↔ Returns settings session := by simp [HasDefault]
    rw [hsettings, Option.getDM, bind_assoc]
    rcases hrun : settings.runOn session with ⟨fault | x, session'⟩
    · refine iff_of_false ?_ fun h => not_returns_of_run hrun h.1
      exact not_returns_of_run (runOn_bind_of_error hrun _)
    · have hconsole : session'.console = session.console := by
        rw [← console_runOn_settings session, hrun]
      rw [Returns, runOn_bind_of_ok hrun, pure_bind, ← Returns, hnext _ _ hconsole]
      exact (and_iff_right (returns_of_run hrun)).symm

end Defaults

theorem returns_readingOr (name : Text) (toValue : α → Value) (default : Value) (reading : Reader.Reading α) :
    Returns (readingOr name toValue default reading) session := by
  cases reading with
  | value a => exact returns_pure _
  | endOfInput => exact returns_reported _ _ _ _
  | malformed token => exact returns_reported _ _ _ _

section Readings

variable [Surroundings]

/-- The reading of an integer returns if it has a default. -/
theorem returns_readInt_iff (default : Option Value) :
    Returns (readInt default) session ↔ HasDefault default session := by
  rw [readInt_eq_bind, returns_default_iff (P := True), and_true]
  intro v session' _
  exact iff_of_true (returns_bind_iff.2 ⟨_, _, runOn_onReader _ _, returns_readingOr _ _ _ _⟩) trivial

/-- The reading of a double returns if it has a default and the token that it finds is not misspelled. -/
theorem returns_readDouble_iff (default : Option Value) :
    Returns (readDouble default) session ↔
      HasDefault default session ∧ ∀ token ∈ session.console.reader.nextToken.1, ¬ IsMisspelled token := by
  rw [readDouble_eq_bind, returns_default_iff]
  intro v session' hconsole
  rw [onReader_readDouble, map_eq_pure_bind, bind_assoc, Returns, runOn_bind_of_ok (runOn_onReader _ _), pure_bind,
    ← Returns, hconsole]
  cases session.console.reader.nextToken.1 with
  | none => exact iff_of_true (returns_readingOr _ .double _ .endOfInput) (by simp)
  | some token =>
    simp only [Option.mem_some_iff, forall_eq', ← parseDouble_ok_iff, doubleReadingOf]
    cases parseDouble token with
    | error fault => exact iff_of_false (by rintro ⟨_, ⟨⟩⟩) (by simp)
    | ok x => exact iff_of_true (returns_readingOr _ .double _ (x.elim (.malformed token) .value)) ⟨x, rfl⟩

end Readings

end Action

open Primitives.Action

/-! ### Operations -/

/-- A default that is given to an operation, where null stands for none. -/
def givenDefault : Option Value → Option Value
  | some .null | none => none
  | some v => some v

variable [Surroundings]

theorem call_readInt (default : Option Value) :
    Library.call "io.readInt" default.toList = readInt (givenDefault default) := by
  rw [Library.call_of_getElem? (k := 2) (l := 7) (n := "readInt") (s := "io.readInt") rfl rfl rfl (by decide)]
  rcases default with _ | v
  · rfl
  · cases v <;> rfl

theorem call_readFloat (default : Option Value) :
    Library.call "io.readFloat" default.toList = readDouble (givenDefault default) := by
  rw [Library.call_of_getElem? (k := 2) (l := 8) (n := "readFloat") (s := "io.readFloat") rfl rfl rfl (by decide)]
  rcases default with _ | v
  · rfl
  · cases v <;> rfl

theorem call_toInt (s : Text) (default : Option Value) :
    Library.call "string.toInt" (.text s :: default.toList) = intOrDefault s (default.getD (.int 0)) := by
  rw [Library.call_of_getElem? (k := 0) (l := 29) (n := "toInt") (s := "string.toInt") rfl rfl rfl (by decide)]
  cases default <;> rfl

theorem call_toFloat (s : Text) (default : Option Value) :
    Library.call "string.toFloat" (.text s :: default.toList) =
      doubleOrDefault s (default.getD (.double (.zero false))) := by
  rw [Library.call_of_getElem? (k := 0) (l := 30) (n := "toFloat") (s := "string.toFloat") rfl rfl rfl (by decide)]
  cases default <;> rfl

/-- Integers are read from every text. Doubles are read from every text that is not misspelled, and from no
other one. The reading of input returns under the same conditions, if it has a default. -/
theorem numericTexts_return_iff (session : Session) :
    (∀ s, (∃ x, parseDouble s = .ok x) ↔ ¬ IsMisspelled s) ∧
    (∀ s default, Returns (Library.call "string.toInt" (.text s :: Option.toList default)) session) ∧
    (∀ s default, Returns (Library.call "string.toFloat" (.text s :: Option.toList default)) session ↔
      ¬ IsMisspelled s) ∧
    (∀ default, Returns (Library.call "io.readInt" (Option.toList default)) session ↔
      HasDefault (givenDefault default) session) ∧
    ∀ default, Returns (Library.call "io.readFloat" (Option.toList default)) session ↔
      HasDefault (givenDefault default) session ∧
        ∀ token ∈ session.console.reader.nextToken.1, ¬ IsMisspelled token := by
  refine ⟨parseDouble_ok_iff, fun s default => ?_, fun s default => ?_, fun default => ?_, fun default => ?_⟩
  · rw [call_toInt]
    exact returns_intOrDefault s _
  · rw [call_toFloat]
    exact returns_doubleOrDefault_iff s _
  · rw [call_readInt]
    exact returns_readInt_iff _
  · rw [call_readFloat]
    exact returns_readDouble_iff _

/-- **The text of a double is read as this double.** The text that an operation makes of a double is read by
the operation that reads doubles as the same double, whatever its default is, and the session is left as it
was. -/
theorem toFloat_fromFloat (x : Double) (default : Option Value) (session : Session) :
    (do
      let s ← Library.call "string.fromFloat" [.double x]
      Library.call "string.toFloat" (s :: default.toList)).runOn session = (.ok (.double x), session) := by
  have htext : Library.call "string.fromFloat" [.double x] = pure (.text x.text) :=
    Library.call_of_getElem? (k := 0) (l := 32) (n := "fromFloat") (s := "string.fromFloat") rfl rfl rfl (by decide) _
  rw [htext, pure_bind, call_toFloat, doubleOrDefault, parseDouble_text]
  rfl

end Primitives
