import Primitives.Proofs.Library.Names
import Primitives.Proofs.Number.GuardedFunctions
import Primitives.Proofs.Session.FailedSteps
import Primitives.Proofs.Session.Returns

/-!
# Calls of number operations

The signatures of the operations on numbers say which of their parameters take integers only. Applied to integers
of 64 bits and doubles as its signature says, an operation ends with a value, whatever the session is. The
operations on the random stream need one: it is there, or can be created with settings. They end as the loading of
the settings does where it fails, and the draw of an integer may have no end.

## Main definitions

* `Parameter`, `numberSignatures`: parameters and signatures.
* `Arguments.Reads`: readers of arguments that fit parameters.
* `Operation.Computes`, `Operation.Draws`: operations without and with the stream.

## Main results

* `numberOperations_fit`: the operations fit their signatures.
* `numberOperations_return`: what their calls end with.
-/

namespace Primitives

/-! ### Signatures -/

/-- A parameter of an operation on numbers. -/
inductive Parameter where
  | number
  | integer

/-- The arguments that a parameter takes: integers of 64 bits, and doubles where any number fits. -/
def Parameter.Takes : Parameter → Value → Prop
  | _, .int n => int64Min ≤ n ∧ n ≤ int64Max
  | .number, .double _ => True
  | _, _ => False

/-- The parameters of the operations on numbers. -/
def numberSignatures : List (String × List Parameter) :=
  [("abs", [.number]), ("sign", [.number]), ("min", [.number, .number]), ("max", [.number, .number]),
    ("clamp", [.number, .number, .number]), ("floor", [.number]), ("ceil", [.number]), ("round", [.number]),
    ("trunc", [.number]), ("pow", [.number, .number]), ("sqrt", [.number]), ("cbrt", [.number]), ("exp", [.number]),
    ("expm1", [.number]), ("log", [.number]), ("log2", [.number]), ("log10", [.number]), ("log1p", [.number]),
    ("sin", [.number]), ("cos", [.number]), ("tan", [.number]), ("asin", [.number]), ("acos", [.number]),
    ("atan", [.number]), ("atan2", [.number, .number]), ("sinh", [.number]), ("cosh", [.number]),
    ("tanh", [.number]), ("asinh", [.number]), ("acosh", [.number]), ("atanh", [.number]), ("toRadians", [.number]),
    ("toDegrees", [.number]), ("hypot", [.number, .number]), ("fmod", [.number, .number]),
    ("lerp", [.number, .number, .number]), ("isNaN", [.number]), ("isInf", [.number]), ("isFinite", [.number]),
    ("random", []), ("randomInt", [.integer, .integer]), ("randomFloat", [.number, .number]), ("seed", [.integer]),
    ("gcd", [.integer, .integer]), ("lcm", [.integer, .integer]), ("factorial", [.integer]),
    ("fibonacci", [.integer]), ("isPrime", [.integer])]

/-- The operations on the random stream. -/
def streamOperations : List String :=
  ["random", "randomInt", "randomFloat", "seed"]

/-! ### Reading arguments -/

namespace Arguments

variable {α β : Type} {P : α → Prop} {parameters : List Parameter}

/-- A reader that takes all arguments that fit parameters, and gives something with a property. -/
def Reads (parameters : List Parameter) (P : α → Prop) (read : Arguments α) : Prop :=
  ∀ args, List.Forall₂ Parameter.Takes parameters args → ∀ rest, ∃ a, read.run (args ++ rest) = some (a, rest) ∧ P a

theorem reads_pure {a : α} (h : P a) : Reads [] P (pure a) := by
  rintro _ ⟨⟩ rest
  exact ⟨a, rfl, h⟩

/-- What follows a reading of a number is told by the numbers that it gives. -/
theorem reads_number_bind {next : Number → Arguments α}
    (h : ∀ x, x.IsMachine → Reads parameters P (next x)) : Reads (.number :: parameters) P (number >>= next) := by
  rintro _ (_ | ⟨htakes, hargs⟩) rest
  next v args =>
  cases v with
  | int n => exact h (.int n) htakes args hargs rest
  | double x => exact h (.double x) trivial args hargs rest
  | _ => exact htakes.elim

/-- What follows a reading of an integer is told by the integers that it gives. -/
theorem reads_int_bind {next : Int → Arguments α}
    (h : ∀ n, int64Min ≤ n → n ≤ int64Max → Reads parameters P (next n)) :
    Reads (.integer :: parameters) P (int >>= next) := by
  rintro _ (_ | ⟨htakes, hargs⟩) rest
  next v args =>
  cases v with
  | int n => exact h n htakes.1 htakes.2 args hargs rest
  | _ => exact htakes.elim

/-- What is made of a reading has a property if it does where the reading has one. -/
theorem Reads.bind_pure {Q : β → Prop} {read : Arguments α} (h : Reads parameters P read) {f : α → β}
    (hf : ∀ a, P a → Q (f a)) : Reads parameters Q (do return f (← read)) := by
  intro args hargs rest
  obtain ⟨a, hread, ha⟩ := h args hargs rest
  refine ⟨f a, ?_, hf a ha⟩
  rw [StateT.run_bind, hread]
  rfl

end Arguments

open Arguments

/-! ### Operations without the stream -/

namespace Operation

/-- Applied to arguments that fit parameters, the operation gives a value, whatever the session is. -/
def Computes (operation : Operation) (parameters : List Parameter) : Prop :=
  Reads parameters (fun action => ∃ v, action = pure v) operation.run

variable {parameters : List Parameter} {operation : Operation}

/-- What is read from arguments that fit is what an operation does when it is applied to them. -/
theorem call_of_reads {P : Action Value → Prop} (h : Reads parameters P operation.run) {args : List Value}
    (hargs : List.Forall₂ Parameter.Takes parameters args) : P (operation.call args) := by
  obtain ⟨action, hread, haction⟩ := h args hargs []
  rw [List.append_nil] at hread
  have hcall : operation.call args = action := by
    unfold call
    rw [show operation.run args = some (action, []) from hread]
  rwa [hcall]

theorem computes_plain (name remark : String) {f : Arguments Value} (h : Reads parameters (fun _ => True) f) :
    (plain name remark f).Computes parameters :=
  h.bind_pure fun v _ => ⟨v, rfl⟩

theorem computes_checked (name remark : String) {f : Arguments (Except Fault Value)}
    (h : Reads parameters (fun r => ∃ v, r = .ok v) f) : (checked name remark f).Computes parameters :=
  h.bind_pure fun _ ⟨v, hv⟩ => ⟨v, by rw [hv]; rfl⟩

end Operation

open Operation

section Functions

variable (name remark : String) {f : Number → Except TooLargeForDouble Double}

theorem computes_checked_number (hf : ∀ x, x.IsMachine → ∃ y, f x = .ok y) :
    (checked name remark do return doubleValue (f (← number))).Computes [.number] :=
  computes_checked name remark <| reads_number_bind fun x hx => reads_pure <| by
    obtain ⟨y, hy⟩ := hf x hx
    exact ⟨.double y, by rw [hy, doubleValue]⟩

theorem computes_functionOfTwo {f : Number → Number → Except TooLargeForDouble Double}
    (hf : ∀ x y, x.IsMachine → y.IsMachine → ∃ z, f x y = .ok z) :
    (functionOfTwo name f).Computes [.number, .number] :=
  computes_checked name "" <| reads_number_bind fun x hx => reads_number_bind fun y hy => reads_pure <| by
    obtain ⟨z, hz⟩ := hf x y hx hy
    exact ⟨.double z, by rw [hz, doubleValue]⟩

theorem computes_questionOf (f : Double → Bool) : (questionOf name f).Computes [.number] :=
  computes_checked name "" <| reads_number_bind fun x hx => reads_pure <| by
    obtain ⟨b, hb⟩ := hx.hasDouble.applied f
    exact ⟨.bool b, by rw [hb, truthValue]⟩

end Functions

/-- The factorials of integers of 64 bits are attempted. -/
theorem exists_factorial {n : Int} (h : n ≤ int64Max) : ∃ m, Integer.factorial n = .ok m := by
  rw [Integer.factorial]
  split
  · exact ⟨0, rfl⟩
  · rw [if_pos (by rw [int64Max] at h; omega)]
    exact ⟨_, rfl⟩

/-! ### Operations on the stream -/

section Library

variable [Surroundings]

/-- Applied to arguments that fit parameters, the operation is a call of the stream, which gives a value or is the
draw of an integer that has no end. -/
def Operation.Draws (operation : Operation) (parameters : List Parameter) : Prop :=
  Reads parameters (fun action => ∃ c : StreamCall, action = c.action ∧ ∀ r, (∃ v, (c.on r).1 = .ok v) ∨
    operation.name = "randomInt" ∧ (c.on r).1 = .error .abandonedDraw) operation.run

/-- An operation has the name of a signature and works on arguments that fit its parameters. -/
def Operation.Fits (operation : Operation) (signature : String × List Parameter) : Prop :=
  operation.name = signature.1 ∧
    if signature.1 ∈ streamOperations then operation.Draws signature.2 else operation.Computes signature.2

theorem Operation.Fits.of_computes {operation : Operation} {name : String} {parameters : List Parameter}
    (hname : name ∉ streamOperations) (h : operation.Computes parameters) (heq : operation.name = name) :
    operation.Fits (name, parameters) :=
  ⟨heq, by rwa [if_neg hname]⟩

theorem Operation.Fits.of_draws {operation : Operation} {name : String} {parameters : List Parameter}
    (hname : name ∈ streamOperations) (h : operation.Draws parameters) (heq : operation.name = name) :
    operation.Fits (name, parameters) :=
  ⟨heq, by rwa [if_pos hname]⟩

section Fits

variable {name : String} (hname : name ∉ streamOperations)

include hname

theorem fits_functionOf {f : Number → Except TooLargeForDouble Double} (hf : ∀ x, x.HasDouble → ∃ y, f x = .ok y) :
    (functionOf name f).Fits (name, [.number]) :=
  .of_computes hname (computes_checked_number name "" fun x hx => hf x hx.hasDouble) rfl

theorem fits_functionOfDouble (f : Double → Double) : (functionOfDouble name f).Fits (name, [.number]) :=
  fits_functionOf hname fun _ hx => hx.applied f

theorem fits_functionOfTwo {f : Number → Number → Except TooLargeForDouble Double}
    (hf : ∀ x y, x.HasDouble → y.HasDouble → ∃ z, f x y = .ok z) :
    (functionOfTwo name f).Fits (name, [.number, .number]) :=
  .of_computes hname (computes_functionOfTwo name fun x y hx hy => hf x y hx.hasDouble hy.hasDouble) rfl

theorem fits_questionOf (f : Double → Bool) : (questionOf name f).Fits (name, [.number]) :=
  .of_computes hname (computes_questionOf name f) rfl

end Fits

/-- The operations on numbers fit their signatures. -/
theorem numberOperations_fit : List.Forall₂ Operation.Fits numberOperations numberSignatures := by
  simp (disch := decide) only [numberOperations, numberSignatures, List.forall₂_cons, List.Forall₂.nil,
    fits_functionOfDouble, fits_questionOf, true_and, and_true]
  refine ⟨?abs, ?sign, ?min, ?max, ?clamp, ?round, ?pow, ?sqrt, ?exp, ?expm1, ?asin, ?acos, ?atan2, ?cosh, ?acosh,
    ?atanh, ?toRadians, ?toDegrees, ?hypot, ?fmod, ?lerp, ?random, ?randomInt, ?randomFloat, ?seed, ?gcd, ?lcm,
    ?factorial, ?fibonacci, ?isPrime⟩
  case abs | sign =>
    exact .of_computes (by decide) (computes_plain _ _ (reads_number_bind fun _ _ => reads_pure trivial)) rfl
  case min | max =>
    exact .of_computes (by decide) (computes_plain _ _ (reads_number_bind fun _ _ =>
      reads_number_bind fun _ _ => reads_pure trivial)) rfl
  case clamp =>
    exact .of_computes (by decide) (computes_plain _ _ (reads_number_bind fun _ _ =>
      reads_number_bind fun _ _ => reads_number_bind fun _ _ => reads_pure trivial)) rfl
  case round => exact .of_computes (by decide) (computes_checked_number _ _ fun _ h => h.hasDouble.applied _) rfl
  case pow => exact fits_functionOfTwo (by decide) fun _ _ hx hy => hx.pow hy
  case fmod => exact fits_functionOfTwo (by decide) fun _ _ hx hy => hx.fmod hy
  case atan2 | hypot => exact fits_functionOfTwo (by decide) fun _ _ hx hy => hx.applied₂ hy _
  case sqrt | asin | acos | acosh | atanh => exact fits_functionOf (by decide) fun _ h => h.ite_applied _ _
  case exp | expm1 | cosh => exact fits_functionOf (by decide) fun x _ => ⟨_, rfl⟩
  case toRadians | toDegrees => exact fits_functionOf (by decide) fun _ h => h.applied _
  case lerp =>
    refine .of_computes (by decide) (computes_checked _ _ ?_) rfl
    refine reads_number_bind fun a ha => reads_number_bind fun b hb => reads_number_bind fun t ht => reads_pure ?_
    obtain ⟨c, hc⟩ := ha.lerp hb ht
    exact ⟨.ofNumber c, by rw [lerpValue, hc]⟩
  case random => exact .of_draws (by decide) (reads_pure ⟨.fraction, rfl, fun _ => .inl ⟨_, rfl⟩⟩) rfl
  case randomInt =>
    refine .of_draws (by decide) (reads_int_bind fun low _ _ => reads_int_bind fun high _ _ =>
      reads_pure ⟨.int low high, rfl, fun r => ?_⟩) rfl
    rw [StreamCall.on]
    cases r.int low high with
    | some found => exact .inl ⟨_, rfl⟩
    | none => exact .inr ⟨rfl, rfl⟩
  case randomFloat =>
    refine .of_draws (by decide) (reads_number_bind fun low hlow => reads_number_bind fun high hhigh =>
      reads_pure ⟨.double low high, rfl, fun r => .inl ?_⟩) rfl
    obtain ⟨x, hx⟩ := RandomStream.double_of_isMachine hlow hhigh r
    exact ⟨.ofNumber x, by rw [StreamCall.on, hx]; rfl⟩
  case seed =>
    exact .of_draws (by decide) (reads_int_bind fun n _ _ => reads_pure ⟨.seed n, rfl, fun _ => .inl ⟨_, rfl⟩⟩) rfl
  case gcd | lcm =>
    exact .of_computes (by decide) (computes_plain _ _ (reads_int_bind fun _ _ _ =>
      reads_int_bind fun _ _ _ => reads_pure trivial)) rfl
  case fibonacci | isPrime =>
    exact .of_computes (by decide) (computes_plain _ _ (reads_int_bind fun _ _ _ => reads_pure trivial)) rfl
  case factorial =>
    refine .of_computes (by decide) (computes_checked _ _ (reads_int_bind fun n _ hmax => reads_pure ?_)) rfl
    obtain ⟨m, hm⟩ := exists_factorial hmax
    exact ⟨.int m, by rw [factorialValue, hm]⟩

/-! ### The stream in force -/

section Stream

variable {session : Session} {r r' : RandomStream}

/-- A session has one stream in force at most. -/
theorem Session.StreamInForce.unique (h : session.StreamInForce r) (h' : session.StreamInForce r') : r = r' := by
  cases h with
  | present h =>
    cases h' with
    | present h' => exact Option.some.inj (h.symm.trans h')
    | created hnone _ _ => cases hnone.symm.trans h
  | created hnone hsettings hr =>
    cases h' with
    | present h' => cases hnone.symm.trans h'
    | created _ hsettings' hr' =>
      obtain rfl := Except.ok.inj (hsettings.symm.trans hsettings')
      rw [hr, hr']

/-- A call of the stream ends with what it gives on the stream in force. -/
theorem StreamCall.fst_runOn_action (c : StreamCall) (h : session.StreamInForce r) :
    (c.action.runOn session).1 = (c.on r).1 := by
  rcases hrun : Action.stream.runOn session with ⟨fault | r', session'⟩
  · exact absurd h (Action.streamRun hrun).not_streamInForce_of_error
  · obtain rfl := h.unique (Action.streamRun hrun).streamInForce
    obtain ⟨log, haction⟩ := c.runOn_action hrun
    rw [haction]

/-- Without a stream in force, a call of the stream ends as the loading of the settings does. -/
theorem StreamCall.fault_of_not_streamInForce (c : StreamCall) (h : ∀ r, ¬ session.StreamInForce r) :
    ∃ fault, (Action.settings.runOn session).1 = .error fault ∧ (c.action.runOn session).1 = .error fault := by
  rcases hrun : Action.stream.runOn session with ⟨fault | r, session'⟩
  · refine ⟨fault, ?_, congrArg Prod.fst (c.runOn_action_of_error hrun)⟩
    cases Action.streamRun hrun with
    | failed _ hsettings => rw [Action.runOn_settings_eq, hsettings.fst_runOn, Outcome.map_error]
  · exact absurd (Action.streamRun hrun).streamInForce (h r)

end Stream

/-! ### Calls by name -/

/-- The operation of a name applies a function that a guarded strict function agrees with, and that has a value
for every number that has a nearest double. -/
def AppliesGuarded (name : String) (guarded : Number → Except StrictFault Double) : Prop :=
  ∃ remark f, numberOperations.find? (·.name == name) =
      some (checked name remark do return doubleValue (f (← number))) ∧
    Guarded.Agrees guarded f ∧ ∀ x, x.HasDouble → ∃ y, f x = .ok y

/-- The operation of a name applies a function of two numbers that a guarded strict function agrees with, and that
has a value for numbers that have nearest doubles. -/
def AppliesGuardedTwo (name : String) (guarded : Number → Number → Except StrictFault Double) : Prop :=
  ∃ f, numberOperations.find? (·.name == name) = some (functionOfTwo name f) ∧
    (∀ x y, guarded x y = (f x y).mapError fun _ => .overflow) ∧
    ∀ x y, x.HasDouble → y.HasDouble → ∃ z, f x y = .ok z

open Guarded

theorem functions_applied : ∀ function ∈ Guarded.functions, AppliesGuarded function.1 function.2 := by
  simp only [Guarded.functions, List.forall_mem_cons]
  refine ⟨?floor, ?ceil, ?round, ?trunc, ?sqrt, ?exp, ?expm1, ?log, ?log2, ?log10, ?log1p, ?sin, ?cos, ?tan, ?asin,
    ?acos, ?sinh, ?cosh, ?acosh, ?atanh, by simp⟩
  case floor =>
    exact ⟨_, _, rfl, toWhole_agrees (Double.nearWhole_awayIf fun negative => negative), fun _ h => h.applied _⟩
  case ceil =>
    exact ⟨_, _, rfl, toWhole_agrees (Double.nearWhole_awayIf fun negative => !negative), fun _ h => h.applied _⟩
  case round => exact ⟨_, _, rfl, round_agrees, fun _ h => h.applied _⟩
  case trunc => exact ⟨_, _, rfl, toWhole_agrees fun _ _ => .inl rfl, fun _ h => h.applied _⟩
  case sqrt => exact ⟨_, _, rfl, sqrt_agrees, fun _ h => h.ite_applied _ _⟩
  case acosh => exact ⟨_, _, rfl, acosh_agrees, fun _ h => h.ite_applied _ _⟩
  case asin | acos => exact ⟨_, _, rfl, withinOne_agrees _, fun _ h => h.ite_applied _ _⟩
  case atanh => exact ⟨_, _, rfl, atanh_agrees, fun _ h => h.ite_applied _ _⟩
  case exp => exact ⟨_, _, rfl, exp_agrees, fun _ _ => ⟨_, rfl⟩⟩
  case expm1 => exact ⟨_, _, rfl, expm1_agrees, fun _ _ => ⟨_, rfl⟩⟩
  case cosh => exact ⟨_, _, rfl, cosh_agrees, fun _ _ => ⟨_, rfl⟩⟩
  case sinh => exact ⟨_, _, rfl, sinh_agrees, fun _ h => h.applied _⟩
  case log | log2 | log10 => exact ⟨_, _, rfl, log_agrees _, fun _ h => h.applied _⟩
  case log1p => exact ⟨_, _, rfl, log1p_agrees, fun _ h => h.applied _⟩
  case sin | cos | tan => exact ⟨_, _, rfl, trigonometric_agrees fun _ => rfl, fun _ h => h.applied _⟩

theorem functionsOfTwo_applied : ∀ function ∈ Guarded.functionsOfTwo, AppliesGuardedTwo function.1 function.2 := by
  simp only [Guarded.functionsOfTwo, List.forall_mem_cons]
  exact ⟨⟨_, rfl, pow_agrees, fun _ _ hx hy => hx.pow hy⟩, ⟨_, rfl, fmod_agrees, fun _ _ hx hy => hx.fmod hy⟩,
    by simp⟩

/-- An operation is called by its qualified name. -/
theorem call_of_mem {operation : Operation} (h : operation ∈ numberOperations) (args : List Value) :
    Library.call (Library.qualified "math" operation.name) args = operation.call args :=
  Library.call_qualified (List.mem_of_getElem? (i := 1) rfl) h args

/-- An operation that is found by its name is called by its qualified name. -/
theorem call_of_find? {name : String} {operation : Operation}
    (h : numberOperations.find? (·.name == name) = some operation) (args : List Value) :
    Library.call (Library.qualified "math" name) args = operation.call args := by
  obtain rfl : operation.name = name := by simpa using List.find?_some h
  exact call_of_mem (List.mem_of_find?_eq_some h) args

/-- The operation of a name applies a guarded strict function, which has a value for every machine number. -/
theorem AppliesGuarded.call {name : String} {guarded : Number → Except StrictFault Double}
    (h : AppliesGuarded name guarded) {x : Number} (hx : x.IsMachine) :
    ∃ y, guarded x = .ok y ∧ Library.call (Library.qualified "math" name) [.ofNumber x] = pure (.double y) := by
  obtain ⟨remark, f, hfind, hagrees, htotal⟩ := h
  obtain ⟨y, hy⟩ := htotal x hx.hasDouble
  refine ⟨y, by rw [hagrees, hy, Outcome.mapError_ok], ?_⟩
  have hcall : Library.call (Library.qualified "math" name) [.ofNumber x] =
      Action.ofExcept id (doubleValue (f x)) := by
    rw [call_of_find? hfind]
    cases x <;> rfl
  rw [hcall, hy]
  rfl

theorem AppliesGuardedTwo.call {name : String} {guarded : Number → Number → Except StrictFault Double}
    (h : AppliesGuardedTwo name guarded) {x y : Number} (hx : x.IsMachine) (hy : y.IsMachine) :
    ∃ z, guarded x y = .ok z ∧
      Library.call (Library.qualified "math" name) [.ofNumber x, .ofNumber y] = pure (.double z) := by
  obtain ⟨f, hfind, hagrees, htotal⟩ := h
  obtain ⟨z, hz⟩ := htotal x y hx.hasDouble hy.hasDouble
  refine ⟨z, by rw [hagrees, hz, Outcome.mapError_ok], ?_⟩
  have hcall : Library.call (Library.qualified "math" name) [.ofNumber x, .ofNumber y] =
      Action.ofExcept id (doubleValue (f x y)) := by
    rw [call_of_find? hfind]
    cases x <;> cases y <;> rfl
  rw [hcall, hz]
  rfl

/-- The operation of a signature fits it. -/
theorem exists_fits {signature : String × List Parameter} (h : signature ∈ numberSignatures) :
    ∃ operation ∈ numberOperations, operation.Fits signature := by
  obtain ⟨k, hk, rfl⟩ := List.getElem_of_mem h
  have hlength := numberOperations_fit.length_eq
  exact ⟨_, List.getElem_mem _, numberOperations_fit.get (by omega) hk⟩

/-- **Calls of number operations end with a value.** Each operation has a signature. Applied to integers of 64
bits and doubles as the signature says, an operation ends with a value and does nothing else. An operation on the
random stream ends with a value where a stream is in force, unless the draw of an integer has no end, and ends as
the loading of the settings does where there is none. The functions that fail outside of a domain or for an overflow
have guards that leave nothing of these failures. -/
theorem numberOperations_return :
    numberOperations.map (·.name) = numberSignatures.map Prod.fst ∧
    (∀ name parameters, (name, parameters) ∈ numberSignatures →
      ∀ args, List.Forall₂ Parameter.Takes parameters args →
      let call := Library.call (Library.qualified "math" name) args
      (name ∉ streamOperations → ∃ v, call = pure v) ∧
      (name ∈ streamOperations → ∀ session,
        (∀ r, session.StreamInForce r → Action.Returns call session ∨
          name = "randomInt" ∧ (call.runOn session).1 = .error .abandonedDraw) ∧
        ((∀ r, ¬ session.StreamInForce r) → ∃ fault,
          (Action.settings.runOn session).1 = .error fault ∧ (call.runOn session).1 = .error fault))) ∧
    (∀ name guarded, (name, guarded) ∈ Guarded.functions → ∀ x, x.IsMachine →
      ∃ y, guarded x = .ok y ∧ Library.call (Library.qualified "math" name) [.ofNumber x] = pure (.double y)) ∧
    ∀ name guarded, (name, guarded) ∈ Guarded.functionsOfTwo → ∀ x y, x.IsMachine → y.IsMachine →
      ∃ z, guarded x y = .ok z ∧
        Library.call (Library.qualified "math" name) [.ofNumber x, .ofNumber y] = pure (.double z) := by
  refine ⟨rfl, fun name parameters hsignature args hargs => ?_,
    fun name guarded h x hx => (functions_applied _ h).call hx,
    fun name guarded h x y hx hy => (functionsOfTwo_applied _ h).call hx hy⟩
  obtain ⟨operation, hmem, rfl, hfits⟩ := exists_fits hsignature
  intro call
  have hcall : call = operation.call args := call_of_mem hmem args
  refine ⟨fun hquiet => ?_, fun hstream session => ?_⟩
  · rw [if_neg hquiet] at hfits
    rw [hcall]
    exact call_of_reads hfits hargs
  · rw [if_pos hstream] at hfits
    obtain ⟨c, hc, hon⟩ := call_of_reads hfits hargs
    rw [hcall, hc]
    refine ⟨fun r hr => ?_, c.fault_of_not_streamInForce⟩
    rw [Action.Returns, c.fst_runOn_action hr]
    exact hon r

end Library

/-- The stream of a fresh session is seeded, and poles give infinities. -/
theorem numberOperations_return_fresh :
    Action.Returns (Library.call (Library.qualified "math" "seed") [.int 5]) (Session.fresh ⟨.empty, .root⟩) ∧
    (∃ v, Library.call (Library.qualified "math" "hypot") [.int int64Min, .double (.infinite true)] = pure v) ∧
    (∃ y, Guarded.atanh (Strict.restricted Guarded.atOrBeyondOne Double.atanh) (.int (-1)) = .ok y ∧
      Library.call (Library.qualified "math" "atanh") [.int (-1)] = pure (.double y)) ∧
    ∃ z, Guarded.pow Strict.pow (.int 0) (.int (-1)) = .ok z ∧
      Library.call (Library.qualified "math" "pow") [.int 0, .int (-1)] = pure (.double z) := by
  obtain ⟨-, hcalls, hfunctions, hfunctionsOfTwo⟩ := numberOperations_return
  refine ⟨?seed, ?hypot, ?atanh, ?pow⟩
  case seed =>
    have hforce : (Session.fresh ⟨.empty, .root⟩).StreamInForce (.ofSeed 0 none) := .created rfl rfl rfl
    have hseed := hcalls "seed" [.integer] (List.mem_of_getElem? (i := 42) rfl) [.int 5]
      (.cons ⟨by decide, by decide⟩ .nil)
    exact ((hseed.2 (by decide) _).1 _ hforce).resolve_right fun h => absurd h.1 (by decide)
  case hypot =>
    exact (hcalls "hypot" [.number, .number] (List.mem_of_getElem? (i := 33) rfl)
      [.int int64Min, .double (.infinite true)] (.cons ⟨by decide, by decide⟩ (.cons trivial .nil))).1 (by decide)
  case atanh =>
    exact hfunctions "atanh" _ (List.mem_of_getElem? (i := 19) rfl) (.int (-1)) ⟨by decide, by decide⟩
  case pow =>
    exact hfunctionsOfTwo "pow" _ (.head _) (.int 0) (.int (-1)) ⟨by decide, by decide⟩ ⟨by decide, by decide⟩

/-- After the settings were dropped the stream cannot be created without the file that is named then, and an
operation on it ends with a configuration error. -/
theorem seed_without_settings :
    let s := (Session.fresh ⟨.empty, .root⟩).after
      [.showLibrary, .setSettings none, .nameSettings (some "missing.yaml")]
    ("seed", [Parameter.integer]) ∈ numberSignatures ∧
    List.Forall₂ Parameter.Takes [Parameter.integer] [Value.int 5] ∧
    ∃ fault, (Step.call (Library.qualified "math" "seed") [.int 5]).outcome s = .error fault ∧
      fault.IsConfiguration := by
  intro s
  refine ⟨List.mem_of_getElem? (i := 42) rfl, .cons ⟨by decide, by decide⟩ .nil,
    .unreadableSettings "missing.yaml" (.call .noEntry ["missing.yaml"]), ?_, _, rfl, rfl⟩
  have hload : (Action.settingsOfSession.runOn s).1 =
      .error (.unreadableSettings "missing.yaml" (.call .noEntry ["missing.yaml"])) :=
    Session.fst_settingsOfSession_of_absent rfl rfl (by decide) (by decide) (by decide) rfl rfl
  have hfailed : Action.SettingsRun s (.error _) { s with host := { s.host with log := s.host.log } } :=
    .failed rfl hload
  have hforce (r : RandomStream) : ¬ s.StreamInForce r :=
    (Action.StreamRun.failed rfl hfailed).not_streamInForce_of_error
  obtain ⟨fault, hsettings, hseed⟩ := (StreamCall.seed 5).fault_of_not_streamInForce hforce
  rw [Action.runOn_settings_eq, hfailed.fst_runOn] at hsettings
  have hlibrary : Action.library.runOn s = (.ok 1, s) := rfl
  have hcall : Library.call (Library.qualified "math" "seed") [.int 5] = (StreamCall.seed 5).action :=
    Library.call_of_streamCall rfl
  rw [Step.outcome, Step.action, Action.runOn_map, Action.call, Action.runOn_bind_of_ok hlibrary, hcall]
  dsimp only
  rw [hseed, ← Except.error.inj hsettings]
  rfl

end Primitives
