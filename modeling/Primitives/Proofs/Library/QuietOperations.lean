import Primitives.Library.Basic
import Primitives.Proofs.Library.FileOperations
import Primitives.Proofs.Session.FirstUse

/-!
# What operations do to a session

An operation of the library looks at the settings before it does anything else, if it does so at all, and
apart from loading them it leaves settings, library and stream as they are. It does not end with a
configuration error of its own. The exceptions are the four operations on the random stream, which are calls
of the stream.

## Main definitions

* `Action.Plain`, `Action.Quiet`: actions that leave the session alone but for loading its settings.
* `StreamCall.ofCall?`: the call of the stream that an operation is.

## Main results

* `Library.call_of_streamCall`, `Library.call_quiet`: what the operation of a name does.
-/

namespace Primitives

/-- Two sessions with the same settings, library, stream and log. -/
structure Session.SameState (s s' : Session) : Prop where
  settings : s'.settings = s.settings
  library : s'.library = s.library
  stream : s'.stream = s.stream
  log : s'.log = s.log

namespace Session.SameState

variable {s s' s'' : Session}

theorem refl (s : Session) : SameState s s :=
  ⟨rfl, rfl, rfl, rfl⟩

theorem trans (h : SameState s s') (h' : SameState s' s'') : SameState s s'' :=
  ⟨h'.settings.trans h.settings, h'.library.trans h.library, h'.stream.trans h.stream, h'.log.trans h.log⟩

end Session.SameState

namespace Action

variable {α β ε : Type} {s : Session}

/-- An outcome that is no configuration error. -/
def Operational (outcome : Except Fault α) : Prop :=
  ∀ fault, outcome = .error fault → ¬ fault.IsConfiguration

theorem operational_ok (a : α) : Operational (.ok a : Except Fault α) :=
  fun _ h => nomatch h

theorem operational_error {fault : Fault} (h : ¬ fault.IsConfiguration) :
    Operational (.error fault : Except Fault α) := by
  rintro other ⟨⟩
  exact h

theorem operational_mapError {fault : ε → Fault} (h : ∀ e, ¬ (fault e).IsConfiguration) (x : Except ε α) :
    Operational (x.mapError fault) := by
  cases x with
  | ok a => exact operational_ok a
  | error e => exact operational_error (h e)

theorem Operational.map {x : Except Fault α} (h : Operational x) (f : α → β) : Operational (x.map f) := by
  cases x with
  | ok a => exact operational_ok (f a)
  | error fault => exact operational_error (h fault rfl)

/-! ### Plain actions -/

/-- An action that leaves settings, library, stream and log as they are, and ends with no configuration
error. -/
structure Plain (action : Action α) : Prop where
  state : ∀ s : Session, s.SameState (action.runOn s).2
  operational : ∀ s : Session, Operational (action.runOn s).1

namespace Plain

theorem pure (a : α) : Plain (Pure.pure a : Action α) :=
  ⟨.refl, fun _ => operational_ok a⟩

theorem throw {fault : Fault} (h : ¬ fault.IsConfiguration) :
    Plain (MonadExcept.throw fault : Action α) :=
  ⟨.refl, fun _ => operational_error h⟩

theorem ofExcept {fault : ε → Fault} (h : ∀ e, ¬ (fault e).IsConfiguration) (x : Except ε α) :
    Plain (Action.ofExcept fault x) := by
  refine ⟨fun s => ?_, fun s => ?_⟩ <;> rw [runOn_ofExcept]
  · exact .refl s
  · exact operational_mapError h x

theorem bind {action : Action α} {next : α → Action β} (h : Plain action) (hnext : ∀ a, Plain (next a)) :
    Plain (action >>= next) := by
  refine ⟨fun s => ?_, fun s => ?_⟩
  · have hstate := h.state s
    rw [runOn_bind]
    rcases hrun : action.runOn s with ⟨fault | a, s'⟩ <;> rw [hrun] at hstate
    · exact hstate
    · exact hstate.trans ((hnext a).state s')
  · have hoperational := h.operational s
    rw [runOn_bind]
    rcases hrun : action.runOn s with ⟨fault | a, s'⟩ <;> rw [hrun] at hoperational
    · exact operational_error (hoperational fault rfl)
    · exact (hnext a).operational s'

theorem map {action : Action α} (h : Plain action) (f : α → β) : Plain (f <$> action) := by
  rw [map_eq_pure_bind]
  exact h.bind fun a => .pure (f a)

theorem get : Plain (MonadState.get : Action Session) :=
  ⟨.refl, fun s => operational_ok s⟩

theorem report (logger : Text) (level : Level) (message : Text) : Plain (Action.report logger level message) :=
  ⟨fun _ => ⟨rfl, rfl, rfl, rfl⟩, fun _ => operational_ok ()⟩

theorem onHost (step : HostM α) : Plain (Action.onHost step) :=
  ⟨fun _ => ⟨rfl, rfl, rfl, rfl⟩, fun _ => operational_ok _⟩

theorem onConsole (step : Console → α × Console) : Plain (Action.onConsole step) :=
  ⟨fun _ => ⟨rfl, rfl, rfl, rfl⟩, fun _ => operational_ok _⟩

end Plain

end Action

/-! ### Steps of operations -/

section

open Primitives.Action Primitives.Arguments

/-- An argument is read before the rest. -/
theorem yields_bind {α β : Type} {P : β → Prop} {read : Arguments α} {next : α → Arguments β}
    (h : ∀ a, Yields P (next a)) : Yields P (read >>= next) :=
  (yields_trivial read).bind fun a _ => h a

/-- Faults that are not about settings are no configuration errors. -/
theorem Fault.not_isConfiguration {fault : Fault} (h : fault.report? = none) : ¬ fault.IsConfiguration := by
  rintro ⟨e, he, -⟩
  cases h.symm.trans he

theorem Fault.not_isConfiguration_format (fault : FormatFault) : ¬ (Fault.format fault).IsConfiguration := by
  rintro ⟨e, he, hclass⟩
  simp only [Fault.report?, Fault.formatReport?] at he
  split at he <;> cases he <;> cases hclass

theorem operational_textOfWhole (x : Number) : Operational (textOfWhole x) := by
  unfold textOfWhole
  cases wholeNumber x with
  | error fault => exact operational_error (Fault.not_isConfiguration rfl)
  | ok n =>
    rw [Outcome.mapError_ok, Outcome.ok_bind]
    cases Numeral.decimal n with
    | error fault => exact operational_error (Fault.not_isConfiguration rfl)
    | ok s => exact operational_ok _

theorem operational_textOfDouble (x : Number) : Operational (textOfDouble x) := by
  unfold textOfDouble
  cases x.toDouble with
  | error fault => exact operational_error (Fault.not_isConfiguration rfl)
  | ok x => exact operational_ok _

theorem operational_doubleValue (r : Except TooLargeForDouble Double) : Operational (doubleValue r) := by
  cases r with
  | ok x => exact operational_ok _
  | error fault => exact operational_error (Fault.not_isConfiguration rfl)

theorem operational_truthValue (r : Except TooLargeForDouble Bool) : Operational (truthValue r) := by
  cases r with
  | ok b => exact operational_ok _
  | error fault => exact operational_error (Fault.not_isConfiguration rfl)

theorem operational_factorialValue (n : Int) : Operational (factorialValue n) := by
  unfold factorialValue
  cases Integer.factorial n with
  | ok n => exact operational_ok _
  | error fault => exact operational_error (Fault.not_isConfiguration rfl)

theorem operational_lerpValue (a b t : Number) : Operational (lerpValue a b t) := by
  unfold lerpValue
  cases Number.lerp a b t with
  | ok x => exact operational_ok _
  | error fault => exact operational_error (Fault.not_isConfiguration rfl)

theorem plain_intOrDefault (s : Text) (default : Value) : Plain (intOrDefault s default) := by
  unfold intOrDefault
  cases parseInt s with
  | some n => exact .pure _
  | none => exact (Plain.report _ _ _).bind fun _ => .pure _

theorem plain_doubleOrDefault (s : Text) (default : Value) : Plain (doubleOrDefault s default) := by
  refine (Plain.ofExcept (fun _ => Fault.not_isConfiguration rfl) _).bind fun x => ?_
  cases x with
  | some x => exact .pure _
  | none => exact (Plain.report _ _ _).bind fun _ => .pure _

theorem plain_writeValue (stream : ConsoleStream) (v : Option Value) (terminator : Text) :
    Plain (writeValue stream v terminator) := by
  unfold writeValue
  cases v with
  | none => exact .onConsole _
  | some v =>
    exact (Plain.onConsole _).bind fun x => .ofExcept (fun _ => Fault.not_isConfiguration rfl) x

theorem plain_formatText (source : Text) (args : List Value) : Plain (formatText source args) := by
  have hmodify : ∀ templates, Plain (modify fun session => { session with templates } : Action Unit) :=
    fun templates => ⟨fun _ => ⟨rfl, rfl, rfl, rfl⟩, fun _ => operational_ok ()⟩
  have htemplate : Plain (template source) := by
    refine Plain.get.bind fun session => ?_
    have hrest : Plain (do
        modify fun s => { s with templates := (session.templates.request source).2 }
        ofExcept (fun fault => .format (.template fault source)) (session.templates.request source).1) :=
      (hmodify _).bind fun _ => .ofExcept (fun _ => Fault.not_isConfiguration_format _) _
    by_cases hkept : (session.templates.find? source).isNone
    · simp only [hkept, if_true]
      exact (Plain.report _ _ _).bind fun _ => hrest
    · simp only [hkept]
      exact hrest
  exact htemplate.bind fun template => .ofExcept Fault.not_isConfiguration_format _

theorem plain_onReader {α : Type} (step : Reader → α × Reader) : Plain (onReader step) :=
  .onConsole _

theorem plain_readingOr {α : Type} (name : Text) (toValue : α → Value) (default : Value)
    (reading : Reader.Reading α) : Plain (readingOr name toValue default reading) := by
  cases reading with
  | value a => exact .pure _
  | endOfInput => exact (Plain.report _ _ _).bind fun _ => .pure _
  | malformed token => exact (Plain.report _ _ _).bind fun _ => .pure _

end

/-! ### Calls of the stream -/

/-- The operations on the random stream, by their names and the calls that they read. -/
def StreamCall.readers : List (String × Arguments StreamCall) :=
  [("random", return .fraction),
    ("randomInt", do return .int (← Arguments.int) (← Arguments.int)),
    ("randomFloat", do return .double (← Arguments.number) (← Arguments.number)),
    ("seed", do return .seed (← Arguments.int))]

/-- The call of the stream that is made by a name with arguments. -/
def StreamCall.ofCall? (name : Text) (args : List Value) : Option StreamCall :=
  match readers.find? fun reader => Library.qualified "math" reader.1 == name with
  | none => none
  | some reader =>
    match reader.2.run args with
    | some (c, []) => some c
    | _ => none

theorem Library.find_reader : ∀ reader ∈ StreamCall.readers,
    (StreamCall.readers.find? fun other => qualified "math" other.1 == qualified "math" reader.1) =
      some reader := by
  simp only [StreamCall.readers, List.forall_mem_cons]
  exact ⟨rfl, rfl, rfl, rfl, by simp⟩

/-! ### Quiet actions -/

variable [Surroundings]

namespace Action

variable {α β : Type}

/-- An action that leaves settings, library, stream and log as they are, but for loading settings where there
are none, and ends with no configuration error if there are some. -/
structure Quiet (action : Action α) : Prop where
  state : ∀ s : Session, s.settings.isSome → s.SameState (action.runOn s).2
  loads : ∀ s : Session, s.settings = none → s.SameState (action.runOn s).2 ∨
    ∃ x, (settingsOfSession.runOn s).1 = .ok x.content ∧
      Session.SameState { s with settings := some x } (action.runOn s).2
  operational : ∀ s : Session, s.settings.isSome → Operational (action.runOn s).1

theorem Plain.quiet {action : Action α} (h : Plain action) : Quiet action where
  state s _ := h.state s
  loads s _ := .inl (h.state s)
  operational s _ := h.operational s

/-- An action is quiet if it looks at the settings first. -/
theorem quiet_settings_bind {next : Settings → Action α} (h : ∀ x, Plain (next x)) :
    Quiet (Action.settings >>= next) := by
  have hpresent : ∀ {s : Session}, s.settings.isSome → ∃ x, (Action.settings >>= next).runOn s =
      (next x).runOn s := by
    intro s hsome
    obtain ⟨x, hx⟩ := Option.isSome_iff_exists.1 hsome
    exact ⟨x.content, runOn_bind_of_ok (runOn_settings hx) next⟩
  refine ⟨fun s hsome => ?_, fun s hnone => ?_, fun s hsome => ?_⟩
  · obtain ⟨x, hrun⟩ := hpresent hsome
    rw [hrun]
    exact (h x).state s
  · rw [runOn_bind, runOn_settings_eq]
    rcases hrun : numberedSettings.runOn s with ⟨out, s'⟩
    cases settingsRun hrun with
    | present hx => cases hnone.symm.trans hx
    | @loaded content log _ hload =>
      have hnext := (h content).state
        { s with settings := some ⟨s.made, content⟩, made := s.made + 1, host := { s.host with log } }
      exact .inr ⟨⟨s.made, content⟩, hload, hnext.settings, hnext.library, hnext.stream, hnext.log⟩
    | failed _ _ => exact .inl ⟨rfl, rfl, rfl, rfl⟩
  · obtain ⟨x, hrun⟩ := hpresent hsome
    rw [hrun]
    exact (h x).operational s

theorem Quiet.map {action : Action α} (h : Quiet action) (f : α → β) : Quiet (f <$> action) where
  state s hsome := by
    rw [runOn_map]
    exact h.state s hsome
  loads s hnone := by
    rw [runOn_map]
    exact h.loads s hnone
  operational s hsome := by
    rw [runOn_map]
    exact (h.operational s hsome).map f

end Action

/-! ### Quiet operations -/

open Primitives.Action Primitives.Arguments

/-- An operation that is quiet whatever its arguments are. -/
def Operation.IsQuiet (operation : Operation) : Prop :=
  Yields Quiet operation.run

namespace Operation

theorem isQuiet_plain (name remark : String) (f : Arguments Value) : (plain name remark f).IsQuiet :=
  (yields_trivial _).bind fun v _ => yields_pure (Plain.pure v).quiet

theorem isQuiet_checked {name remark : String} {f : Arguments (Except Fault Value)} (h : Yields Operational f) :
    (checked name remark f).IsQuiet := by
  refine h.bind fun x hx => yields_pure (Plain.quiet ⟨fun s => ?_, fun s => ?_⟩)
  · rw [runOn_ofExcept]
    exact .refl s
  · rw [runOn_ofExcept]
    cases x with
    | ok v => exact operational_ok v
    | error fault => exact operational_error (hx fault rfl)

end Operation

/-! ### Text operations -/

theorem operational_repeated (s : Text) (n : Int) : Operational (do
    let () ← (s.checkRepeat n).mapError Fault.repetition
    return Value.text (s.repeated n)) := by
  cases s.checkRepeat n with
  | ok _ => exact operational_ok _
  | error fault => exact operational_error (Fault.not_isConfiguration rfl)

theorem operational_padded (pad : Text → Int → Text → Text) (s : Text) (width : Int) (fill : Text) :
    Operational (padded pad s width fill) := by
  unfold padded
  cases s.checkPad width fill with
  | ok _ => exact operational_ok _
  | error fault => exact operational_error (Fault.not_isConfiguration rfl)

theorem quiet_characterAt (s : Text) (i : Int) : Quiet (characterAt s i) := by
  unfold characterAt
  cases s.charAt? i with
  | some c => exact (Plain.pure _).quiet
  | none => exact quiet_settings_bind fun x => .pure _

theorem textOperations_quiet : ∀ op ∈ textOperations, op.IsQuiet := by
  simp only [textOperations, textQuestion, textChange, textRelation, List.forall_mem_cons,
    Operation.isQuiet_plain, true_and, and_true, List.not_mem_nil, false_imp_iff, implies_true]
  refine ⟨?charAt, ?repeated, ?padLeft, ?padRight, ?toInt, ?toFloat, ?fromInt, ?fromFloat⟩
  case charAt => exact yields_bind fun s => yields_bind fun i => yields_pure (quiet_characterAt s i)
  case repeated =>
    exact Operation.isQuiet_checked (yields_bind fun s => yields_bind fun n =>
      yields_pure (operational_repeated s n))
  case padLeft | padRight =>
    exact Operation.isQuiet_checked (yields_bind fun s => yields_bind fun width => yields_bind fun fill =>
      yields_pure (operational_padded _ s width fill))
  case toInt =>
    exact yields_bind fun s => yields_bind fun default => yields_pure (plain_intOrDefault s default).quiet
  case toFloat =>
    exact yields_bind fun s => yields_bind fun default => yields_pure (plain_doubleOrDefault s default).quiet
  case fromInt =>
    exact Operation.isQuiet_checked (yields_bind fun x => yields_pure (operational_textOfWhole x))
  case fromFloat =>
    exact Operation.isQuiet_checked (yields_bind fun x => yields_pure (operational_textOfDouble x))

/-! ### Console operations -/

theorem quiet_traceValue (v : Value) (label : Text) : Quiet (traceValue v label) :=
  quiet_settings_bind fun _ => (Plain.onConsole _).bind fun x =>
    .ofExcept (fun _ => Fault.not_isConfiguration rfl) x

theorem quiet_readInt (default : Option Value) : Quiet (readInt default) := by
  have hread : ∀ v, Plain (do readingOr "read_int" .int v (← onReader Reader.readInt)) := fun v =>
    (plain_onReader _).bind fun reading => plain_readingOr _ _ v reading
  cases default with
  | some v => exact (hread v).quiet
  | none => exact quiet_settings_bind fun x => hread (.int x.readIntDefault)

theorem quiet_readDouble (default : Option Value) : Quiet (readDouble default) := by
  have hread : ∀ v, Plain (do
      let reading ← ofExcept .misspelledDouble (← onReader Reader.readDouble)
      readingOr "read_float" .double v reading) := fun v =>
    (plain_onReader _).bind fun x => (Plain.ofExcept (fun _ => Fault.not_isConfiguration rfl) x).bind
      fun reading => plain_readingOr _ _ v reading
  cases default with
  | some v => exact (hread v).quiet
  | none => exact quiet_settings_bind fun x => hread (.double x.readDoubleDefault)

theorem Action.Quiet.withoutValue {action : Action Unit} (h : Quiet action) : Quiet (withoutValue action) := by
  have hmap : Primitives.withoutValue action = (fun _ => Value.null) <$> action := by
    rw [map_eq_pure_bind]
    rfl
  rw [hmap]
  exact h.map _

theorem consoleOperations_quiet : ∀ op ∈ consoleOperations, op.IsQuiet := by
  have hwrite : ∀ stream terminator, Yields Quiet (do
      return withoutValue (writeValue stream (← withDefault none (some <$> value)) terminator)) :=
    fun stream terminator => yields_bind fun v =>
      yields_pure (plain_writeValue stream v terminator).quiet.withoutValue
  simp only [consoleOperations, writing, List.forall_mem_cons]
  refine ⟨hwrite _ _, hwrite _ _, hwrite _ _, hwrite _ _, ?format, ?printf, ?readln, ?readInt, ?readFloat, ?dbg,
    by simp⟩
  case format =>
    exact yields_bind fun source => yields_bind fun args => yields_pure
      ((plain_formatText source args).map _).quiet
  case printf =>
    exact yields_bind fun source => yields_bind fun args => yields_pure
      ((plain_formatText source args).bind fun s => .onConsole _).quiet.withoutValue
  case readln => exact yields_pure ((plain_onReader Reader.readLine).map _).quiet
  case readInt => exact yields_bind fun default => yields_pure (quiet_readInt default)
  case readFloat => exact yields_bind fun default => yields_pure (quiet_readDouble default)
  case dbg =>
    refine yields_bind fun v => yields_bind fun label => yields_pure ?_
    have hmap : traced v (label.getD []) = (fun _ => v) <$> traceValue v (label.getD []) := by
      rw [map_eq_pure_bind]
      rfl
    rw [hmap]
    exact (quiet_traceValue v _).map _

/-! ### File operations -/

theorem quiet_withEncoding {α : Type} (step : Text → HostM (Except EncodingFault α)) :
    Quiet (withEncoding step) :=
  quiet_settings_bind fun _ => (Plain.onHost _).bind fun x =>
    .ofExcept (fun _ => Fault.not_isConfiguration rfl) x

theorem isQuiet_onPath {α : Type} (name remark : String) (toValue : α → Value) (step : Text → HostM α) :
    (onPath name remark toValue step).IsQuiet :=
  yields_bind fun path => yields_pure ((Plain.onHost (step path)).map toValue).quiet

theorem fileOperations_quiet : ∀ op ∈ fileOperations, op.IsQuiet := by
  simp only [fileOperations, pathPart, List.forall_mem_cons, Operation.isQuiet_plain, isQuiet_onPath,
    true_and, and_true, List.not_mem_nil, false_imp_iff, implies_true]
  refine ⟨?readFile, ?writeFile, ?appendFile, ?readLines, ?writeLines, ?absolute, ?copy, ?move, ?cwd⟩
  case readFile | readLines =>
    exact yields_bind fun path => yields_pure ((quiet_withEncoding _).map _)
  case writeFile | appendFile | writeLines =>
    exact yields_bind fun path => yields_bind fun content => yields_pure ((quiet_withEncoding _).map _)
  case absolute =>
    refine yields_bind fun path => yields_pure (Plain.bind ?_ fun s => .pure _).quiet
    exact (Plain.onHost _).bind fun x => .ofExcept (fun _ => Fault.not_isConfiguration rfl) x
  case copy | move =>
    exact yields_bind fun source => yields_bind fun target => yields_pure ((Plain.onHost _).map _).quiet
  case cwd => exact yields_pure ((Plain.onHost _).map _).quiet

/-! ### Number operations -/

theorem isQuiet_functionOf (name : String) (f : Number → Except TooLargeForDouble Double) :
    (functionOf name f).IsQuiet :=
  Operation.isQuiet_checked (yields_bind fun x => yields_pure (operational_doubleValue (f x)))

theorem isQuiet_functionOfTwo (name : String) (f : Number → Number → Except TooLargeForDouble Double) :
    (functionOfTwo name f).IsQuiet :=
  Operation.isQuiet_checked (yields_bind fun x => yields_bind fun y =>
    yields_pure (operational_doubleValue (f x y)))

theorem isQuiet_questionOf (name : String) (f : Double → Bool) : (questionOf name f).IsQuiet :=
  Operation.isQuiet_checked (yields_bind fun x => yields_pure (operational_truthValue (x.applied f)))

/-- An operation on numbers is quiet or a call of the stream. -/
theorem numberOperations_quiet : ∀ op ∈ numberOperations, op.IsQuiet ∨
    ∃ reader ∈ StreamCall.readers, op.name = reader.1 ∧ op.run = StreamCall.action <$> reader.2 := by
  simp only [numberOperations, functionOfDouble, List.forall_mem_cons, Operation.isQuiet_plain,
    isQuiet_functionOf, isQuiet_functionOfTwo, isQuiet_questionOf, true_or, true_and, and_true,
    List.not_mem_nil, false_imp_iff, implies_true]
  refine ⟨.inl ?round, .inl ?lerp, .inr ⟨_, .head _, rfl, ?random⟩,
    .inr ⟨_, .tail _ (.head _), rfl, ?randomInt⟩, .inr ⟨_, .tail _ (.tail _ (.head _)), rfl, ?randomFloat⟩,
    .inr ⟨_, .tail _ (.tail _ (.tail _ (.head _))), rfl, ?seed⟩, .inl ?factorial⟩
  case random | randomInt | randomFloat | seed =>
    simp only [map_bind, map_pure]
    rfl
  case round =>
    exact Operation.isQuiet_checked (yields_bind fun x => yields_pure (operational_doubleValue _))
  case lerp =>
    exact Operation.isQuiet_checked (yields_bind fun a => yields_bind fun b => yields_bind fun t =>
      yields_pure (operational_lerpValue a b t))
  case factorial =>
    exact Operation.isQuiet_checked (yields_bind fun n => yields_pure (operational_factorialValue n))

/-! ### Calls by name -/

namespace Library

theorem operation_of_reader : ∀ reader ∈ StreamCall.readers, ∃ op,
    operation? (qualified "math" reader.1) = some op ∧ op.run = StreamCall.action <$> reader.2 := by
  have hmodule : ("math", numberOperations) ∈ modules := List.mem_of_getElem? (i := 1) rfl
  have hfound {k : Nat} {op : Operation} (hop : numberOperations[k]? = some op) :
      operation? (qualified "math" op.name) = some op :=
    operation?_qualified hmodule (List.mem_of_getElem? hop)
  have hrandom := hfound (k := 39) rfl
  have hrandomInt := hfound (k := 40) rfl
  have hrandomFloat := hfound (k := 41) rfl
  have hseed := hfound (k := 42) rfl
  simp only [StreamCall.readers, List.forall_mem_cons]
  refine ⟨⟨_, hrandom, ?random⟩, ⟨_, hrandomInt, ?randomInt⟩, ⟨_, hrandomFloat, ?randomFloat⟩,
    ⟨_, hseed, ?seed⟩, by simp⟩
  all_goals
    simp only [map_bind, map_pure]
    rfl

variable {name : Text} {args : List Value}

theorem call_of_run {op : Operation} {read : Arguments StreamCall} (h : op.run = StreamCall.action <$> read)
    (args : List Value) : op.call args =
      match read.run args with
      | some (c, []) => c.action
      | _ => throw .misapplied := by
  have hrun : op.run args = (fun found => (found.1.action, found.2)) <$> read.run args := by
    rw [h]
    exact StateT.run_map StreamCall.action read args
  unfold Operation.call
  rw [hrun]
  rcases read.run args with _ | ⟨c, _ | ⟨v, rest⟩⟩ <;> rfl

/-- A call of the stream is made on the stream of the session. -/
theorem call_of_streamCall {c : StreamCall} (h : StreamCall.ofCall? name args = some c) :
    call name args = c.action := by
  unfold StreamCall.ofCall? at h
  split at h
  · cases h
  · next reader hfind =>
    obtain ⟨op, hop, hrun⟩ := operation_of_reader reader (List.mem_of_find?_eq_some hfind)
    obtain rfl : qualified "math" reader.1 = name := by simpa using List.find?_some hfind
    rw [call, hop]
    dsimp only
    rw [call_of_run hrun]
    split at h
    · next hread =>
      cases h
      rfl
    · cases h

theorem isQuiet_of_mem {moduleName : String} {operations : List Operation}
    (hmodule : (moduleName, operations) ∈ modules) {op : Operation} (hop : op ∈ operations) :
    op.IsQuiet ∨ ∃ reader ∈ StreamCall.readers,
      qualified moduleName op.name = qualified "math" reader.1 ∧ op.run = StreamCall.action <$> reader.2 := by
  simp only [modules, List.mem_cons, Prod.mk.injEq, List.not_mem_nil, or_false] at hmodule
  rcases hmodule with ⟨-, rfl⟩ | ⟨rfl, rfl⟩ | ⟨-, rfl⟩ | ⟨-, rfl⟩
  · exact .inl (textOperations_quiet op hop)
  · refine (numberOperations_quiet op hop).imp_right ?_
    rintro ⟨reader, hreader, hname, hrun⟩
    exact ⟨reader, hreader, by rw [hname], hrun⟩
  · exact .inl (consoleOperations_quiet op hop)
  · exact .inl (fileOperations_quiet op hop)

theorem quiet_misapplied : Quiet (throw .misapplied : Action Value) :=
  (Plain.throw (Fault.not_isConfiguration rfl)).quiet

/-- All other calls by name are quiet. -/
theorem call_quiet (h : StreamCall.ofCall? name args = none) : Quiet (call name args) := by
  unfold call
  cases hfind : operation? name with
  | none =>
    dsimp only
    refine Plain.quiet ?_
    have hunresolved : Plain (do
        Action.report "KaedeRT.runtime" .error ("Unresolved runtime symbol: " ++ name)
        throw (.unresolved name) : Action Value) := by
      refine (Plain.report _ _ _).bind fun _ => .throw ?_
      rintro ⟨e, he, hclass⟩
      cases he
      cases hclass
    split
    · exact (Plain.throw (Fault.not_isConfiguration rfl)).bind fun _ => hunresolved
    · exact hunresolved
  | some op =>
    dsimp only
    obtain ⟨⟨moduleName, operations⟩, hmodule, hmem⟩ := List.exists_of_findSome?_eq_some hfind
    have hop := List.mem_of_find?_eq_some hmem
    obtain rfl : qualified moduleName op.name = name := by simpa using List.find?_some hmem
    rcases isQuiet_of_mem hmodule hop with hquiet | ⟨reader, hreader, hname, hrun⟩
    · unfold Operation.call
      split
      · next action hread => exact hquiet args action [] hread
      · exact quiet_misapplied
    · unfold StreamCall.ofCall? at h
      rw [hname, find_reader reader hreader] at h
      dsimp only at h
      rw [call_of_run hrun]
      split at h
      · cases h
      · exact quiet_misapplied

end Library

end Primitives
