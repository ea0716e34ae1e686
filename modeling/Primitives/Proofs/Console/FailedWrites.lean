import Primitives.Proofs.Format.UnprintableValues
import Primitives.Proofs.Library.FileOperations
import Primitives.Proofs.Library.Names
import Primitives.Proofs.Session.SettingsInForce

/-!
# Output of failed calls

The operations that write to the console find the whole text first and write it then, so that a call that ends
with a fault has written nothing. There is one exception, the tracing of a value: its header is written before
the value is looked at, and stays on the diagnostic stream if the value has no text.

## Main definitions

* `Action.KeepsConsole`, `Action.FailsBeforeWriting`: actions that write nothing, or nothing if they fail.
* `TracesUnprintable`: calls that trace a value without a text.

## Main results

* `yields_failsBeforeWriting`: the operations that write but one.
* `failedCall_keeps_console_iff`: the calls that have written nothing if they fail.
-/

namespace Primitives

/-! ### Headers -/

/-- Tabs become at least one space. -/
theorem Text.expandTabs_ne_nil {s : Text} (h : s ≠ []) : expandTabs s ≠ [] := by
  obtain ⟨c, s, rfl⟩ := List.exists_cons_of_ne_nil h
  rw [expandTabs, expandTabsFrom]
  split
  · simp [tabStop]
  · split <;> simp

/-- A plain terminal shows spaces. -/
theorem Surroundings.standard_showsSpaces : ShowsSpaces := by
  rintro s ⟨piece, hpiece, hspace⟩
  have hshown : ' ' ∈ s.flatMap Prod.fst := List.mem_flatMap.2 ⟨piece, hpiece, hspace⟩
  exact Text.expandTabs_ne_nil (List.ne_nil_of_mem (List.mem_filter.2 ⟨hshown, by decide⟩))

/-- A header holds a space at least, so that something of it is shown. -/
theorem Surroundings.ShowsSpaces.terminal_header_ne_nil [Surroundings] (h : ShowsSpaces) (mark label : Text) :
    terminal (Trace.header mark label) ≠ [] :=
  h _ ⟨(" ", "bold magenta"), by simp [Trace.header], by decide⟩

namespace Action

variable {α β : Type}

/-! ### Actions that write nothing -/

/-- An action that leaves the console as it was. -/
def KeepsConsole (action : Action α) : Prop :=
  ∀ session : Session, (action.runOn session).2.console = session.console

theorem keepsConsole_ofExcept {ε : Type} (fault : ε → Fault) (x : Except ε α) :
    KeepsConsole (ofExcept fault x) := by
  intro session
  rw [runOn_ofExcept]

theorem KeepsConsole.bind {action : Action α} {next : α → Action β} (h : KeepsConsole action)
    (hnext : ∀ a, KeepsConsole (next a)) : KeepsConsole (action >>= next) := by
  intro session
  have hconsole := h session
  rcases hrun : action.runOn session with ⟨fault | a, session'⟩ <;> rw [hrun] at hconsole
  · rw [runOn_bind_of_error hrun]
    exact hconsole
  · rw [runOn_bind_of_ok hrun, hnext a session']
    exact hconsole

theorem keepsConsole_template (source : Text) : KeepsConsole (template source) := by
  intro session
  simp only [template, runOn_bind, runOn_get]
  -- The report of a new template changes the log only.
  split <;> simp only [runOn_bind, runOn_report, runOn_modify, runOn_ofExcept]

theorem keepsConsole_formatText (source : Text) (args : List Value) : KeepsConsole (formatText source args) :=
  (keepsConsole_template source).bind fun _ => keepsConsole_ofExcept _ _

/-! ### Actions that write nothing if they fail -/

/-- An action that leaves the console as it was if it ends with a fault. -/
def FailsBeforeWriting (action : Action α) (session : Session) : Prop :=
  ∀ fault session', action.runOn session = (.error fault, session') → session'.console = session.console

variable {session : Session}

theorem KeepsConsole.failsBeforeWriting {action : Action α} (h : KeepsConsole action) :
    FailsBeforeWriting action session := by
  intro fault session' hrun
  rw [← h session, hrun]

theorem failsBeforeWriting_onConsole (step : Console → α × Console) :
    FailsBeforeWriting (onConsole step) session :=
  fun _ _ hrun => nomatch congrArg Prod.fst hrun

/-- What follows a part that writes nothing decides. -/
theorem KeepsConsole.bind_failsBeforeWriting {action : Action α} {next : α → Action β} (h : KeepsConsole action)
    (hnext : ∀ a session', FailsBeforeWriting (next a) session') :
    FailsBeforeWriting (action >>= next) session := by
  intro fault session' hrun
  have hconsole := h session
  rcases hfirst : action.runOn session with ⟨fault' | a, session₁⟩ <;> rw [hfirst] at hconsole
  · rw [runOn_bind_of_error hfirst] at hrun
    rw [← hconsole, (Prod.mk.inj hrun).2]
  · rw [runOn_bind_of_ok hfirst] at hrun
    rw [hnext a session₁ fault session' hrun, hconsole]

/-- What is made from the value of an action does not change what it writes. -/
theorem failsBeforeWriting_map_iff {action : Action α} (f : α → β) :
    FailsBeforeWriting (f <$> action) session ↔ FailsBeforeWriting action session := by
  unfold FailsBeforeWriting
  rw [runOn_map]
  rcases action.runOn session with ⟨fault | a, session'⟩ <;> simp

/-- A step of the console that may fail. -/
theorem runOn_fallibleStep {ε : Type} (fault : ε → Fault) (step : Console → Except ε α × Console)
    (session : Session) :
    (do ofExcept fault (← onConsole step)).runOn session =
      ((step session.console).1.mapError fault, { session with console := (step session.console).2 }) := by
  rw [runOn_bind_of_ok (runOn_onConsole step session), runOn_ofExcept]

/-- A value is written with its whole text. -/
theorem failsBeforeWriting_writeValue (stream : ConsoleStream) (v : Option Value) (terminator : Text) :
    FailsBeforeWriting (writeValue stream v terminator) session := by
  intro fault session' hrun
  cases v with
  | none => exact nomatch congrArg Prod.fst hrun
  | some v =>
    rw [writeValue, runOn_fallibleStep] at hrun
    cases hrender : v.render with
    | ok s => simp [Console.writeValue, hrender] at hrun
    | error e =>
      obtain ⟨-, rfl⟩ := Prod.mk.inj hrun
      simp [Console.writeValue, hrender]

theorem failsBeforeWriting_writeFormatted (source : Text) (args : List Value) :
    FailsBeforeWriting (writeFormatted source args) session :=
  (keepsConsole_formatText source args).bind_failsBeforeWriting fun _ _ => failsBeforeWriting_onConsole _

/-! ### Traced values -/

section Traces

variable [Surroundings]

/-- A value without a text is traced by its header alone. -/
theorem runOn_traceValue_of_holdsLong {x : Settings} {v : Value} (hsettings : (settings.runOn session).1 = .ok x)
    (hv : v.HoldsLong) (label : Text) :
    ((traceValue v label).runOn session).1 = .error (.numeral .writing) ∧
      ((traceValue v label).runOn session).2.console =
        session.console.write .diagnostics (Surroundings.terminal (Trace.header x.debugPrefix label)) := by
  have hrender : v.render = .error .writing := Value.render_eq_error_iff.2 ⟨hv, rfl⟩
  have hconsole := console_runOn_settings session
  rcases hrun : settings.runOn session with ⟨out, session'⟩
  obtain rfl : out = .ok x := by rw [← hsettings, hrun]
  obtain hconsole : session'.console = session.console := by rw [← hconsole, hrun]
  rw [traceValue, runOn_bind_of_ok hrun, runOn_fallibleStep, hconsole]
  simp [Console.trace, Console.writeValue, hrender]

/-- A trace has written its header if it fails for the value. -/
theorem failsBeforeWriting_traceValue_iff (hspaces : Surroundings.ShowsSpaces) (v : Value) (label : Text) :
    FailsBeforeWriting (traceValue v label) session ↔
      ¬ (v.HoldsLong ∧ ∃ x, (settings.runOn session).1 = .ok x) := by
  constructor
  · rintro h ⟨hv, x, hsettings⟩
    obtain ⟨houtcome, hconsole⟩ := runOn_traceValue_of_holdsLong hsettings hv label
    have hsame := h _ _ (Prod.ext houtcome rfl)
    rw [hconsole] at hsame
    exact hspaces.terminal_header_ne_nil x.debugPrefix label
      (List.append_right_eq_self.1 (congrArg Console.diagnostics hsame))
  · intro h fault session' hrun
    have hconsole := console_runOn_settings session
    rcases hsettings : settings.runOn session with ⟨fault' | x, session₁⟩ <;> rw [hsettings] at hconsole
    · rw [traceValue, runOn_bind_of_error hsettings] at hrun
      rw [← hconsole, (Prod.mk.inj hrun).2]
    · rw [traceValue, runOn_bind_of_ok hsettings, runOn_fallibleStep] at hrun
      cases hrender : v.render with
      | ok s => simp [Console.trace, Console.writeValue, hrender] at hrun
      | error e => exact absurd ⟨(Value.render_eq_error_iff.1 hrender).1, x, by rw [hsettings]⟩ h

end Traces

end Action

open Primitives.Action Primitives.Arguments

/-! ### Operations -/

variable {session : Session}

theorem Operation.failsBeforeWriting_call {op : Operation} (h : Yields (FailsBeforeWriting · session) op.run)
    (args : List Value) : FailsBeforeWriting (op.call args) session := by
  unfold Operation.call
  split
  · next action hread => exact h args action [] hread
  · exact KeepsConsole.failsBeforeWriting fun _ => rfl

theorem failsBeforeWriting_withoutValue {action : Action Unit} (h : FailsBeforeWriting action session) :
    FailsBeforeWriting (withoutValue action) session :=
  (failsBeforeWriting_map_iff fun _ => Value.null).2 h

theorem yields_writing (name : String) (stream : ConsoleStream) :
    Yields (FailsBeforeWriting · session) (writing name stream).run :=
  yields_bind fun v => yields_pure (failsBeforeWriting_withoutValue (failsBeforeWriting_writeValue stream v []))

/-- The operations that write to the console. -/
def writingOperations : List String :=
  ["print", "println", "eprint", "eprintln", "format", "printf", "dbg"]

section Operations

variable [Surroundings]

/-- The operations that write, but for the one that traces, write nothing if they fail. -/
theorem yields_failsBeforeWriting (session : Session) : ∀ name ∈ writingOperations, name = "dbg" ∨ name ≠ "dbg" ∧
    ∃ op ∈ consoleOperations, op.name = name ∧ Yields (FailsBeforeWriting · session) op.run := by
  have hformat (source : Text) (args : List Value) :
      FailsBeforeWriting (Value.text <$> formatText source args) session :=
    (failsBeforeWriting_map_iff _).2 (keepsConsole_formatText source args).failsBeforeWriting
  simp only [writingOperations, List.forall_mem_cons]
  refine ⟨.inr ⟨by decide, _, List.mem_of_getElem? (i := 0) rfl, rfl, yields_writing _ _⟩,
    .inr ⟨by decide, _, List.mem_of_getElem? (i := 1) rfl, rfl, ?println⟩,
    .inr ⟨by decide, _, List.mem_of_getElem? (i := 2) rfl, rfl, yields_writing _ _⟩,
    .inr ⟨by decide, _, List.mem_of_getElem? (i := 3) rfl, rfl, ?eprintln⟩,
    .inr ⟨by decide, _, List.mem_of_getElem? (i := 4) rfl, rfl, ?format⟩,
    .inr ⟨by decide, _, List.mem_of_getElem? (i := 5) rfl, rfl, ?printf⟩, .inl trivial, by simp⟩
  case println | eprintln =>
    exact yields_bind fun v => yields_pure (failsBeforeWriting_withoutValue (failsBeforeWriting_writeValue _ v _))
  case format =>
    exact yields_bind fun source => yields_bind fun args => yields_pure (hformat source args)
  case printf =>
    exact yields_bind fun source => yields_bind fun args =>
      yields_pure (failsBeforeWriting_withoutValue (failsBeforeWriting_writeFormatted source args))

end Operations

/-! ### Tracing -/

/-- The arguments of a call that traces a value with a label, which may be left out. -/
inductive TraceArguments : List Value → Value → Text → Prop
  | unlabelled (v : Value) : TraceArguments [v] v []
  | null (v : Value) : TraceArguments [v, .null] v []
  | labelled (v : Value) (label : Text) : TraceArguments [v, .text label] v label

theorem TraceArguments.unique {args : List Value} {v v' : Value} {label label' : Text}
    (h : TraceArguments args v label) (h' : TraceArguments args v' label') : v = v' ∧ label = label' := by
  cases h <;> cases h' <;> exact ⟨rfl, rfl⟩

section Tracing

variable [Surroundings]

/-- A call that traces reads a value and a label. -/
theorem call_dbg_eq (args : List Value) : Library.call "io.dbg" args =
    (Operation.acting "dbg" "" do return traced (← value) ((← nullable text).getD [])).call args :=
  Library.call_of_getElem? (k := 2) (l := 9) (n := "dbg") (s := "io.dbg") rfl rfl rfl (by decide) args

/-- A call that traces traces a value with a label, or is misapplied. -/
theorem call_dbg (args : List Value) :
    (∃ v label, TraceArguments args v label ∧ Library.call "io.dbg" args = traced v label) ∨
      (∀ v label, ¬ TraceArguments args v label) ∧ Library.call "io.dbg" args = throw .misapplied := by
  rw [call_dbg_eq]
  rcases args with _ | ⟨v, _ | ⟨w, _ | ⟨u, rest⟩⟩⟩
  · exact .inr ⟨fun _ _ h => (nomatch h), rfl⟩
  · exact .inl ⟨v, [], .unlabelled v, rfl⟩
  · cases w with
    | null => exact .inl ⟨v, [], .null v, rfl⟩
    | text label => exact .inl ⟨v, label, .labelled v label, rfl⟩
    | _ => exact .inr ⟨fun _ _ h => (nomatch h), rfl⟩
  · refine .inr ⟨fun _ _ h => (nomatch h), ?_⟩
    cases w <;> rfl

/-- A call that traces a value without a text, behind a header that is shown. -/
def TracesUnprintable (args : List Value) (session : Session) (header : Text) : Prop :=
  ∃ v label x, TraceArguments args v label ∧ v.HoldsLong ∧ (settings.runOn session).1 = .ok x ∧
    header = Surroundings.terminal (Trace.header x.debugPrefix label)

theorem failsBeforeWriting_dbg_iff (hspaces : Surroundings.ShowsSpaces) (args : List Value) :
    FailsBeforeWriting (Library.call "io.dbg" args) session ↔ ¬ ∃ header, TracesUnprintable args session header := by
  rcases call_dbg args with ⟨v, label, hargs, hcall⟩ | ⟨hargs, hcall⟩
  · have htraced : traced v label = (fun _ => v) <$> traceValue v label := (map_eq_pure_bind _ _).symm
    rw [hcall, htraced, failsBeforeWriting_map_iff, failsBeforeWriting_traceValue_iff hspaces, not_iff_not]
    constructor
    · rintro ⟨hv, x, hsettings⟩
      exact ⟨_, v, label, x, hargs, hv, hsettings, rfl⟩
    · rintro ⟨_, v', label', x, hargs', hv, hsettings, -⟩
      obtain ⟨rfl, rfl⟩ := hargs.unique hargs'
      exact ⟨hv, x, hsettings⟩
  · rw [hcall]
    refine iff_of_true (KeepsConsole.failsBeforeWriting fun _ => rfl) ?_
    rintro ⟨_, v, label, x, hargs', -⟩
    exact hargs v label hargs'

theorem runOn_dbg_of_tracesUnprintable {args : List Value} {header : Text}
    (h : TracesUnprintable args session header) :
    ((Library.call "io.dbg" args).runOn session).1 = .error (.numeral .writing) ∧
      ((Library.call "io.dbg" args).runOn session).2.console = session.console.write .diagnostics header := by
  obtain ⟨v, label, x, hargs, hv, hsettings, rfl⟩ := h
  obtain ⟨houtcome, hconsole⟩ := runOn_traceValue_of_holdsLong hsettings hv label
  have hcall : Library.call "io.dbg" args = traced v label := by
    rw [call_dbg_eq]
    cases hargs <;> rfl
  have htraced : traced v label = (fun _ => v) <$> traceValue v label := (map_eq_pure_bind _ _).symm
  rw [hcall, htraced, runOn_map, houtcome]
  exact ⟨rfl, hconsole⟩

/-- **A failed call has written nothing**, unless it traces a value without a text: then it has written what is
shown of the header of the trace to the diagnostic stream and nothing else, and this is not empty on a terminal that
shows spaces. -/
theorem failedCall_keeps_console_iff (hspaces : Surroundings.ShowsSpaces) {name : String}
    (h : name ∈ writingOperations) (args : List Value) (session : Session) :
    let call := Library.call (Library.qualified "io" name) args
    (FailsBeforeWriting call session ↔ ¬ (name = "dbg" ∧ ∃ header, TracesUnprintable args session header)) ∧
      ∀ header, name = "dbg" → TracesUnprintable args session header →
        header ≠ [] ∧ (call.runOn session).1 = .error (.numeral .writing) ∧
          (call.runOn session).2.console = session.console.write .diagnostics header := by
  rcases yields_failsBeforeWriting session name h with rfl | ⟨hname, op, hop, rfl, hyields⟩
  · have hqualified : Library.qualified "io" "dbg" = "io.dbg".toList := by decide
    rw [hqualified]
    refine ⟨by simpa using failsBeforeWriting_dbg_iff hspaces args, fun header _ htraces => ⟨?_, ?_⟩⟩
    · obtain ⟨v, label, x, -, -, -, rfl⟩ := htraces
      exact hspaces.terminal_header_ne_nil _ _
    · exact runOn_dbg_of_tracesUnprintable htraces
  · have hio : ("io", consoleOperations) ∈ Library.modules := List.mem_of_getElem? (i := 2) rfl
    refine ⟨iff_of_true ?_ fun hdbg => hname hdbg.1, fun header hdbg _ => absurd hdbg hname⟩
    rw [Library.call_qualified hio hop]
    exact Operation.failsBeforeWriting_call hyields args

end Tracing

/-- The smallest integer without a text is traced by the header of the label alone. -/
theorem failedCall_keeps_console_iff_longInteger :
    "dbg" ∈ writingOperations ∧
      ((Library.call "io.dbg" [.int (10 ^ Numeral.digitLimit : Nat), .text "x"]).runOn
        (.fresh ⟨.empty, .root⟩)).2.console.diagnostics = "[DEBUG] x: ".toList ∧
      ¬ FailsBeforeWriting (Library.call "io.dbg" [.int (10 ^ Numeral.digitLimit : Nat), .text "x"])
        (.fresh ⟨.empty, .root⟩) := by
  have hname : "dbg" ∈ writingOperations := by decide
  have hheader : Surroundings.terminal (Trace.header ({} : Settings).debugPrefix "x") = "[DEBUG] x: ".toList := by
    decide +kernel
  have hcast (m : Nat) : ∃ n : Int, m = n ∧ m ≤ n.natAbs := ⟨m, rfl, Nat.le_of_eq (Int.natAbs_natCast m).symm⟩
  obtain ⟨n, hn, hlong⟩ := hcast (10 ^ Numeral.digitLimit)
  rw [hn]
  have htraces : TracesUnprintable [.int n, .text "x"] (.fresh ⟨.empty, .root⟩) "[DEBUG] x: ".toList :=
    ⟨.int n, "x", {}, .labelled _ _, .int hlong, rfl, hheader.symm⟩
  obtain ⟨hiff, hwritten⟩ := failedCall_keeps_console_iff Surroundings.standard_showsSpaces hname
    [.int n, .text "x"] (.fresh ⟨.empty, .root⟩)
  have hqualified : Library.qualified "io" "dbg" = "io.dbg".toList := by decide
  rw [hqualified] at hiff hwritten
  refine ⟨hname, ?_, fun h => hiff.1 h ⟨rfl, _, htraces⟩⟩
  rw [(hwritten _ rfl htraces).2.2]
  rfl

end Primitives
