import Primitives.Proofs.Console.Cursor
import Primitives.Proofs.Files.Runs
import Primitives.Proofs.Session.Runs
import Primitives.Session.Output

/-!
# Sequences of input calls

A program reads lines, integers and doubles from its console in any order. Here the same calls are
stated for a session whose input is nothing but the unread text behind a cursor: a call looks at that
text and moves the cursor, and neither pending rests nor lines are kept. The main result says that a
session with lines and one with a cursor answer every sequence of calls alike, faults included, and that
the unread text of the former is the text behind the cursor of the latter all along.

## Main definitions

* `InputCall`: the calls that read from the input.
* `InputCall.act`, `InputCall.actAtCursor`: a call on lines and the same call at a cursor.
* `InputCall.runAll`: a sequence of calls.
* `Session.ReadsAs`: a session that reads by lines and one that reads at a cursor, both at one place.

## Main results

* `InputCall.agrees`: one call.
* `InputCall.runAll_eq_runAll_atCursor`: a sequence of calls.
-/

namespace Primitives

/-! ### Calls -/

namespace Action

/-- A step on the text behind a cursor, which is all that is kept of the input. -/
def onCursor {α : Type} (step : Text → α × Text) : Action α :=
  onReader fun r => ((step r.input).1, .ofText (step r.input).2)

end Action

/-- A call that reads from the input; a default that is left out is the one of the settings. -/
inductive InputCall where
  | line
  | int (default : Option Value)
  | double (default : Option Value)

namespace InputCall

open Primitives.Action

/-- A call as programs make it. -/
def act [Surroundings] : InputCall → Action Value
  | line => Value.text <$> readLine
  | int default => readInt default
  | double default => readDouble default

/-- A call at a cursor. A number is what its parser makes of the next token, or the default if there is
no token or the parser rejects it. -/
def actAtCursor [Surroundings] : InputCall → Action Value
  | line => Value.text <$> onCursor Unread.line
  | int default => do
    let default ← default.getDM do return .int (← settings).readIntDefault
    let token? ← onCursor Unread.token
    return (token?.bind parseInt).elim default .int
  | double default => do
    let default ← default.getDM do return .double (← settings).readDoubleDefault
    match ← onCursor Unread.token with
    | none => return default
    | some token => return (← ofExcept .misspelledDouble (parseDouble token)).elim default .double

/-- Makes calls one after another. A call that ends with a fault does not end the sequence. -/
def runAll (act : InputCall → Action Value) :
    List InputCall → Session → List (Except Fault Value) × Session
  | [], session => ([], session)
  | call :: calls, session =>
    let (outcome, session) := (act call).runOn session
    let (outcomes, session) := runAll act calls session
    (outcome :: outcomes, session)

end InputCall

/-! ### Sessions at one place of an input -/

namespace Session

/-- A session whose console is at the start of an input. -/
def withInput (session : Session) (input : Text) : Session :=
  { session with console := { session.console with reader := .ofText input } }

/-- The session `s` reads by lines and `t` reads at a cursor, both at the same place of the same input,
and they differ in nothing else but the log: what is pending in `s` is the rest of one line, and the
unread text of `s` is the text behind the cursor of `t`. -/
structure ReadsAs (s t : Session) : Prop where
  wellFormed : s.console.reader.WellFormed
  eq : ∃ log, t = { s with
    console := { s.console with reader := .ofText s.console.reader.unread }
    host := { s.host with log } }

theorem readsAs_withInput (session : Session) (input : Text) :
    (session.withInput input).ReadsAs (session.withInput input) :=
  ⟨Reader.wellFormed_ofText input, _, rfl⟩

theorem ReadsAs.reader_eq {s t : Session} (h : s.ReadsAs t) :
    t.console.reader = .ofText s.console.reader.unread := by
  obtain ⟨-, log, rfl⟩ := h
  rfl

end Session

namespace Action

open Session

variable {α : Type}

/-! ### Actions that read nothing -/

/-- Records are not compared. -/
theorem AgreesAlong.report (logger : Text) (level : Level) (message : Text) :
    AgreesAlong ReadsAs (Action.report logger level message)
      (Action.report logger level message) := by
  rintro s t ⟨hwell, log, rfl⟩
  exact ⟨rfl, hwell, _, rfl⟩

theorem AgreesAlong.reportThen {a b : Action α} (h : AgreesAlong ReadsAs a b) (logger : Text)
    (level : Level) (message : Text) :
    AgreesAlong ReadsAs (Action.report logger level message >>= fun _ => a) b := by
  rintro s t ⟨hwell, log, rfl⟩
  rw [runOn_bind, runOn_report]
  exact h _ _ ⟨hwell, log, rfl⟩

/-- Looking at the disk does not depend on the input. -/
theorem AgreesAlong.look (paths : List Text) (f : Disk → Except Errno α) :
    AgreesAlong ReadsAs (onHost (Request.look paths f).run) (onHost (Request.look paths f).run) := by
  rintro s t ⟨hwell, log, rfl⟩
  have hrun (host : Host) : StateT.run (ExceptT.run (Request.look paths f)) host =
      (Request.outcome paths f host.disk, host) := Request.runOn_look paths f host
  simp only [runOn_onHost, hrun, true_and]
  exact ⟨hwell, log, rfl⟩

theorem agrees_loadSettings [Surroundings] (path : Text) :
    AgreesAlong ReadsAs (loadSettings path) (loadSettings path) := by
  unfold loadSettings
  refine .bind ?_ fun bytes => .bind (.ofExcept _ _) fun d => .bind (.report _ _ _) fun _ => .ofExcept _ _
  unfold readSettingsFile
  refine .bind (.look _ _) fun outcome => ?_
  rcases outcome with e | bytes
  · cases e <;> exact .throw _
  · exact .pure bytes

/-- The settings in force do not depend on the input, whether they are loaded or not. -/
theorem agrees_settings [Surroundings] : AgreesAlong ReadsAs settings settings := by
  have hload : AgreesAlong ReadsAs settingsOfSession settingsOfSession := by
    refine .getBind ?_
    rintro s t ⟨-, log, rfl⟩
    dsimp only
    split
    · exact .pure _
    · exact .pure _
    · exact agrees_loadSettings _
  refine .bind (.getBind ?_) fun settings => .pure _
  rintro s t ⟨-, log, rfl⟩
  dsimp only
  split
  · exact .pure _
  · refine .bind hload fun content => .bind ?_ fun number => .bind (.modify ?_) fun _ => .pure _
    · rintro s t ⟨hwell, log, rfl⟩
      exact ⟨rfl, hwell, log, rfl⟩
    · rintro s t ⟨hwell, log, rfl⟩
      exact ⟨hwell, log, rfl⟩

/-! ### Actions that read -/

/-- A step of a reader agrees with a step at a cursor that finds the same in the unread text. -/
theorem agrees_onReader {onLines : Reader → α × Reader} {atCursor : Text → α × Text}
    (hstep : ∀ r : Reader, r.WellFormed → (onLines r).1 = (atCursor r.unread).1 ∧
      (onLines r).2.WellFormed ∧ (onLines r).2.unread = (atCursor r.unread).2) :
    AgreesAlong ReadsAs (onReader onLines) (onCursor atCursor) := by
  rintro s t ⟨hwell, log, rfl⟩
  obtain ⟨hvalue, hrest, hunread⟩ := hstep _ hwell
  simp only [onCursor, onReader, runOn_onConsole]
  refine ⟨congrArg _ hvalue, hrest, log, ?_⟩
  rw [hunread]
  rfl

theorem onReader_map {β : Type} (f : α → β) (step : Reader → α × Reader) :
    onReader (fun r => (f (step r).1, (step r).2)) = f <$> onReader step :=
  rfl

/-- The default that is given, or the one of the settings in force. -/
theorem agrees_default [Surroundings] (default : Option Value) (ofSettings : Settings → Value) :
    AgreesAlong ReadsAs (default.getDM do return ofSettings (← settings))
      (default.getDM do return ofSettings (← settings)) := by
  cases default with
  | some v => exact .pure v
  | none => exact agrees_settings.bind fun _ => .pure _

/-- A token of the reader agrees with a token at the cursor. -/
theorem agrees_nextToken :
    AgreesAlong ReadsAs (onReader Reader.nextToken) (onCursor Unread.token) :=
  agrees_onReader fun _ hwell => Reader.nextToken_spec hwell

theorem agrees_readLine : AgreesAlong ReadsAs readLine (onCursor Unread.line) := by
  refine agrees_onReader fun r hwell => ?_
  rw [Reader.readLine_eq hwell]
  exact ⟨rfl, Reader.wellFormed_ofText _, rfl⟩

/-- What reading a number finds in a token that may be missing. -/
def readingOf (parse : Text → Option α) : Option Text → Reader.Reading α
  | none => .endOfInput
  | some token => (parse token).elim (.malformed token) .value

/-- A reading counts for its value, and for the default without one; what is reported does not
matter. -/
theorem agrees_readingOr (name : Text) (toValue : α → Value) (default : Value)
    (parse : Text → Option α) (token? : Option Text) :
    AgreesAlong ReadsAs (readingOr name toValue default (readingOf parse token?))
      (pure ((token?.bind parse).elim default toValue)) := by
  cases token? with
  | none => exact (AgreesAlong.pure default).reportThen _ _ _
  | some token =>
    simp only [readingOf, Option.bind_some]
    cases parse token with
    | none => exact (AgreesAlong.pure default).reportThen _ _ _
    | some a => exact .pure _

theorem readInt_eq_bind [Surroundings] (default : Option Value) :
    readInt default = (default.getDM do return .int (← settings).readIntDefault) >>= fun v =>
      onReader Reader.readInt >>= readingOr "read_int" .int v := by
  cases default <;> simp [readInt, Option.getDM]

theorem onReader_readInt :
    onReader Reader.readInt = readingOf parseInt <$> onReader Reader.nextToken := by
  rw [← onReader_map]
  congr 1
  funext r
  unfold Reader.readInt
  rcases r.nextToken with ⟨_ | token, rest⟩
  · rfl
  · simp only [readingOf]
    cases parseInt token <;> rfl

theorem readDouble_eq_bind [Surroundings] (default : Option Value) :
    readDouble default = (default.getDM do return .double (← settings).readDoubleDefault) >>= fun v =>
      onReader Reader.readDouble >>= fun reading =>
        ofExcept .misspelledDouble reading >>= readingOr "read_float" .double v := by
  cases default <;> simp [readDouble, Option.getDM]

/-- What reading a double finds, unless the token is misspelled. -/
def doubleReadingOf : Option Text → Except MisspelledDouble (Reader.Reading Double)
  | none => .ok .endOfInput
  | some token => (parseDouble token).map fun x => x.elim (.malformed token) .value

theorem onReader_readDouble :
    onReader Reader.readDouble = doubleReadingOf <$> onReader Reader.nextToken := by
  rw [← onReader_map]
  congr 1
  funext r
  unfold Reader.readDouble
  rcases r.nextToken with ⟨_ | token, rest⟩
  · rfl
  · simp only [doubleReadingOf]
    rcases parseDouble token with fault | _ | x <;> rfl

end Action

/-! ### Runs -/

namespace InputCall

open Primitives.Action Session

variable [Surroundings]

/-- A call on lines and the call at a cursor agree. -/
theorem agrees (call : InputCall) : AgreesAlong ReadsAs call.act call.actAtCursor := by
  cases call with
  | line => exact agrees_readLine.map _
  | int default =>
    rw [act, readInt_eq_bind]
    refine .bind (agrees_default default fun s => .int s.readIntDefault) fun v => ?_
    rw [onReader_readInt, map_eq_pure_bind, bind_assoc]
    refine .bind agrees_nextToken fun token? => ?_
    rw [pure_bind]
    exact agrees_readingOr _ _ _ _ _
  | double default =>
    rw [act, readDouble_eq_bind]
    refine .bind (agrees_default default fun s => .double s.readDoubleDefault) fun v => ?_
    rw [onReader_readDouble, map_eq_pure_bind, bind_assoc]
    refine .bind agrees_nextToken fun token? => ?_
    rw [pure_bind]
    cases token? with
    | none => exact agrees_readingOr _ .double _ (fun _ => none) none
    | some token =>
      simp only [doubleReadingOf]
      cases parseDouble token with
      | error fault => exact .throw _
      | ok x => exact agrees_readingOr _ _ _ (fun _ => x) (some token)

theorem runAll_agrees {s t : Session} (h : s.ReadsAs t) (calls : List InputCall) :
    (runAll act calls s).1 = (runAll actAtCursor calls t).1 ∧
      (runAll act calls s).2.ReadsAs (runAll actAtCursor calls t).2 := by
  induction calls generalizing s t with
  | nil => exact ⟨rfl, h⟩
  | cons call calls ih =>
    obtain ⟨houtcome, hafter⟩ := call.agrees s t h
    obtain ⟨houtcomes, hend⟩ := ih hafter
    exact ⟨congrArg₂ _ houtcome houtcomes, hend⟩

/-- **Lines and tokens interleave as at a cursor.** On every input, every sequence of calls has the
outcomes that it has at a cursor into the input. Whatever was called, what is pending then is the rest of
one line: a text that is not empty, without a newline except at its end, and without one only if nothing
is left behind it. With the lines behind it, it is the text behind the cursor. -/
theorem runAll_eq_runAll_atCursor (session : Session) (input : Text) (calls : List InputCall) :
    let start := session.withInput input
    let lines := runAll act calls start
    let cursor := runAll actAtCursor calls start
    lines.1 = cursor.1 ∧ lines.2.console.reader.WellFormed ∧
      cursor.2.console.reader = .ofText lines.2.console.reader.unread := by
  obtain ⟨houtcomes, hend⟩ := runAll_agrees (Session.readsAs_withInput session input) calls
  exact ⟨houtcomes, hend.wellFormed, hend.reader_eq⟩

end InputCall

end Primitives
