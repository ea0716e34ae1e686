import Primitives.Session.Settings

/-!
# Random draws of a session

The stream of a session is created on first use, from the seed that the settings name then, and stays the
same until it is dropped, whatever becomes of the settings. Seeding a generator is recorded in the log,
also when a stream without a seed takes its first output.

## Main definitions

* `Action.stream`: the stream of the session.
* `Action.seedStream`, `Action.dropStream`: starting over.
* `Action.drawWord`, `Action.drawFraction`, `Action.drawInt`, `Action.drawDouble`: draws.
-/

namespace Primitives.Action

variable [Surroundings]

/-- Records that a generator was seeded with a word. -/
def reportSeed (w : UInt32) : Action Unit :=
  report "KaedeRT.random" .debug ("Random stream seeded with " ++ Numeral.ofNat 10 w.toNat)

/-- Keeps a stream. A generator that it has, and that it had not before, was seeded from entropy. -/
def keepStream (before after : RandomStream) : Action Unit := do
  if before.generator.isNone && after.generator.isSome then reportSeed before.entropy
  modify fun session => { session with stream := some after }

/-- A new stream with a seed, or without one. -/
def newStream (seed : Option Int) : Action RandomStream := do
  let stream := RandomStream.unseeded (← get).entropy
  match seed with
  | none => return stream
  | some n =>
    reportSeed (RandomStream.seedWord n)
    return stream.seed n

/-- The stream of the session, created if there is none. -/
def stream : Action RandomStream := do
  match (← get).stream with
  | some stream => return stream
  | none =>
    let stream ← newStream (← settings).randomSeed
    modify fun session => { session with stream := some stream }
    return stream

/-- Drops the stream; the next use creates one. -/
def dropStream : Action Unit :=
  modify fun session => { session with stream := none }

/-- Starts the stream over from a seed. -/
def seedStream (n : Int) : Action Unit := do
  let before ← stream
  reportSeed (RandomStream.seedWord n)
  modify fun session => { session with stream := some (before.seed n) }

/-! ### Draws -/

/-- The next output. -/
def drawWord : Action UInt32 := do
  let before ← stream
  let (w, after) := before.nextWord
  keepStream before after
  return w

/-- A double from 0 up to below 1. -/
def drawFraction : Action Double := do
  let before ← stream
  let (x, after) := before.fraction
  keepStream before after
  return x

/-- An integer between two bounds, both included. A draw that has no end counts as a fault. -/
def drawInt (low high : Int) : Action Int := do
  let before ← stream
  match before.int low high with
  | some (n, after) =>
    keepStream before after
    return n
  | none => throw .abandonedDraw

/-- A number from one bound up to below another; equal bounds give the first. -/
def drawDouble (low high : Number) : Action Number := do
  let before ← stream
  let (x, after) := before.double low high
  keepStream before after
  ofExcept (fun _ => .tooLargeForDouble) x

end Primitives.Action
