import Primitives.Random.Draw
import Primitives.Random.Twister

/-!
# Random streams

A stream is a generator together with the word of entropy that seeds it at its first draw unless a
seed was given before. Equal seeds give equal sequences, and a seed given in between starts over.

## Main definitions

* `RandomStream`: streams.
* `RandomStream.seed`, `RandomStream.unseeded`: a stream with and without a seed.
* `RandomStream.nextWord`, `RandomStream.fraction`, `RandomStream.int`, `RandomStream.double`: draws.
-/

namespace Primitives

/-- A generator, or none before the first draw of a stream without a seed, and the entropy that
seeds it then. -/
structure RandomStream where
  generator : Option Twister
  entropy : UInt32

namespace RandomStream

/-- The word that a seed of any size is reduced to. -/
def seedWord (seed : Int) : UInt32 :=
  UInt32.ofNat (seed % 2 ^ 32).toNat

/-- A stream without a seed. -/
def unseeded (entropy : UInt32) : RandomStream :=
  ⟨none, entropy⟩

/-- The stream started over from a seed. -/
def seed (stream : RandomStream) (seed : Int) : RandomStream :=
  { stream with generator := some (Twister.seeded (seedWord seed)) }

/-- The generator, seeded from entropy if it was not before. -/
def ready (stream : RandomStream) : Twister :=
  stream.generator.getD (Twister.seeded stream.entropy)

/-- The stream with another generator. -/
def resume (stream : RandomStream) (generator : Twister) : RandomStream :=
  { stream with generator := some generator }

/-- The next output. -/
def nextWord (stream : RandomStream) : UInt32 × RandomStream :=
  let (w, t) := stream.ready.next
  (w, stream.resume t)

/-- A double from 0 up to below 1. -/
def fraction (stream : RandomStream) : Double × RandomStream :=
  let (x, t) := Draw.fraction Twister.next stream.ready
  (x, stream.resume t)

/-- An integer between two bounds, both included; equal bounds take no output. None when the draw
has no end. -/
def int (low high : Int) (stream : RandomStream) : Option (Int × RandomStream) :=
  if low = high then some (low, stream)
  else
    (Draw.int? Twister.next low high stream.ready).map fun (n, t) => (n, stream.resume t)

/-- A double from one bound up to below another; equal bounds take no output and give the first. -/
def double (low high : Number) (stream : RandomStream) :
    Except TooLargeForDouble Number × RandomStream :=
  if low.eqv high then (.ok low, stream)
  else
    match high.sub low with
    | .error fault => (.error fault, stream)
    | .ok span =>
      let (x, stream) := stream.fraction
      (Draw.between low high span x, stream)

end RandomStream

end Primitives
