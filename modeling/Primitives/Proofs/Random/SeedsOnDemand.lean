import Primitives.Proofs.Random.Readings

/-!
# Seeds on demand

A stream without a seed gets one from its host at the first call that takes an output. That the word for it is kept
with the stream from the beginning does not show: what the stream gives is the same as if it asked the host only
then, and it asks at most once, and never if a seed was set before.

## Main definitions

* `OnDemand`, `OnDemand.on`: streams that ask a host for a seed, and calls of them.

## Main results

* `OnDemand.results_eq`: such a stream gives the same as one that keeps the word for its seed.
* `OnDemand.requests_after`: how often it asks.
* `RandomStream.calls_read_sequence`: calls of streams read sequences, with and without a seed.
-/

namespace Primitives

open Twister RandomStream

/-- A generator that is seeded when it is needed, and how many words its host was asked for. -/
structure OnDemand where
  generator : Option Twister
  requests : Nat

namespace OnDemand

/-- A stream that needed no seed yet. -/
def unseeded : OnDemand :=
  ⟨none, 0⟩

variable (supply : Nat → UInt32)

/-- Asks the host for a word to seed the generator if there is none. -/
def ready (d : OnDemand) : Twister × OnDemand :=
  match d.generator with
  | some t => (t, d)
  | none => (seeded (supply d.requests), ⟨some (seeded (supply d.requests)), d.requests + 1⟩)

/-- The stream with another generator. -/
def resume (d : OnDemand) (t : Twister) : OnDemand :=
  { d with generator := some t }

/-- What a call gives and leaves: whatever it checks comes before it gets the generator ready. -/
def on : StreamCall → OnDemand → Except Fault Value × OnDemand
  | .word, d =>
    let (t, d) := d.ready supply
    (.ok (.int t.next.1.toNat), d.resume t.next.2)
  | .fraction, d =>
    let (t, d) := d.ready supply
    let (x, t) := Draw.fraction Twister.next t
    (.ok (.double x), d.resume t)
  | .int low high, d =>
    if low = high then (.ok (.int low), d)
    else
      let (t, d) := d.ready supply
      match Draw.int? Twister.next low high t with
      | some (n, t) => (.ok (.int n), d.resume t)
      | none => (.error .abandonedDraw, d)
  | .double low high, d =>
    if low.eqv high then (StreamCall.reported (.ok low), d)
    else
      match high.sub low with
      | .error fault => (StreamCall.reported (.error fault), d)
      | .ok span =>
        let (t, d) := d.ready supply
        let (x, t) := Draw.fraction Twister.next t
        (StreamCall.reported (Draw.between low high span x), d.resume t)
  | .seed n, d => (.ok .null, d.resume (seeded (seedWord n)))

end OnDemand

namespace StreamCall

variable {c : StreamCall} {r : RandomStream}

/-- A call that neither takes outputs nor sets a seed gives the same on every stream and leaves it alone. -/
theorem on_of_not_takes (h : c.takes = false) (hseed : c.isSeed = false) :
    ∃ result, ∀ r, c.on r = (result, r) := by
  cases c with
  | word => cases h
  | fraction => cases h
  | int low high =>
    obtain rfl : low = high := by simpa [takes] using h
    exact ⟨_, on_int_self low⟩
  | double low high =>
    simp only [on_double]
    cases heqv : low.eqv high with
    | true => exact ⟨_, fun r => if_pos rfl⟩
    | false =>
      cases hspan : high.sub low with
      | error fault => exact ⟨_, fun r => if_neg Bool.false_ne_true⟩
      | ok span => simp [takes, heqv, hspan, Except.isOk, Except.toBool] at h
  | seed n => cases hseed

/-- No call takes the generator of a stream away. -/
theorem isSome_generator_on (c : StreamCall) (h : r.generator.isSome) : (c.on r).2.generator.isSome := by
  cases c with
  | word => rfl
  | fraction => rfl
  | int low high =>
    by_cases heq : low = high
    · subst heq
      rwa [on_int_self]
    · rw [on_int heq]
      split
      · rfl
      · exact h
  | double low high =>
    rw [on_double]
    split
    · exact h
    · split
      · exact h
      · rfl
  | seed n => rfl

end StreamCall

namespace OnDemand

variable {supply : Nat → UInt32} {c : StreamCall} {d : OnDemand} {r : RandomStream}

/-- A stream has the generator that the next call to take outputs would use. -/
def Matches (supply : Nat → UInt32) (d : OnDemand) (r : RandomStream) : Prop :=
  r.ready = d.generator.getD (seeded (supply d.requests))

theorem ready_of_some {t : Twister} (h : d.generator = some t) : d.ready supply = (t, d) := by
  rw [ready, h]

theorem ready_of_none (h : d.generator = none) : d.ready supply =
    (seeded (supply d.requests), ⟨some (seeded (supply d.requests)), d.requests + 1⟩) := by
  rw [ready, h]

theorem generator_ready (d : OnDemand) : (d.ready supply).2.generator = some (d.ready supply).1 := by
  cases h : d.generator with
  | none => rw [ready_of_none h]
  | some t => rw [ready_of_some h, h]

theorem ready_eq (h : Matches supply d r) : (d.ready supply).1 = r.ready := by
  rw [h]
  cases hgenerator : d.generator with
  | none => rw [ready_of_none hgenerator, Option.getD_none]
  | some t => rw [ready_of_some hgenerator, Option.getD_some]

/-- A call that takes outputs is one of the generator that was made ready. -/
theorem on_of_takes (h : c.takes = true) (d : OnDemand) : on supply c d =
    ((c.on ⟨some (d.ready supply).1, 0⟩).1,
      { (d.ready supply).2 with generator := (c.on ⟨some (d.ready supply).1, 0⟩).2.generator }) := by
  have hready : (⟨some (d.ready supply).1, 0⟩ : RandomStream).ready = (d.ready supply).1 := rfl
  cases c with
  | word => rfl
  | fraction =>
    rw [on, StreamCall.on_fraction, hready]
    dsimp only
    rw [resume, RandomStream.resume]
  | int low high =>
    have hne : low ≠ high := by simpa [StreamCall.takes] using h
    rw [on, if_neg hne, StreamCall.on_int hne, hready]
    dsimp only
    cases Draw.int? Twister.next low high (d.ready supply).1 with
    | none => rw [← generator_ready]
    | some found => rfl
  | double low high =>
    obtain ⟨heqv, hspan⟩ : low.eqv high = false ∧ (high.sub low).isOk = true := by
      simpa [StreamCall.takes] using h
    rw [on, StreamCall.on_double, heqv, hready]
    dsimp only
    cases hsub : high.sub low with
    | error fault => simp [hsub, Except.isOk, Except.toBool] at hspan
    | ok span => rfl
  | seed n => cases h

/-- A call that takes no outputs is one of the generator that is there. -/
theorem on_of_not_takes (h : c.takes = false) (d : OnDemand) : on supply c d =
    ((c.on ⟨d.generator, 0⟩).1, { d with generator := (c.on ⟨d.generator, 0⟩).2.generator }) := by
  cases c with
  | word => cases h
  | fraction => cases h
  | int low high =>
    obtain rfl : low = high := by simpa [StreamCall.takes] using h
    rw [on, if_pos rfl, StreamCall.on_int_self]
  | double low high =>
    rw [on, StreamCall.on_double]
    cases heqv : low.eqv high with
    | true => rfl
    | false =>
      cases hsub : high.sub low with
      | error fault => rfl
      | ok span => simp [StreamCall.takes, heqv, hsub, Except.isOk, Except.toBool] at h
  | seed n => rfl

/-- A stream that asks for its seed gives the same as the one that kept the word for it. -/
theorem on_matches (c : StreamCall) (d : OnDemand) (r : RandomStream) (h : Matches supply d r) :
    (on supply c d).1 = (c.on r).1 ∧ Matches supply (on supply c d).2 (c.on r).2 := by
  cases htakes : c.takes with
  | true =>
    rw [on_of_takes htakes, ready_eq h]
    have hgenerator : (⟨some r.ready, 0⟩ : RandomStream).generator = some r.ready := rfl
    generalize (⟨some r.ready, 0⟩ : RandomStream) = seeded at hgenerator
    obtain ⟨hresult, hleft⟩ := c.on_congr (ready_of_generator hgenerator)
    obtain ⟨t, ht⟩ := Option.isSome_iff_exists.1
      (c.isSome_generator_on (Option.isSome_iff_exists.2 ⟨_, hgenerator⟩))
    refine ⟨hresult, ?_⟩
    rw [Matches, ← hleft, ready_of_generator ht, ht, Option.getD_some]
  | false =>
    rw [on_of_not_takes htakes]
    cases hseed : c.isSeed with
    | true =>
      cases c with
      | seed n =>
        refine ⟨rfl, ?_⟩
        simp only [Matches, StreamCall.on, ready_seed]
        rw [RandomStream.seed, Option.getD_some]
      | _ => cases hseed
    | false =>
      obtain ⟨result, hon⟩ := StreamCall.on_of_not_takes htakes hseed
      rw [hon, hon]
      exact ⟨rfl, h⟩

theorem results_eq (supply : Nat → UInt32) (calls : List StreamCall) :
    StreamCall.results (on supply) unseeded calls =
      StreamCall.results StreamCall.on (RandomStream.unseeded (supply 0)) calls :=
  StreamCall.results_eq_of_step on_matches calls
    (rfl : Matches supply unseeded (RandomStream.unseeded (supply 0)))

/-! ### Requests -/

/-- A call asks for a word exactly if it takes outputs of a stream without a generator. -/
theorem requests_on (supply : Nat → UInt32) (c : StreamCall) (d : OnDemand) :
    (on supply c d).2.requests = d.requests + if c.takes && d.generator.isNone then 1 else 0 := by
  cases htakes : c.takes with
  | false =>
    rw [on_of_not_takes htakes]
    rfl
  | true =>
    rw [on_of_takes htakes]
    cases hgenerator : d.generator with
    | none => rw [ready_of_none hgenerator]; rfl
    | some t => rw [ready_of_some hgenerator]; rfl

/-- A generator is there behind a call exactly if it was there before or the call takes outputs or sets a seed. -/
theorem isNone_generator_on (supply : Nat → UInt32) (c : StreamCall) (d : OnDemand) :
    (on supply c d).2.generator.isNone = (d.generator.isNone && !c.takes && !c.isSeed) := by
  cases htakes : c.takes with
  | true =>
    have hleft := c.isSome_generator_on (r := ⟨some (d.ready supply).1, 0⟩) rfl
    rw [on_of_takes htakes]
    simpa using hleft
  | false =>
    rw [on_of_not_takes htakes]
    cases hseed : c.isSeed with
    | true =>
      cases c with
      | seed n => simp [StreamCall.on, RandomStream.seed]
      | _ => cases hseed
    | false =>
      obtain ⟨result, hon⟩ := StreamCall.on_of_not_takes htakes hseed
      simp [hon]

/-- Behind a generator no call asks for a word. -/
theorem requests_after_of_isSome (calls : List StreamCall) (h : d.generator.isNone = false) :
    (StreamCall.after (on supply) d calls).requests = d.requests := by
  induction calls generalizing d with
  | nil => rfl
  | cons c calls ih =>
    have hleft := isNone_generator_on supply c d
    have hrequests := requests_on supply c d
    rw [h, Bool.false_and, Bool.false_and] at hleft
    rw [h, Bool.and_false, if_neg Bool.false_ne_true, Nat.add_zero] at hrequests
    exact (ih hleft).trans hrequests

/-- A stream without a generator asks for one word if outputs are taken before a seed is set, and for none
otherwise. -/
theorem requests_after (calls : List StreamCall) (h : d.generator.isNone = true) :
    (StreamCall.after (on supply) d calls).requests =
      d.requests + if (calls.takeWhile fun c => !c.isSeed).any StreamCall.takes then 1 else 0 := by
  induction calls generalizing d with
  | nil => rfl
  | cons c calls ih =>
    have hleft := isNone_generator_on supply c d
    have hrequests := requests_on supply c d
    rw [h, Bool.true_and] at hleft
    rw [h, Bool.and_true] at hrequests
    change (StreamCall.after (on supply) (on supply c d).2 calls).requests = _
    cases htakes : c.takes with
    | true =>
      have hseed : c.isSeed = false := by
        cases c with
        | seed n => cases htakes
        | _ => rfl
      rw [htakes, Bool.not_true, Bool.false_and] at hleft
      rw [requests_after_of_isSome calls hleft, hrequests, htakes]
      simp [hseed, htakes]
    | false =>
      rw [htakes, Bool.not_false, Bool.true_and] at hleft
      rw [htakes, if_neg Bool.false_ne_true, Nat.add_zero] at hrequests
      cases hseed : c.isSeed with
      | true =>
        rw [hseed, Bool.not_true] at hleft
        rw [requests_after_of_isSome calls hleft, hrequests]
        simp [hseed]
      | false =>
        rw [hseed, Bool.not_false] at hleft
        rw [ih hleft, hrequests]
        simp [hseed, htakes]

end OnDemand

/-! ### Sequences -/

namespace RandomStream

open StreamCall (results after)

theorem seedWord_congr {m n : Int} (h : m % 2 ^ 32 = n % 2 ^ 32) : seedWord m = seedWord n := by
  rw [seedWord, h, seedWord]

theorem seedWord_toNat (w : UInt32) : seedWord w.toNat = w := by
  have hlt : (w.toNat : Int) < 2 ^ 32 := by exact_mod_cast w.toNat_lt
  rw [seedWord, Int.emod_eq_of_lt (Int.natCast_nonneg _) hlt, Int.toNat_natCast, UInt32.ofNat_toNat]

/-- A number between different bounds takes the outputs of a fraction. -/
theorem read_double {low high : Number} (hlow : low.IsMachine) (hhigh : high.IsMachine)
    (h : low.eqv high = false) (p : Reading) : ((StreamCall.double low high).read p).2 = p.skip 2 := by
  have hbound : 2 ^ 63 ≤ Number.doubleBound := Number.two_pow_le_doubleBound (by decide)
  obtain ⟨span, hspan, -⟩ := Number.sub_within hhigh.within hlow.within hbound hbound
  rw [StreamCall.read, h, if_neg Bool.false_ne_true, hspan]

/-- **Calls of a stream read the sequence of its seed.** Behind a seed each call gives what reading from the place
behind the calls before it gives: a word reads one output, a fraction two, which are its digits, a number between
different bounds those of a fraction, and an integer the outputs of its attempts. So seeds with the same remainder
give the same, and a seed in between starts a new sequence. A stream without a seed gives what it gives behind
the first word that its host supplies as a seed. It asks for this word alone, and only if a call takes outputs
before a seed is set. -/
theorem calls_read_sequence :
    (∀ (r : RandomStream) (n : Int) (calls : List StreamCall),
      results StreamCall.on (r.seed n) calls = results StreamCall.read ⟨n, 0⟩ calls) ∧
    (∀ (c : StreamCall) (p : Reading), c.isSeed = false →
      (c.takes = true ↔ p.taken < (c.read p).2.taken ∨ (c.read p).1 = .error .abandonedDraw) ∧
      (c.takes = false → (c.read p).2 = p)) ∧
    (∀ (low high : Int) (p : Reading), ∃ i,
      ((StreamCall.int low high).read p).2 = p.skip (i * Draw.wordsFor (Draw.span low high).size)) ∧
    (∀ (low high : Number) (p : Reading), low.IsMachine → high.IsMachine → low.eqv high = false →
      ((StreamCall.double low high).read p).2 = p.skip 2) ∧
    (∀ u v, ∃ m : Magnitude, Draw.fractionOf u v = .finite false m ∧
      m.toRat false = Draw.digitsOf u v / 2 ^ 53 ∧ 0 ≤ m.toRat false ∧ m.toRat false < 1) ∧
    (∀ (r r' : RandomStream) (m n : Int) (calls : List StreamCall), m % 2 ^ 32 = n % 2 ^ 32 →
      results StreamCall.on (r.seed m) calls = results StreamCall.on (r'.seed n) calls) ∧
    (∀ (r : RandomStream) (n : Int) (calls calls' : List StreamCall),
      results StreamCall.on r (calls ++ .seed n :: calls') =
        results StreamCall.on r calls ++ .ok .null :: results StreamCall.on ((unseeded 0).seed n) calls') ∧
    ∀ (supply : Nat → UInt32) (calls : List StreamCall),
      results StreamCall.on (unseeded (supply 0)) calls =
        results StreamCall.on ((unseeded 0).seed (supply 0).toNat) calls ∧
      results (OnDemand.on supply) OnDemand.unseeded calls =
        results StreamCall.on (unseeded (supply 0)) calls ∧
      (after (OnDemand.on supply) OnDemand.unseeded calls).requests =
        if (calls.takeWhile fun c => !c.isSeed).any StreamCall.takes then 1 else 0 := by
  refine ⟨StreamCall.results_seed,
    fun c p hc => ⟨StreamCall.takes_iff hc p, fun h => StreamCall.read_of_not_takes hc h p⟩,
    StreamCall.exists_read_int, fun low high p hlow hhigh h => read_double hlow hhigh h p, Draw.fractionOf_toRat,
    ?_, ?_, ?_⟩
  · intro r r' m n calls h
    refine StreamCall.results_congr ?_ calls
    rw [ready_seed, ready_seed, seedWord_congr h]
  · intro r n calls calls'
    rw [StreamCall.results_append]
    refine congrArg (results StreamCall.on r calls ++ .ok .null :: ·) ?_
    exact StreamCall.results_congr (by rw [StreamCall.on, ready_seed, ready_seed]) calls'
  · intro supply calls
    refine ⟨StreamCall.results_congr ?_ calls, OnDemand.results_eq supply calls, ?_⟩
    · rw [ready_seed, seedWord_toNat, ready, unseeded, Option.getD_none]
    · rw [OnDemand.requests_after calls rfl, OnDemand.unseeded, Nat.zero_add]

/-- Equal bounds take no output, so that a seed behind them keeps the host from being asked; without the seed it is
asked once. -/
theorem calls_read_sequence_onDemand :
    let calls : List StreamCall := [.int 1 6, .double (.int 0) (.int 1), .fraction]
    let supply : Nat → UInt32 := fun n => UInt32.ofNat (n + 7)
    (-1 : Int) % 2 ^ 32 = (2 ^ 32 - 1) % 2 ^ 32 ∧
      results StreamCall.on ((unseeded 0).seed (-1)) calls =
        results StreamCall.on ((unseeded 0).seed (2 ^ 32 - 1)) calls ∧
      (after (OnDemand.on supply) OnDemand.unseeded (.int 3 3 :: .seed 7 :: calls)).requests = 0 ∧
      (after (OnDemand.on supply) OnDemand.unseeded (.int 3 3 :: calls)).requests = 1 := by
  intro calls supply
  have hcongr : (-1 : Int) % 2 ^ 32 = (2 ^ 32 - 1) % 2 ^ 32 := by decide
  obtain ⟨-, -, -, -, -, hseeds, -, hsupplied⟩ := calls_read_sequence
  refine ⟨hcongr, hseeds _ _ _ _ calls hcongr, ?_, ?_⟩
  · exact (hsupplied supply _).2.2.trans rfl
  · exact (hsupplied supply _).2.2.trans rfl

end RandomStream

end Primitives
