import Primitives.Proofs.Number.MachineNumbers
import Primitives.Proofs.Random.Fractions
import Primitives.Proofs.Random.Streams
import Primitives.Proofs.Session.FirstUse

/-!
# Calls of a stream as readings of a sequence

Every seed stands for a sequence of outputs, and the calls of a stream read it from left to right: a word takes one
output, a fraction two, an integer the outputs of all its attempts, and a number between two bounds those of a
fraction. Calls that have nothing to draw take none. A call with a seed goes back to the front of the sequence of
this seed.

## Main definitions

* `RandomStream.sequence`: the outputs of a seed.
* `Reading`, `StreamCall.read`: a place in a sequence, and calls that read from there.
* `StreamCall.results`, `StreamCall.after`: what calls give one after another, and what they leave.

## Main results

* `StreamCall.results_seed`: calls behind a seed read its sequence.
* `StreamCall.results_congr`: streams with the same generator give the same.
-/

namespace Primitives

open Twister

/-! ### Places in sequences -/

/-- The outputs of the generator behind a seed. -/
def RandomStream.sequence (seed : Int) (n : Nat) : UInt32 :=
  UInt32.ofNat (Recurrence.temper (Recurrence.word (seed % 2 ^ 32).toNat (624 + n)))

/-- A seed, and how many outputs of its sequence were taken. -/
structure Reading where
  seed : Int
  taken : Nat

namespace Reading

/-- The output behind `n` others from a place on. -/
def output (p : Reading) (n : Nat) : UInt32 :=
  RandomStream.sequence p.seed (p.taken + n)

/-- The place behind `n` outputs. -/
def skip (p : Reading) (n : Nat) : Reading :=
  { p with taken := p.taken + n }

end Reading

open Classical in
/-- The index of the first attempt below a bound, if one is. -/
noncomputable def Draw.first? (k bound : Nat) (outputs : Nat → UInt32) : Option Nat :=
  if h : ∃ i, IsFirst k bound outputs i then some h.choose else none

theorem Draw.first?_eq_some_iff {k bound i : Nat} {outputs : Nat → UInt32} :
    first? k bound outputs = some i ↔ IsFirst k bound outputs i := by
  rw [first?]
  split
  · next h =>
    rw [Option.some_inj]
    exact ⟨fun heq => heq ▸ h.choose_spec, fun hi => h.choose_spec.unique hi⟩
  · next h => exact iff_of_false (by simp) fun hi => h ⟨i, hi⟩

theorem Draw.first?_eq_none_iff {k bound : Nat} {outputs : Nat → UInt32} :
    first? k bound outputs = none ↔ ∀ i, bound ≤ attempt k outputs i := by
  rw [first?]
  split
  · next h =>
    obtain ⟨i, hi⟩ := h
    exact iff_of_false (by simp) fun hall => absurd hi.below (Nat.not_lt.2 (hall i))
  · next h =>
    refine iff_of_true rfl fun i => Nat.not_lt.1 fun hlt => h (exists_isFirst hlt)

namespace StreamCall

/-! ### Calls that read -/

/-- A number, or the fault of a call. -/
def reported (x : Except TooLargeForDouble Number) : Except Fault Value :=
  (x.map Value.ofNumber).mapError fun _ => .tooLargeForDouble

/-- What a call gives that reads from a place on, and the place behind what it took. A draw that has no end is told
as a fault, and leaves the place. -/
noncomputable def read : StreamCall → Reading → Except Fault Value × Reading
  | word, p => (.ok (.int (p.output 0).toNat), p.skip 1)
  | fraction, p => (.ok (.double (Draw.fractionOf (p.output 0) (p.output 1))), p.skip 2)
  | int low high, p =>
    if low = high then (.ok (.int low), p)
    else
      let k := (Draw.span low high).size
      match Draw.first? k (Draw.span low high) p.output with
      | some i => (.ok (.int (min low high + Draw.attempt k p.output i)), p.skip ((i + 1) * Draw.wordsFor k))
      | none => (.error .abandonedDraw, p)
  | double low high, p =>
    if low.eqv high then (reported (.ok low), p)
    else
      match high.sub low with
      | .error fault => (reported (.error fault), p)
      | .ok span =>
        (reported (Draw.between low high span (Draw.fractionOf (p.output 0) (p.output 1))), p.skip 2)
  | seed n, _ => (.ok .null, ⟨n, 0⟩)

/-- Whether a call sets a seed. -/
def isSeed : StreamCall → Bool
  | seed _ => true
  | _ => false

/-- Whether a call takes outputs. -/
def takes : StreamCall → Bool
  | word | fraction => true
  | int low high => low ≠ high
  | double low high => !low.eqv high && (high.sub low).isOk
  | seed _ => false

/-- A call that takes no outputs leaves the place, and any other one leaves a later place or has no end. -/
theorem takes_iff {c : StreamCall} (hc : c.isSeed = false) (p : Reading) :
    c.takes = true ↔ p.taken < (c.read p).2.taken ∨ (c.read p).1 = .error .abandonedDraw := by
  cases c with
  | word => exact iff_of_true rfl (.inl (Nat.lt_succ_self _))
  | fraction => exact iff_of_true rfl (.inl (Nat.lt_add_of_pos_right two_pos))
  | int low high =>
    by_cases heq : low = high
    · simp [takes, read, heq]
    · refine iff_of_true (by simpa [takes] using heq) ?_
      have hsize : 0 < (Draw.span low high).size := Nat.size_pos.2 (by rw [Draw.span]; omega)
      have hwords : 0 < Draw.wordsFor (Draw.span low high).size := by
        rw [Draw.wordsFor]
        omega
      rw [read, if_neg heq]
      dsimp only
      split
      · exact .inl (Nat.lt_add_of_pos_right (Nat.mul_pos (Nat.succ_pos _) hwords))
      · exact .inr rfl
  | double low high =>
    rw [read, takes]
    cases heqv : low.eqv high with
    | true => simp [reported, Except.map, Except.mapError]
    | false =>
      cases hspan : high.sub low with
      | error fault => simp [reported, Except.map, Except.mapError, Except.isOk, Except.toBool]
      | ok span => simp [Reading.skip, Except.isOk, Except.toBool]
  | seed n => cases hc

/-- A call that takes no outputs leaves the place. -/
theorem read_of_not_takes {c : StreamCall} (hc : c.isSeed = false) (h : c.takes = false) (p : Reading) :
    (c.read p).2 = p := by
  cases c with
  | word => cases h
  | fraction => cases h
  | int low high =>
    obtain rfl : low = high := by simpa [takes] using h
    rw [read, if_pos rfl]
  | double low high =>
    rw [read]
    cases heqv : low.eqv high with
    | true => rfl
    | false =>
      cases hspan : high.sub low with
      | error fault => rfl
      | ok span => simp [takes, heqv, hspan, Except.isOk, Except.toBool] at h
  | seed n => cases hc

/-- An integer takes the outputs of its attempts. -/
theorem exists_read_int (low high : Int) (p : Reading) :
    ∃ i, ((int low high).read p).2 = p.skip (i * Draw.wordsFor (Draw.span low high).size) := by
  have hstay : p = p.skip (0 * Draw.wordsFor (Draw.span low high).size) := by rw [Nat.zero_mul]; rfl
  rw [read]
  split
  · exact ⟨0, hstay⟩
  · dsimp only
    split
    · next i _ => exact ⟨i + 1, rfl⟩
    · exact ⟨0, hstay⟩

end StreamCall

namespace RandomStream

theorem ready_of_generator {r : RandomStream} {t : Twister} (h : r.generator = some t) : r.ready = t := by
  rw [ready, h, Option.getD_some]

theorem ready_resume (r : RandomStream) (t : Twister) : (r.resume t).ready = t :=
  rfl

theorem ready_seed (r : RandomStream) (n : Int) : (r.seed n).ready = seeded (seedWord n) :=
  rfl

end RandomStream

open RandomStream

/-! ### The generator at a place -/

/-- The generator behind the outputs that were taken. -/
def Reading.generator (p : Reading) : Twister :=
  Draw.stateAfter Twister.next p.taken (seeded (seedWord p.seed))

theorem Twister.hasGiven_stateAfter (seed : UInt32) (n : Nat) :
    HasGiven seed.toNat n (Draw.stateAfter Twister.next n (seeded seed)) := by
  induction n with
  | zero => exact hasGiven_seeded seed
  | succ n ih =>
    rw [Draw.stateAfter, Function.iterate_succ_apply']
    exact ih.next.2

/-- The outputs of a generator are the sequence of its seed. -/
theorem Twister.output_seeded (seed : Int) (n : Nat) :
    Draw.output Twister.next (seeded (seedWord seed)) n = RandomStream.sequence seed n := by
  have houtput := (hasGiven_stateAfter (seedWord seed) n).next.1
  rw [toNat_seedWord, Nat.add_comm n] at houtput
  rw [RandomStream.sequence, ← houtput, UInt32.ofNat_toNat, Draw.output]

namespace Reading

theorem output_generator (p : Reading) (n : Nat) : Draw.output Twister.next p.generator n = p.output n := by
  rw [generator, Draw.output_stateAfter, output_seeded, output]

theorem generator_skip (p : Reading) (n : Nat) :
    Draw.stateAfter Twister.next n p.generator = (p.skip n).generator := by
  rw [generator, Draw.stateAfter_stateAfter, generator, skip]

end Reading

namespace StreamCall

variable {r r' : RandomStream}

/-! ### One call -/

theorem on_word (r : RandomStream) :
    word.on r = (.ok (.int r.ready.next.1.toNat), r.resume r.ready.next.2) :=
  rfl

theorem on_fraction (r : RandomStream) : fraction.on r =
    (.ok (.double (Draw.fraction Twister.next r.ready).1), r.resume (Draw.fraction Twister.next r.ready).2) :=
  rfl

theorem on_int {low high : Int} (h : low ≠ high) (r : RandomStream) : (int low high).on r =
    match Draw.int? Twister.next low high r.ready with
    | some (n, t) => (.ok (.int n), r.resume t)
    | none => (.error .abandonedDraw, r) := by
  rw [on, RandomStream.int, if_neg h]
  cases Draw.int? Twister.next low high r.ready <;> rfl

theorem on_int_self (n : Int) (r : RandomStream) : (int n n).on r = (.ok (.int n), r) := by
  rw [on, RandomStream.int, if_pos rfl]

theorem on_double (low high : Number) (r : RandomStream) : (double low high).on r =
    if low.eqv high then (reported (.ok low), r)
    else
      match high.sub low with
      | .error fault => (reported (.error fault), r)
      | .ok span =>
        (reported (Draw.between low high span (Draw.fraction Twister.next r.ready).1),
          r.resume (Draw.fraction Twister.next r.ready).2) := by
  rw [on, RandomStream.double]
  split
  · rfl
  · cases high.sub low with
    | error fault => rfl
    | ok span => simp only [RandomStream.fraction, reported]

/-- What a call gives depends on the generator only, and so does the generator that it leaves. -/
theorem on_congr (c : StreamCall) (h : r.ready = r'.ready) :
    (c.on r).1 = (c.on r').1 ∧ (c.on r).2.ready = (c.on r').2.ready := by
  cases c with
  | word => simp only [on_word, ready_resume, h, and_self]
  | fraction => simp only [on_fraction, ready_resume, h, and_self]
  | int low high =>
    by_cases heq : low = high
    · subst heq
      simp only [on_int_self, h, and_self]
    · rw [on_int heq, on_int heq, h]
      cases Draw.int? Twister.next low high r'.ready with
      | none => exact ⟨rfl, h⟩
      | some found => simp only [ready_resume, and_self]
  | double low high =>
    rw [on_double, on_double, h]
    split
    · exact ⟨rfl, h⟩
    · cases high.sub low with
      | error fault => exact ⟨rfl, h⟩
      | ok span => simp only [ready_resume, and_self]
  | seed n => simp only [on, ready_seed, and_self]

/-- A call of a stream whose generator is at a place of a sequence reads from there. -/
theorem on_eq_read (c : StreamCall) {p : Reading} (h : r.ready = p.generator) :
    (c.on r).1 = (c.read p).1 ∧ (c.on r).2.ready = (c.read p).2.generator := by
  have hsequence : Draw.output Twister.next p.generator = p.output := funext p.output_generator
  have hfraction : Draw.fraction Twister.next p.generator =
      (Draw.fractionOf (p.output 0) (p.output 1), (p.skip 2).generator) := by
    rw [Draw.fraction_eq, hsequence, Reading.generator_skip]
  cases c with
  | word =>
    rw [on_word, h, ready_resume, read, ← p.output_generator 0, ← p.generator_skip 1]
    exact ⟨rfl, rfl⟩
  | fraction => simp only [on_fraction, h, hfraction, ready_resume, read, and_self]
  | int low high =>
    by_cases heq : low = high
    · subst heq
      rw [on_int_self, read, if_pos rfl]
      exact ⟨rfl, h⟩
    · rw [on_int heq, h, read, if_neg heq]
      dsimp only
      cases hfirst : Draw.first? (Draw.span low high).size (Draw.span low high) p.output with
      | none =>
        rw [Draw.first?_eq_none_iff, ← hsequence, ← Draw.int?_eq_none_iff] at hfirst
        rw [hfirst]
        exact ⟨rfl, h⟩
      | some i =>
        rw [Draw.first?_eq_some_iff, ← hsequence] at hfirst
        rw [Draw.int?_of_isFirst _ hfirst, Reading.generator_skip, hsequence]
        simp only [ready_resume, and_self]
  | double low high =>
    rw [on_double, h, hfraction, read]
    split
    · exact ⟨rfl, h⟩
    · cases high.sub low with
      | error fault => exact ⟨rfl, h⟩
      | ok span => simp only [ready_resume, and_self]
  | seed n =>
    rw [on, ready_seed, read]
    exact ⟨rfl, rfl⟩

/-! ### Calls one after another -/

section Runs

variable {α β : Type} {act : StreamCall → α → Except Fault Value × α}
  {act' : StreamCall → β → Except Fault Value × β} {R : α → β → Prop}

/-- What calls give one after another. -/
def results (act : StreamCall → α → Except Fault Value × α) : α → List StreamCall → List (Except Fault Value)
  | _, [] => []
  | a, c :: calls => (act c a).1 :: results act (act c a).2 calls

/-- What calls leave behind. -/
def after (act : StreamCall → α → Except Fault Value × α) (a : α) (calls : List StreamCall) : α :=
  calls.foldl (fun a c => (act c a).2) a

theorem results_append (a : α) (calls calls' : List StreamCall) :
    results act a (calls ++ calls') = results act a calls ++ results act (after act a calls) calls' := by
  induction calls generalizing a with
  | nil => rfl
  | cons c calls ih => exact congrArg ((act c a).1 :: ·) (ih _)

/-- What every call keeps related gives the same over a run. -/
theorem results_eq_of_step (hstep : ∀ c a b, R a b → (act c a).1 = (act' c b).1 ∧ R (act c a).2 (act' c b).2)
    (calls : List StreamCall) {a : α} {b : β} (h : R a b) : results act a calls = results act' b calls := by
  induction calls generalizing a b with
  | nil => rfl
  | cons c calls ih =>
    obtain ⟨hresult, hleft⟩ := hstep c a b h
    rw [results, results, hresult, ih hleft]

end Runs

/-- Streams with the same generator give the same. -/
theorem results_congr (h : r.ready = r'.ready) (calls : List StreamCall) :
    results on r calls = results on r' calls :=
  results_eq_of_step (R := fun r r' => r.ready = r'.ready) (fun c _ _ => on_congr c) calls h

/-- Calls behind a seed read its sequence from the front. -/
theorem results_seed (r : RandomStream) (n : Int) (calls : List StreamCall) :
    results on (r.seed n) calls = results read ⟨n, 0⟩ calls :=
  results_eq_of_step (R := fun r p => r.ready = p.generator) (fun c _ _ => on_eq_read c) calls rfl

end StreamCall

end Primitives
