import Primitives.Proofs.Random.Attempts
import Primitives.Proofs.Random.Recurrence
import Primitives.Random.Stream

/-!
# Outputs of random streams

The outputs of a stream behind a seed are the members of the sequence of this seed, from the first one
behind the key schedule on, each of them mixed. All draws take outputs one after another, so that a stream
that was seeded once, by a caller or from entropy, never leaves the sequence: whatever was drawn from it,
its words are a window of the sequence and its position is within them.

## Main definitions

* `RandomStream.Reachable`: streams as seeding and draws leave them.
* `RandomStream.IsSeeded`: generators that were seeded once and gave outputs since.

## Main results

* `RandomStream.words_seed`: the outputs behind a seed.
* `RandomStream.Reachable.isSeeded`: the generators of reachable streams.
* `RandomStream.outputs_are_recurrence`: both together.
-/

namespace Primitives

open Twister

/-! ### Draws from a source -/

namespace Draw

variable {σ : Type} {next : σ → UInt32 × σ} {P : σ → Prop} (hnext : ∀ s, P s → P (next s).2)

include hnext

theorem int?_keeps {low high n : Int} {s s' : σ} (h : P s)
    (hdraw : int? next low high s = some (n, s')) : P s' := by
  obtain ⟨i, -, -, rfl⟩ := (int?_eq_some_iff next).1 hdraw
  exact stateAfter_keeps hnext h _

theorem fraction_keeps {s : σ} (h : P s) : P (fraction next s).2 :=
  hnext _ (hnext s h)

end Draw

namespace RandomStream

variable {stream : RandomStream}

/-! ### Outputs behind a seed -/

/-- The seed of a sequence that an integer of any size is reduced to. -/
theorem toNat_seedWord (s : Int) : (seedWord s).toNat = (s % 2 ^ 32).toNat := by
  have hlt : (s % 2 ^ 32).toNat < 2 ^ 32 := by omega
  rw [seedWord, UInt32.toNat_ofNat_of_lt' hlt]

theorem nextWord_of_generator {t : Twister} (h : stream.generator = some t) :
    stream.nextWord = (t.next.1, stream.resume t.next.2) := by
  simp [nextWord, ready, h]

/-- The outputs of a stream with a generator are the next members of its sequence, mixed. -/
theorem words_of_generator {seed given : Nat} {t : Twister} (hgenerator : stream.generator = some t)
    (h : HasGiven seed given t) (n : Nat) :
    (Draw.words nextWord n stream).1.map UInt32.toNat =
      (List.range n).map fun k => Recurrence.temper (Recurrence.word seed (624 + (given + k))) := by
  induction n generalizing stream given t with
  | zero => rfl
  | succ n ih =>
    obtain ⟨houtput, hgiven⟩ := h.next
    have hresumed : (stream.resume t.next.2).generator = some t.next.2 := rfl
    have hrest := ih hresumed hgiven
    rw [List.range_succ_eq_map, List.map_cons, List.map_map]
    simp only [Draw.words, nextWord_of_generator hgenerator, List.map_cons]
    rw [houtput, hrest, Nat.add_zero, Nat.add_comm given]
    congr 1
    refine List.map_congr_left fun k _ => ?_
    rw [Function.comp_apply, Nat.add_right_comm, Nat.add_assoc given]

/-- The outputs behind a seed. -/
theorem words_seed (stream : RandomStream) (s : Int) (n : Nat) :
    (Draw.words nextWord n (stream.seed s)).1.map UInt32.toNat =
      (List.range n).map fun k =>
        Recurrence.temper (Recurrence.word (s % 2 ^ 32).toNat (624 + k)) := by
  have hgenerator : (stream.seed s).generator = some (seeded (seedWord s)) := rfl
  have hwords := words_of_generator hgenerator (hasGiven_seeded (seedWord s)) n
  simpa [toNat_seedWord] using hwords

/-! ### Reachable streams -/

/-- A stream as seeding and draws leave it. -/
inductive Reachable : RandomStream → Prop
  | unseeded (entropy : UInt32) : Reachable (unseeded entropy)
  | seed {stream : RandomStream} (h : Reachable stream) (s : Int) : Reachable (stream.seed s)
  | nextWord {stream : RandomStream} (h : Reachable stream) : Reachable stream.nextWord.2
  | fraction {stream : RandomStream} (h : Reachable stream) : Reachable stream.fraction.2
  | int {stream stream' : RandomStream} (h : Reachable stream) {low high n : Int}
      (hdraw : stream.int low high = some (n, stream')) : Reachable stream'
  | double {stream : RandomStream} (h : Reachable stream) (low high : Number) :
      Reachable (stream.double low high).2

/-- A generator that was seeded and gave some outputs since. -/
def IsSeeded (t : Twister) : Prop :=
  ∃ seed n, HasGiven seed n t

theorem isSeeded_next (t : Twister) (h : IsSeeded t) : IsSeeded t.next.2 := by
  obtain ⟨seed, n, hgiven⟩ := h
  exact ⟨seed, n + 1, hgiven.next.2⟩

/-- The generator that a stream draws from was seeded, at the latest from entropy. -/
theorem isSeeded_ready (h : ∀ t ∈ stream.generator, IsSeeded t) : IsSeeded stream.ready := by
  unfold ready
  cases hgenerator : stream.generator with
  | none => exact ⟨_, _, hasGiven_seeded stream.entropy⟩
  | some t => exact h t hgenerator

theorem isSeeded_fraction (h : ∀ t ∈ stream.generator, IsSeeded t) :
    ∀ t ∈ stream.fraction.2.generator, IsSeeded t := by
  rintro t ⟨⟩
  exact Draw.fraction_keeps isSeeded_next (isSeeded_ready h)

theorem Reachable.isSeeded (h : Reachable stream) : ∀ t ∈ stream.generator, IsSeeded t := by
  induction h with
  | unseeded entropy => simp [RandomStream.unseeded]
  | seed h s ih =>
    intro t ht
    obtain rfl : seeded (seedWord s) = t := Option.some.inj ht
    exact ⟨_, _, hasGiven_seeded (seedWord s)⟩
  | nextWord h ih =>
    rintro t ⟨⟩
    exact isSeeded_next _ (isSeeded_ready ih)
  | fraction h ih => exact isSeeded_fraction ih
  | @int stream stream' h low high n hdraw ih =>
    unfold RandomStream.int at hdraw
    split at hdraw
    · obtain ⟨-, rfl⟩ := Prod.mk.inj (Option.some.inj hdraw)
      exact ih
    · obtain ⟨⟨m, t⟩, hint, heq⟩ := Option.map_eq_some_iff.1 hdraw
      obtain ⟨-, rfl⟩ := Prod.mk.inj heq
      rintro _ ⟨⟩
      exact Draw.int?_keeps isSeeded_next (isSeeded_ready ih) hint
  | @double stream h low high ih =>
    rw [RandomStream.double]
    cases low.eqv high with
    | true => exact ih
    | false =>
      cases high.sub low with
      | error fault => exact ih
      | ok span =>
        have hseeded := isSeeded_fraction ih
        generalize stream.fraction = drawn at hseeded ⊢
        exact hseeded

/-- For every seed, of any sign and size, the outputs behind it are the mixed members of its sequence from
the one behind the key schedule on; and in every reachable stream all words have 32 bits and the position
is behind the first and at most behind the last word. -/
theorem outputs_are_recurrence :
    (∀ (stream : RandomStream) (s : Int) (n : Nat),
      (Draw.words nextWord n (stream.seed s)).1.map UInt32.toNat =
        (List.range n).map fun k =>
          Recurrence.temper (Recurrence.word (s % 2 ^ 32).toNat (624 + k))) ∧
    ∀ stream, Reachable stream → ∀ t ∈ stream.generator,
      (∀ w ∈ t.words, w.toNat < 2 ^ 32) ∧ 1 ≤ t.position ∧ t.position ≤ 624 := by
  refine ⟨words_seed, fun stream h t ht => ?_⟩
  obtain ⟨seed, n, start, -, -, hpos, -⟩ := h.isSeeded t ht
  exact ⟨fun w _ => w.toNat_lt, hpos, t.position_le⟩

/-- A negative seed stands for its remainder, and its first draw leaves the generator at its first word. -/
theorem outputs_are_recurrence_negativeSeed :
    let stream := (RandomStream.unseeded 0).seed (-1)
    (Draw.words nextWord 1 stream).1.map UInt32.toNat =
        [Recurrence.temper (Recurrence.word 4294967295 624)] ∧
      Reachable stream.nextWord.2 ∧
        ∀ t ∈ stream.nextWord.2.generator, 1 ≤ t.position ∧ t.position ≤ 624 := by
  intro stream
  have hreachable : Reachable stream.nextWord.2 := ((Reachable.unseeded 0).seed (-1)).nextWord
  refine ⟨outputs_are_recurrence.1 (RandomStream.unseeded 0) (-1) 1, hreachable, fun t ht => ?_⟩
  exact (outputs_are_recurrence.2 _ hreachable t ht).2

end RandomStream

end Primitives
