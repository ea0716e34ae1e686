import Primitives.Number.Basic

/-!
# Draws from a sequence of words

All random values are drawn from a sequence of 32-bit words that are taken one after another from a
source `next : σ → UInt32 × σ`. A number of `k` bits takes as many words as it needs, the least
significant first, and cuts the last one to its upper bits. A number below a bound is drawn by
rejection: numbers of the binary length of the bound are drawn until one lies below it.

## Main definitions

* `Draw.bits`: a number of `k` bits.
* `Draw.below?`: a number below a bound, none when the attempts never succeed.
* `Draw.fraction`: a double from 0 up to below 1.
* `Draw.int?`: an integer between two bounds.
-/

namespace Primitives.Draw

variable {σ : Type} (next : σ → UInt32 × σ)

/-- The next `n` words. -/
def words : Nat → σ → List UInt32 × σ
  | 0, s => ([], s)
  | n + 1, s =>
    let (w, s) := next s
    let (ws, s) := words n s
    (w :: ws, s)

/-- The number of `k` bits that words stand for: the first word is the least significant, and the
last one is cut to its upper bits. -/
def compose : (k : Nat) → List UInt32 → Nat
  | _, [] => 0
  | k, w :: ws =>
    if k ≤ 32 then w.toNat >>> (32 - k) else w.toNat + 2 ^ 32 * compose (k - 32) ws

/-- The number of words for `k` bits. -/
def wordsFor (k : Nat) : Nat :=
  (k + 31) / 32

/-- A number of `k` bits. -/
def bits (k : Nat) (s : σ) : Nat × σ :=
  let (ws, s) := words next (wordsFor k) s
  (compose k ws, s)

/-- The number of binary digits. -/
def bitLength (n : Nat) : Nat :=
  if n = 0 then 0 else n.log2 + 1

section Rejection

variable (k bound : Nat)

/-- A number of `k` bits below a bound, from the first attempt that succeeds. There is none if no attempt
does: such a draw has no end. -/
def bitsBelow? (s : σ) : Option (Nat × σ) :=
  let (r, s) := bits next k s
  if r < bound then some (r, s)
  else by
    -- A call written out would leave its place in this file in the fixpoint.
    apply bitsBelow?
    exact s
partial_fixpoint

end Rejection

/-- A number below a positive bound. -/
def below? (bound : Nat) (s : σ) : Option (Nat × σ) :=
  bitsBelow? next (bitLength bound) bound s

/-- An integer between two different bounds, both included, in either order. -/
def int? (low high : Int) (s : σ) : Option (Int × σ) :=
  let least := min low high
  let span := (max low high - least + 1).toNat
  (below? next span s).map fun (r, s) => (least + r, s)

/-- The double `(a * 2 ^ 26 + b) / 2 ^ 53` for the upper 27 bits `a` and 26 bits `b` of two words. -/
def fractionOf (u v : UInt32) : Double :=
  Double.ofRatio false ((u >>> 5).toNat * 2 ^ 26 + (v >>> 6).toNat) (2 ^ 53)

/-- A double from 0 up to below 1. -/
def fraction (s : σ) : Double × σ :=
  let (u, s) := next s
  let (v, s) := next s
  (fractionOf u v, s)

/-- The number at a fraction of the way from `low` to `high`, given their difference; a result that
rounding puts on `high` becomes its neighbour. -/
def between (low high span : Number) (fraction : Double) : Except TooLargeForDouble Number := do
  let step ← span.mul (.double fraction)
  let result ← low.add step
  if result.eqv high then
    let top ← high.toDouble
    let bottom ← low.toDouble
    return .double (top.next bottom)
  else return result

end Primitives.Draw
