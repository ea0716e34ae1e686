import Primitives.Number.Functions
import Primitives.Number.Literal
import Primitives.Proofs.Number.Rounding
import Primitives.Proofs.Outcomes
import Primitives.Random.Stream

/-!
# Machine numbers

A machine number is an integer of 64 bits or a double. Machine numbers, and what a few additions and
multiplications make of them, are far below the greatest double, so that each of them has a nearest double and
the operations that round their arguments do not fail.

## Main definitions

* `Number.IsMachine`: machine numbers.
* `Number.Within`: numbers whose integers are bounded.
* `Number.HasDouble`: numbers with a nearest double.

## Main results

* `Number.hasDouble_of_within`: bounded numbers have a nearest double.
* `Number.combine_within`: arithmetic of bounded numbers.
* `Number.IsMachine.lerp`, `RandomStream.double_of_isMachine`: operations with several steps.
-/

namespace Primitives

/-- A quotient below half of the first number of units that is too large becomes a finite double. -/
theorem Double.ofUnits_of_lt {num den : Nat} (negative : Bool) (h : 2 * (num / den) + 1 < unitLimit) :
    ∃ m, ofUnits negative num den = finite negative m := by
  obtain ⟨m, hm, -⟩ := ofUnits_of_nearestUnits_lt negative ((nearestUnits_le num den).trans_lt h)
  exact ⟨m, hm⟩

namespace Number

variable {x y a b : Number} {A B C : Nat}

/-! ### Bounds -/

/-- An integer whose absolute value is at most a bound, or any double. -/
def Within (bound : Nat) : Number → Prop
  | int n => n.natAbs ≤ bound
  | double _ => True

theorem Within.mono (h : x.Within A) (hle : A ≤ B) : x.Within B := by
  cases x with
  | int n => exact Nat.le_trans h hle
  | double x => trivial

/-- An integer of 64 bits, or any double. -/
def IsMachine : Number → Prop
  | int n => int64Min ≤ n ∧ n ≤ int64Max
  | double _ => True

theorem IsMachine.within (h : x.IsMachine) : x.Within (2 ^ 63) := by
  cases x with
  | int n =>
    obtain ⟨hmin, hmax⟩ := h
    simp only [int64Min, int64Max] at hmin hmax
    simp only [Within]
    omega
  | double x => trivial

/-- A bound far below the greatest double, and far above all integers of 64 bits. -/
def doubleBound : Nat := 2 ^ 200

theorem two_pow_le_doubleBound {k : Nat} (h : k ≤ 200) : 2 ^ k ≤ doubleBound :=
  Nat.pow_le_pow_right (by decide) h

/-- Scaled numbers within the bound are far below a power of two that is large enough. -/
theorem scaled_lt_two_pow {n scale top : Nat} (h : n ≤ doubleBound) (htop : 202 < top) :
    2 * (n * 2 ^ scale) + 1 < 2 ^ (scale + top) := by
  have hone : 1 ≤ 2 ^ scale := Nat.one_le_two_pow
  have hpow : 2 * doubleBound + 1 ≤ 2 ^ 202 := by decide
  have hbound : 2 * n + 1 < 2 ^ top := by
    have hlt : 2 ^ 202 < 2 ^ top := Nat.pow_lt_pow_right (by decide) htop
    omega
  calc 2 * (n * 2 ^ scale) + 1 ≤ (2 * n + 1) * 2 ^ scale := by
        rw [Nat.add_mul, Nat.one_mul, Nat.mul_assoc]
        exact Nat.add_le_add_left hone _
    _ < 2 ^ top * 2 ^ scale := Nat.mul_lt_mul_of_pos_right hbound hone
    _ = 2 ^ (scale + top) := by rw [Nat.pow_add, Nat.mul_comm]

/-- A number with a nearest double. -/
def HasDouble (x : Number) : Prop :=
  ∃ a, x.toDouble = .ok a

theorem hasDouble_double (x : Double) : (double x).HasDouble :=
  ⟨x, rfl⟩

theorem hasDouble_of_ofInt {n : Int} {m : Magnitude} (h : Double.ofInt n = .finite (n < 0) m) :
    (int n).HasDouble := by
  refine ⟨.finite (n < 0) m, ?_⟩
  rw [toDouble, h]
  rfl

theorem exists_ofInt {n : Int} (h : n.natAbs ≤ doubleBound) : ∃ m, Double.ofInt n = .finite (n < 0) m := by
  have hunits : 2 * (n.natAbs * 2 ^ unitScale / 1) + 1 < unitLimit := by
    rw [Nat.div_one]
    unfold unitLimit
    exact scaled_lt_two_pow h (by decide)
  rw [Double.ofInt, Double.ofRatio]
  exact Double.ofUnits_of_lt _ hunits

/-- Bounded numbers have a nearest double. -/
theorem hasDouble_of_within (h : x.Within doubleBound) : x.HasDouble := by
  cases x with
  | double x => exact hasDouble_double x
  | int n =>
    obtain ⟨m, hm⟩ := exists_ofInt h
    exact hasDouble_of_ofInt hm

theorem IsMachine.hasDouble (h : x.IsMachine) : x.HasDouble :=
  hasDouble_of_within (h.within.mono (two_pow_le_doubleBound (by decide)))

/-! ### Functions -/

theorem HasDouble.applied {α : Type} (h : x.HasDouble) (f : Double → α) : ∃ r, x.applied f = .ok r := by
  obtain ⟨a, ha⟩ := h
  exact ⟨f a, by rw [Number.applied, ha, Outcome.map_ok]⟩

theorem HasDouble.applied₂ {α : Type} (hx : x.HasDouble) (hy : y.HasDouble) (f : Double → Double → α) :
    ∃ r, x.applied₂ f y = .ok r := by
  obtain ⟨a, ha⟩ := hx
  obtain ⟨b, hb⟩ := hy
  exact ⟨f a b, by simp [Number.applied₂, ha, hb]⟩

/-- A function that decides a part of its domain first has a value where rounding does not fail. -/
theorem HasDouble.ite_applied (h : x.HasDouble) (outside : Bool) (f : Double → Double) :
    ∃ r, (if outside then .ok .nan else x.applied f) = Except.ok r := by
  cases outside with
  | true => exact ⟨.nan, rfl⟩
  | false => exact h.applied f

theorem HasDouble.fmod (hx : x.HasDouble) (hy : y.HasDouble) : ∃ r, x.fmod y = .ok r := by
  obtain ⟨a, ha⟩ := hx
  obtain ⟨b, hb⟩ := hy
  rw [Number.fmod, ha, Outcome.ok_bind]
  split
  · exact ⟨_, rfl⟩
  · exact ⟨a.remainder b, by rw [hb]; rfl⟩

theorem HasDouble.pow (hx : x.HasDouble) (hy : y.HasDouble) : ∃ r, x.pow y = .ok r := by
  obtain ⟨r, hr⟩ := hx.applied₂ hy Double.pow
  exact ⟨r, by rw [Number.pow, hr]⟩

/-! ### Arithmetic -/

/-- An operation on bounded numbers has a value, which is a double or as bounded as the operation on integers
is. -/
theorem combine_within {onInts : Int → Int → Int} (onDoubles : Double → Double → Double)
    (hints : ∀ m n : Int, m.natAbs ≤ A → n.natAbs ≤ B → (onInts m n).natAbs ≤ C)
    (ha : a.Within A) (hb : b.Within B) (hA : A ≤ doubleBound) (hB : B ≤ doubleBound) :
    ∃ c, combine onInts onDoubles a b = .ok c ∧ c.Within C := by
  obtain ⟨x, hx⟩ := hasDouble_of_within (ha.mono hA)
  obtain ⟨y, hy⟩ := hasDouble_of_within (hb.mono hB)
  have hdoubles : ∃ c, (do return double (onDoubles (← a.toDouble) (← b.toDouble))) = Except.ok c ∧
      c.Within C := ⟨double (onDoubles x y), by simp [hx, hy], trivial⟩
  cases a with
  | double _ => exact hdoubles
  | int m =>
    cases b with
    | double _ => exact hdoubles
    | int n => exact ⟨int (onInts m n), rfl, hints m n ha hb⟩

theorem add_within (ha : a.Within A) (hb : b.Within B) (hA : A ≤ doubleBound) (hB : B ≤ doubleBound) :
    ∃ c, a.add b = .ok c ∧ c.Within (A + B) :=
  combine_within _ (fun m n _ _ => by omega) ha hb hA hB

theorem sub_within (ha : a.Within A) (hb : b.Within B) (hA : A ≤ doubleBound) (hB : B ≤ doubleBound) :
    ∃ c, a.sub b = .ok c ∧ c.Within (A + B) :=
  combine_within _ (fun m n _ _ => by omega) ha hb hA hB

theorem mul_within (ha : a.Within A) (hb : b.Within B) (hA : A ≤ doubleBound) (hB : B ≤ doubleBound) :
    ∃ c, a.mul b = .ok c ∧ c.Within (A * B) :=
  combine_within _ (fun m n hm hn => by rw [Int.natAbs_mul]; exact Nat.mul_le_mul hm hn) ha hb hA hB

theorem IsMachine.lerp {t : Number} (ha : a.IsMachine) (hb : b.IsMachine) (ht : t.IsMachine) :
    ∃ c, a.lerp b t = .ok c := by
  have hmachine : 2 ^ 63 ≤ doubleBound := two_pow_le_doubleBound (by decide)
  obtain ⟨span, hspan, hbound⟩ := sub_within hb.within ha.within hmachine hmachine
  have hdouble : 2 ^ 63 + 2 ^ 63 ≤ doubleBound := two_pow_le_doubleBound (k := 64) (by decide)
  obtain ⟨step, hstep, hbound⟩ := mul_within hbound ht.within hdouble hmachine
  have hproduct : (2 ^ 63 + 2 ^ 63) * 2 ^ 63 ≤ doubleBound := two_pow_le_doubleBound (k := 127) (by decide)
  obtain ⟨sum, hsum, -⟩ := add_within ha.within hbound hmachine hproduct
  exact ⟨sum, by simp [Number.lerp, hspan, hstep, hsum]⟩

end Number

/-! ### Draws -/

open Number

/-- A draw between bounded numbers has a value. -/
theorem Draw.between_within {low high span : Number} {A B : Nat} (hlow : low.Within A) (hhigh : high.Within A)
    (hspan : span.Within B) (hA : A ≤ doubleBound) (hB : B ≤ doubleBound) (fraction : Double) :
    ∃ x, between low high span fraction = .ok x := by
  have hzero : (Number.double fraction).Within 0 := trivial
  obtain ⟨step, hstep, hbound⟩ := mul_within hspan hzero hB (Nat.zero_le _)
  obtain ⟨result, hresult, -⟩ := add_within hlow hbound hA (Nat.zero_le _)
  obtain ⟨top, htop⟩ := hasDouble_of_within (hhigh.mono hA)
  obtain ⟨bottom, hbottom⟩ := hasDouble_of_within (hlow.mono hA)
  by_cases heqv : result.eqv high
  · exact ⟨.double (top.next bottom), by simp [between, hstep, hresult, heqv, htop, hbottom]⟩
  · exact ⟨result, by simp [between, hstep, hresult, heqv]⟩

/-- A stream draws a double between all machine numbers. -/
theorem RandomStream.double_of_isMachine {low high : Number} (hlow : low.IsMachine) (hhigh : high.IsMachine)
    (r : RandomStream) : ∃ x, (r.double low high).1 = .ok x := by
  have hmachine : 2 ^ 63 ≤ doubleBound := two_pow_le_doubleBound (by decide)
  have hdouble : 2 ^ 63 + 2 ^ 63 ≤ doubleBound := two_pow_le_doubleBound (k := 64) (by decide)
  obtain ⟨span, hspan, hbound⟩ := sub_within hhigh.within hlow.within hmachine hmachine
  rw [RandomStream.double]
  split
  · exact ⟨low, rfl⟩
  · rw [hspan]
    exact Draw.between_within hlow.within hhigh.within hbound hmachine hdouble _

end Primitives
