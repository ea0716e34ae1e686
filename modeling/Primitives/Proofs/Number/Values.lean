import Mathlib.Order.WithBot
import Primitives.Number.Basic
import Primitives.Proofs.Number.Neighbours

/-!
# The order of values

Every number other than the one that is not a number has a *value* on the line of rational numbers with an end on
either side: an integer of any size is its own value, a finite double is a rational number, and an infinity is an end.
Numbers are compared by their values, whatever their kinds and sizes, so an integer can lie strictly between two
neighbouring doubles or beyond all finite ones. The comparisons form one total order, and the smaller of two numbers,
the larger one and the one that is clamped between bounds are the operations of this order.

## Main definitions

* `Number.value?`: the value of a number.
* `Number.Le`, `Number.SameValue`: numbers with values in order, and with equal values.

## Main results

* `Number.lt_iff`, `Number.eqv_iff`, `Number.le_iff`: comparisons of numbers are those of their values.
* `Number.Le.trans`, `Number.Le.not_lt`: the comparisons form one order.
* `Number.value?_min`, `Number.value?_max`, `Number.value?_clamp`: the values of selected numbers.
* `Number.clamp_exact`: the laws of clamping.
-/

namespace Primitives

/-! ### Places and values -/

namespace Place

variable {p q : Place}

/-- The rational number, or the end, that a place stands for. -/
def value : Place → WithBot (WithTop ℚ)
  | bottom => ⊥
  | units n => ((n / 2 ^ unitScale : ℚ) : WithTop ℚ)
  | top => ((⊤ : WithTop ℚ) : WithBot (WithTop ℚ))

theorem units_lt_units_iff (m n : ℤ) : (units m).value < (units n).value ↔ m < n := by
  rw [value, value, WithBot.coe_lt_coe, WithTop.coe_lt_coe, div_lt_div_iff_of_pos_right (pow_pos two_pos _),
    Int.cast_lt]

theorem lt_iff : p.lt q ↔ p.value < q.value := by
  cases p with
  | bottom =>
    cases q with
    | bottom => exact iff_of_false Bool.false_ne_true (lt_irrefl _)
    | units _ | top => exact iff_of_true rfl (WithBot.bot_lt_coe _)
  | units m =>
    cases q with
    | bottom => exact iff_of_false Bool.false_ne_true not_lt_bot
    | units n => exact decide_eq_true_iff.trans (units_lt_units_iff m n).symm
    | top => exact iff_of_true rfl (WithBot.coe_lt_coe.2 (WithTop.coe_lt_top _))
  | top =>
    cases q with
    | bottom => exact iff_of_false Bool.false_ne_true not_lt_bot
    | units _ | top => exact iff_of_false Bool.false_ne_true (WithBot.coe_lt_coe.not.2 not_top_lt)

/-- Of two places one lies before the other, or they are the same. -/
theorem lt_trichotomy (p q : Place) : p.lt q ∨ p = q ∨ q.lt p := by
  cases p <;> cases q <;> simp [lt]
  omega

theorem value_inj : p.value = q.value ↔ p = q := by
  refine ⟨fun h => ?_, congrArg value⟩
  rcases lt_trichotomy p q with hlt | heq | hgt
  · exact absurd h (lt_iff.1 hlt).ne
  · exact heq
  · exact absurd h (lt_iff.1 hgt).ne'

theorem value_ofInt (n : ℤ) : (ofInt n).value = ((n : ℚ) : WithTop ℚ) := by
  rw [ofInt, value, Int.cast_mul, Int.cast_pow, Int.cast_ofNat, mul_div_cancel_right₀ _ (pow_pos two_pos _).ne']

end Place

namespace Number

variable {a b x low high : Number} {v w l h : WithBot (WithTop ℚ)}

/-- The value of a number; the value that is not a number has none. -/
def value? : Number → Option (WithBot (WithTop ℚ))
  | int n => some ((n : ℚ) : WithTop ℚ)
  | double (.finite negative m) => some ((m.toRat negative : ℚ) : WithTop ℚ)
  | double (.infinite true) => some ⊥
  | double (.infinite false) => some ((⊤ : WithTop ℚ) : WithBot (WithTop ℚ))
  | double .nan => none

/-- The value of a number is that of its place. -/
theorem value?_eq (x : Number) : x.value? = x.place?.map Place.value := by
  cases x with
  | int n => exact congrArg some (Place.value_ofInt n).symm
  | double x =>
    cases x with
    | finite negative m =>
      rw [value?, m.toRat_eq]
      rfl
    | infinite negative => cases negative <;> rfl
    | nan => rfl

theorem isNaN_iff : x.isNaN ↔ x.value? = none := by
  cases x with
  | int n => exact iff_of_false Bool.false_ne_true (by simp [value?])
  | double x =>
    cases x with
    | finite negative m => exact iff_of_false Bool.false_ne_true (by simp [value?])
    | infinite negative => exact iff_of_false Bool.false_ne_true (by cases negative <;> simp [value?])
    | nan => exact iff_of_true rfl rfl

theorem exists_value (hx : ¬ x.isNaN) : ∃ v, x.value? = some v :=
  Option.ne_none_iff_exists'.1 (mt isNaN_iff.2 hx)

theorem isNaN_of_value (hx : x.value? = some v) : x.isNaN = false := by
  rw [← Bool.not_eq_true, isNaN_iff, hx]
  exact Option.some_ne_none v

/-! ### Comparisons -/

/-- Two numbers with values, the first one not above the second one. -/
def Le (a b : Number) : Prop :=
  ∃ v w, a.value? = some v ∧ b.value? = some w ∧ v ≤ w

/-- Two numbers with the same value. -/
def SameValue (a b : Number) : Prop :=
  ∃ v, a.value? = some v ∧ b.value? = some v

theorem lt_iff : a.lt b ↔ ∃ v w, a.value? = some v ∧ b.value? = some w ∧ v < w := by
  rw [lt, a.value?_eq, b.value?_eq]
  cases a.place? with
  | none => simp [placesLt]
  | some p =>
    cases b.place? with
    | none => simp [placesLt]
    | some q => simpa [placesLt] using Place.lt_iff

theorem eqv_iff : a.eqv b ↔ a.SameValue b := by
  rw [eqv, SameValue, a.value?_eq, b.value?_eq]
  cases a.place? with
  | none => simp [placesEq]
  | some p =>
    cases b.place? with
    | none => simp [placesEq]
    | some q =>
      refine (beq_iff_eq (a := p)).trans (Place.value_inj.symm.trans ⟨fun h => ⟨_, rfl, congrArg some h.symm⟩, ?_⟩)
      rintro ⟨v, hv, hw⟩
      exact Option.some.inj (hv.trans hw.symm)

/-- A number is not above another one if it is smaller or equal. -/
theorem le_iff : a.Le b ↔ a.lt b ∨ a.eqv b := by
  rw [lt_iff, eqv_iff]
  constructor
  · rintro ⟨v, w, hv, hw, hle⟩
    rcases hle.lt_or_eq with hlt | rfl
    · exact .inl ⟨v, w, hv, hw, hlt⟩
    · exact .inr ⟨v, hv, hw⟩
  · rintro (⟨v, w, hv, hw, hlt⟩ | ⟨v, hv, hw⟩)
    · exact ⟨v, w, hv, hw, hlt.le⟩
    · exact ⟨v, v, hv, hw, le_rfl⟩

theorem le_iff_of_values (ha : a.value? = some v) (hb : b.value? = some w) : a.Le b ↔ v ≤ w := by
  simp [Le, ha, hb]

theorem sameValue_comm : a.SameValue b ↔ b.SameValue a :=
  ⟨fun ⟨v, ha, hb⟩ => ⟨v, hb, ha⟩, fun ⟨v, hb, ha⟩ => ⟨v, ha, hb⟩⟩

theorem lt_iff_of_values (ha : a.value? = some v) (hb : b.value? = some w) : a.lt b ↔ v < w := by
  simp [lt_iff, ha, hb]

theorem Le.trans {c : Number} (hab : a.Le b) (hbc : b.Le c) : a.Le c := by
  obtain ⟨u, v, ha, hb, huv⟩ := hab
  obtain ⟨v', w, hb', hc, hvw⟩ := hbc
  obtain rfl : v = v' := Option.some.inj (hb.symm.trans hb')
  exact ⟨u, w, ha, hc, huv.trans hvw⟩

theorem Le.not_lt (h : a.Le b) : b.lt a = false := by
  obtain ⟨v, w, ha, hb, hle⟩ := h
  rw [← Bool.not_eq_true, lt_iff_of_values hb ha]
  exact hle.not_gt

section Finite

variable (negative : Bool) (m : Magnitude) (c : ℤ)

/-- A finite double and an integer are compared in units. -/
theorem finite_le_int_iff :
    (double (.finite negative m)).Le (int c) ↔ Double.signedUnits negative m.units ≤ c * 2 ^ unitScale := by
  rw [le_iff_of_values rfl rfl, WithBot.coe_le_coe, WithTop.coe_le_coe, m.toRat_eq, div_le_iff₀ (pow_pos two_pos _)]
  exact_mod_cast Iff.rfl

theorem int_le_finite_iff :
    (int c).Le (double (.finite negative m)) ↔ c * 2 ^ unitScale ≤ Double.signedUnits negative m.units := by
  rw [le_iff_of_values rfl rfl, WithBot.coe_le_coe, WithTop.coe_le_coe, m.toRat_eq, le_div_iff₀ (pow_pos two_pos _)]
  exact_mod_cast Iff.rfl

end Finite

/-! ### Selections -/

theorem min_eq_ite (ha : a.value? = some v) (hb : b.value? = some w) : min a b = if w < v then b else a := by
  rw [min, isNaN_of_value ha, isNaN_of_value hb]
  simp [lt_iff_of_values hb ha]

theorem max_eq_ite (ha : a.value? = some v) (hb : b.value? = some w) : max a b = if v < w then b else a := by
  rw [max, isNaN_of_value ha, isNaN_of_value hb]
  simp [lt_iff_of_values ha hb]

theorem value?_min (ha : a.value? = some v) (hb : b.value? = some w) : (min a b).value? = some (v ⊓ w) := by
  rw [min_eq_ite ha hb]
  split
  · next hlt => rw [hb, inf_eq_right.2 hlt.le]
  · next hle => rw [ha, inf_eq_left.2 (not_lt.1 hle)]

theorem value?_max (ha : a.value? = some v) (hb : b.value? = some w) : (max a b).value? = some (v ⊔ w) := by
  rw [max_eq_ite ha hb]
  split
  · next hlt => rw [hb, sup_eq_right.2 hlt.le]
  · next hle => rw [ha, sup_eq_left.2 (not_lt.1 hle)]

theorem value?_clamp (hx : x.value? = some v) (hl : low.value? = some l) (hh : high.value? = some h) :
    (clamp x low high).value? = some (l ⊔ v ⊓ h) :=
  value?_max hl (value?_min hx hh)

/-- The clamped number is one of the three. -/
theorem clamp_mem (hx : x.value? = some v) (hl : low.value? = some l) (hh : high.value? = some h) :
    clamp x low high ∈ [x, low, high] := by
  rw [clamp, max_eq_ite hl (value?_min hx hh), min_eq_ite hx hh]
  split
  · split <;> simp
  · simp

theorem min_of_isNaN (h : a.isNaN ∨ b.isNaN) : min a b = double .nan := by
  rw [min, if_pos (Bool.or_eq_true .. ▸ h)]

theorem max_of_isNaN (h : a.isNaN ∨ b.isNaN) : max a b = double .nan := by
  rw [max, if_pos (Bool.or_eq_true .. ▸ h)]

theorem clamp_of_isNaN (h : x.isNaN ∨ low.isNaN ∨ high.isNaN) : clamp x low high = double .nan := by
  by_cases hlow : low.isNaN
  · exact max_of_isNaN (.inl hlow)
  · have hmin : min x high = double .nan := min_of_isNaN (by tauto)
    exact max_of_isNaN (.inr (by rw [hmin]; rfl))

/-- **Clamping is exact, whatever kinds of numbers meet.** If one of the three numbers is not a number, the result is
none either. Otherwise, between bounds in order, the result is one of the three numbers and lies between the bounds, has
the value of the number if that lies between them already, is left alone by clamping again, and does not get smaller if
the number gets larger. -/
theorem clamp_exact (x low high : Number) :
    (x.isNaN ∨ low.isNaN ∨ high.isNaN → clamp x low high = double .nan) ∧
      (¬ x.isNaN → low.Le high →
        clamp x low high ∈ [x, low, high] ∧ low.Le (clamp x low high) ∧ (clamp x low high).Le high ∧
          (low.Le x → x.Le high → (clamp x low high).SameValue x) ∧
          (clamp (clamp x low high) low high).SameValue (clamp x low high) ∧
          ∀ y : Number, x.Le y → (clamp x low high).Le (clamp y low high)) := by
  refine ⟨clamp_of_isNaN, fun hnumber ⟨l, h, hl, hh, hle⟩ => ?_⟩
  obtain ⟨v, hx⟩ := exists_value hnumber
  have hvalue := value?_clamp hx hl hh
  have hwithin : l ⊔ v ⊓ h ≤ h := sup_le hle inf_le_right
  refine ⟨clamp_mem hx hl hh, ⟨_, _, hl, hvalue, le_sup_left⟩, ⟨_, _, hvalue, hh, hwithin⟩, fun hlow hhigh => ?_,
    ⟨_, ?_, hvalue⟩, fun y ⟨v', w, hx', hy, hvw⟩ => ?_⟩
  · rw [le_iff_of_values hl hx] at hlow
    rw [le_iff_of_values hx hh] at hhigh
    exact ⟨v, by rw [hvalue, inf_eq_left.2 hhigh, sup_eq_right.2 hlow], hx⟩
  · rw [value?_clamp hvalue hl hh, inf_eq_left.2 hwithin, sup_eq_right.2 le_sup_left]
  · obtain rfl : v = v' := Option.some.inj (hx.symm.trans hx')
    exact ⟨_, _, hvalue, value?_clamp hy hl hh, sup_le_sup_left (inf_le_inf_right h hvw) l⟩

/-- An integer between two neighbouring doubles is clamped between them as it is, and does not get above an integer
beyond all doubles that is clamped between them as well. -/
theorem clamp_exact_betweenNeighbours :
    clamp (int 1) (double .nan) (int (10 ^ 400)) = double .nan ∧
      (clamp (int (2 ^ 53 + 1)) (double (.ofInt (2 ^ 53))) (double (.ofInt (2 ^ 53 + 2)))).SameValue
        (int (2 ^ 53 + 1)) ∧
      (clamp (int (2 ^ 53 + 1)) (double (.ofInt (2 ^ 53))) (double (.ofInt (2 ^ 53 + 2)))).Le
        (clamp (int (10 ^ 400)) (double (.ofInt (2 ^ 53))) (double (.ofInt (2 ^ 53 + 2)))) := by
  have hbounds : (double (.ofInt (2 ^ 53))).Le (double (.ofInt (2 ^ 53 + 2))) := le_iff.2 (.inl (by decide +kernel))
  have hlow : (double (.ofInt (2 ^ 53))).Le (int (2 ^ 53 + 1)) := le_iff.2 (.inl (by decide +kernel))
  have hhigh : (int (2 ^ 53 + 1)).Le (double (.ofInt (2 ^ 53 + 2))) := le_iff.2 (.inl (by decide +kernel))
  have hlarge : (int (2 ^ 53 + 1)).Le (int (10 ^ 400)) := le_iff.2 (.inl (by decide +kernel))
  obtain ⟨-, -, -, hinside, -, hmono⟩ := (clamp_exact (int (2 ^ 53 + 1)) _ _).2 (by decide) hbounds
  exact ⟨(clamp_exact (int 1) (double .nan) (int (10 ^ 400))).1 (.inr (.inl rfl)), hinside hlow hhigh, hmono _ hlarge⟩

end Number

end Primitives
