import Primitives.Format.Rendering
import Primitives.Proofs.Outcomes

/-!
# Values without a canonical text

The decimal numeral of an integer is limited in length. A value has no canonical text if an integer beyond the
limit is met while it is written: it is such an integer itself or holds one, at any depth of its lists and
mappings. All other values have one.

## Main definitions

* `Value.HoldsLong`: values in which an integer beyond the limit is met.

## Main results

* `Value.render_eq_error_iff`: the values without a canonical text.
-/

namespace Primitives.Value

/-- An integer beyond the limit of decimal numerals is met in a value. -/
inductive HoldsLong : Value → Prop
  | int {n : Int} (h : 10 ^ Numeral.digitLimit ≤ n.natAbs) : HoldsLong (.int n)
  | item {items : List Value} {v : Value} (hmem : v ∈ items) (h : HoldsLong v) : HoldsLong (.list items)
  | entry {entries : List (Text × Value)} {entry : Text × Value} (hmem : entry ∈ entries)
      (h : HoldsLong entry.2) : HoldsLong (.mapping entries)

theorem holdsLong_int_iff {n : Int} : (Value.int n).HoldsLong ↔ 10 ^ Numeral.digitLimit ≤ n.natAbs :=
  ⟨fun h => by cases h; assumption, .int⟩

theorem holdsLong_list_iff {items : List Value} : (Value.list items).HoldsLong ↔ ∃ v ∈ items, v.HoldsLong := by
  constructor
  · rintro ⟨⟩
    exact ⟨_, ‹_›, ‹_›⟩
  · rintro ⟨v, hmem, h⟩
    exact .item hmem h

theorem holdsLong_mapping_iff {entries : List (Text × Value)} :
    (Value.mapping entries).HoldsLong ↔ ∃ entry ∈ entries, entry.2.HoldsLong := by
  constructor
  · rintro ⟨⟩
    exact ⟨_, ‹_›, ‹_›⟩
  · rintro ⟨entry, hmem, h⟩
    exact .entry hmem h

/-- An outcome is a failure to write an integer, under a condition, and a value without it. -/
inductive FailsIf {α : Type} (P : Prop) : Except NumeralFault α → Prop
  | fails (h : P) : FailsIf P (.error .writing)
  | writes (h : ¬ P) (a : α) : FailsIf P (.ok a)

namespace FailsIf

variable {α β : Type} {P Q : Prop} {x : Except NumeralFault α}

theorem eq_error_iff (h : FailsIf P x) {fault : NumeralFault} : x = .error fault ↔ P ∧ fault = .writing := by
  cases h with
  | fails h => simp [h, eq_comm]
  | writes h a => simp [h]

theorem congr (h : FailsIf P x) (hiff : P ↔ Q) : FailsIf Q x := by
  cases h with
  | fails h => exact .fails (hiff.1 h)
  | writes h a => exact .writes (fun hQ => h (hiff.2 hQ)) a

theorem map (h : FailsIf P x) (f : α → β) : FailsIf P (x >>= fun a => .ok (f a)) := by
  cases h with
  | fails h => exact .fails h
  | writes h a => exact .writes h _

/-- Two outcomes one after the other fail if one of them does. -/
theorem bind (h : FailsIf P x) {f : α → Except NumeralFault β} (hf : ∀ a, FailsIf Q (f a)) :
    FailsIf (P ∨ Q) (x >>= f) := by
  cases h with
  | fails h => exact .fails (.inl h)
  | writes h a => exact (hf a).congr (by simp [h])

end FailsIf

mutual

/-- A value has a text inside a list unless it holds an integer beyond the limit. -/
theorem inspect_failsIf : ∀ v : Value, FailsIf v.HoldsLong v.inspect
  | null => .writes (fun h => nomatch h) _
  | bool b => .writes (fun h => nomatch h) _
  | double x => .writes (fun h => nomatch h) _
  | text s => .writes (fun h => nomatch h) _
  | int n => by
    rw [holdsLong_int_iff, inspect, Numeral.decimal]
    split
    · exact .writes (Nat.not_le.2 ‹_›) _
    · exact .fails (Nat.not_lt.1 ‹_›)
  | list items => by
    rw [holdsLong_list_iff, inspect]
    exact (inspectItems_failsIf items).map _
  | mapping entries => by
    rw [holdsLong_mapping_iff, inspect]
    exact (inspectEntries_failsIf entries).map _

theorem inspectItems_failsIf : ∀ items : List Value, FailsIf (∃ v ∈ items, v.HoldsLong) (inspectItems items)
  | [] => .writes (by simp) _
  | v :: items => by
    rw [inspectItems]
    exact ((inspect_failsIf v).bind fun _ => (inspectItems_failsIf items).map _).congr (by simp)

theorem inspectEntries_failsIf :
    ∀ entries : List (Text × Value), FailsIf (∃ entry ∈ entries, entry.2.HoldsLong) (inspectEntries entries)
  | [] => .writes (by simp) _
  | (_, v) :: entries => by
    rw [inspectEntries]
    exact ((inspect_failsIf v).bind fun _ => (inspectEntries_failsIf entries).map _).congr (by simp)

end

/-- A value has a canonical text unless it holds an integer beyond the limit. -/
theorem render_failsIf (v : Value) : FailsIf v.HoldsLong v.render := by
  cases v with
  | bool _ | double _ | text _ => exact .writes (fun h => nomatch h) _
  | null | int _ | list _ | mapping _ => exact inspect_failsIf _

/-- The values without a canonical text are those that hold an integer beyond the limit. -/
theorem render_eq_error_iff {v : Value} {fault : NumeralFault} :
    v.render = .error fault ↔ v.HoldsLong ∧ fault = .writing :=
  v.render_failsIf.eq_error_iff

end Primitives.Value
