import ContractBinding.Json.Basic
import Mathlib.Order.WellFounded

/-!
# Parts of values

What stands in a list or under a key of an object is a part of it. Every way down through parts
ends, so what holds of a value as soon as it holds of its parts holds of all values.
-/

namespace ContractBinding.Json

/-- A value is an item of a list or stands under a key of an object. -/
inductive Part : Json → Json → Prop where
  | item {value : Json} {items : List Json} (h : value ∈ items) : Part value (.array items)
  | entry {key : String} {value : Json} {entries : List (String × Json)}
    (h : (key, value) ∈ entries) : Part value (.object entries)

/-- Null alone is null. -/
theorem isNull_eq_true_iff {value : Json} : value.isNull = true ↔ value = .null := by
  cases value <;> simp [isNull]

/-- A part is smaller than the whole. -/
theorem Part.sizeOf_lt {value whole : Json} (h : Part value whole) :
    sizeOf value < sizeOf whole := by
  cases h with
  | item h =>
    have hlt := List.sizeOf_lt_of_mem h
    rw [array.sizeOf_spec]
    omega
  | entry h =>
    have hlt := List.sizeOf_lt_of_mem h
    rw [Prod.mk.sizeOf_spec] at hlt
    rw [object.sizeOf_spec]
    omega

/-- Every way down through parts ends. -/
theorem part_wellFounded : WellFounded Part :=
  Subrelation.wf Part.sizeOf_lt (measure (sizeOf : Json → Nat)).wf

end ContractBinding.Json
