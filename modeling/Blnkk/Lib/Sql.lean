import Mathlib.Data.List.Basic

/-!
Conditions of SQL queries with their three truth values, in which NULL is `none`.
A list of values that is bound to `IN (?)` is written as `IN (NULL)` when it is
empty.
-/

namespace Sql

abbrev Truth := Option Bool

namespace Truth

def not (a : Truth) : Truth := a.map Bool.not

def and (a b : Truth) : Truth :=
  match a, b with
  | some false, _ => some false
  | _, some false => some false
  | some true, some true => some true
  | _, _ => none

def or (a b : Truth) : Truth :=
  match a, b with
  | some true, _ => some true
  | _, some true => some true
  | some false, some false => some false
  | _, _ => none

/-- `WHERE` keeps a row only if the condition is true of it. -/
def holds (a : Truth) : Bool := a == some true

theorem holds_and (a b : Truth) : (a.and b).holds = true ↔ a.holds = true ∧ b.holds = true := by
  rcases a with - | - | - <;> rcases b with - | - | - <;> decide

theorem holds_or (a b : Truth) : (a.or b).holds = true ↔ a.holds = true ∨ b.holds = true := by
  rcases a with - | - | - <;> rcases b with - | - | - <;> decide

end Truth

variable {α : Type} [DecidableEq α]

def isIn (x : Option α) (values : List α) : Truth :=
  match x, values with
  | none, _ => none
  | some _, [] => none
  | some a, values => some (decide (a ∈ values))

def isNull (x : Option α) : Truth := some x.isNone

theorem holds_isIn (x : Option α) (values : List α) :
    (isIn x values).holds = true ↔ ∃ a ∈ values, x = some a := by
  cases x with
  | none => simp [isIn, Truth.holds]
  | some a =>
    cases values with
    | nil => simp [isIn, Truth.holds]
    | cons b values => simp [isIn, Truth.holds]

theorem holds_not_isIn (a : α) {values : List α} (hv : values ≠ []) :
    (isIn (some a) values).not.holds = true ↔ a ∉ values := by
  cases values with
  | nil => exact absurd rfl hv
  | cons b values => simp [isIn, Truth.holds, Truth.not]

omit [DecidableEq α] in
theorem holds_isNull (x : Option α) : (isNull x).holds = true ↔ x = none := by
  cases x <;> simp [isNull, Truth.holds]

end Sql
