import Mathlib.Data.Int.Log
import Mathlib.Data.Rat.Floor
import Mathlib.Tactic.FieldSimp
import Mathlib.Tactic.Linarith
import Mathlib.Tactic.Positivity
import Mathlib.Tactic.Ring

/-!
Binary floating-point numbers as rationals: rounding to a number of significant
digits, to the nearest and in a tie to the even one. The exponent has no bounds.
-/

namespace Rounding

/-- The nearest integer, of two the even one. -/
def nearestEven (q : ℚ) : ℤ :=
  if 2 * (q - ⌊q⌋) < 1 ∨ 2 * (q - ⌊q⌋) = 1 ∧ ⌊q⌋ % 2 = 0 then ⌊q⌋ else ⌊q⌋ + 1

/-- The weight of the last of `p` digits. -/
def ulp (p : ℕ) (q : ℚ) : ℚ := 2 ^ (Int.log 2 q + 1 - p)

def toDigits (p : ℕ) (q : ℚ) : ℚ := nearestEven (q / ulp p q) * ulp p q

theorem abs_nearestEven_sub_le (q : ℚ) : |nearestEven q - q| ≤ 1 / 2 := by
  have hle := Int.floor_le q
  have hlt := Int.lt_floor_add_one q
  unfold nearestEven
  split_ifs with h
  · rw [abs_le]
    constructor
    · rcases h with h | ⟨h, -⟩ <;> linarith
    · linarith
  · rw [not_or, not_lt] at h
    push_cast
    rw [abs_le]
    constructor <;> linarith [h.1]

theorem ulp_pos (p : ℕ) (q : ℚ) : 0 < ulp p q := zpow_pos (by norm_num) _

theorem half_ulp_le (p : ℕ) {q : ℚ} (hq : 0 < q) : ulp p q / 2 ≤ q / 2 ^ p := by
  have hlog : (2 : ℚ) ^ Int.log 2 q ≤ q := by exact_mod_cast Int.zpow_log_le_self (b := 2) (by norm_num) hq
  have hulp : ulp p q / 2 = 2 ^ Int.log 2 q / 2 ^ p := by
    rw [ulp, zpow_sub₀ (by norm_num), zpow_add₀ (by norm_num), zpow_one, zpow_natCast]
    field_simp
  rw [hulp]
  gcongr

/-- The relative error of `p` digits is at most one half of the last. -/
theorem abs_toDigits_sub_le (p : ℕ) {q : ℚ} (hq : 0 < q) : |toDigits p q - q| ≤ q / 2 ^ p := by
  have hpos := ulp_pos p q
  have hsub : toDigits p q - q = (nearestEven (q / ulp p q) - q / ulp p q) * ulp p q := by
    rw [toDigits, sub_mul, div_mul_cancel₀ q hpos.ne']
  calc |toDigits p q - q| = |nearestEven (q / ulp p q) - q / ulp p q| * ulp p q := by
        rw [hsub, abs_mul, abs_of_pos hpos]
    _ ≤ 1 / 2 * ulp p q := by gcongr; exact abs_nearestEven_sub_le _
    _ = ulp p q / 2 := by ring
    _ ≤ q / 2 ^ p := half_ulp_le p hq

theorem toDigits_pos {p : ℕ} (hp : 1 ≤ p) {q : ℚ} (hq : 0 < q) : 0 < toDigits p q := by
  have herror := abs_le.mp (abs_toDigits_sub_le p hq)
  have hhalf : q / 2 ^ p ≤ q / 2 := by
    gcongr
    exact le_self_pow₀ (by norm_num) (by omega)
  linarith [herror.1]

example : toDigits 24 (1 / 3) = 11184811 / 33554432 := by decide +kernel

end Rounding
