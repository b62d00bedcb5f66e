import Mathlib.Data.Rat.Floor
import Mathlib.Tactic.Linarith
import Mathlib.Tactic.Positivity
import Mathlib.Tactic.NormNum

/-!
# Money and billing periods

Amounts stored by the billing tables have four decimal places, and an integer
amount counts quanta of 0.0001. Prices and provider costs are computed with
exact decimals before `money` rounds them away from zero to a quantum.

Instants are microseconds since 1970-01-01 UTC; a limit counts from the start of
its day, of its calendar month, or from 1970.
-/

namespace Zyntry

abbrev Decimal := ℚ

/-- `Decimal.quantize(0.0001, ROUND_UP)`: away from zero. -/
def money (value : Decimal) : ℤ :=
  if 0 ≤ value then ⌈value * 10000⌉ else ⌊value * 10000⌋

/-- What a `Numeric(12, 4)` column stores: a half is rounded away from zero. -/
def numeric (value : Decimal) : ℤ :=
  if 0 ≤ value then ⌊value * 10000 + 1 / 2⌋ else ⌈value * 10000 - 1 / 2⌉

def toDecimal (m : ℤ) : Decimal := (m : ℚ) / 10000

@[simp] theorem money_toDecimal (m : ℤ) : money (toDecimal m) = m := by
  have hm : toDecimal m * 10000 = (m : ℚ) := by
    unfold toDecimal
    ring
  unfold money
  rw [hm]
  split_ifs
  · exact Int.ceil_intCast m
  · exact Int.floor_intCast m

theorem money_nonneg {value : Decimal} (h : 0 ≤ value) : 0 ≤ money value := by
  unfold money
  rw [if_pos h]
  exact Int.ceil_nonneg (by positivity)

theorem money_mono {x y : Decimal} (hx : 0 ≤ x) (h : x ≤ y) : money x ≤ money y := by
  unfold money
  rw [if_pos hx, if_pos (hx.trans h)]
  exact Int.ceil_le_ceil (by linarith)

/-- Rounding up the parts gives at least what rounding up the whole does. -/
theorem money_add_le {x y : Decimal} (hx : 0 ≤ x) (hy : 0 ≤ y) :
    money (x + y) ≤ money x + money y := by
  unfold money
  rw [if_pos hx, if_pos hy, if_pos (add_nonneg hx hy), add_mul]
  exact Int.ceil_add_le _ _

theorem numeric_le {value : Decimal} {m : ℤ} (h : value ≤ toDecimal m) : numeric value ≤ m := by
  have hm : value * 10000 ≤ m := by
    unfold toDecimal at h
    linarith
  unfold numeric
  split_ifs
  · refine Int.lt_add_one_iff.mp (Int.floor_lt.mpr ?_)
    push_cast
    linarith
  · exact Int.ceil_le.mpr (by linarith)

theorem numeric_toDecimal (m : ℤ) : numeric (toDecimal m) = m := by
  have hm : toDecimal m * 10000 = (m : ℚ) := by
    unfold toDecimal
    ring
  unfold numeric
  rw [hm]
  split_ifs
  · exact Int.floor_eq_iff.mpr ⟨by linarith, by linarith⟩
  · exact Int.ceil_eq_iff.mpr ⟨by linarith, by linarith⟩

theorem toDecimal_add (m n : ℤ) : toDecimal (m + n) = toDecimal m + toDecimal n := by
  unfold toDecimal
  push_cast
  ring

theorem toDecimal_le {m n : ℤ} : toDecimal m ≤ toDecimal n ↔ m ≤ n := by
  unfold toDecimal
  rw [div_le_div_iff_of_pos_right (by norm_num), Int.cast_le]

theorem toDecimal_nonneg {m : ℤ} (h : 0 ≤ m) : 0 ≤ toDecimal m := by
  unfold toDecimal
  positivity

/-! ## Instants and periods -/

def microsecondsPerDay : ℕ := 86400000000

/-- Days since the beginning of the civil month that contains day `z` after
1970-01-01, in the proleptic Gregorian calendar. -/
def dayOfMonth (z : ℕ) : ℕ :=
  -- years begin in March, so that the leap day is the last day of its year
  let doe := (z + 719468) % 146097
  let yoe := (doe - doe / 1460 + doe / 36524 - doe / 146096) / 365
  let doy := doe - (365 * yoe + yoe / 4 - yoe / 100)
  let mp := (5 * doy + 2) / 153
  doy - (153 * mp + 2) / 5

inductive Period where
  | daily
  | monthly
  | lifetime
  deriving DecidableEq, Repr

def periodStart (period : Period) (now : ℕ) : ℕ :=
  match period with
  | .daily => now - now % microsecondsPerDay
  | .monthly => now - now % microsecondsPerDay -
      dayOfMonth (now / microsecondsPerDay) * microsecondsPerDay
  | .lifetime => 0

theorem periodStart_le (period : Period) (now : ℕ) : periodStart period now ≤ now := by
  cases period with
  | daily => exact Nat.sub_le _ _
  | monthly => exact (Nat.sub_le _ _).trans (Nat.sub_le _ _)
  | lifetime => exact Nat.zero_le _

/-- 2024-02-29T12:00 belongs to the month that began on 2024-02-01. -/
example : periodStart .monthly (1709208000 * 1000000) = 1706745600 * 1000000 := by decide

end Zyntry
