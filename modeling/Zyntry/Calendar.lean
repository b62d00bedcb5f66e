import Zyntry.Money
import Mathlib.Order.Monotone.Basic

/-!
# Periods follow one another

The beginning of the period that contains an instant never goes back while time
goes on. For months this rests on the civil calendar: from one day to the next the
day of the month grows by one or starts again.
-/

namespace Zyntry

/-- The year of its era that `dayOfMonth` finds for a day of the era. -/
def yearOfEra (doe : ℕ) : ℕ := (doe - doe / 1460 + doe / 36524 - doe / 146096) / 365

def yearBegin (y : ℕ) : ℕ := 365 * y + y / 4 - y / 100 + y / 400

theorem yearOfEra_succ_ge {doe : ℕ} (h : doe < 146096) : yearOfEra doe ≤ yearOfEra (doe + 1) :=
  Nat.div_le_div_right (by omega)

theorem yearOfEra_mono {a b : ℕ} (hab : a ≤ b) (hb : b ≤ 146096) :
    yearOfEra a ≤ yearOfEra b := by
  induction b, hab using Nat.le_induction with
  | base => exact le_rfl
  | succ b hab ih => exact (ih (by omega)).trans (yearOfEra_succ_ge (by omega))

theorem yearOfEra_yearBegin : ∀ y < 400,
    yearOfEra (yearBegin y) = y ∧ yearOfEra (yearBegin (y + 1) - 1) = y := by decide +kernel

/-- A year lasts from its first day to the day before the next year. -/
theorem yearOfEra_eq {y doe : ℕ} (hy : y < 400) (h : yearBegin y ≤ doe)
    (h' : doe < yearBegin (y + 1)) : yearOfEra doe = y := by
  obtain ⟨hfirst, hlast⟩ := yearOfEra_yearBegin y hy
  have hend : yearBegin (y + 1) ≤ 146097 := by
    unfold yearBegin
    omega
  have hge := yearOfEra_mono h (by omega)
  have hle := yearOfEra_mono (a := doe) (b := yearBegin (y + 1) - 1) (by omega) (by omega)
  omega

/-- The year that contains a day of the era. -/
structure InYear (y doe : ℕ) : Prop where
  era : y < 400
  begun : yearBegin y ≤ doe
  open_ : doe < yearBegin (y + 1)

theorem InYear.succ {y doe : ℕ} (h : InYear y doe) (hera : doe + 1 < 146097) :
    InYear y (doe + 1) ∨ InYear (y + 1) (doe + 1) ∧ yearBegin (y + 1) = doe + 1 := by
  obtain ⟨hy, hle, hlt⟩ := h
  by_cases hnext : doe + 1 < yearBegin (y + 1)
  · exact .inl ⟨hy, by omega, hnext⟩
  · have hfirst : yearBegin (y + 1) = doe + 1 := by omega
    have hyear : y + 1 < 400 := by
      unfold yearBegin at hfirst
      omega
    refine .inr ⟨⟨hyear, hfirst.le, ?_⟩, hfirst⟩
    rw [← hfirst]
    unfold yearBegin
    omega

theorem inYear_yearOfEra {doe : ℕ} (h : doe < 146097) : InYear (yearOfEra doe) doe := by
  induction doe with
  | zero => exact ⟨by decide, by decide, by decide⟩
  | succ doe ih =>
    rcases (ih (by omega)).succ h with hsame | ⟨hnext, -⟩
    · rw [yearOfEra_eq hsame.era hsame.begun hsame.open_]
      exact hsame
    · rw [yearOfEra_eq hnext.era hnext.begun hnext.open_]
      exact hnext

theorem dayOfMonth_eq (z : ℕ) : dayOfMonth z =
    let doe := (z + 719468) % 146097
    let doy := doe - (365 * yearOfEra doe + yearOfEra doe / 4 - yearOfEra doe / 100)
    doy - (153 * ((5 * doy + 2) / 153) + 2) / 5 := rfl

/-- From one day to the next the day of the month grows by one or starts again. -/
theorem dayOfMonth_succ_le (z : ℕ) : dayOfMonth (z + 1) ≤ dayOfMonth z + 1 := by
  have hlt : (z + 719468) % 146097 < 146097 := Nat.mod_lt _ (by decide)
  have hcases : (z + 1 + 719468) % 146097 = 0 ∨
      (z + 1 + 719468) % 146097 = (z + 719468) % 146097 + 1 ∧
        (z + 719468) % 146097 + 1 < 146097 := by omega
  have hstep (doy : ℕ) : (doy + 1) - (153 * ((5 * (doy + 1) + 2) / 153) + 2) / 5 ≤
      doy - (153 * ((5 * doy + 2) / 153) + 2) / 5 + 1 := by omega
  have hbegin : ∀ y < 400, 365 * y + y / 4 - y / 100 = yearBegin y := fun y hy => by
    unfold yearBegin
    omega
  simp only [dayOfMonth_eq]
  generalize (z + 719468) % 146097 = doe at hlt hcases
  rcases hcases with hzero | ⟨hsucc, hera⟩
  · simp [hzero]
  · have hyear := inYear_yearOfEra hlt
    rw [hsucc, hbegin _ hyear.era]
    rcases hyear.succ hera with hsame | ⟨hnext, hfirst⟩
    · rw [yearOfEra_eq hsame.era hsame.begun hsame.open_, hbegin _ hyear.era,
        Nat.sub_add_comm hyear.begun]
      exact hstep _
    · rw [yearOfEra_eq hnext.era hnext.begun hnext.open_, hbegin _ hnext.era, hfirst]
      simp

theorem periodStart_mono (period : Period) : Monotone (periodStart period) := by
  cases period with
  | daily =>
    intro t t' h
    have hdiv := Nat.div_le_div_right (c := microsecondsPerDay) h
    have hday := Nat.div_add_mod t microsecondsPerDay
    have hday' := Nat.div_add_mod t' microsecondsPerDay
    have hmul := Nat.mul_le_mul_left microsecondsPerDay hdiv
    simp only [periodStart]
    omega
  | monthly =>
    have hmonth : Monotone fun z => z - dayOfMonth z := by
      refine monotone_nat_of_le_succ fun z => ?_
      have := dayOfMonth_succ_le z
      omega
    have hstart (t : ℕ) : periodStart .monthly t =
        (t / microsecondsPerDay - dayOfMonth (t / microsecondsPerDay)) * microsecondsPerDay := by
      have hday := Nat.div_add_mod' t microsecondsPerDay
      rw [Nat.sub_mul]
      simp only [periodStart]
      omega
    intro t t' h
    rw [hstart, hstart]
    exact Nat.mul_le_mul_right _ (hmonth (Nat.div_le_div_right h))
  | lifetime => exact fun _ _ _ => le_rfl
end Zyntry
