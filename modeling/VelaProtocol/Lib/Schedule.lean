import Mathlib.Tactic.Common
import Mathlib.Tactic.Linarith
import Mathlib.Tactic.Ring

/-! Evenly spaced dates and how many of them have come by a given time. -/
namespace Schedule

/-- How many of the dates `first, first + step, …` are no later than `t`. -/
def countBy (first : Int) (step : Nat) (t : Int) : Nat :=
  if t < first then 0 else ((t - first) / step).toNat + 1

theorem lt_countBy_iff {first t : Int} {step n : Nat} (positive : 0 < step) :
    n < countBy first step t ↔ first + n * step ≤ t := by
  have step_pos : (0 : Int) < step := by omega
  unfold countBy
  split
  · rename_i early
    have nonneg : (0 : Int) ≤ n * step := by positivity
    constructor
    · intro h
      exact absurd h (Nat.not_lt_zero n)
    · intro h
      omega
  · rename_i started
    have quotient_nonneg : 0 ≤ (t - first) / step := Int.ediv_nonneg (by omega) (by omega)
    have counted : n < ((t - first) / step).toNat + 1 ↔ (n : Int) ≤ (t - first) / step := by omega
    rw [counted, Int.le_ediv_iff_mul_le step_pos]
    constructor <;> intro h <;> linarith

theorem countBy_mono (first : Int) {t t' : Int} {step : Nat} (positive : 0 < step) (le : t ≤ t') :
    countBy first step t ≤ countBy first step t' := by
  by_contra more
  have last := (lt_countBy_iff positive).mp (Nat.lt_of_not_le more)
  exact absurd ((lt_countBy_iff positive).mpr (le_trans last le)) (lt_irrefl _)

theorem countBy_anti (first t : Int) {step step' : Nat} (positive : 0 < step)
    (le : step ≤ step') : countBy first step' t ≤ countBy first step t := by
  by_contra more
  have last := (lt_countBy_iff (lt_of_lt_of_le positive le)).mp (Nat.lt_of_not_le more)
  have shorter : (countBy first step t : Int) * step ≤ countBy first step t * step' :=
    Int.mul_le_mul_of_nonneg_left (by omega) (by omega)
  exact absurd ((lt_countBy_iff positive).mpr (by linarith)) (lt_irrefl _)

end Schedule
