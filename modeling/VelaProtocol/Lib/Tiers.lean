import Mathlib.Algebra.Group.Action.Defs
import Mathlib.Algebra.BigOperators.Intervals

/-! Tiered prices: a list of bounds with rates, where a bound of 0 is none. Every unit costs the
rate of the tier it falls in, and nothing past the last bound. -/
namespace Tiers

variable {units units' previous boundary : Nat}

def reach (units boundary : Nat) : Nat := if boundary = 0 then units else min units boundary

/-- The units of each tier at its rate; every tier starts where the one before ends. -/
def total (units : Nat) : Nat → List (Nat × Nat) → Nat
  | _, [] => 0
  | previous, (boundary, rate) :: rest =>
    (reach units boundary - previous) * rate + total units boundary rest

def rateAt : List (Nat × Nat) → Nat → Nat
  | [], _ => 0
  | (boundary, rate) :: rest, unit =>
    if boundary = 0 ∨ unit < boundary then rate else rateAt rest unit

/-- Bounds increase, and only the last tier may be without one. -/
def Increasing : Nat → List (Nat × Nat) → Prop
  | _, [] => True
  | previous, tier :: rest =>
    (tier.1 = 0 → rest = []) ∧ (tier.1 ≠ 0 → previous < tier.1) ∧ Increasing tier.1 rest

theorem reach_le (units boundary : Nat) : reach units boundary ≤ units := by
  unfold reach
  split <;> omega

theorem reach_mono (le : units ≤ units') (boundary : Nat) :
    reach units boundary ≤ reach units' boundary := by
  unfold reach
  split <;> omega

theorem total_mono (le : units ≤ units') (tiers : List (Nat × Nat)) :
    ∀ previous, total units previous tiers ≤ total units' previous tiers := by
  induction tiers with
  | nil => exact fun _ => le_refl _
  | cons tier rest ih =>
    obtain ⟨boundary, rate⟩ := tier
    intro previous
    have further := reach_mono le boundary
    exact Nat.add_le_add (Nat.mul_le_mul_right _ (by omega)) (ih boundary)

theorem total_eq_sum (tiers : List (Nat × Nat)) : ∀ previous, Increasing previous tiers →
    total units previous tiers = ∑ unit ∈ Finset.Ico previous units, rateAt tiers unit := by
  induction tiers with
  | nil =>
    intro previous _
    exact (Finset.sum_const_zero).symm
  | cons tier rest ih =>
    obtain ⟨boundary, rate⟩ := tier
    rintro previous ⟨last, rises, increasing⟩
    have later := ih boundary increasing
    by_cases unlimited : boundary = 0
    · obtain rfl := last unlimited
      simp only [total, reach, rateAt, unlimited, if_true, true_or, Finset.sum_const,
        Nat.card_Ico, smul_eq_mul, Nat.add_zero]
    · have above : previous < boundary := rises unlimited
      have inside : ∑ unit ∈ Finset.Ico previous (min units boundary),
          rateAt ((boundary, rate) :: rest) unit = (min units boundary - previous) * rate := by
        rw [Finset.sum_congr rfl fun unit mem => ?_, Finset.sum_const, Nat.card_Ico, smul_eq_mul]
        exact if_pos (.inr (lt_of_lt_of_le (Finset.mem_Ico.mp mem).2 (min_le_right _ _)))
      have outside : ∑ unit ∈ Finset.Ico boundary units, rateAt ((boundary, rate) :: rest) unit =
          total units boundary rest := by
        rw [later]
        refine Finset.sum_congr rfl fun unit mem => if_neg ?_
        have beyond := (Finset.mem_Ico.mp mem).1
        omega
      rw [total, reach, if_neg unlimited, ← inside, ← outside]
      rcases Nat.le_total units boundary with short | long
      · rw [Nat.min_eq_left short, Finset.Ico_eq_empty_of_le short, Finset.sum_empty,
          Nat.add_zero]
      · rw [Nat.min_eq_right long]
        exact Finset.sum_Ico_consecutive _ above.le long

end Tiers
