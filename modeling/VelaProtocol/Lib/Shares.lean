import Mathlib.Tactic.Linarith
import Mathlib.Tactic.Ring

/-! Two shares of a period at a fixed scale, the one taken rounded down and the one given up
rounded up, and whether their difference in whole units is the exact one. -/
namespace Shares

variable {scale total a b : Nat}

def down (scale total a : Nat) : Nat := a * scale / total

/-- What rounding up adds, in parts of `total`. -/
def lift (scale total b : Nat) : Nat := (total - b * scale % total) % total

def up (scale total b : Nat) : Nat := (b * scale + lift scale total b) / total

/-- What both roundings take from the difference, in parts of `total`. -/
def loss (scale total a b : Nat) : Nat := a * scale % total + lift scale total b

theorem total_mul_down (scale total a : Nat) :
    total * down scale total a + a * scale % total = a * scale :=
  Nat.div_add_mod _ _

theorem total_mul_up (scale : Nat) (positive : 0 < total) (b : Nat) :
    total * up scale total b = b * scale + lift scale total b := by
  refine Nat.mul_div_cancel' (Nat.dvd_of_mod_eq_zero ?_)
  have rest := Nat.mod_lt (b * scale) positive
  rw [lift, Nat.add_mod, Nat.mod_mod]
  by_cases whole : b * scale % total = 0
  · rw [whole, Nat.sub_zero, Nat.mod_self]
    exact Nat.zero_mod _
  · rw [Nat.mod_eq_of_lt (show total - b * scale % total < total by omega),
      Nat.add_sub_of_le rest.le, Nat.mod_self]

theorem lift_lt (scale b : Nat) (positive : 0 < total) : lift scale total b < total :=
  Nat.mod_lt _ positive

theorem loss_lt (scale a b : Nat) (positive : 0 < total) : loss scale total a b < 2 * total := by
  have down := Nat.mod_lt (a * scale) positive
  have up := lift_lt scale b positive
  unfold loss
  omega

theorem lift_eq_rest (positive : 0 < total) {x : Nat} {whole : Nat}
    (sum : x + b * scale = total * whole) : lift scale total b = x % total := by
  have rest := Nat.mod_lt x positive
  have other := Nat.mod_lt (b * scale) positive
  have divides : (x % total + b * scale % total) % total = 0 := by
    rw [← Nat.add_mod, sum, Nat.mul_mod_right]
  unfold lift
  by_cases none : b * scale % total = 0
  · rw [none, Nat.add_zero, Nat.mod_mod] at divides
    rw [none, Nat.sub_zero, Nat.mod_self, divides]
  · rw [Nat.mod_eq_of_lt (show total - b * scale % total < total by omega)]
    rcases Nat.lt_or_ge (x % total + b * scale % total) total with small | large
    · rw [Nat.mod_eq_of_lt small] at divides
      omega
    · rw [Nat.mod_eq_sub_mod large, Nat.mod_eq_of_lt (by omega)] at divides
      omega

theorem up_of_unused (positive : 0 < total) {used : Nat} (whole : used + b = a * total) :
    a * scale - used * scale / total = up scale total b := by
  have sum : used * scale + b * scale = total * (a * scale) := by
    rw [← Nat.add_mul, whole]
    ring
  have floor := Nat.div_add_mod (used * scale) total
  have lifted := total_mul_up scale positive b
  rw [lift_eq_rest positive sum] at lifted
  refine Nat.eq_of_mul_eq_mul_left positive ?_
  rw [Nat.mul_sub]
  omega

theorem quotient_eq (positive : 0 < total) {n k : Nat}
    (above : k * (total * scale) ≤ total * n) (below : total * n < (k + 1) * (total * scale)) :
    n / scale = k := by
  have low : k * scale ≤ n := by
    refine Nat.le_of_mul_le_mul_left ?_ positive
    calc total * (k * scale) = k * (total * scale) := by ring
      _ ≤ total * n := above
  have high : n < (k + 1) * scale := by
    refine Nat.lt_of_mul_lt_mul_left (a := total) ?_
    calc total * n < (k + 1) * (total * scale) := below
      _ = total * ((k + 1) * scale) := by ring
  exact Nat.div_eq_of_lt_le low high

/-- Whole units of a growing share: exact unless the roundings take more than its remainder. -/
theorem charge_eq_iff (positive : 0 < total) (scaled : 0 < scale) (le : b ≤ a) :
    (down scale total a - up scale total b) / scale = (a - b) / total ↔
      a - b < total ∨ loss scale total a b ≤ (a - b) % total * scale := by
  have lower := total_mul_down scale total a
  have upper := total_mul_up scale positive b
  have split := Nat.div_add_mod (a - b) total
  have rest := Nat.mod_lt (a - b) positive
  have difference : a * scale = b * scale + (a - b) * scale := by
    rw [← Nat.add_mul, Nat.add_sub_of_le le]
  have parts : (a - b) * scale = (a - b) / total * (total * scale) + (a - b) % total * scale := by
    conv_lhs => rw [← split]
    ring
  have remainder : (a - b) % total * scale < total * scale :=
    Nat.mul_lt_mul_of_pos_right rest scaled
  have value : total * (down scale total a - up scale total b) =
      (a - b) * scale - loss scale total a b := by
    rw [Nat.mul_sub, loss]
    omega
  have next : ((a - b) / total + 1) * (total * scale) =
      (a - b) / total * (total * scale) + total * scale := Nat.add_one_mul _ _
  constructor
  · intro same
    by_cases small : a - b < total
    · exact .inl small
    · right
      by_contra more
      have some : 0 < (a - b) / total := Nat.div_pos (Nat.le_of_not_lt small) positive
      have short : total * (down scale total a - up scale total b) <
          (a - b) / total * (total * scale) := by
        have unit := Nat.mul_le_mul_right (total * scale) some
        omega
      have less : (down scale total a - up scale total b) < (a - b) / total * scale := by
        refine Nat.lt_of_mul_lt_mul_left (a := total) ?_
        calc total * (down scale total a - up scale total b) <
            (a - b) / total * (total * scale) := short
          _ = total * ((a - b) / total * scale) := by ring
      have less := (Nat.div_lt_iff_lt_mul scaled).mpr less
      omega
  · rintro (small | covered)
    · have none : (a - b) / total = 0 := Nat.div_eq_of_lt small
      rw [none]
      refine quotient_eq positive (by omega) ?_
      rw [none] at parts next
      omega
    · exact quotient_eq positive (by omega) (by omega)

/-- Whole units of a shrinking share: exact unless the roundings carry into the next one. -/
theorem credit_eq_iff (positive : 0 < total) (scaled : 0 < scale) (le : a ≤ b) :
    (up scale total b - down scale total a) / scale = (b - a) / total ↔
      (b - a) % total * scale + loss scale total a b < total * scale := by
  have lower := total_mul_down scale total a
  have upper := total_mul_up scale positive b
  have split := Nat.div_add_mod (b - a) total
  have difference : b * scale = a * scale + (b - a) * scale := by
    rw [← Nat.add_mul, Nat.add_sub_of_le le]
  have parts : (b - a) * scale = (b - a) / total * (total * scale) + (b - a) % total * scale := by
    conv_lhs => rw [← split]
    ring
  have value : total * (up scale total b - down scale total a) =
      (b - a) * scale + loss scale total a b := by
    rw [Nat.mul_sub, loss]
    omega
  have next : ((b - a) / total + 1) * (total * scale) =
      (b - a) / total * (total * scale) + total * scale := Nat.add_one_mul _ _
  constructor
  · intro same
    by_contra carried
    have beyond : ((b - a) / total + 1) * (total * scale) ≤
        total * (up scale total b - down scale total a) := by omega
    have more : ((b - a) / total + 1) * scale ≤ up scale total b - down scale total a := by
      refine Nat.le_of_mul_le_mul_left ?_ positive
      calc total * (((b - a) / total + 1) * scale) =
          ((b - a) / total + 1) * (total * scale) := by ring
        _ ≤ _ := beyond
    have more := (Nat.le_div_iff_mul_le scaled).mpr more
    omega
  · intro within
    exact quotient_eq positive (by omega) (by omega)

theorem charge_le (positive : 0 < total) (scaled : 0 < scale) (le : b ≤ a) :
    (down scale total a - up scale total b) / scale ≤ (a - b) / total := by
  have lower := total_mul_down scale total a
  have upper := total_mul_up scale positive b
  have difference : a * scale = b * scale + (a - b) * scale := by
    rw [← Nat.add_mul, Nat.add_sub_of_le le]
  have value : total * (down scale total a - up scale total b) ≤ (a - b) * scale := by
    rw [Nat.mul_sub]
    omega
  calc (down scale total a - up scale total b) / scale
      = total * (down scale total a - up scale total b) / (total * scale) :=
        (Nat.mul_div_mul_left _ _ positive).symm
    _ ≤ (a - b) * scale / (total * scale) := Nat.div_le_div_right value
    _ = (a - b) / total := Nat.mul_div_mul_right _ _ scaled

theorem difference_small (scale : Nat) (positive : 0 < total) (le : b ≤ a) :
    up scale total b - down scale total a < 2 := by
  have lower := total_mul_down scale total a
  have upper := total_mul_up scale positive b
  have small := loss_lt scale a b positive
  have difference : b * scale ≤ a * scale := Nat.mul_le_mul_right _ le
  refine Nat.lt_of_mul_lt_mul_left (a := total) ?_
  rw [Nat.mul_sub]
  unfold loss at small
  omega

theorem credit_le (positive : 0 < total) (scaled : 2 ≤ scale) {bound : Nat}
    (covered : b ≤ a + bound * total) :
    (up scale total b - down scale total a) / scale ≤ bound := by
  have lower := total_mul_down scale total a
  have upper := total_mul_up scale positive b
  have small := loss_lt scale a b positive
  have difference : b * scale ≤ a * scale + bound * total * scale := by
    rw [← Nat.add_mul]
    exact Nat.mul_le_mul_right _ covered
  have window : up scale total b - down scale total a < bound * scale + 2 := by
    refine Nat.lt_of_mul_lt_mul_left (a := total) ?_
    have expand : total * (bound * scale + 2) = bound * total * scale + 2 * total := by ring
    rw [Nat.mul_sub, expand]
    unfold loss at small
    omega
  refine Nat.lt_succ_iff.mp ((Nat.div_lt_iff_lt_mul (by omega)).mpr ?_)
  rw [Nat.succ_mul]
  omega

theorem down_whole (positive : 0 < total) (a : Nat) : down scale total (a * total) = a * scale := by
  rw [down, Nat.mul_right_comm, Nat.mul_div_cancel _ positive]

theorem up_whole (positive : 0 < total) (b : Nat) : up scale total (b * total) = b * scale := by
  have whole : b * total * scale % total = 0 := by
    rw [Nat.mul_right_comm, Nat.mul_mod_left]
  rw [up, lift, whole, Nat.sub_zero, Nat.mod_self, Nat.add_zero, Nat.mul_right_comm,
    Nat.mul_div_cancel _ positive]

end Shares
