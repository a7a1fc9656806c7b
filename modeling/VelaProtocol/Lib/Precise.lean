import Mathlib.Tactic.Common
import Mathlib.Tactic.Ring
import Mathlib.Tactic.Linarith

/-! Twelve-decimal fixed-point numbers, as multiples of one billionth of a thousandth.
The multiplication and division of a library are a parameter; what is asked of them is only how
they act on whole numbers that fit a machine word. -/
namespace Precise

@[irreducible] def one : Nat := 1000000000000

/-- A library's rounding multiplication and division, exact or truncating on whole numbers. -/
structure Arithmetic where
  checkedMul : Nat → Nat → Option Nat
  checkedDiv : Nat → Nat → Option Nat
  mul_whole : ∀ a b, a < 2 ^ 64 → b < 2 ^ 64 →
    checkedMul (a * one) (b * one) = some (a * b * one)
  div_whole : ∀ a b, a < 2 ^ 128 → 0 < b → b < 2 ^ 64 →
    checkedDiv (a * one) (b * one) = some (a * one / b)

def new (value : Nat) : Option Nat := some (value * one)

def checkedSub (a b : Nat) : Option Nat := if b ≤ a then some (a - b) else none

def floor (a : Nat) : Nat := a / one * one

def toImprecise (a : Nat) : Option Nat :=
  if (a + one / 2) / one < 2 ^ 128 then some ((a + one / 2) / one) else none

theorem one_pos : 0 < one := by simp [one]

theorem checkedSub_of_le {a b : Nat} (h : b ≤ a) : checkedSub a b = some (a - b) := if_pos h

theorem toImprecise_floor {a : Nat} (small : a / one < 2 ^ 128) :
    toImprecise (floor a) = some (a / one) := by
  have rounded : (a / one * one + one / 2) / one = a / one := by
    rw [Nat.mul_comm, Nat.mul_add_div one_pos]
    simp [one]
  unfold toImprecise floor
  rw [rounded, if_pos small]

def roundingMul (a b : Nat) : Option Nat := some ((a * b + one / 2) / one)

def roundingDiv (a b : Nat) : Option Nat :=
  if b = 0 then none else some ((a * one + one / 2) / b)

theorem roundingMul_whole (a b : Nat) :
    roundingMul (a * one) (b * one) = some (a * b * one) := by
  have split : a * one * (b * one) + one / 2 = one * (a * b * one) + one / 2 := by ring
  rw [roundingMul, split, Nat.mul_add_div one_pos]
  simp [one]

theorem roundingDiv_whole (a b : Nat) (positive : 0 < b) :
    roundingDiv (a * one) (b * one) = some (a * one / b) := by
  have nonzero : b * one ≠ 0 := Nat.mul_ne_zero positive.ne' one_pos.ne'
  have split : a * one * one + one / 2 = one * (a * one) + one / 2 := by ring
  rw [roundingDiv, if_neg nonzero, split, Nat.mul_comm b one, ← Nat.div_div_eq_div_mul,
    Nat.mul_add_div one_pos]
  simp [one]

def rounding : Arithmetic where
  checkedMul := roundingMul
  checkedDiv := roundingDiv
  mul_whole a b _ _ := roundingMul_whole a b
  div_whole a b _ positive _ := roundingDiv_whole a b positive

def wide (n : Nat) : Option Nat := if n < 2 ^ 256 then some n else none

/-- The correction is added to the product before it is divided by the scale; without room for the
product the larger factor is divided first. -/
def publishedMul (a b : Nat) : Option Nat :=
  match wide (a * b) with
  | some product => (wide (product + one / 2)).map (· / one)
  | none => if b ≤ a then wide (a / one * b) else wide (b / one * a)

/-- The correction is added to the scaled dividend; without room for it the dividend is corrected
and the quotient scaled. -/
def publishedDiv (a b : Nat) : Option Nat :=
  if b = 0 then none
  else match wide (a * one) with
    | some scaled => (wide (scaled + one / 2)).map (· / b)
    | none => (wide (a + one / 2)).bind fun corrected => wide (corrected / b * one)

theorem one_lt : one < 2 ^ 40 := by
  simp [one]

theorem wide_of_lt {n : Nat} (fits : n < 2 ^ 256) : wide n = some n := if_pos fits

/-- Where 256 bits hold the product, the published product is the rounded one. -/
theorem publishedMul_eq {a b : Nat} (fits : a * b < 2 ^ 255) :
    publishedMul a b = roundingMul a b := by
  have small := one_lt
  have room : (2 : Nat) ^ 256 = 2 ^ 255 + 2 ^ 255 := by norm_num
  have half : one / 2 < 2 ^ 255 :=
    Nat.lt_of_le_of_lt (Nat.div_le_self _ _) (small.trans (by norm_num))
  rw [publishedMul, wide_of_lt (by omega)]
  show (wide (a * b + one / 2)).map (· / one) = _
  rw [wide_of_lt (by omega), roundingMul]
  rfl

theorem publishedDiv_eq {a b : Nat} (fits : a * one < 2 ^ 255) :
    publishedDiv a b = roundingDiv a b := by
  have small := one_lt
  have room : (2 : Nat) ^ 256 = 2 ^ 255 + 2 ^ 255 := by norm_num
  have half : one / 2 < 2 ^ 255 :=
    Nat.lt_of_le_of_lt (Nat.div_le_self _ _) (small.trans (by norm_num))
  unfold publishedDiv roundingDiv
  by_cases zero : b = 0
  · rw [if_pos zero, if_pos zero]
  · rw [if_neg zero, if_neg zero, wide_of_lt (by omega)]
    show (wide (a * one + one / 2)).map (· / b) = _
    rw [wide_of_lt (by omega)]
    rfl

def published : Arithmetic where
  checkedMul := publishedMul
  checkedDiv := publishedDiv
  mul_whole a b left right := by
    have small := one_lt
    have first : a * one < 2 ^ 64 * 2 ^ 40 := Nat.mul_lt_mul'' left small
    have second : b * one < 2 ^ 64 * 2 ^ 40 := Nat.mul_lt_mul'' right small
    have fits : a * one * (b * one) < 2 ^ 64 * 2 ^ 40 * (2 ^ 64 * 2 ^ 40) :=
      Nat.mul_lt_mul'' first second
    rw [publishedMul_eq (fits.trans (by norm_num))]
    exact roundingMul_whole a b
  div_whole a b left positive _ := by
    have small := one_lt
    have scaled : a * one < 2 ^ 128 * 2 ^ 40 := Nat.mul_lt_mul'' left small
    have fits : a * one * one < 2 ^ 128 * 2 ^ 40 * 2 ^ 40 := Nat.mul_lt_mul'' scaled small
    rw [publishedDiv_eq (fits.trans (by norm_num))]
    exact roundingDiv_whole a b positive

end Precise
