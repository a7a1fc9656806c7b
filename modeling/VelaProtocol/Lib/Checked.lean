import Mathlib.Tactic.Common
import Mathlib.Tactic.Ring

/-! Checked arithmetic on machine words, read back as integers.
Every result is characterised by its value; no operation wraps. -/
namespace Checked

def addU64 (a b : UInt64) : Option UInt64 :=
  if a.toNat + b.toNat < 2 ^ 64 then some (a + b) else none

def mulU64 (a b : UInt64) : Option UInt64 :=
  if a.toNat * b.toNat < 2 ^ 64 then some (a * b) else none

def addU128 (a b : Nat) : Option Nat :=
  if a + b < 2 ^ 128 then some (a + b) else none

def mulU128 (a b : Nat) : Option Nat :=
  if a * b < 2 ^ 128 then some (a * b) else none

/-- `i64::try_from`, for any integer source. -/
def toI64 (n : Int) : Option Int64 :=
  if -2 ^ 63 ≤ n ∧ n < 2 ^ 63 then some (Int64.ofInt n) else none

def toU64 (n : Int) : Option UInt64 :=
  if 0 ≤ n ∧ n < 2 ^ 64 then some (UInt64.ofNat n.toNat) else none

def addI64 (a b : Int64) : Option Int64 := toI64 (a.toInt + b.toInt)

def subI64 (a b : Int64) : Option Int64 := toI64 (a.toInt - b.toInt)

def satSubU64 (a b : UInt64) : UInt64 := if b ≤ a then a - b else 0

def satSubI64 (a b : Int64) : Int64 :=
  (subI64 a b).getD (if a < b then Int64.minValue else Int64.maxValue)

theorem toNat_lt (a : UInt64) : a.toNat < 2 ^ 64 := UInt64.toNat_lt a

theorem toInt_bounds (a : Int64) : -2 ^ 63 ≤ a.toInt ∧ a.toInt < 2 ^ 63 :=
  ⟨Int64.le_toInt a, Int64.toInt_lt a⟩

theorem addU64_eq_some {a b c : UInt64} :
    addU64 a b = some c ↔ c.toNat = a.toNat + b.toNat := by
  have bound := toNat_lt c
  unfold addU64
  split
  · rename_i h
    have value : (a + b).toNat = a.toNat + b.toNat := by
      rw [UInt64.toNat_add, Nat.mod_eq_of_lt h]
    rw [Option.some.injEq, ← UInt64.toNat_inj, value]
    exact eq_comm
  · simp only [reduceCtorEq, false_iff]
    omega

theorem mulU64_eq_some {a b c : UInt64} :
    mulU64 a b = some c ↔ c.toNat = a.toNat * b.toNat := by
  have bound := toNat_lt c
  unfold mulU64
  split
  · rename_i h
    have value : (a * b).toNat = a.toNat * b.toNat := by
      rw [UInt64.toNat_mul, Nat.mod_eq_of_lt h]
    rw [Option.some.injEq, ← UInt64.toNat_inj, value]
    exact eq_comm
  · simp only [reduceCtorEq, false_iff]
    omega

theorem mulU128_of_lt {a b : Nat} (left : a < 2 ^ 64) (right : b < 2 ^ 64) :
    mulU128 a b = some (a * b) := by
  have product : a * b < 2 ^ 64 * 2 ^ 64 := Nat.mul_lt_mul'' left right
  exact if_pos (lt_of_lt_of_eq product rfl)

theorem addU128_of_lt {a b : Nat} (left : a < 2 ^ 64) (right : b < 2 ^ 64) :
    addU128 a b = some (a + b) := if_pos (by omega)

theorem toI64_eq_some {n : Int} {c : Int64} : toI64 n = some c ↔ c.toInt = n := by
  have bounds := toInt_bounds c
  unfold toI64
  split
  · rename_i h
    have value : (Int64.ofInt n).toInt = n := Int64.toInt_ofInt_of_le h.1 h.2
    rw [Option.some.injEq, ← Int64.toInt_inj, value]
    exact eq_comm
  · simp only [reduceCtorEq, false_iff]
    omega

theorem toU64_eq_some {n : Int} {c : UInt64} : toU64 n = some c ↔ (c.toNat : Int) = n := by
  have bound := toNat_lt c
  unfold toU64
  split
  · rename_i h
    have small : n.toNat < 2 ^ 64 := by omega
    have value : (UInt64.ofNat n.toNat).toNat = n.toNat := UInt64.toNat_ofNat_of_lt' small
    rw [Option.some.injEq, ← UInt64.toNat_inj, value]
    omega
  · simp only [reduceCtorEq, false_iff]
    omega

theorem addI64_eq_some {a b c : Int64} : addI64 a b = some c ↔ c.toInt = a.toInt + b.toInt :=
  toI64_eq_some

theorem subI64_eq_some {a b c : Int64} : subI64 a b = some c ↔ c.toInt = a.toInt - b.toInt :=
  toI64_eq_some

theorem satSubU64_toNat (a b : UInt64) : (satSubU64 a b).toNat = a.toNat - b.toNat := by
  unfold satSubU64
  split
  · rename_i h
    exact UInt64.toNat_sub_of_le a b h
  · rename_i h
    rw [UInt64.le_iff_toNat_le] at h
    simp only [UInt64.toNat_zero]
    omega

theorem lt_iff {a b : UInt64} : a < b ↔ a.toNat < b.toNat := UInt64.lt_iff_toNat_lt
theorem le_iff {a b : UInt64} : a ≤ b ↔ a.toNat ≤ b.toNat := UInt64.le_iff_toNat_le
theorem lt_iff_int {a b : Int64} : a < b ↔ a.toInt < b.toInt := Int64.lt_iff_toInt_lt
theorem le_iff_int {a b : Int64} : a ≤ b ↔ a.toInt ≤ b.toInt := Int64.le_iff_toInt_le

theorem exists_toI64 {n : Int} (h : -2 ^ 63 ≤ n ∧ n < 2 ^ 63) : ∃ c, toI64 n = some c := by
  exact ⟨Int64.ofInt n, if_pos h⟩

/-- Saturating changes no comparison with a length of time. -/
theorem le_satSubI64 {a b c : Int64} (nonneg : 0 ≤ c.toInt) :
    c ≤ satSubI64 a b ↔ c.toInt ≤ a.toInt - b.toInt := by
  have bounds := toInt_bounds c
  have least : Int64.minValue.toInt = -2 ^ 63 := rfl
  have largest : Int64.maxValue.toInt = 2 ^ 63 - 1 := rfl
  rw [le_iff_int, satSubI64]
  by_cases fits : -2 ^ 63 ≤ a.toInt - b.toInt ∧ a.toInt - b.toInt < 2 ^ 63
  · obtain ⟨d, difference⟩ := exists_toI64 fits
    have value := subI64_eq_some.mp difference
    rw [show subI64 a b = some d from difference, Option.getD_some, value]
  · rw [show subI64 a b = none from if_neg fits, Option.getD_none]
    by_cases less : a < b
    · rw [if_pos less, least]
      have less := lt_iff_int.mp less
      omega
    · rw [if_neg less, largest]
      have less := mt lt_iff_int.mpr less
      omega

theorem min_toNat (a b : UInt64) : (min a b).toNat = min a.toNat b.toNat := by
  by_cases le : a ≤ b
  · rw [show min a b = a from if_pos le, Nat.min_eq_left (le_iff.mp le)]
  · rw [show min a b = b from if_neg le, Nat.min_eq_right]
    exact Nat.le_of_not_le (mt le_iff.mpr le)

end Checked
