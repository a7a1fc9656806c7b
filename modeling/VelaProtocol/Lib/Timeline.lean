import Mathlib.Algebra.BigOperators.Intervals
import Mathlib.Algebra.BigOperators.Ring.Finset
import Mathlib.Algebra.Order.BigOperators.Group.Finset

/-! A value recorded at every second, and sums of it over intervals of seconds.
An interval holds its first second and not its last, so adjacent ones share nothing. -/
namespace Timeline

universe u

variable {α : Type u} {f g : α → Nat} {h h' : Int → α} {a b c start stop : Int} {value : α}

/-- Write `value` over the seconds from `start` up to `stop`. -/
def extend (h : Int → α) (start stop : Int) (value : α) : Int → α :=
  fun x => if start ≤ x ∧ x < stop then value else h x

/-- The sum of a quantity over the seconds from `a` up to `b`. -/
def total (f : α → Nat) (h : Int → α) (a b : Int) : Nat :=
  ∑ n ∈ Finset.range (b - a).toNat, f (h (a + n))

theorem extend_within {x : Int} (after : start ≤ x) (before : x < stop) :
    extend h start stop value x = value := if_pos ⟨after, before⟩

theorem extend_before {x : Int} (before : x < start) : extend h start stop value x = h x := by
  refine if_neg ?_
  intro inside
  exact absurd inside.1 (not_le_of_gt before)

theorem extend_empty (h : Int → α) (start : Int) (value : α) :
    extend h start start value = h := by
  funext x
  refine if_neg ?_
  intro inside
  exact absurd (lt_of_le_of_lt inside.1 inside.2) (lt_irrefl _)

theorem total_self (f : α → Nat) (h : Int → α) (a : Int) : total f h a a = 0 := by
  simp [total]

theorem total_append (f : α → Nat) (h : Int → α) (first : a ≤ b) (second : b ≤ c) :
    total f h a c = total f h a b + total f h b c := by
  have length : (c - a).toNat = (b - a).toNat + (c - b).toNat := by omega
  rw [total, length, Finset.sum_range_add, total, total]
  congr 1
  apply Finset.sum_congr rfl
  intro n _
  have place : a + ((b - a).toNat + n : Nat) = b + n := by omega
  rw [place]

theorem total_mono (f : α → Nat) (h : Int → α) (first : a ≤ b) (second : b ≤ c) :
    total f h a b ≤ total f h a c := by
  rw [total_append f h first second]
  exact Nat.le_add_right _ _

theorem total_congr (agree : ∀ x, a ≤ x → x < b → h x = h' x) :
    total f h a b = total f h' a b := by
  apply Finset.sum_congr rfl
  intro n inside
  have inside := Finset.mem_range.mp inside
  rw [agree (a + n) (by omega) (by omega)]

theorem total_extend_before (f : α → Nat) (h : Int → α) (past : b ≤ start) :
    total f (extend h start stop value) a b = total f h a b := by
  apply total_congr
  intro x _ before
  exact extend_before (lt_of_lt_of_le before past)

theorem total_const (f : α → Nat) (constant : ∀ x, a ≤ x → x < b → h x = value) :
    total f h a b = (b - a).toNat * f value := by
  have same : ∀ n ∈ Finset.range (b - a).toNat, f (h (a + n)) = f value := by
    intro n inside
    have inside := Finset.mem_range.mp inside
    rw [constant (a + n) (by omega) (by omega)]
  rw [total, Finset.sum_congr rfl same, Finset.sum_const, Finset.card_range, Nat.nsmul_eq_mul]

theorem total_le_mul (m : Nat) (bound : ∀ x, a ≤ x → x < b → f (h x) ≤ m * g (h x)) :
    total f h a b ≤ m * total g h a b := by
  rw [total, total, Finset.mul_sum]
  apply Finset.sum_le_sum
  intro n inside
  have inside := Finset.mem_range.mp inside
  exact bound (a + n) (by omega) (by omega)

end Timeline
