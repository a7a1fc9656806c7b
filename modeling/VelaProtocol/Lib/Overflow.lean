import VelaProtocol.Lib.Checked

/-! One program text under several arithmetics: operations that fail, wrap or saturate out of
range, and agree wherever the result fits. -/
namespace Checked

/-- `u64` operations in a monad, exact wherever the result fits. -/
structure Arithmetic (m : Type → Type) [Monad m] where
  add : UInt64 → UInt64 → m UInt64
  sub : UInt64 → UInt64 → m UInt64
  mul : UInt64 → UInt64 → m UInt64
  add_eq : ∀ a b, a.toNat + b.toNat < 2 ^ 64 → add a b = pure (a + b)
  sub_eq : ∀ a b, b ≤ a → sub a b = pure (a - b)
  mul_eq : ∀ a b, a.toNat * b.toNat < 2 ^ 64 → mul a b = pure (a * b)

namespace Arithmetic

def checked : Arithmetic Option where
  add := addU64
  sub a b := if b ≤ a then some (a - b) else none
  mul := mulU64
  add_eq _ _ fits := if_pos fits
  sub_eq _ _ le := if_pos le
  mul_eq _ _ fits := if_pos fits

def wrapping : Arithmetic Id where
  add a b := pure (a + b)
  sub a b := pure (a - b)
  mul a b := pure (a * b)
  add_eq _ _ _ := rfl
  sub_eq _ _ _ := rfl
  mul_eq _ _ _ := rfl

def saturating : Arithmetic Id where
  add a b := pure ((addU64 a b).getD (UInt64.ofNat (2 ^ 64 - 1)))
  sub a b := pure (satSubU64 a b)
  mul a b := pure ((mulU64 a b).getD (UInt64.ofNat (2 ^ 64 - 1)))
  add_eq a b fits := by rw [addU64, if_pos fits, Option.getD_some]
  sub_eq a b le := by rw [satSubU64, if_pos le]
  mul_eq a b fits := by rw [mulU64, if_pos fits, Option.getD_some]

variable {m : Type → Type} [Monad m] (A : Arithmetic m) {a b : UInt64}

theorem add_exact (fits : a.toNat + b.toNat < 2 ^ 64) :
    A.add a b = pure (a + b) ∧ (a + b).toNat = a.toNat + b.toNat :=
  ⟨A.add_eq a b fits, by rw [UInt64.toNat_add, Nat.mod_eq_of_lt fits]⟩

theorem mul_exact (fits : a.toNat * b.toNat < 2 ^ 64) :
    A.mul a b = pure (a * b) ∧ (a * b).toNat = a.toNat * b.toNat :=
  ⟨A.mul_eq a b fits, by rw [UInt64.toNat_mul, Nat.mod_eq_of_lt fits]⟩

end Arithmetic

end Checked
