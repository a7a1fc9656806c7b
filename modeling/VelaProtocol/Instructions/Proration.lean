import VelaProtocol.Lib.Checked
import VelaProtocol.Lib.Precise
import VelaProtocol.State.Errors

/-! Mid-period proration in fixed-point arithmetic. -/
namespace VelaProtocol

open Guard

def floorToU128 (value : Nat) : Result Nat :=
  orVela (Precise.toImprecise (Precise.floor value)) .mathOverflow

def floorToI128 (value : Nat) : Result Int := do
  let raw ← floorToU128 value
  check (raw < 2 ^ 127) .mathOverflow
  return raw

def signedProration (unusedOld newForRemaining : Nat) : Result Int :=
  if unusedOld ≤ newForRemaining then do
    let signedDelta ← orVela (Precise.checkedSub newForRemaining unusedOld) .mathUnderflow
    floorToI128 signedDelta
  else do
    let signedDelta ← orVela (Precise.checkedSub unusedOld newForRemaining) .mathUnderflow
    let signed ← floorToI128 signedDelta
    return -signed

/-- `compute_proration`: a charge when positive, a credit when negative -/
def computeProration (A : Precise.Arithmetic) (planAmountOld planAmountNew elapsedSeconds
    periodTotalSeconds : UInt64) : Result Int := do
  check (0 < periodTotalSeconds) .mathDivByZero
  check (elapsedSeconds ≤ periodTotalSeconds) .invalidElapsed
  let old ← orVela (Precise.new planAmountOld.toNat) .mathOverflow
  let newAmount ← orVela (Precise.new planAmountNew.toNat) .mathOverflow
  let elapsed ← orVela (Precise.new elapsedSeconds.toNat) .mathOverflow
  let total ← orVela (Precise.new periodTotalSeconds.toNat) .mathOverflow
  let remaining ← orVela (Precise.checkedSub total elapsed) .mathUnderflow
  let oldElapsed ← orVela (A.checkedMul old elapsed) .mathOverflow
  let usedOld ← orVela (A.checkedDiv oldElapsed total) .mathOverflow
  let unusedOld ← orVela (Precise.checkedSub old usedOld) .mathUnderflow
  let newRemaining ← orVela (A.checkedMul newAmount remaining) .mathOverflow
  let newForRemaining ← orVela (A.checkedDiv newRemaining total) .mathOverflow
  signedProration unusedOld newForRemaining

/-- Scaled value of the old plan's unused part: the used part is truncated first. -/
def unusedScaled (old elapsed total : Nat) : Nat :=
  old * Precise.one - old * elapsed * Precise.one / total

/-- Scaled value of the new plan over the remaining seconds, truncated. -/
def remainingScaled (new remaining total : Nat) : Nat := new * remaining * Precise.one / total

/-- A scaled difference cut to whole units towards zero, `old` to `new`. -/
def truncatedDifference (old new : Nat) : Int :=
  if old ≤ new then ((new - old) / Precise.one : Nat) else -((old - new) / Precise.one : Nat)

def proratedDelta (old new elapsed total : Nat) : Int :=
  truncatedDifference (unusedScaled old elapsed total)
    (remainingScaled new (total - elapsed) total)

theorem used_le {old elapsed total : Nat} (le : elapsed ≤ total) :
    old * elapsed * Precise.one / total ≤ old * Precise.one := by
  refine Nat.div_le_of_le_mul ?_
  calc old * elapsed * Precise.one = elapsed * (old * Precise.one) := by ring
    _ ≤ total * (old * Precise.one) := Nat.mul_le_mul_right _ le

theorem unusedScaled_le (old elapsed total : Nat) :
    unusedScaled old elapsed total ≤ old * Precise.one := Nat.sub_le _ _

theorem remainingScaled_le {new remaining total : Nat} (le : remaining ≤ total) :
    remainingScaled new remaining total ≤ new * Precise.one :=
  used_le le

theorem proratedDelta_over (old new : Nat) {total : Nat} (positive : 0 < total) :
    proratedDelta old new total total = 0 := by
  have used : old * total * Precise.one / total = old * Precise.one := by
    rw [Nat.mul_right_comm, Nat.mul_div_cancel _ positive]
  have unused : unusedScaled old total total = 0 := by
    rw [unusedScaled, used, Nat.sub_self]
  have remaining : remainingScaled new (total - total) total = 0 := by
    rw [remainingScaled, Nat.sub_self, Nat.mul_zero, Nat.zero_mul, Nat.zero_div]
  rw [proratedDelta, unused, remaining, truncatedDifference, if_pos (Nat.le_refl 0), Nat.sub_self,
    Nat.zero_div]
  rfl

theorem truncatedDifference_bounds (old new : Nat) :
    truncatedDifference old new * Precise.one < (new : Int) - old + Precise.one ∧
      (new : Int) - old < truncatedDifference old new * Precise.one + Precise.one ∧
      (truncatedDifference old new < 0 →
        (new : Int) - old ≤ truncatedDifference old new * Precise.one) := by
  have pos := Precise.one_pos
  unfold truncatedDifference
  generalize Precise.one = scale at *
  by_cases charge : old ≤ new
  · rw [if_pos charge]
    have rest := Nat.mod_lt (new - old) pos
    have exact_form : (new : Int) - old =
        ((new - old) / scale : Nat) * scale + ((new - old) % scale : Nat) := by
      rw [← Int.ofNat_sub charge, ← Int.natCast_mul, ← Int.natCast_add, Nat.div_add_mod']
    have nonneg : (0 : Int) ≤ ((new - old) / scale : Nat) := Int.natCast_nonneg _
    rw [exact_form]
    refine ⟨?_, ?_, fun negative => absurd negative (Int.not_lt.mpr nonneg)⟩ <;>
      generalize (((new - old) / scale : Nat) : Int) * scale = product at * <;> omega
  · rw [if_neg charge]
    have rest := Nat.mod_lt (old - new) pos
    have exact_form : (new : Int) - old =
        -(((old - new) / scale : Nat) * scale + ((old - new) % scale : Nat)) := by
      rw [← Int.natCast_mul, ← Int.natCast_add, Nat.div_add_mod']
      omega
    rw [exact_form, Int.neg_mul]
    generalize (((old - new) / scale : Nat) : Int) * scale = product at *
    refine ⟨?_, ?_, fun _ => ?_⟩ <;> omega

theorem scaled_quotient (part : Nat) {total : Nat} (positive : 0 < total) :
    (total : Int) * (part / total : Nat) ≤ part ∧
      (part : Int) < total * (part / total : Nat) + total := by
  have value := Nat.div_add_mod part total
  have rest := Nat.mod_lt part positive
  rw [← Int.natCast_mul]
  generalize total * (part / total) = product at *
  constructor <;> omega

theorem scaledDelta_bounds {old new elapsed total : Nat} (positive : 0 < total)
    (le : elapsed ≤ total) :
    (total : Int) * (remainingScaled new (total - elapsed) total - unusedScaled old elapsed total) ≤
        ((new : Int) - old) * (total - elapsed : Nat) * Precise.one ∧
      ((new : Int) - old) * (total - elapsed : Nat) * Precise.one <
        total * (remainingScaled new (total - elapsed) total - unusedScaled old elapsed total) +
          2 * total := by
  have used_bounds := scaled_quotient (old * elapsed * Precise.one) positive
  have new_bounds := scaled_quotient (new * (total - elapsed) * Precise.one) positive
  have unused : (total : Int) * unusedScaled old elapsed total =
      total * old * Precise.one - total * (old * elapsed * Precise.one / total : Nat) := by
    rw [unusedScaled, Int.ofNat_sub (used_le le)]
    push_cast
    ring
  have remaining : ((total - elapsed : Nat) : Int) = total - elapsed := Int.ofNat_sub le
  have exact_form : ((new : Int) - old) * (total - elapsed : Nat) * Precise.one =
      (new * (total - elapsed) * Precise.one : Nat) -
        (total * old * Precise.one - (old * elapsed * Precise.one : Nat)) := by
    rw [Int.natCast_mul, Int.natCast_mul, Int.natCast_mul, Int.natCast_mul, remaining]
    ring
  rw [Int.mul_sub, unused, exact_form, remainingScaled]
  constructor <;> linarith

theorem scaled_div_lt {a bound : Nat} (le : a ≤ bound * Precise.one) (small : bound < 2 ^ 64) :
    a / Precise.one < 2 ^ 64 := by
  refine Nat.lt_of_le_of_lt (Nat.div_le_of_le_mul ?_) small
  rwa [Nat.mul_comm]

theorem floorToI128_eq {value : Nat} (small : value / Precise.one < 2 ^ 64) :
    floorToI128 value = .ok (value / Precise.one : Nat) := by
  have rounded : floorToU128 value = .ok (value / Precise.one) := by
    rw [floorToU128, orVela, Precise.toImprecise_floor (Nat.lt_trans small (by norm_num)),
      orError_some]
  have narrow : value / Precise.one < 2 ^ 127 := Nat.lt_trans small (by norm_num)
  rw [floorToI128, rounded, ok_bind, check, require_of _ narrow, ok_bind]
  rfl

theorem signedProration_eq {a b bound_a bound_b : Nat} (le_a : a ≤ bound_a * Precise.one)
    (small_a : bound_a < 2 ^ 64) (le_b : b ≤ bound_b * Precise.one) (small_b : bound_b < 2 ^ 64) :
    signedProration a b = .ok (truncatedDifference a b) := by
  unfold signedProration truncatedDifference
  by_cases charge : a ≤ b
  · have small := scaled_div_lt (Nat.le_trans (Nat.sub_le b a) le_b) small_b
    rw [if_pos charge, if_pos charge, Precise.checkedSub_of_le charge, orVela, orError_some,
      ok_bind, floorToI128_eq small]
  · have le := Nat.le_of_not_le charge
    have small := scaled_div_lt (Nat.le_trans (Nat.sub_le a b) le_a) small_a
    rw [if_neg charge, if_neg charge, Precise.checkedSub_of_le le, orVela, orError_some,
      ok_bind, floorToI128_eq small]
    rfl

theorem computeProration_eq (A : Precise.Arithmetic) {old new elapsed total : UInt64}
    (positive : 0 < total) (le : elapsed ≤ total) :
    computeProration A old new elapsed total =
      .ok (proratedDelta old.toNat new.toNat elapsed.toNat total.toNat) := by
  have total_pos : 0 < total.toNat := Checked.lt_iff.mp positive
  have elapsed_le : elapsed.toNat ≤ total.toNat := Checked.le_iff.mp le
  have old_lt := Checked.toNat_lt old
  have new_lt := Checked.toNat_lt new
  have elapsed_lt := Checked.toNat_lt elapsed
  have total_lt := Checked.toNat_lt total
  have wide : ∀ {a b : Nat}, a < 2 ^ 64 → b < 2 ^ 64 → a * b < 2 ^ 128 := fun ha hb =>
    calc _ < 2 ^ 64 * 2 ^ 64 := Nat.mul_lt_mul'' ha hb
      _ = 2 ^ 128 := by norm_num
  have remaining : Precise.checkedSub (total.toNat * Precise.one) (elapsed.toNat * Precise.one) =
      some ((total.toNat - elapsed.toNat) * Precise.one) := by
    rw [Precise.checkedSub_of_le (Nat.mul_le_mul_right _ elapsed_le), Nat.sub_mul]
  have remaining_lt : total.toNat - elapsed.toNat < 2 ^ 64 := by omega
  unfold computeProration
  rw [check, require_of _ positive, ok_bind, check, require_of _ le, ok_bind]
  rw [Precise.new, Precise.new, Precise.new, Precise.new, orVela, orError_some, ok_bind, orVela,
    orError_some, ok_bind, orVela, orError_some, ok_bind, orVela, orError_some, ok_bind]
  rw [remaining, orVela, orError_some, ok_bind]
  rw [A.mul_whole _ _ old_lt elapsed_lt, orVela, orError_some, ok_bind,
    A.div_whole _ _ (wide old_lt elapsed_lt) total_pos total_lt, orVela, orError_some, ok_bind]
  rw [Precise.checkedSub_of_le (used_le elapsed_le), orVela, orError_some, ok_bind]
  rw [A.mul_whole _ _ new_lt remaining_lt, orVela, orError_some, ok_bind,
    A.div_whole _ _ (wide new_lt remaining_lt) total_pos total_lt, orVela, orError_some, ok_bind]
  exact signedProration_eq (unusedScaled_le _ _ _) old_lt
    (remainingScaled_le (Nat.sub_le _ _)) new_lt

theorem computeProration_eq_ok {A : Precise.Arithmetic} {old new elapsed total : UInt64} {d : Int} :
    computeProration A old new elapsed total = .ok d ↔
      0 < total ∧ elapsed ≤ total ∧
        d = proratedDelta old.toNat new.toNat elapsed.toNat total.toNat := by
  constructor
  · intro h
    have guards := h
    simp only [computeProration, check, require_bind_eq_ok] at guards
    obtain ⟨positive, le, _⟩ := guards
    rw [computeProration_eq A positive le] at h
    exact ⟨positive, le, (Except.ok.inj h).symm⟩
  · rintro ⟨positive, le, rfl⟩
    exact computeProration_eq A positive le

end VelaProtocol
