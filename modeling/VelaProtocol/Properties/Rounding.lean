import VelaProtocol.Instructions.Proration
import VelaProtocol.Lib.Shares

/-! How the fixed-point proration compares with the exact one: it always succeeds within the
difference of the amounts, and is exact where the two roundings do not carry. -/
namespace VelaProtocol

open Guard Shares

variable {old new elapsed total : Nat}

def exactProration (old new elapsed total : Nat) : Int :=
  Int.tdiv (((new : Int) - old) * (total - elapsed : Nat)) total

theorem remainingScaled_eq (new remaining total : Nat) :
    remainingScaled new remaining total = down Precise.one total (new * remaining) := rfl

theorem unusedScaled_eq (old : Nat) (positive : 0 < total) (le : elapsed ≤ total) :
    unusedScaled old elapsed total = up Precise.one total (old * (total - elapsed)) := by
  refine up_of_unused positive ?_
  rw [← Nat.mul_add, Nat.add_sub_of_le le]

theorem proratedDelta_charge (positive : 0 < total) (within : elapsed ≤ total) (le : old ≤ new) :
    proratedDelta old new elapsed total =
      ((down Precise.one total (new * (total - elapsed)) -
        up Precise.one total (old * (total - elapsed))) / Precise.one : Nat) := by
  rw [proratedDelta, unusedScaled_eq old positive within, remainingScaled_eq]
  have small := difference_small Precise.one positive
    (Nat.mul_le_mul_right (total - elapsed) le)
  unfold truncatedDifference
  split
  · rfl
  · rename_i ended
    have scale : 2 ≤ Precise.one := by simp [Precise.one]
    rw [Nat.div_eq_of_lt (by omega), Nat.div_eq_of_lt (by omega)]
    rfl

theorem proratedDelta_credit (positive : 0 < total) (within : elapsed ≤ total) (le : new ≤ old) :
    proratedDelta old new elapsed total =
      -((up Precise.one total (old * (total - elapsed)) -
        down Precise.one total (new * (total - elapsed))) / Precise.one : Nat) := by
  rw [proratedDelta, unusedScaled_eq old positive within, remainingScaled_eq]
  have larger : down Precise.one total (new * (total - elapsed)) ≤
      up Precise.one total (old * (total - elapsed)) :=
    Nat.div_le_div_right (Nat.le_trans (Nat.mul_le_mul_right _ (Nat.mul_le_mul_right _ le))
      (Nat.le_add_right _ _))
  unfold truncatedDifference
  split
  · rename_i under
    rw [Nat.le_antisymm under larger, Nat.sub_self, Nat.zero_div]
    rfl
  · rfl

theorem exactProration_charge (le : old ≤ new) : exactProration old new elapsed total =
    ((new * (total - elapsed) - old * (total - elapsed)) / total : Nat) := by
  rw [exactProration, ← Int.ofNat_sub le, ← Int.natCast_mul, ← Nat.sub_mul]
  rfl

theorem exactProration_credit (le : new ≤ old) : exactProration old new elapsed total =
    -((old * (total - elapsed) - new * (total - elapsed)) / total : Nat) := by
  have difference : (new : Int) - old = -((old - new : Nat) : Int) := by omega
  rw [exactProration, difference, Int.neg_mul, Int.neg_tdiv, ← Int.natCast_mul, ← Nat.sub_mul]
  rfl

theorem exactProration_swap (old new elapsed total : Nat) :
    exactProration new old elapsed total = -exactProration old new elapsed total := by
  have difference : (old : Int) - new = -((new : Int) - old) := by omega
  rw [exactProration, difference, Int.neg_mul, Int.neg_tdiv]
  rfl

/-- What the two twelve-decimal shares lose together, in parts of the period. -/
def shareLoss (old new elapsed total : Nat) : Nat :=
  loss Precise.one total (new * (total - elapsed)) (old * (total - elapsed))

def scaledRest (old new elapsed total : Nat) : Nat :=
  (new * (total - elapsed) - old * (total - elapsed)) % total * Precise.one

/-- The loss does not reach into the whole units. -/
def NoCarry (old new elapsed total : Nat) : Prop :=
  if old ≤ new then
    new * (total - elapsed) - old * (total - elapsed) < total ∨
      shareLoss old new elapsed total ≤ scaledRest old new elapsed total
  else scaledRest new old elapsed total + shareLoss old new elapsed total < total * Precise.one

theorem proratedDelta_exact_iff (positive : 0 < total) (within : elapsed ≤ total) :
    proratedDelta old new elapsed total = exactProration old new elapsed total ↔
      NoCarry old new elapsed total := by
  unfold NoCarry
  by_cases le : old ≤ new
  · rw [if_pos le, proratedDelta_charge positive within le, exactProration_charge le,
      Int.natCast_inj]
    exact charge_eq_iff positive Precise.one_pos (Nat.mul_le_mul_right _ le)
  · have le' := Nat.le_of_not_le le
    rw [if_neg le, proratedDelta_credit positive within le', exactProration_credit le',
      Int.neg_inj, Int.natCast_inj]
    exact credit_eq_iff positive Precise.one_pos (Nat.mul_le_mul_right _ le')

/-- What exactness asks of one pair of amounts: the exact value, and the negated one for the amounts
exchanged. -/
structure ProratedExactly (old new elapsed total : UInt64) : Prop where
  exact : computeProration Precise.published old new elapsed total =
    .ok (exactProration old.toNat new.toNat elapsed.toNat total.toNat)
  exchanged : ∃ d, computeProration Precise.published old new elapsed total = .ok d ∧
    computeProration Precise.published new old elapsed total = .ok (-d)

theorem computeProration_exact_iff (old new : UInt64) {elapsed total : UInt64}
    (positive : 0 < total)
    (within : elapsed ≤ total) : computeProration Precise.published old new elapsed total =
      .ok (exactProration old.toNat new.toNat elapsed.toNat total.toNat) ↔
        NoCarry old.toNat new.toNat elapsed.toNat total.toNat := by
  rw [computeProration_eq _ positive within, Except.ok.injEq]
  exact proratedDelta_exact_iff (Checked.lt_iff.mp positive) (Checked.le_iff.mp within)

theorem proration_exact_iff {old new elapsed total : UInt64} (positive : 0 < total)
    (within : elapsed ≤ total) :
    (computeProration Precise.published old new elapsed total =
        .ok (exactProration old.toNat new.toNat elapsed.toNat total.toNat) ↔
      NoCarry old.toNat new.toNat elapsed.toNat total.toNat) ∧
    (ProratedExactly old new elapsed total ↔
      NoCarry old.toNat new.toNat elapsed.toNat total.toNat ∧
        NoCarry new.toNat old.toNat elapsed.toNat total.toNat) := by
  have forward := computeProration_exact_iff old new positive within
  have backward := computeProration_exact_iff new old positive within
  have swap := exactProration_swap old.toNat new.toNat elapsed.toNat total.toNat
  refine ⟨forward, ?_⟩
  constructor
  · rintro ⟨exact_value, d, one, other⟩
    refine ⟨forward.mp exact_value, backward.mp ?_⟩
    obtain rfl := Except.ok.inj (exact_value.symm.trans one)
    rw [swap]
    exact other
  · rintro ⟨carries, swapped⟩
    refine ⟨forward.mpr carries, _, forward.mpr carries, ?_⟩
    rw [← swap]
    exact backward.mpr swapped

theorem proration_exact_half : ProratedExactly 10000001 20000000 1296000 2592000 ↔
    NoCarry 10000001 20000000 1296000 2592000 ∧ NoCarry 20000000 10000001 1296000 2592000 :=
  (proration_exact_iff (by decide) (by decide)).2

theorem proration_loses_a_unit : ¬∀ old new elapsed total : UInt64, 0 < total → elapsed ≤ total →
    ProratedExactly old new elapsed total := by
  intro prorated
  have charged := (prorated 1 4 1 3 (by decide) (by decide)).exact
  revert charged
  decide +kernel

structure WithinDifference (old new elapsed total : UInt64) (d : Int) : Prop where
  oneSided : d.toNat = 0 ∨ (-d).toNat = 0
  charge : 0 < d → old < new ∧ d ≤ new.toNat - old.toNat
  credit : d < 0 → new < old ∧ -d ≤ old.toNat - new.toNat
  same : new = old → d = 0
  ended : elapsed = total → d = 0
  fresh : elapsed = 0 → d = new.toNat - old.toNat

theorem charge_bound (positive : 0 < total) (within : elapsed ≤ total) (le : old ≤ new) :
    0 ≤ proratedDelta old new elapsed total ∧
      proratedDelta old new elapsed total ≤ new - old := by
  rw [proratedDelta_charge positive within le]
  have units := charge_le positive Precise.one_pos
    (Nat.mul_le_mul_right (total - elapsed) le)
  have share : (new * (total - elapsed) - old * (total - elapsed)) / total ≤ new - old := by
    rw [← Nat.sub_mul]
    exact Nat.div_le_of_le_mul
      (Nat.mul_comm _ _ ▸ Nat.mul_le_mul_right _ (Nat.sub_le total elapsed))
  constructor
  · exact Int.natCast_nonneg _
  · omega

theorem credit_bound (positive : 0 < total) (within : elapsed ≤ total) (le : new ≤ old) :
    proratedDelta old new elapsed total ≤ 0 ∧
      -proratedDelta old new elapsed total ≤ old - new := by
  rw [proratedDelta_credit positive within le]
  have covered : old * (total - elapsed) ≤
      new * (total - elapsed) + (old - new) * total := by
    have rest := Nat.mul_le_mul_left (old - new) (Nat.sub_le total elapsed)
    calc old * (total - elapsed) = (new + (old - new)) * (total - elapsed) := by
          rw [Nat.add_sub_of_le le]
      _ = new * (total - elapsed) + (old - new) * (total - elapsed) := Nat.add_mul _ _ _
      _ ≤ _ := Nat.add_le_add_left rest _
  have units := credit_le positive (show 2 ≤ Precise.one by simp [Precise.one]) covered
  generalize (up Precise.one total (old * (total - elapsed)) -
    down Precise.one total (new * (total - elapsed))) / Precise.one = credit at units ⊢
  omega

theorem proratedDelta_fresh (positive : 0 < total) :
    proratedDelta old new 0 total = new - old := by
  have unit := Precise.one_pos
  rcases Nat.le_total old new with le | le
  · rw [proratedDelta_charge positive (Nat.zero_le _) le, Nat.sub_zero, down_whole positive,
      up_whole positive, ← Nat.sub_mul, Nat.mul_div_cancel _ unit]
    omega
  · rw [proratedDelta_credit positive (Nat.zero_le _) le, Nat.sub_zero, down_whole positive,
      up_whole positive, ← Nat.sub_mul, Nat.mul_div_cancel _ unit]
    omega

/-- Every step of the proration succeeds, and its result stays within the difference. -/
theorem proration_bounded {old new elapsed total : UInt64} (positive : 0 < total)
    (within : elapsed ≤ total) :
    ∃ d, computeProration Precise.published old new elapsed total = .ok d ∧
      WithinDifference old new elapsed total d := by
  have length : 0 < total.toNat := Checked.lt_iff.mp positive
  have part : elapsed.toNat ≤ total.toNat := Checked.le_iff.mp within
  refine ⟨_, computeProration_eq _ positive within, ?_⟩
  have ended : elapsed = total →
      proratedDelta old.toNat new.toNat elapsed.toNat total.toNat = 0 := by
    rintro rfl
    exact proratedDelta_over _ _ length
  have fresh : elapsed = 0 → proratedDelta old.toNat new.toNat elapsed.toNat total.toNat =
      new.toNat - old.toNat := by
    rintro rfl
    exact proratedDelta_fresh length
  rcases Nat.lt_trichotomy old.toNat new.toNat with less | equal | more
  · obtain ⟨nonneg, most⟩ := charge_bound length part less.le
    exact ⟨.inr (by omega), fun _ => ⟨Checked.lt_iff.mpr less, most⟩, fun negative => by omega,
      fun same => by rw [same] at less; omega, ended, fresh⟩
  · obtain ⟨nonneg, most⟩ := charge_bound length part equal.le
    have zero : proratedDelta old.toNat new.toNat elapsed.toNat total.toNat = 0 := by omega
    exact ⟨.inl (by omega), fun charged => by omega, fun negative => by omega, fun _ => zero, ended,
      fresh⟩
  · obtain ⟨nonpos, most⟩ := credit_bound length part more.le
    exact ⟨.inl (by omega), fun charged => by omega, fun _ => ⟨Checked.lt_iff.mpr more, most⟩,
      fun same => by rw [same] at more; omega, ended, fresh⟩

theorem proration_bounded_third : ∃ d,
    computeProration Precise.published 4 1 1 3 = .ok d ∧ WithinDifference 4 1 1 3 d :=
  proration_bounded (by decide) (by decide)

end VelaProtocol
