import VelaProtocol.Instructions.Plans
import VelaProtocol.Lib.Overflow
import VelaProtocol.Lib.Tiers

/-! The `tiered_pricing` circuit and its plaintext model, each in any arithmetic of 64-bit words:
within the pricing envelope nothing leaves the range, so the arithmetic does not matter. -/
namespace VelaProtocol

open Checked

variable {m : Type → Type} [Monad m]

/-- How far a tier reaches: a bound of 0 is none, for an active tier. -/
def tierUpper (units boundary : UInt64) (active : Bool) : UInt64 :=
  if active && boundary == 0 then units else if boundary < units then boundary else units

def tierCharge0 (A : Arithmetic m) (units boundary rate : UInt64) (active : Bool) : m UInt64 := do
  let unitsInTier := tierUpper units boundary active
  if active then A.mul unitsInTier rate else pure 0

def unitsInTier (A : Arithmetic m) (upper previous : UInt64) : m UInt64 :=
  if previous < upper then A.sub upper previous else pure 0

def tierCharge (A : Arithmetic m) (units previous boundary rate : UInt64) (active : Bool) :
    m UInt64 := do
  let unitsInTier ← unitsInTier A (tierUpper units boundary active) previous
  if active then A.mul unitsInTier rate else pure 0

/-- The `tiered_pricing` circuit, a branch evaluated when it is taken -/
def tieredPricing (A : Arithmetic m) (units : UInt64) (boundaries rates : Vector UInt64 5)
    (tierCount : UInt8) (maxCharge : UInt64) : m UInt64 := do
  let charge0 ← tierCharge0 A units boundaries[0] rates[0] (0 < tierCount)
  let totalCharge ← A.add 0 charge0
  let charge1 ← tierCharge A units boundaries[0] boundaries[1] rates[1] (1 < tierCount)
  let totalCharge ← A.add totalCharge charge1
  let charge2 ← tierCharge A units boundaries[1] boundaries[2] rates[2] (2 < tierCount)
  let totalCharge ← A.add totalCharge charge2
  let charge3 ← tierCharge A units boundaries[2] boundaries[3] rates[3] (3 < tierCount)
  let totalCharge ← A.add totalCharge charge3
  let charge4 ← tierCharge A units boundaries[3] boundaries[4] rates[4] (4 < tierCount)
  let totalCharge ← A.add totalCharge charge4
  return if maxCharge < totalCharge then maxCharge else totalCharge

def usageCharge (A : Arithmetic m) (usageUnits ratePerUnit maxCharge : UInt64) : m UInt64 := do
  let charge ← A.mul usageUnits ratePerUnit
  return if maxCharge < charge then maxCharge else charge

/-- What the circuit returns that the arguments are queued for, on the units behind the
ciphertext. -/
def computedCharge (A : Arithmetic Option) (units : UInt64) :
    ComputationArgs → Option UInt64
  | .usageCharge _ _ _ ratePerUnit maxCharge => usageCharge A units ratePerUnit maxCharge
  | .tieredPricing _ _ _ upTo rates tierCount maxCharge =>
    tieredPricing A units upTo rates tierCount maxCharge
  | .validateMandate .. | .recordBillingEvent .. => none

def plaintextLoop (A : Arithmetic m) (units : UInt64) :
    UInt64 → UInt64 → List (UInt64 × UInt64) → m UInt64
  | totalCharge, _, [] => return totalCharge
  | totalCharge, previousBound, (boundary, rate) :: rest => do
    let upper := if boundary = 0 then units else min units boundary
    let unitsInTier := satSubU64 upper previousBound
    let charge ← A.mul unitsInTier rate
    let totalCharge ← A.add totalCharge charge
    plaintextLoop A units totalCharge (if boundary ≠ 0 then boundary else previousBound) rest

def activePairs (boundaries rates : Vector UInt64 5) (tierCount : UInt8) :
    List (UInt64 × UInt64) :=
  (boundaries.zip rates).toList.take (min tierCount.toNat 5)

def plaintextPricing (A : Arithmetic m) (units : UInt64) (boundaries rates : Vector UInt64 5)
    (tierCount : UInt8) (maxCharge : UInt64) : m UInt64 := do
  let totalCharge ← plaintextLoop A units 0 0 (activePairs boundaries rates tierCount)
  return min totalCharge maxCharge

/-- `tiered_pricing_plaintext_model`: additions and multiplications saturate -/
def tieredPricingPlaintextModel (units : UInt64) (boundaries rates : Vector UInt64 5)
    (tierCount : UInt8) (maxCharge : UInt64) : UInt64 :=
  plaintextPricing Arithmetic.saturating units boundaries rates tierCount maxCharge

def tierNumbers (tiers : List (UInt64 × UInt64)) : List (Nat × Nat) :=
  tiers.map fun tier => (tier.1.toNat, tier.2.toNat)

theorem total_cons (units previous : Nat) (boundary rate : UInt64) (rest : List (UInt64 × UInt64)) :
    Tiers.total units previous (tierNumbers ((boundary, rate) :: rest)) =
      (Tiers.reach units boundary.toNat - previous) * rate.toNat +
        Tiers.total units boundary.toNat (tierNumbers rest) := rfl

/-- Tiers within the pricing envelope. -/
structure Enveloped (tiers : List (UInt64 × UInt64)) : Prop where
  count : tiers.length ≤ 5
  rates : ∀ tier ∈ tiers, tier.2 ≤ maxSafeUsageRatePerUnit
  increasing : Tiers.Increasing 0 (tierNumbers tiers)

def fullTier : Nat := maxSafeUsageUnits.toNat * maxSafeUsageRatePerUnit.toNat

theorem five_tiers_fit : 5 * fullTier < 2 ^ 64 := by
  decide

section Tiers

variable (A : Arithmetic m) {units previous boundary rate total : UInt64}

theorem tierUpper_toNat : (tierUpper units boundary true).toNat =
    Tiers.reach units.toNat boundary.toNat := by
  have zero : boundary = 0 ↔ boundary.toNat = 0 := UInt64.toNat_inj.symm
  unfold tierUpper Tiers.reach
  by_cases unlimited : boundary = 0
  · rw [if_pos (zero.mp unlimited), unlimited]
    rfl
  · rw [if_neg (mt zero.mpr unlimited)]
    simp only [Bool.true_and, beq_iff_eq, unlimited, if_false, lt_iff]
    split <;> omega

theorem unitsInTier_eq (upper : UInt64) :
    unitsInTier A upper previous = pure (satSubU64 upper previous) := by
  unfold unitsInTier
  by_cases above : previous < upper
  · have le : previous ≤ upper := UInt64.le_of_lt above
    rw [if_pos above, A.sub_eq upper previous le, satSubU64, if_pos le]
  · rw [if_neg above]
    refine congrArg pure (UInt64.toNat_inj.mp ?_)
    rw [satSubU64_toNat]
    have below := mt lt_iff.mpr above
    simp only [UInt64.toNat_zero]
    omega

theorem charge_exact {units : UInt64} (few : units ≤ maxSafeUsageUnits)
    (cheap : rate ≤ maxSafeUsageRatePerUnit) :
    A.mul units rate = pure (units * rate) ∧ (units * rate).toNat = units.toNat * rate.toNat := by
  have charge : units.toNat * rate.toNat ≤ fullTier :=
    Nat.mul_le_mul (le_iff.mp few) (le_iff.mp cheap)
  have five := five_tiers_fit
  exact A.mul_exact (by omega)

variable [LawfulMonad m]

theorem tierCharge_active (few : units ≤ maxSafeUsageUnits)
    (cheap : rate ≤ maxSafeUsageRatePerUnit) (previous boundary : UInt64) :
    ∃ charge, tierCharge A units previous boundary rate true = pure charge ∧
      charge.toNat = (Tiers.reach units.toNat boundary.toNat - previous.toNat) * rate.toNat := by
  let upper := tierUpper units boundary true
  have value : (satSubU64 upper previous).toNat =
      Tiers.reach units.toNat boundary.toNat - previous.toNat := by
    rw [satSubU64_toNat, tierUpper_toNat]
  have within : satSubU64 upper previous ≤ maxSafeUsageUnits := by
    rw [le_iff, value]
    have reach := Tiers.reach_le units.toNat boundary.toNat
    have few := le_iff.mp few
    omega
  obtain ⟨product, times⟩ := charge_exact A within cheap
  refine ⟨satSubU64 upper previous * rate, ?_, by rw [times, value]⟩
  simp only [tierCharge, unitsInTier_eq, pure_bind, if_true]
  exact product

theorem tierCharge_inactive : tierCharge A units previous boundary rate false = pure 0 := by
  simp only [tierCharge, unitsInTier_eq, pure_bind, Bool.false_eq_true, if_false]

theorem tierCharge0_eq (active : Bool) :
    tierCharge0 A units boundary rate active = tierCharge A units 0 boundary rate active := by
  have whole (upper : UInt64) : satSubU64 upper 0 = upper := by
    rw [← UInt64.toNat_inj, satSubU64_toNat]
    rfl
  simp only [tierCharge0, tierCharge, unitsInTier_eq, pure_bind, whole]

theorem usageCharge_eq (few : units ≤ maxSafeUsageUnits)
    (cheap : rate ≤ maxSafeUsageRatePerUnit) (maxCharge : UInt64) : ∃ charge,
      usageCharge A units rate maxCharge = pure charge ∧
        charge.toNat = min (units.toNat * rate.toNat) maxCharge.toNat := by
  obtain ⟨charged, product⟩ := charge_exact A few cheap
  refine ⟨if maxCharge < units * rate then maxCharge else units * rate, ?_, ?_⟩
  · simp only [usageCharge, charged, pure_bind]
  · rw [← product]
    by_cases capped : maxCharge < units * rate
    · have above := lt_iff.mp capped
      rw [if_pos capped]
      omega
    · have within := mt lt_iff.mpr capped
      rw [if_neg capped]
      omega

def tierLoop (A : Arithmetic m) (units : UInt64) :
    UInt64 → UInt64 → List (Bool × UInt64 × UInt64) → m UInt64
  | total, _, [] => pure total
  | total, previous, (active, boundary, rate) :: rest => do
    let charge ← tierCharge A units previous boundary rate active
    let total ← A.add total charge
    tierLoop A units total boundary rest

def tierSlots (boundaries rates : Vector UInt64 5) (tierCount : UInt8) :
    List (Bool × UInt64 × UInt64) :=
  [(decide (0 < tierCount), boundaries[0], rates[0]),
    (decide (1 < tierCount), boundaries[1], rates[1]),
    (decide (2 < tierCount), boundaries[2], rates[2]),
    (decide (3 < tierCount), boundaries[3], rates[3]),
    (decide (4 < tierCount), boundaries[4], rates[4])]

theorem tieredPricing_loop {boundaries rates : Vector UInt64 5} {tierCount : UInt8}
    {maxCharge : UInt64} : tieredPricing A units boundaries rates tierCount maxCharge = (do
      let total ← tierLoop A units 0 0 (tierSlots boundaries rates tierCount)
      return if maxCharge < total then maxCharge else total) := by
  simp only [tieredPricing, tierSlots, tierLoop, tierCharge0_eq, bind_assoc, pure_bind]

theorem tierLoop_inactive (slots : List (UInt64 × UInt64)) : ∀ total previous,
    tierLoop A units total previous (slots.map (false, ·)) = pure total := by
  induction slots with
  | nil => exact fun _ _ => rfl
  | cons slot rest ih =>
    intro total previous
    have unchanged : total.toNat + (0 : UInt64).toNat < 2 ^ 64 := toNat_lt total
    simp only [List.map_cons, tierLoop, tierCharge_inactive, pure_bind,
      A.add_eq total 0 unchanged, UInt64.add_zero, ih]

theorem tierLoop_active (few : units ≤ maxSafeUsageUnits) (unused tiers : List (UInt64 × UInt64)) :
    ∀ total previous, (∀ tier ∈ tiers, tier.2 ≤ maxSafeUsageRatePerUnit) →
      total.toNat + tiers.length * fullTier < 2 ^ 64 →
      ∃ sum, tierLoop A units total previous (tiers.map (true, ·) ++ unused.map (false, ·)) =
        pure sum ∧ sum.toNat = total.toNat +
          Tiers.total units.toNat previous.toNat (tierNumbers tiers) := by
  induction tiers with
  | nil =>
    intro total previous _ _
    exact ⟨total, tierLoop_inactive A unused total previous, rfl⟩
  | cons tier rest ih =>
    obtain ⟨boundary, rate⟩ := tier
    intro total previous cheap room
    have here : rate ≤ maxSafeUsageRatePerUnit := cheap _ List.mem_cons_self
    obtain ⟨charge, charged, value⟩ := tierCharge_active A few here previous boundary
    have most : charge.toNat ≤ fullTier := by
      rw [value]
      refine Nat.mul_le_mul ?_ (le_iff.mp here)
      have reach := Tiers.reach_le units.toNat boundary.toNat
      have few := le_iff.mp few
      omega
    simp only [List.length_cons, Nat.add_mul] at room
    obtain ⟨added, sum⟩ := A.add_exact (a := total) (b := charge) (by omega)
    obtain ⟨final, looped, result⟩ := ih (total + charge) boundary
      (fun tier mem => cheap tier (List.mem_cons_of_mem _ mem)) (by omega)
    refine ⟨final, ?_, ?_⟩
    · simp only [List.map_cons, List.cons_append, tierLoop, charged, added, pure_bind]
      exact looped
    · rw [result, sum, value, total_cons]
      omega

theorem plaintextLoop_eq (few : units ≤ maxSafeUsageUnits) (tiers : List (UInt64 × UInt64)) :
    ∀ total previous bound, Tiers.Increasing bound (tierNumbers tiers) →
      (∀ tier ∈ tiers, tier.2 ≤ maxSafeUsageRatePerUnit) →
      total.toNat + tiers.length * fullTier < 2 ^ 64 →
      ∃ sum, plaintextLoop A units total previous tiers = pure sum ∧
        sum.toNat = total.toNat + Tiers.total units.toNat previous.toNat (tierNumbers tiers) := by
  induction tiers with
  | nil => exact fun total _ _ _ _ _ => ⟨total, rfl, rfl⟩
  | cons tier rest ih =>
    obtain ⟨boundary, rate⟩ := tier
    intro total previous bound ⟨last, _, increasing⟩ cheap room
    have here : rate ≤ maxSafeUsageRatePerUnit := cheap _ List.mem_cons_self
    let upper := if boundary = 0 then units else min units boundary
    have reach : upper.toNat = Tiers.reach units.toNat boundary.toNat := by
      have zero : boundary = 0 ↔ boundary.toNat = 0 := UInt64.toNat_inj.symm
      simp only [upper, Tiers.reach, ← zero]
      split
      · rfl
      · exact min_toNat units boundary
    have value : (satSubU64 upper previous).toNat =
        Tiers.reach units.toNat boundary.toNat - previous.toNat := by
      rw [satSubU64_toNat, reach]
    have within : satSubU64 upper previous ≤ maxSafeUsageUnits := by
      have reach := Tiers.reach_le units.toNat boundary.toNat
      have few := le_iff.mp few
      rw [le_iff, value]
      omega
    obtain ⟨charged, product⟩ := charge_exact A within here
    have most : (satSubU64 upper previous * rate).toNat ≤ fullTier := by
      rw [product]
      exact Nat.mul_le_mul (le_iff.mp within) (le_iff.mp here)
    simp only [List.length_cons, Nat.add_mul] at room
    obtain ⟨added, sum⟩ := A.add_exact (a := total) (b := satSubU64 upper previous * rate)
      (by omega)
    -- after a tier without a bound there is no other, so the bound carried on is the tier's own
    obtain ⟨final, looped, result⟩ := ih (total + satSubU64 upper previous * rate)
      (if boundary ≠ 0 then boundary else previous) boundary.toNat increasing
      (fun tier mem => cheap tier (List.mem_cons_of_mem _ mem)) (by omega)
    refine ⟨final, ?_, ?_⟩
    · simp only [upper] at charged added looped
      simp only [plaintextLoop, charged, added, pure_bind]
      exact looped
    · rw [result, sum, product, value, total_cons, Nat.add_assoc]
      congr 2
      by_cases bounded : boundary = 0
      · have none : rest = [] := List.map_eq_nil_iff.mp (last (congrArg UInt64.toNat bounded))
        rw [none]
        rfl
      · rw [if_pos bounded]

theorem vector_five {α : Type} (v : Vector α 5) :
    v.toList = [v[0], v[1], v[2], v[3], v[4]] := by
  refine List.ext_getElem (by simp) fun i low high => ?_
  rw [Vector.getElem_toList]
  match i, high with
  | 0, _ => rfl
  | 1, _ => rfl
  | 2, _ => rfl
  | 3, _ => rfl
  | 4, _ => rfl
  | i + 5, high => exact absurd high (by simp)

theorem slots_split {α : Type} (n : Nat) (a b c d e : α) :
    [(decide (0 < n), a), (decide (1 < n), b), (decide (2 < n), c), (decide (3 < n), d),
        (decide (4 < n), e)] =
      ([a, b, c, d, e].take (min n 5)).map (true, ·) ++
        ([a, b, c, d, e].drop (min n 5)).map (false, ·) := by
  match n with
  | 0 => rfl
  | 1 => rfl
  | 2 => rfl
  | 3 => rfl
  | 4 => rfl
  | n + 5 => simp

theorem tierSlots_eq (boundaries rates : Vector UInt64 5) (tierCount : UInt8) :
    ∃ unused : List (UInt64 × UInt64), tierSlots boundaries rates tierCount =
      (activePairs boundaries rates tierCount).map (true, ·) ++ unused.map (false, ·) := by
  let pair (i : Fin 5) : UInt64 × UInt64 := (boundaries[i], rates[i])
  have pairs : (boundaries.zip rates).toList = [pair 0, pair 1, pair 2, pair 3, pair 4] := by
    simp only [vector_five, Vector.getElem_zip]
    rfl
  have split := slots_split tierCount.toNat (pair 0) (pair 1) (pair 2) (pair 3) (pair 4)
  refine ⟨(boundaries.zip rates).toList.drop (min tierCount.toNat 5), ?_⟩
  rw [activePairs, pairs, ← split]
  rfl

def pricedCharge (units : UInt64) (boundaries rates : Vector UInt64 5) (tierCount : UInt8)
    (maxCharge : UInt64) : UInt64 :=
  min (UInt64.ofNat (Tiers.total units.toNat 0
      (tierNumbers (activePairs boundaries rates tierCount)))) maxCharge

variable {boundaries rates : Vector UInt64 5} {tierCount : UInt8} {maxCharge : UInt64}

theorem Enveloped.room {tiers : List (UInt64 × UInt64)} (enveloped : Enveloped tiers) :
    (0 : UInt64).toNat + tiers.length * fullTier < 2 ^ 64 := by
  have most : tiers.length * fullTier ≤ 5 * fullTier := Nat.mul_le_mul_right _ enveloped.count
  have five := five_tiers_fit
  simp only [UInt64.toNat_zero]
  omega

theorem tieredPricing_eq (few : units ≤ maxSafeUsageUnits)
    (enveloped : Enveloped (activePairs boundaries rates tierCount)) :
    tieredPricing A units boundaries rates tierCount maxCharge =
      pure (pricedCharge units boundaries rates tierCount maxCharge) := by
  obtain ⟨unused, slots⟩ := tierSlots_eq boundaries rates tierCount
  obtain ⟨sum, looped, value⟩ := tierLoop_active A few unused _ 0 0 enveloped.rates enveloped.room
  have total : sum = UInt64.ofNat
      (Tiers.total units.toNat 0
      (tierNumbers (activePairs boundaries rates tierCount))) := by
    simp only [UInt64.toNat_zero, Nat.zero_add] at value
    rw [← value, UInt64.ofNat_toNat]
  rw [tieredPricing_loop, slots, looped, pure_bind, pricedCharge, ← total]
  refine congrArg pure (UInt64.toNat_inj.mp ?_)
  rw [min_toNat]
  by_cases capped : maxCharge < sum
  · have above := lt_iff.mp capped
    rw [if_pos capped]
    omega
  · have within := mt lt_iff.mpr capped
    rw [if_neg capped]
    omega

theorem plaintextPricing_eq (few : units ≤ maxSafeUsageUnits)
    (enveloped : Enveloped (activePairs boundaries rates tierCount)) :
    plaintextPricing A units boundaries rates tierCount maxCharge =
      pure (pricedCharge units boundaries rates tierCount maxCharge) := by
  obtain ⟨sum, looped, value⟩ := plaintextLoop_eq A few _ 0 0 0 enveloped.increasing enveloped.rates
    enveloped.room
  have total : sum = UInt64.ofNat
      (Tiers.total units.toNat 0
      (tierNumbers (activePairs boundaries rates tierCount))) := by
    simp only [UInt64.toNat_zero, Nat.zero_add] at value
    rw [← value, UInt64.ofNat_toNat]
  rw [plaintextPricing, looped, pure_bind, pricedCharge, ← total]

end Tiers

end VelaProtocol
