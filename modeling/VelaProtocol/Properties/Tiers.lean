import VelaProtocol.Deployment
import VelaProtocol.Instructions.Usage
import VelaProtocol.Pricing

/-! Usage pricing: for every plan the merchant's instructions accept, the circuit charges what the
plaintext model charges, and no operation of either leaves 64 bits. -/
namespace VelaProtocol

open Guard Checked

variable {P : Platform} {plan : UsagePlan}

def UsagePlan.activeTiers (plan : UsagePlan) : List PricingTier :=
  plan.tiers.toList.take plan.tierCount.toNat

/-- The validators of usage plans pass on the plan as it is stored. -/
structure Priced (plan : UsagePlan) : Prop where
  count : plan.tierCount.toNat ≤ 5
  boundaries : validateUsageTierBoundaries plan.activeTiers = .ok ()
  bounds : validateUsagePricingBounds plan.activeTiers plan.maxChargePerPeriod = .ok ()

/-- A plan as `create_usage_plan` or `update_usage_plan` stores it; an edit that keeps the tiers
keeps those of a plan accepted before. -/
inductive Accepted (P : Platform) : UsagePlan → Prop
  | created (w w' : World) (ctx : CreateUsagePlan) (plan : UsagePlan)
      (ok : createUsagePlan P w ctx = .ok w')
      (stored : (w'.plan (P.findProgramAddress (.usagePlan ctx.merchant ctx.planId)).1).map
        (·.contents) = some (.usage plan)) : Accepted P plan
  | edited (w w' : World) (ctx : UpdateUsagePlan) (loaded : LoadedPlanAccount)
      (old plan : UsagePlan) (load : loadPlanAccount P w ctx.usagePlan = .ok loaded)
      (start : editableUsage loaded = .ok old)
      (before : ctx.tiers = none → Accepted P old) (ok : updateUsagePlan P w ctx = .ok w')
      (stored : (w'.plan ctx.usagePlan).map (·.contents) = some (.usage plan)) : Accepted P plan

theorem tiersArray_take {tiers : List PricingTier} (few : tiers.length ≤ 5) :
    (tiersArray tiers).toList.take (UInt8.ofNat tiers.length).toNat = tiers := by
  have count : (UInt8.ofNat tiers.length).toNat = tiers.length :=
    UInt8.toNat_ofNat_of_lt' (by rw [UInt8.size]; omega)
  rw [count]
  refine List.ext_getElem ?_ fun i _ high => ?_
  · rw [List.length_take, Vector.length_toList]
    omega
  · rw [List.getElem_take, Vector.getElem_toList]
    refine (Vector.getElem_ofFn _).trans ?_
    rw [List.getD_eq_getElem?_getD, List.getElem?_eq_getElem high, Option.getD_some]

theorem boundaries_few {tiers : List PricingTier} {u : Unit}
    (ok : validateUsageTierBoundaries tiers = .ok u) : tiers.length ≤ 5 := by
  simp only [validateUsageTierBoundaries, check, require_bind_eq_ok] at ok
  exact ok.1.2

theorem priced_of_given {tiers : List PricingTier} {u v : Unit}
    (array : plan.tiers = tiersArray tiers) (count : plan.tierCount = UInt8.ofNat tiers.length)
    (boundaries : validateUsageTierBoundaries tiers = .ok u)
    (bounds : validateUsagePricingBounds tiers plan.maxChargePerPeriod = .ok v) : Priced plan := by
  have few := boundaries_few boundaries
  have active : plan.activeTiers = tiers := by
    rw [UsagePlan.activeTiers, array, count, tiersArray_take few]
  refine ⟨?_, ?_, ?_⟩
  · rw [count, UInt8.toNat_ofNat_of_lt' (by rw [UInt8.size]; omega)]
    exact few
  · rw [active]
    exact boundaries
  · rw [active]
    exact bounds

theorem Accepted.priced (accepted : Accepted P plan) : Priced plan := by
  induction accepted with
  | created w w' ctx plan ok stored =>
    obtain ⟨_, _, ok⟩ := bind_eq_ok.mp ok
    obtain ⟨_, _, ok⟩ := bind_eq_ok.mp ok
    obtain ⟨_, boundaries, ok⟩ := bind_eq_ok.mp ok
    iterate 2 obtain ⟨_, _, ok⟩ := bind_eq_ok.mp ok
    obtain ⟨_, bounds, ok⟩ := bind_eq_ok.mp ok
    iterate 5 obtain ⟨_, _, ok⟩ := bind_eq_ok.mp ok
    cases ok
    simp only [World.createPlan, Function.update_self, Option.map_some, Option.some.injEq,
      LoadedPlanAccount.usage.injEq] at stored
    subst stored
    exact priced_of_given rfl rfl boundaries bounds
  | edited w w' ctx loaded old plan load start before ok stored ih =>
    obtain ⟨_, _, ok⟩ := bind_eq_ok.mp ok
    obtain ⟨loaded', load', ok⟩ := bind_eq_ok.mp ok
    obtain rfl := Except.ok.inj (load.symm.trans load')
    iterate 2 obtain ⟨_, _, ok⟩ := bind_eq_ok.mp ok
    obtain ⟨old', start', ok⟩ := bind_eq_ok.mp ok
    obtain rfl := Except.ok.inj (start.symm.trans start')
    obtain ⟨replaced, given, ok⟩ := bind_eq_ok.mp ok
    obtain ⟨_, _, ok⟩ := bind_eq_ok.mp ok
    obtain ⟨_, kept, ok⟩ := bind_eq_ok.mp ok
    obtain ⟨_, _, ok⟩ := bind_eq_ok.mp ok
    cases ok
    obtain ⟨account, found, _⟩ := loadPlanAccount_eq_ok load
    simp only [World.emit, World.writePlan, Function.update_self, found, Option.map_some,
      Option.some.injEq, LoadedPlanAccount.usage.injEq] at stored
    subst stored
    cases tiers : ctx.tiers with
    | none =>
      rw [tiers] at given kept
      cases given
      obtain ⟨count, boundaries, _⟩ := ih tiers
      obtain ⟨active, taken, bounds⟩ := bind_eq_ok.mp kept
      obtain ⟨_, taken⟩ := require_bind_eq_ok.mp taken
      cases taken
      exact ⟨count, boundaries, bounds⟩
    | some tiers' =>
      rw [tiers] at given
      obtain ⟨_, boundaries, given⟩ := bind_eq_ok.mp given
      obtain ⟨_, bounds, given⟩ := bind_eq_ok.mp given
      cases given
      exact priced_of_given rfl rfl boundaries bounds

def PricingTier.pair (tier : PricingTier) : UInt64 × UInt64 := (tier.upTo, tier.ratePerUnit)

theorem activePairs_plan (count : plan.tierCount.toNat ≤ 5) :
    activePairs (plan.tiers.map (·.upTo)) (plan.tiers.map (·.ratePerUnit)) plan.tierCount =
      plan.activeTiers.map PricingTier.pair := by
  have zipped : (plan.tiers.map (·.upTo)).zip (plan.tiers.map (·.ratePerUnit)) =
      plan.tiers.map PricingTier.pair := by
    ext i bound
    all_goals simp [PricingTier.pair]
  rw [activePairs, zipped, Nat.min_eq_left count, Vector.toList_map, ← List.map_take,
    UsagePlan.activeTiers]

theorem tierBoundaries_increasing (tiers : List PricingTier) : ∀ previous : Option UInt64,
    tierBoundaries previous tiers = true →
      Tiers.Increasing ((previous.map (·.toNat)).getD 0)
        (tierNumbers (tiers.map PricingTier.pair)) := by
  induction tiers with
  | nil => exact fun _ _ => trivial
  | cons tier rest ih =>
    intro previous valid
    have zero : tier.upTo = 0 ↔ tier.upTo.toNat = 0 := UInt64.toNat_inj.symm
    simp only [tierBoundaries, Bool.and_eq_true] at valid
    obtain ⟨here, later⟩ := valid
    refine ⟨fun unlimited => ?_, fun bounded => ?_, ih (some tier.upTo) later⟩
    · rw [if_pos (zero.mpr unlimited)] at here
      rw [List.isEmpty_iff.mp here]
      rfl
    · rw [if_neg (mt zero.mp bounded)] at here
      cases previous with
      | none => exact Nat.pos_of_ne_zero bounded
      | some bound => exact lt_iff.mp (of_decide_eq_true here)

theorem Priced.enveloped (priced : Priced plan) :
    Enveloped (plan.activeTiers.map PricingTier.pair) := by
  obtain ⟨count, boundaries, bounds⟩ := priced
  have few := boundaries_few boundaries
  simp only [validateUsageTierBoundaries, check, require_bind_eq_ok, require_eq_ok] at boundaries
  simp only [validateUsagePricingBounds, check, require_bind_eq_ok, require_eq_ok] at bounds
  refine ⟨by rw [List.length_map]; exact few, fun tier mem => ?_, ?_⟩
  · obtain ⟨tier, used, rfl⟩ := List.mem_map.mp mem
    exact (bounds.2 tier used).1
  · exact tierBoundaries_increasing _ none boundaries.2

namespace UsagePlan

def tierTable (plan : UsagePlan) : List (Nat × Nat) :=
  plan.activeTiers.map fun tier => (tier.upTo.toNat, tier.ratePerUnit.toNat)

variable {m : Type → Type} [Monad m]

def circuitCharge (A : Arithmetic m) (plan : UsagePlan) (units : UInt64) : m UInt64 :=
  tieredPricing A units (plan.tiers.map (·.upTo)) (plan.tiers.map (·.ratePerUnit)) plan.tierCount
    plan.maxChargePerPeriod

def modelCharge (A : Arithmetic m) (plan : UsagePlan) (units : UInt64) : m UInt64 :=
  plaintextPricing A units (plan.tiers.map (·.upTo)) (plan.tiers.map (·.ratePerUnit))
    plan.tierCount plan.maxChargePerPeriod

def charge (plan : UsagePlan) (units : Nat) : Nat :=
  min (Tiers.total units 0 plan.tierTable) plan.maxChargePerPeriod.toNat

end UsagePlan

theorem tierTable_eq (plan : UsagePlan) :
    plan.tierTable = tierNumbers (plan.activeTiers.map PricingTier.pair) := by
  rw [tierNumbers, List.map_map]
  rfl

theorem pricedCharge_toNat {units maxCharge : UInt64} {boundaries rates : Vector UInt64 5}
    {tierCount : UInt8} (few : units ≤ maxSafeUsageUnits)
    (enveloped : Enveloped (activePairs boundaries rates tierCount)) :
    (pricedCharge units boundaries rates tierCount maxCharge).toNat =
      min (Tiers.total units.toNat 0 (tierNumbers (activePairs boundaries rates tierCount)))
        maxCharge.toNat := by
  obtain ⟨sum, _, value⟩ := plaintextLoop_eq Arithmetic.checked few _ 0 0 0 enveloped.increasing
    enveloped.rates enveloped.room
  simp only [UInt64.toNat_zero, Nat.zero_add] at value
  rw [pricedCharge, min_toNat, ← value, UInt64.ofNat_toNat]

theorem UsagePlan.charge_mono (plan : UsagePlan) {units units' : Nat} (le : units ≤ units') :
    plan.charge units ≤ plan.charge units' := by
  have total := Tiers.total_mono le plan.tierTable 0
  unfold UsagePlan.charge
  omega

theorem Priced.increasing (priced : Priced plan) : Tiers.Increasing 0 plan.tierTable := by
  rw [tierTable_eq]
  exact priced.enveloped.increasing

theorem activePairs_congr {boundaries boundaries' rates rates' : Vector UInt64 5}
    {tierCount : UInt8}
    (same : ∀ i (inside : i < 5), i < tierCount.toNat →
      boundaries[i] = boundaries'[i] ∧ rates[i] = rates'[i]) :
    activePairs boundaries rates tierCount = activePairs boundaries' rates' tierCount := by
  refine List.ext_getElem (by simp [activePairs]) fun i low high => ?_
  simp only [activePairs, List.length_take, Vector.length_toList] at low
  have inside : i < 5 := by omega
  have used : i < tierCount.toNat := by omega
  simp only [activePairs, List.getElem_take, Vector.getElem_toList, Vector.getElem_zip,
    same i inside used]

section

variable {m : Type → Type} [Monad m] [LawfulMonad m] (A : Arithmetic m) {units : UInt64}
  {boundaries rates : Vector UInt64 5}

def UsagePlan.Fills (plan : UsagePlan) (boundaries rates : Vector UInt64 5) : Prop :=
  ∀ i (_ : i < 5), i < plan.tierCount.toNat →
    boundaries[i] = plan.tiers[i].upTo ∧ rates[i] = plan.tiers[i].ratePerUnit

theorem UsagePlan.fills_self (plan : UsagePlan) :
    plan.Fills (plan.tiers.map (·.upTo)) (plan.tiers.map (·.ratePerUnit)) := by
  intro i inside _
  simp only [Vector.getElem_map, and_self]

theorem Priced.pairs (priced : Priced plan) (fills : plan.Fills boundaries rates) :
    activePairs boundaries rates plan.tierCount = plan.activeTiers.map PricingTier.pair := by
  rw [← activePairs_plan priced.count]
  refine activePairs_congr fun i inside used => ?_
  simp only [Vector.getElem_map]
  exact fills i inside used

theorem Priced.charges (priced : Priced plan) (few : units ≤ maxSafeUsageUnits) :
    ∃ charge : UInt64, charge.toNat = plan.charge units.toNat ∧
      ∀ boundaries rates, plan.Fills boundaries rates →
        tieredPricing A units boundaries rates plan.tierCount plan.maxChargePerPeriod =
            pure charge ∧
          plaintextPricing A units boundaries rates plan.tierCount plan.maxChargePerPeriod =
            pure charge := by
  have own := priced.pairs plan.fills_self
  have enveloped := priced.enveloped
  refine ⟨pricedCharge units (plan.tiers.map (·.upTo)) (plan.tiers.map (·.ratePerUnit))
    plan.tierCount plan.maxChargePerPeriod, ?_, fun boundaries rates fills => ?_⟩
  · rw [pricedCharge_toNat few (by rw [own]; exact enveloped), own, UsagePlan.charge, tierTable_eq]
  · have pairs := priced.pairs fills
    have within : Enveloped (activePairs boundaries rates plan.tierCount) := by
      rw [pairs]
      exact enveloped
    have charge : pricedCharge units boundaries rates plan.tierCount plan.maxChargePerPeriod =
        pricedCharge units (plan.tiers.map (·.upTo)) (plan.tiers.map (·.ratePerUnit))
          plan.tierCount plan.maxChargePerPeriod := by
      rw [pricedCharge, pricedCharge, pairs, own]
    rw [tieredPricing_eq A few within, plaintextPricing_eq A few within, charge]
    exact ⟨rfl, rfl⟩

end

/-- What the circuit and its model owe to a plan. Checked arithmetic evaluates the branches that are
taken, wrapping arithmetic stands for an evaluation of all of them. -/
structure PricedExactly (plan : UsagePlan) : Prop where
  /-- both return the charge, and no operation of either leaves 64 bits -/
  exact : ∀ units ≤ maxSafeUsageUnits, ∃ charge : UInt64,
    charge.toNat = plan.charge units.toNat ∧
      plan.circuitCharge Arithmetic.checked units = some charge ∧
      plan.modelCharge Arithmetic.checked units = some charge ∧
      plan.circuitCharge Arithmetic.wrapping units = charge ∧
      tieredPricingPlaintextModel units (plan.tiers.map (·.upTo)) (plan.tiers.map (·.ratePerUnit))
        plan.tierCount plan.maxChargePerPeriod = charge
  /-- before the cap, every unit costs the rate of the tier it falls in -/
  perUnit : ∀ units, Tiers.total units 0 plan.tierTable =
    ∑ unit ∈ Finset.Ico 0 units, Tiers.rateAt plan.tierTable unit
  /-- what the slots past the plan's tiers hold does not matter -/
  unused : ∀ units ≤ maxSafeUsageUnits, ∀ boundaries rates, plan.Fills boundaries rates →
    tieredPricing Arithmetic.checked units boundaries rates plan.tierCount
        plan.maxChargePerPeriod = plan.circuitCharge Arithmetic.checked units ∧
      plaintextPricing Arithmetic.checked units boundaries rates plan.tierCount
        plan.maxChargePerPeriod = plan.modelCharge Arithmetic.checked units
  monotone : ∀ units units', units ≤ units' → units' ≤ maxSafeUsageUnits → ∀ charge charge',
    plan.circuitCharge Arithmetic.checked units = some charge →
      plan.circuitCharge Arithmetic.checked units' = some charge' → charge ≤ charge'

theorem Priced.exactly (priced : Priced plan) : PricedExactly plan where
  exact units few := by
    obtain ⟨charge, value, checked⟩ := priced.charges Arithmetic.checked few
    obtain ⟨wrapped, value', wrapping⟩ := priced.charges Arithmetic.wrapping few
    obtain ⟨capped, value'', saturating⟩ := priced.charges Arithmetic.saturating few
    obtain rfl : wrapped = charge := UInt64.toNat_inj.mp (value'.trans value.symm)
    obtain rfl : capped = wrapped := UInt64.toNat_inj.mp (value''.trans value.symm)
    have own := checked _ _ plan.fills_self
    exact ⟨_, value, own.1, own.2, (wrapping _ _ plan.fills_self).1,
      (saturating _ _ plan.fills_self).2⟩
  perUnit _ := Tiers.total_eq_sum _ 0 priced.increasing
  unused units few boundaries rates fills := by
    obtain ⟨charge, _, checked⟩ := priced.charges Arithmetic.checked few
    have own := checked _ _ plan.fills_self
    have other := checked _ _ fills
    exact ⟨other.1.trans own.1.symm, other.2.trans own.2.symm⟩
  monotone units units' le few charge charge' charged charged' := by
    obtain ⟨_, value, checked⟩ := priced.charges Arithmetic.checked (UInt64.le_trans le few)
    obtain ⟨_, value', checked'⟩ := priced.charges Arithmetic.checked few
    obtain rfl := Option.some.inj ((checked _ _ plan.fills_self).1.symm.trans charged)
    obtain rfl := Option.some.inj ((checked' _ _ plan.fills_self).1.symm.trans charged')
    rw [le_iff, value, value']
    exact plan.charge_mono (le_iff.mp le)

theorem tiered_pricing_exact (accepted : Accepted P plan) : PricedExactly plan :=
  accepted.priced.exactly

open Deployment

def metered (tiers : List PricingTier) : CreateUsagePlan where
  merchant := merchant
  billingMint := mintA
  planId := 0
  unitName := 0
  tiers := tiers
  maxChargePerPeriod := 1000
  settlementFrequency := 3600

def storesPlan (tiers : List PricingTier) (test : UsagePlan → Bool) : Bool :=
  ((createUsagePlan platform (world 0) (metered tiers)).toOption).any fun w =>
    (w.plan (usagePlan 0)).any fun account =>
      match account.contents with
      | .usage plan => test plan
      | _ => false

theorem stored_accepted {tiers : List PricingTier} {test : UsagePlan → Bool}
    (stores : storesPlan tiers test = true) :
    ∃ plan, Accepted platform plan ∧ test plan = true := by
  simp only [storesPlan, Option.any_eq_true, toOption_eq_some] at stores
  obtain ⟨w, created, account, found, passes⟩ := stores
  cases contents : account.contents with
  | usage plan =>
    rw [contents] at passes
    refine ⟨plan, .created (world 0) w (metered tiers) plan created ?_, passes⟩
    exact (congrArg (Option.map _) found).trans (congrArg some contents)
  | flat plan => rw [contents] at passes; cases passes
  | legacyFlat plan => rw [contents] at passes; cases passes
  | legacyUsage plan => rw [contents] at passes; cases passes

theorem two_tiers_priced : ∃ plan : UsagePlan, plan.tierCount = 2 ∧ PricedExactly plan := by
  have stores : storesPlan [⟨100, 3, 0⟩, ⟨0, 2, 0⟩] (fun plan => plan.tierCount = 2) = true := by
    decide +kernel
  obtain ⟨plan, accepted, two⟩ := stored_accepted stores
  exact ⟨plan, of_decide_eq_true two, tiered_pricing_exact accepted⟩

/-- The terms of a plan with one tier, and units for which its bound makes no difference. -/
def BoundUnseen (plan : UsagePlan) (units : UInt64) : Prop :=
  plan.firstTier.upTo = 0 ∨ units ≤ plan.firstTier.upTo ∨ plan.firstTier.ratePerUnit = 0 ∨
    plan.maxChargePerPeriod.toNat ≤ plan.firstTier.upTo.toNat * plan.firstTier.ratePerUnit.toNat

theorem activeTiers_single (single : plan.tierCount = 1) : plan.activeTiers = [plan.firstTier] := by
  rw [UsagePlan.activeTiers, single, vector_five]
  rfl

theorem charge_single (single : plan.tierCount = 1) (units : Nat) :
    plan.charge units = min (Tiers.reach units plan.firstTier.upTo.toNat *
      plan.firstTier.ratePerUnit.toNat) plan.maxChargePerPeriod.toNat := by
  rw [UsagePlan.charge, UsagePlan.tierTable, activeTiers_single single]
  simp only [List.map_cons, List.map_nil, Tiers.total, Nat.sub_zero, Nat.add_zero]

theorem clipped_eq_iff {units bound rate cap : Nat} :
    min (units * rate) cap = min (Tiers.reach units bound * rate) cap ↔
      bound = 0 ∨ units ≤ bound ∨ rate = 0 ∨ cap ≤ bound * rate := by
  by_cases unlimited : bound = 0
  · rw [Tiers.reach, if_pos unlimited]
    exact ⟨fun _ => .inl unlimited, fun _ => rfl⟩
  rw [Tiers.reach, if_neg unlimited]
  rcases Nat.lt_or_ge bound units with long | short
  rotate_left
  · rw [Nat.min_eq_left short]
    exact ⟨fun _ => .inr (.inl short), fun _ => rfl⟩
  · rw [Nat.min_eq_right long.le]
    constructor
    · intro same
      by_cases free : rate = 0
      · exact .inr (.inr (.inl free))
      · have more : bound * rate < units * rate :=
          Nat.mul_lt_mul_of_pos_right long (Nat.pos_of_ne_zero free)
        right; right; right
        omega
    · rintro (none | within | free | capped)
      · exact absurd none unlimited
      · omega
      · rw [free, Nat.mul_zero, Nat.mul_zero]
      · have more : bound * rate ≤ units * rate := Nat.mul_le_mul_right _ long.le
        omega

/-- The circuit selected for a plan with one tier charges what the tiered circuit and its model
charge exactly where the tier's bound makes no difference. -/
theorem single_rate_agrees_iff {units : UInt64} (accepted : Accepted P plan)
    (single : plan.tierCount = 1) (few : units ≤ maxSafeUsageUnits) (report : UsageReport) :
    (computedCharge Arithmetic.checked units (usageArgs plan report) =
        plan.circuitCharge Arithmetic.checked units ∧
      computedCharge Arithmetic.checked units (usageArgs plan report) =
        plan.modelCharge Arithmetic.checked units) ↔ BoundUnseen plan units := by
  have priced := accepted.priced
  obtain ⟨tiered, value, charges⟩ := priced.charges Arithmetic.checked few
  obtain ⟨circuit, model⟩ := charges _ _ plan.fills_self
  have cheap : plan.firstTier.ratePerUnit ≤ maxSafeUsageRatePerUnit := by
    refine priced.enveloped.rates plan.firstTier.pair ?_
    rw [activeTiers_single single]
    exact List.mem_singleton_self _
  obtain ⟨fast, returned, clipped⟩ :=
    usageCharge_eq Arithmetic.checked few cheap plan.maxChargePerPeriod
  have selected : computedCharge Arithmetic.checked units (usageArgs plan report) = some fast := by
    rw [usageArgs, if_pos single]
    exact returned
  have agree : fast = tiered ↔ BoundUnseen plan units := by
    rw [← UInt64.toNat_inj, clipped, value, charge_single single, clipped_eq_iff, BoundUnseen,
      le_iff, ← UInt64.toNat_inj, ← UInt64.toNat_inj]
    rfl
  rw [selected, ← agree]
  constructor
  · rintro ⟨same, _⟩
    exact Option.some.inj (same.trans circuit)
  · rintro rfl
    exact ⟨circuit.symm, model.symm⟩

def boundedPlan (plan : UsagePlan) : Bool :=
  plan.tierCount = 1 ∧ plan.firstTier.upTo = 100 ∧ plan.firstTier.ratePerUnit = 1 ∧
    plan.maxChargePerPeriod = 1000

theorem single_rate_within_bound : ∃ plan : UsagePlan, boundedPlan plan = true ∧ ∀ report,
    (computedCharge Arithmetic.checked 100 (usageArgs plan report) =
        plan.circuitCharge Arithmetic.checked 100 ∧
      computedCharge Arithmetic.checked 100 (usageArgs plan report) =
        plan.modelCharge Arithmetic.checked 100) ↔ BoundUnseen plan 100 := by
  have stores : storesPlan [⟨100, 1, 0⟩] boundedPlan = true := by
    decide +kernel
  obtain ⟨plan, accepted, bounded⟩ := stored_accepted stores
  exact ⟨plan, bounded,
    single_rate_agrees_iff accepted (of_decide_eq_true bounded).1 (by decide)⟩

/-- 200 units cost 200 by the single rate and 100 by the tier. -/
theorem single_rate_ignores_bound : ¬∀ (P : Platform) (plan : UsagePlan) (units : UInt64)
    (report : UsageReport), Accepted P plan → plan.tierCount = 1 → units ≤ maxSafeUsageUnits →
      computedCharge Arithmetic.checked units (usageArgs plan report) =
          plan.circuitCharge Arithmetic.checked units ∧
        computedCharge Arithmetic.checked units (usageArgs plan report) =
          plan.modelCharge Arithmetic.checked units := by
  intro agree
  have stores : storesPlan [⟨100, 1, 0⟩] (fun plan => boundedPlan plan &&
      plan.circuitCharge Arithmetic.checked 200 = some 100) = true := by
    decide +kernel
  obtain ⟨plan, accepted, bounded⟩ := stored_accepted stores
  rw [Bool.and_eq_true] at bounded
  obtain ⟨single, _, rate, cap⟩ := of_decide_eq_true bounded.1
  let report : UsageReport := ⟨0, 0, 0, 0, .replicate _ 0, 2, 0, 0, false, 0, 0⟩
  have same := (agree platform plan 200 report accepted single (by decide)).1
  rw [of_decide_eq_true bounded.2, usageArgs, if_pos single, computedCharge, rate, cap] at same
  revert same
  decide

end VelaProtocol
