import VelaProtocol.State.Errors
import VelaProtocol.State.World

/-! Loading plan accounts of both kinds in both layouts, and the terms they offer. -/
namespace VelaProtocol

open Guard

def VelaPlanV1.upgrade (legacy : VelaPlanV1) : VelaPlan where
  merchant := legacy.merchant
  planId := legacy.planId
  amount := legacy.amount
  frequency := legacy.frequency
  trialPeriod := legacy.trialPeriod
  maxPulls := legacy.maxPulls
  status := legacy.status
  credentialMint := legacy.credentialMint
  billingMint := Pubkey.default
  bump := legacy.bump
  version := currentAccountVersion
  reserved := 0

def UsagePlanV1.upgrade (legacy : UsagePlanV1) : UsagePlan where
  merchant := legacy.merchant
  planId := legacy.planId
  unitName := legacy.unitName
  tiers := legacy.tiers
  tierCount := legacy.tierCount
  maxChargePerPeriod := legacy.maxChargePerPeriod
  settlementFrequency := legacy.settlementFrequency
  credentialMint := legacy.credentialMint
  billingMint := Pubkey.default
  status := legacy.status
  bump := legacy.bump
  version := currentAccountVersion
  reserved := 0

def usagePlanTermsHashFromParts (P : Platform) (planKey merchant : Pubkey) (planId : UInt64)
    (tiers : Vector PricingTier 5) (tierCount : UInt8)
    (maxChargePerPeriod settlementFrequency : UInt64) : Bytes 32 :=
  P.hash ⟨planKey, merchant, planId, tierCount, maxChargePerPeriod, settlementFrequency,
    tiers.map fun tier => (tier.upTo, tier.ratePerUnit)⟩

def addDelay (startTimestamp : Int64) (delay : UInt64) : Result Int64 := do
  let delay ← orVela (Checked.toI64 delay.toNat) .overflow
  orVela (Checked.addI64 startTimestamp delay) .overflow

def computeFlatExpiry (trialPeriod frequency maxPulls : UInt64) (startTimestamp : Int64) :
    Result Int64 :=
  if trialPeriod = 0 then return 0
  else do
    let billed ← orVela (Checked.mulU64 frequency maxPulls) .overflow
    let totalDuration ← orVela (Checked.addU64 trialPeriod billed) .overflow
    addDelay startTimestamp totalDuration

namespace LoadedPlanAccount

def billingType : LoadedPlanAccount → BillingType
  | .flat _ | .legacyFlat _ => .flat
  | .usage _ | .legacyUsage _ => .usage

def merchant : LoadedPlanAccount → Pubkey
  | .flat p => p.merchant
  | .usage p => p.merchant
  | .legacyFlat p => p.merchant
  | .legacyUsage p => p.merchant

def credentialMint : LoadedPlanAccount → Pubkey
  | .flat p => p.credentialMint
  | .usage p => p.credentialMint
  | .legacyFlat p => p.credentialMint
  | .legacyUsage p => p.credentialMint

def billingMint : LoadedPlanAccount → Pubkey
  | .flat p => p.billingMint
  | .usage p => p.billingMint
  | .legacyFlat _ | .legacyUsage _ => Pubkey.default

def status : LoadedPlanAccount → PlanStatus
  | .flat p => p.status
  | .usage p => p.status
  | .legacyFlat p => p.status
  | .legacyUsage p => p.status

def mandateAmount : LoadedPlanAccount → UInt64
  | .flat p => p.amount
  | .usage p => p.maxChargePerPeriod
  | .legacyFlat p => p.amount
  | .legacyUsage p => p.maxChargePerPeriod

def mandateFrequency : LoadedPlanAccount → UInt64
  | .flat p => p.frequency
  | .usage p => p.settlementFrequency
  | .legacyFlat p => p.frequency
  | .legacyUsage p => p.settlementFrequency

def maxPulls : LoadedPlanAccount → UInt64
  | .flat p => p.maxPulls
  | .legacyFlat p => p.maxPulls
  | .usage _ | .legacyUsage _ => 18446744073709551615

def usageTierCount : LoadedPlanAccount → Option UInt8
  | .usage p => some p.tierCount
  | .legacyUsage p => some p.tierCount
  | .flat _ | .legacyFlat _ => none

def usageTermsHash (P : Platform) (planKey : Pubkey) : LoadedPlanAccount → Result (Bytes 32)
  | .usage p => .ok (usagePlanTermsHashFromParts P planKey p.merchant p.planId p.tiers
      p.tierCount p.maxChargePerPeriod p.settlementFrequency)
  | .legacyUsage p => .ok (usagePlanTermsHashFromParts P planKey p.merchant p.planId p.tiers
      p.tierCount p.maxChargePerPeriod p.settlementFrequency)
  | .flat _ | .legacyFlat _ => .error (.vela .billingTypeMismatch)

def planId : LoadedPlanAccount → UInt64
  | .flat p => p.planId
  | .usage p => p.planId
  | .legacyFlat p => p.planId
  | .legacyUsage p => p.planId

def bump : LoadedPlanAccount → UInt8
  | .flat p => p.bump
  | .usage p => p.bump
  | .legacyFlat p => p.bump
  | .legacyUsage p => p.bump

def isFlat (p : LoadedPlanAccount) : Bool := p.billingType = .flat

def expiry (startTimestamp : Int64) : LoadedPlanAccount → Result Int64
  | .flat p => computeFlatExpiry p.trialPeriod p.frequency p.maxPulls startTimestamp
  | .legacyFlat p => computeFlatExpiry p.trialPeriod p.frequency p.maxPulls startTimestamp
  | .usage _ | .legacyUsage _ => .ok 0

def initialNextPaymentDue (startTimestamp : Int64) : LoadedPlanAccount → Result Int64
  | .flat p => addDelay startTimestamp (if 0 < p.trialPeriod then p.trialPeriod else p.frequency)
  | .legacyFlat p =>
    addDelay startTimestamp (if 0 < p.trialPeriod then p.trialPeriod else p.frequency)
  | .usage p => addDelay startTimestamp p.settlementFrequency
  | .legacyUsage p => addDelay startTimestamp p.settlementFrequency

def seeds (p : LoadedPlanAccount) : Seeds :=
  match p.billingType with
  | .flat => .plan p.merchant p.planId
  | .usage => .usagePlan p.merchant p.planId

def version : LoadedPlanAccount → Option UInt8
  | .flat p => some p.version
  | .usage p => some p.version
  | .legacyFlat _ | .legacyUsage _ => none

end LoadedPlanAccount

def loadPlanAccount (P : Platform) (w : World) (key : Pubkey) : Result LoadedPlanAccount := do
  let account ← orVela (w.plan key) .billingTypeMismatch
  let plan := account.contents
  require (plan.version = none ∨ plan.version = some currentAccountVersion)
    (.host .invalidAccountData)
  check (key = (P.findProgramAddress plan.seeds).1) .billingTypeMismatch
  return plan

def requirePlanBillingType (plan : LoadedPlanAccount) (expected : BillingType) : Result Unit :=
  check (plan.billingType = expected) .billingTypeMismatch

def LoadedPlanAccount.requiredSize (p : LoadedPlanAccount) : Nat :=
  if p.isFlat then VelaPlan.size else UsagePlan.size

/-- `write_plan` and `write_usage_plan`, after growing the account to the current size -/
def World.writePlan (w : World) (key : Pubkey) (plan : LoadedPlanAccount) : World :=
  { w with
    plan := Function.update w.plan key ((w.plan key).map fun account =>
      { contents := plan, dataLen := max account.dataLen plan.requiredSize }) }

def World.createPlan (w : World) (key : Pubkey) (plan : LoadedPlanAccount) : World :=
  { w with
    plan := Function.update w.plan key (some { contents := plan, dataLen := plan.requiredSize }) }

def PlanStatus.byte : PlanStatus → Nat
  | .active => 0
  | .inactive => 1

/-- `Account<VelaPlan>`: a legacy record padded to the current size decodes with its bump read
as the first byte of the billing mint. -/
def anchorVelaPlan (w : World) (key : Pubkey) : Result VelaPlan := do
  let account ← orHost (w.plan key) .accountNotInitialized
  match account.contents with
  | .flat p => return p
  | .legacyFlat p =>
    require (VelaPlan.size ≤ account.dataLen) (.host .accountDidNotDeserialize)
    return { p.upgrade with billingMint := BitVec.ofNat _ p.bump.toNat, bump := 0, version := 0 }
  | .usage _ | .legacyUsage _ => .error (.host .accountDidNotDeserialize)

def anchorUsagePlan (w : World) (key : Pubkey) : Result UsagePlan := do
  let account ← orHost (w.plan key) .accountNotInitialized
  match account.contents with
  | .usage p => return p
  | .legacyUsage p =>
    require (UsagePlan.size ≤ account.dataLen) (.host .accountDidNotDeserialize)
    return { p.upgrade with
      billingMint := BitVec.ofNat _ (p.status.byte + 256 * p.bump.toNat)
      status := .active
      bump := 0
      version := 0 }
  | .flat _ | .legacyFlat _ => .error (.host .accountDidNotDeserialize)

/-- The billing mint in force: plans without one are billed in the protocol's wrapped mint. -/
def effectiveMint (wrappedUsdcMint : Pubkey) (plan : LoadedPlanAccount) : Pubkey :=
  if plan.billingMint = Pubkey.default then wrappedUsdcMint else plan.billingMint

theorem loadPlanAccount_congr {P : Platform} {w w' : World} {key : Pubkey}
    (same : w'.plan = w.plan) : loadPlanAccount P w' key = loadPlanAccount P w key := by
  rw [loadPlanAccount, loadPlanAccount, same]

theorem loadPlanAccount_eq_ok {P : Platform} {w : World} {key : Pubkey} {plan : LoadedPlanAccount}
    (h : loadPlanAccount P w key = .ok plan) :
    ∃ account, w.plan key = some account ∧ account.contents = plan ∧
      key = (P.findProgramAddress plan.seeds).1 := by
  simp only [loadPlanAccount, check, orVela, orError_bind_eq_ok, require_bind_eq_ok,
    pure_eq_ok] at h
  obtain ⟨account, found, _, address, rfl⟩ := h
  exact ⟨account, found, rfl, address⟩

theorem addDelay_eq_ok {start due : Int64} {delay : UInt64} :
    addDelay start delay = .ok due ↔
      delay.toNat < 2 ^ 63 ∧ due.toInt = start.toInt + delay.toNat := by
  simp only [addDelay, orVela, orError_bind_eq_ok, orError_eq_ok, Checked.toI64_eq_some,
    Checked.addI64_eq_some]
  constructor
  · rintro ⟨word, value, sum⟩
    have bounds := Checked.toInt_bounds word
    exact ⟨by omega, by omega⟩
  · rintro ⟨small, sum⟩
    obtain ⟨word, value⟩ := Checked.exists_toI64 (n := delay.toNat) (by omega)
    rw [Checked.toI64_eq_some] at value
    exact ⟨word, value, by omega⟩

theorem LoadedPlanAccount.initialNextPaymentDue_later {plan : LoadedPlanAccount} {now due : Int64}
    (recurring : 0 < plan.mandateFrequency) (h : plan.initialNextPaymentDue now = .ok due) :
    now.toInt < due.toInt := by
  have later : ∀ {delay : UInt64}, 0 < delay → addDelay now delay = .ok due →
      now.toInt < due.toInt := by
    intro delay positive delayed
    have sum := (addDelay_eq_ok.mp delayed).2
    have positive : 0 < delay.toNat := Checked.lt_iff.mp positive
    omega
  have first : ∀ {trial frequency : UInt64}, 0 < frequency →
      0 < (if 0 < trial then trial else frequency) := by
    intro trial frequency positive
    split
    · assumption
    · exact positive
  cases plan with
  | flat p => exact later (first recurring) h
  | legacyFlat p => exact later (first recurring) h
  | usage p => exact later recurring h
  | legacyUsage p => exact later recurring h

end VelaProtocol
