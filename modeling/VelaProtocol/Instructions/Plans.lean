import VelaProtocol.Accounts.Merchant
import VelaProtocol.Accounts.Plan

/-! Creating, editing and migrating plans. Only the merchant signs an edit, and an edit never
touches the identity or the billing mint of a plan. -/
namespace VelaProtocol

open Guard

def validateFlatPlanTerms (amount frequency maxPulls : UInt64) : Result Unit := do
  check (0 < amount) .invalidAmount
  check (minFrequencySeconds ≤ frequency) .frequencyTooLow
  check (0 < maxPulls) .maxPullsTooLow

/-- Bounds increase strictly, and only the last tier may be unlimited. -/
def tierBoundaries : Option UInt64 → List PricingTier → Bool
  | _, [] => true
  | previous, tier :: rest =>
    (if tier.upTo = 0 then rest.isEmpty else previous.all (· < tier.upTo)) &&
      tierBoundaries (some tier.upTo) rest

def validateUsageTierBoundaries (tiers : List PricingTier) : Result Unit := do
  check (tiers ≠ [] ∧ tiers.length ≤ 5) .invalidTierCount
  check (tierBoundaries none tiers = true) .invalidTierBoundary

def validateUsagePricingBounds (tiers : List PricingTier) (maxChargePerPeriod : UInt64) :
    Result Unit := do
  check (maxChargePerPeriod ≤ maxSafeUsageCharge) .usagePricingOverflowRisk
  check (∀ tier ∈ tiers, tier.ratePerUnit ≤ maxSafeUsageRatePerUnit ∧
    (tier.upTo ≠ 0 → tier.upTo ≤ maxSafeUsageUnits)) .usagePricingOverflowRisk

def tiersArray (tiers : List PricingTier) : Vector PricingTier 5 :=
  Vector.ofFn fun i => tiers.getD i.val PricingTier.default

/-- `&plan.tiers[..tier_count]`, which panics past the array -/
def activeTiers (tiers : Vector PricingTier 5) (tierCount : UInt8) : Result (List PricingTier) := do
  require (tierCount.toNat ≤ 5) (.host .programFailedToComplete)
  return tiers.toList.take tierCount.toNat

structure CreatePlan where
  merchant : Pubkey
  plan : Pubkey
  credentialMint : Pubkey
  billingMint : Pubkey
  amount : UInt64
  frequency : UInt64
  trialPeriod : UInt64
  maxPulls : UInt64

def resolvedCredential (w : World) (state : MerchantState) (merchant credentialMint : Pubkey) :
    Result Pubkey := do
  let resolved := resolveMerchantCredentialMint w merchant credentialMint
  check (state.credentialMint ≠ Pubkey.default ∧ resolved = state.credentialMint)
    .migrationPreconditionFailed
  return resolved

def createPlan (P : Platform) (w : World) (ctx : CreatePlan) : Result World := do
  let _ ← interfaceMint w ctx.billingMint
  let tokenConfig ← anchorTokenConfig w ctx.billingMint
  validateFlatPlanTerms ctx.amount ctx.frequency ctx.maxPulls
  check (tokenConfig.enabled = true) .tokenDisabled
  check (tokenConfig.billingRail = .transferHook) .invalidBillingRail
  check (tokenConfig.mint = ctx.billingMint) .tokenNotRegistered
  let (w, merchantState) ← ensureMerchantState w ctx.merchant
    (P.findProgramAddress (.merchant ctx.merchant)).2
  let planId := merchantState.planCount
  let (expectedPlan, planBump) := P.findProgramAddress (.plan ctx.merchant planId)
  require (ctx.plan = expectedPlan) (.host .invalidSeeds)
  require (ctx.credentialMint = (P.findProgramAddress (.credential ctx.merchant planId)).1)
    (.host .invalidSeeds)
  require (w.dataIsEmpty ctx.plan = true) (.host .accountAlreadyInitialized)
  let credentialMint ← resolvedCredential w merchantState ctx.merchant ctx.credentialMint
  let plan : VelaPlan := {
    merchant := ctx.merchant
    planId := planId
    amount := ctx.amount
    frequency := ctx.frequency
    trialPeriod := ctx.trialPeriod
    maxPulls := ctx.maxPulls
    status := .active
    credentialMint := credentialMint
    billingMint := ctx.billingMint
    bump := planBump
    version := currentAccountVersion
    reserved := 0 }
  let planCount ← orVela (Checked.addU64 merchantState.planCount 1) .overflow
  return (w.createPlan ctx.plan (.flat plan)).writeMerchantState ctx.merchant
    { merchantState with planCount := planCount }

structure CreateUsagePlan where
  merchant : Pubkey
  billingMint : Pubkey
  planId : UInt64
  unitName : Bytes 32
  tiers : List PricingTier
  maxChargePerPeriod : UInt64
  settlementFrequency : UInt64

/-- `create_usage_plan`; the plan and the credential mint are pinned by their seeds -/
def createUsagePlan (P : Platform) (w : World) (ctx : CreateUsagePlan) : Result World := do
  let (planKey, planBump) := P.findProgramAddress (.usagePlan ctx.merchant ctx.planId)
  require (w.dataIsEmpty planKey = true) (.host .accountAlreadyInitialized)
  let tokenConfig ← anchorTokenConfig w ctx.billingMint
  validateUsageTierBoundaries ctx.tiers
  check (0 < ctx.maxChargePerPeriod) .invalidAmount
  check (0 < ctx.settlementFrequency) .invalidFrequency
  validateUsagePricingBounds ctx.tiers ctx.maxChargePerPeriod
  let (w, merchantState) ← ensureMerchantState w ctx.merchant
    (P.findProgramAddress (.merchant ctx.merchant)).2
  let credentialMint ← resolvedCredential w merchantState ctx.merchant
    (P.findProgramAddress (.usageCredential ctx.merchant ctx.planId)).1
  check (tokenConfig.enabled = true) .tokenDisabled
  check (tokenConfig.billingRail = .transferHook) .invalidBillingRail
  check (tokenConfig.mint = ctx.billingMint) .tokenNotRegistered
  let plan : UsagePlan := {
    merchant := ctx.merchant
    planId := ctx.planId
    unitName := ctx.unitName
    tiers := tiersArray ctx.tiers
    tierCount := UInt8.ofNat ctx.tiers.length
    maxChargePerPeriod := ctx.maxChargePerPeriod
    settlementFrequency := ctx.settlementFrequency
    credentialMint := credentialMint
    billingMint := ctx.billingMint
    status := .active
    bump := planBump
    version := currentAccountVersion
    reserved := 0 }
  return w.createPlan planKey (.usage plan)

structure UpdatePlan where
  merchant : Pubkey
  plan : Pubkey
  amount : Option UInt64
  frequency : Option UInt64
  trialPeriod : Option UInt64
  maxPulls : Option UInt64

def editableFlat : LoadedPlanAccount → Result VelaPlan
  | .flat p => .ok p
  | .legacyFlat p => .ok p.upgrade
  | .usage _ | .legacyUsage _ => .error (.vela .billingTypeMismatch)

def updatePlan (P : Platform) (w : World) (ctx : UpdatePlan) : Result World := do
  check (ctx.amount.isSome ∨ ctx.frequency.isSome ∨ ctx.trialPeriod.isSome ∨ ctx.maxPulls.isSome)
    .noUpdateProvided
  let loaded ← loadPlanAccount P w ctx.plan
  check (loaded.isFlat = true) .billingTypeMismatch
  check (loaded.merchant = ctx.merchant) .unauthorizedCancel
  let old ← editableFlat loaded
  let plan := { old with
    amount := ctx.amount.getD old.amount
    frequency := ctx.frequency.getD old.frequency
    trialPeriod := ctx.trialPeriod.getD old.trialPeriod
    maxPulls := ctx.maxPulls.getD old.maxPulls }
  validateFlatPlanTerms plan.amount plan.frequency plan.maxPulls
  return (w.writePlan ctx.plan (.flat plan)).emit (.planUpdated {
    plan := ctx.plan
    merchant := ctx.merchant
    planId := plan.planId
    oldAmount := old.amount
    newAmount := plan.amount
    oldFrequency := old.frequency
    newFrequency := plan.frequency
    oldTrialPeriod := old.trialPeriod
    newTrialPeriod := plan.trialPeriod
    oldMaxPulls := old.maxPulls
    newMaxPulls := plan.maxPulls })

structure UpdateUsagePlan where
  merchant : Pubkey
  usagePlan : Pubkey
  tiers : Option (List PricingTier)
  maxChargePerPeriod : Option UInt64
  settlementFrequency : Option UInt64

def editableUsage : LoadedPlanAccount → Result UsagePlan
  | .usage p => .ok p
  | .legacyUsage p => .ok p.upgrade
  | .flat _ | .legacyFlat _ => .error (.vela .billingTypeMismatch)

def replaceTiers (plan : UsagePlan) (nextMaxCharge : UInt64) :
    Option (List PricingTier) → Result UsagePlan
  | none => .ok plan
  | some tiers => do
    validateUsageTierBoundaries tiers
    validateUsagePricingBounds tiers nextMaxCharge
    return { plan with tiers := tiersArray tiers, tierCount := UInt8.ofNat tiers.length }

/-- Kept tiers are checked against the cap in force after the edit. -/
def checkKeptTiers (plan : UsagePlan) : Option (List PricingTier) → Result Unit
  | some _ => .ok ()
  | none => do
    let active ← activeTiers plan.tiers plan.tierCount
    validateUsagePricingBounds active plan.maxChargePerPeriod

def updateUsagePlan (P : Platform) (w : World) (ctx : UpdateUsagePlan) : Result World := do
  check (ctx.tiers.isSome ∨ ctx.maxChargePerPeriod.isSome ∨ ctx.settlementFrequency.isSome)
    .noUpdateProvided
  let loaded ← loadPlanAccount P w ctx.usagePlan
  check (loaded.isFlat = false) .billingTypeMismatch
  check (loaded.merchant = ctx.merchant) .unauthorizedCancel
  let old ← editableUsage loaded
  let nextMaxCharge := ctx.maxChargePerPeriod.getD old.maxChargePerPeriod
  let plan ← replaceTiers old nextMaxCharge ctx.tiers
  check (∀ charge ∈ ctx.maxChargePerPeriod, 0 < charge) .invalidAmount
  let plan := { plan with maxChargePerPeriod := nextMaxCharge }
  checkKeptTiers plan ctx.tiers
  check (∀ seconds ∈ ctx.settlementFrequency, 0 < seconds) .invalidFrequency
  let plan := { plan with
    settlementFrequency := ctx.settlementFrequency.getD old.settlementFrequency }
  return (w.writePlan ctx.usagePlan (.usage plan)).emit (.usagePlanUpdated {
    plan := ctx.usagePlan
    merchant := ctx.merchant
    planId := plan.planId
    oldMaxChargePerPeriod := old.maxChargePerPeriod
    newMaxChargePerPeriod := plan.maxChargePerPeriod
    oldSettlementFrequency := old.settlementFrequency
    newSettlementFrequency := plan.settlementFrequency
    oldTierCount := old.tierCount
    newTierCount := plan.tierCount })

/-- `migrate_plan`, signed by anyone: a current plan is left as it is -/
def migratePlan (P : Platform) (w : World) (planKey : Pubkey) : Result World := do
  match ← loadPlanAccount P w planKey with
  | .flat p =>
    check (p.version = currentAccountVersion) .planVersionUnsupported
    return w
  | .usage p =>
    check (p.version = currentAccountVersion) .planVersionUnsupported
    return w
  | .legacyFlat p => return w.writePlan planKey (.flat p.upgrade)
  | .legacyUsage p => return w.writePlan planKey (.usage p.upgrade)

/-- A plan that comes due again. Every validator asks for it. -/
def Recurring (plan : LoadedPlanAccount) : Prop := 0 < plan.mandateFrequency

inductive PlanChange : Option PlanAccount → Option PlanAccount → Prop
  | unchanged (account : Option PlanAccount) : PlanChange account account
  | created (account : PlanAccount) (recurring : Recurring account.contents) :
      PlanChange none (some account)
  | edited (old new : PlanAccount)
      (recurring : Recurring old.contents → Recurring new.contents)
      (merchant : new.contents.merchant = old.contents.merchant)
      (billingMint : new.contents.billingMint = old.contents.billingMint)
      (billingType : new.contents.billingType = old.contents.billingType) :
      PlanChange (some old) (some new)

structure PlansOnly (w w' : World) : Prop where
  clock : w'.clock = w.clock
  protocolConfig : w'.protocolConfig = w.protocolConfig
  tokenConfig : w'.tokenConfig = w.tokenConfig
  mandate : w'.mandate = w.mandate
  pullApproval : w'.pullApproval = w.pullApproval
  requestState : w'.requestState = w.requestState
  usageReport : w'.usageReport = w.usageReport
  money : SameMoney w w'
  plan : ∀ key, PlanChange (w.plan key) (w'.plan key)
  counter : ∀ merchant, w.mandateCounter merchant ≤ w'.mandateCounter merchant

theorem PlansOnly.refl (w : World) : PlansOnly w w :=
  ⟨rfl, rfl, rfl, rfl, rfl, rfl, rfl, SameMoney.of_log rfl, fun _ => .unchanged _,
    fun _ => le_refl _⟩

theorem validateFlatPlanTerms_frequency {amount frequency maxPulls : UInt64} {u : Unit}
    (h : validateFlatPlanTerms amount frequency maxPulls = .ok u) : 0 < frequency := by
  simp only [validateFlatPlanTerms, check, require_bind_eq_ok, require_eq_ok] at h
  exact UInt64.lt_of_lt_of_le (by decide) h.2.1

theorem createPlan_change {w : World} {planKey : Pubkey} {plan : LoadedPlanAccount}
    (vacant : w.plan planKey = none) (recurring : Recurring plan) (key : Pubkey) :
    PlanChange (w.plan key) ((w.createPlan planKey plan).plan key) := by
  by_cases same : key = planKey
  · subst same
    simp only [World.createPlan, Function.update_self, vacant]
    exact .created _ recurring
  · simp only [World.createPlan, Function.update_of_ne same]
    exact .unchanged _

theorem writePlan_change {w : World} {planKey : Pubkey} {account : PlanAccount}
    {plan : LoadedPlanAccount} (found : w.plan planKey = some account)
    (recurring : Recurring account.contents → Recurring plan)
    (merchant : plan.merchant = account.contents.merchant)
    (billingMint : plan.billingMint = account.contents.billingMint)
    (billingType : plan.billingType = account.contents.billingType) (key : Pubkey) :
    PlanChange (w.plan key) ((w.writePlan planKey plan).plan key) := by
  by_cases same : key = planKey
  · subst same
    simp only [World.writePlan, Function.update_self, found, Option.map_some]
    exact .edited _ _ recurring merchant billingMint billingType
  · simp only [World.writePlan, Function.update_of_ne same]
    exact .unchanged _

theorem createPlan_eq_ok {P : Platform} {w w' : World} {ctx : CreatePlan}
    (h : createPlan P w ctx = .ok w') : PlansOnly w w' := by
  simp only [createPlan, check, orVela, orHost, anchorTokenConfig, bind_eq_ok,
    orError_eq_ok, require_eq_ok, pure_eq_ok, exists_const] at h
  obtain ⟨_, _, _, _, _, terms, _, _, _, ⟨w₁, state⟩, ensured, _, _, vacant, _, _, _, _, rfl⟩ := h
  obtain ⟨same, counter⟩ := ensureMerchantState_eq_ok ensured
  obtain rfl : w₁ = w.writeMerchantState ctx.merchant state := same
  refine ⟨rfl, rfl, rfl, rfl, rfl, rfl, rfl, SameMoney.of_log rfl, ?_, fun other => ?_⟩
  · exact createPlan_change (dataIsEmpty_vacant vacant).plan (validateFlatPlanTerms_frequency terms)
  · refine (writeMerchantState_counter counter.le other).trans (writeMerchantState_counter ?_ other)
    exact (writeMerchantState_self_counter w ctx.merchant state).le

theorem createUsagePlan_eq_ok {P : Platform} {w w' : World} {ctx : CreateUsagePlan}
    (h : createUsagePlan P w ctx = .ok w') : PlansOnly w w' := by
  simp only [createUsagePlan, check, orHost, anchorTokenConfig, bind_eq_ok,
    orError_eq_ok, require_eq_ok, pure_eq_ok, exists_const] at h
  obtain ⟨vacant, _, _, _, _, _, frequency, _, _, ⟨w₁, state⟩, ensured, _, _, _, _, _, rfl⟩ := h
  obtain ⟨same, counter⟩ := ensureMerchantState_eq_ok ensured
  obtain rfl : w₁ = w.writeMerchantState ctx.merchant state := same
  refine ⟨rfl, rfl, rfl, rfl, rfl, rfl, rfl, SameMoney.of_log rfl, ?_,
    writeMerchantState_counter counter.le⟩
  exact createPlan_change (dataIsEmpty_vacant vacant).plan frequency

theorem editableFlat_eq_ok {loaded : LoadedPlanAccount} {plan : VelaPlan}
    (h : editableFlat loaded = .ok plan) :
    plan.merchant = loaded.merchant ∧ plan.billingMint = loaded.billingMint ∧
      loaded.billingType = .flat := by
  cases loaded <;> cases h <;> exact ⟨rfl, rfl, rfl⟩

theorem editableUsage_eq_ok {loaded : LoadedPlanAccount} {plan : UsagePlan}
    (h : editableUsage loaded = .ok plan) :
    plan.merchant = loaded.merchant ∧ plan.billingMint = loaded.billingMint ∧
      loaded.billingType = .usage ∧ plan.settlementFrequency = loaded.mandateFrequency := by
  cases loaded <;> cases h <;> exact ⟨rfl, rfl, rfl, rfl⟩

theorem updatePlan_eq_ok {P : Platform} {w w' : World} {ctx : UpdatePlan}
    (h : updatePlan P w ctx = .ok w') : PlansOnly w w' := by
  simp only [updatePlan, check, bind_eq_ok, require_eq_ok, pure_eq_ok, exists_const] at h
  obtain ⟨_, loaded, load, _, _, old, start, _, terms, rfl⟩ := h
  obtain ⟨account, found, rfl, _⟩ := loadPlanAccount_eq_ok load
  obtain ⟨merchant, billingMint, billingType⟩ := editableFlat_eq_ok start
  refine ⟨rfl, rfl, rfl, rfl, rfl, rfl, rfl, SameMoney.of_entry rfl rfl, ?_,
    fun _ => le_refl _⟩
  exact writePlan_change found (fun _ => validateFlatPlanTerms_frequency terms) merchant
    billingMint billingType.symm

theorem replaceTiers_eq_ok {plan replaced : UsagePlan} {charge : UInt64}
    {tiers : Option (List PricingTier)} (h : replaceTiers plan charge tiers = .ok replaced) :
    ∃ array count, replaced = { plan with tiers := array, tierCount := count } := by
  cases tiers with
  | none =>
    cases h
    exact ⟨plan.tiers, plan.tierCount, rfl⟩
  | some tiers =>
    simp only [replaceTiers, bind_eq_ok, pure_eq_ok] at h
    obtain ⟨_, _, _, _, rfl⟩ := h
    exact ⟨_, _, rfl⟩

theorem updateUsagePlan_eq_ok {P : Platform} {w w' : World} {ctx : UpdateUsagePlan}
    (h : updateUsagePlan P w ctx = .ok w') : PlansOnly w w' := by
  simp only [updateUsagePlan, check, bind_eq_ok, require_eq_ok, pure_eq_ok, exists_const] at h
  obtain ⟨_, loaded, load, _, _, old, start, plan, replaced, _, _, _, frequency, rfl⟩ := h
  obtain ⟨account, found, rfl, _⟩ := loadPlanAccount_eq_ok load
  obtain ⟨merchant, billingMint, billingType, kept⟩ := editableUsage_eq_ok start
  obtain ⟨tiers, count, rfl⟩ := replaceTiers_eq_ok replaced
  refine ⟨rfl, rfl, rfl, rfl, rfl, rfl, rfl, SameMoney.of_entry rfl rfl, ?_,
    fun _ => le_refl _⟩
  refine writePlan_change found (fun recurring => ?_) merchant billingMint billingType.symm
  show 0 < ctx.settlementFrequency.getD old.settlementFrequency
  cases given : ctx.settlementFrequency with
  | none =>
    rw [Option.getD_none, kept]
    exact recurring
  | some seconds =>
    rw [given] at frequency
    exact frequency seconds rfl

theorem migratePlan_eq_ok {P : Platform} {w w' : World} {planKey : Pubkey}
    (h : migratePlan P w planKey = .ok w') : PlansOnly w w' := by
  simp only [migratePlan, bind_eq_ok] at h
  obtain ⟨loaded, load, h⟩ := h
  obtain ⟨account, found, rfl, _⟩ := loadPlanAccount_eq_ok load
  split at h
  · simp only [check, require_bind_eq_ok, pure_eq_ok] at h
    obtain ⟨_, rfl⟩ := h
    exact PlansOnly.refl w
  · simp only [check, require_bind_eq_ok, pure_eq_ok] at h
    obtain ⟨_, rfl⟩ := h
    exact PlansOnly.refl w
  · rename_i legacy layout
    cases h
    refine ⟨rfl, rfl, rfl, rfl, rfl, rfl, rfl, SameMoney.of_log rfl, ?_,
      fun _ => le_refl _⟩
    refine writePlan_change found (fun recurring => ?_) ?_ ?_ ?_ <;> rw [layout] at *
    · exact recurring
    · rfl
    · rfl
    · rfl
  · rename_i legacy layout
    cases h
    refine ⟨rfl, rfl, rfl, rfl, rfl, rfl, rfl, SameMoney.of_log rfl, ?_,
      fun _ => le_refl _⟩
    refine writePlan_change found (fun recurring => ?_) ?_ ?_ ?_ <;> rw [layout] at *
    · exact recurring
    · rfl
    · rfl
    · rfl

end VelaProtocol
