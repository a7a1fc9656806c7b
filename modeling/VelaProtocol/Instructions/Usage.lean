import VelaProtocol.Instructions.Plans
import VelaProtocol.Instructions.Validation

/-! Approving a usage pull: the merchant's report, the request that prices it and its callback. -/
namespace VelaProtocol

open Guard

structure SubmitUsageReport where
  merchant : Pubkey
  mandate : Pubkey
  usagePlan : Pubkey
  periodStart : Int64
  periodEnd : Int64
  computationCiphertext : List (Bytes 32)
  nonce : Bytes 16
  pubKey : Bytes 32

def validateLoadedUsagePricingBounds : LoadedPlanAccount → Result Unit
  | .usage p => do
    check (0 < p.tierCount ∧ p.tierCount ≤ 5) .invalidTierCount
    validateUsagePricingBounds (p.tiers.toList.take p.tierCount.toNat) p.maxChargePerPeriod
  | .legacyUsage p => do
    check (0 < p.tierCount ∧ p.tierCount ≤ 5) .invalidTierCount
    validateUsagePricingBounds (p.tiers.toList.take p.tierCount.toNat) p.maxChargePerPeriod
  | .flat _ | .legacyFlat _ => .error (.vela .billingTypeMismatch)

def reportedUnits : List (Bytes 32) → Result (Bytes 32)
  | [units] => .ok units
  | _ => .error (.vela .invalidCiphertextInput)

/-- The units ciphertext and the terms hash, the other slots zero. -/
def reportCiphertext (units termsHash : Bytes 32) :
    Vector (Bytes 32) maxUsageComputationCiphertexts :=
  Vector.ofFn fun i => if i.val = 0 then units else if i.val = 1 then termsHash else 0

def submitUsageReport (P : Platform) (w : World) (ctx : SubmitUsageReport) : Result World := do
  require ((w.usageReport (ctx.mandate, ctx.periodStart)).isNone = true)
    (.host .accountAlreadyInitialized)
  let loaded ← loadValidMandate P w ctx.mandate
  let mandate := loaded.intoCurrent
  check (ctx.merchant = mandate.merchant) .unauthorizedKeeper
  check (mandate.billingType = .usage) .billingTypeMismatch
  check (mandate.status = .active) .mandateNotActive
  check (ctx.usagePlan = mandate.plan) .planNotActive
  let plan ← loadPlanAccount P w ctx.usagePlan
  requirePlanBillingType plan .usage
  check (plan.status = .active) .planNotActive
  check (plan.merchant = mandate.merchant) .billingTypeMismatch
  let tierCount ← orVela plan.usageTierCount .billingTypeMismatch
  check (0 < tierCount ∧ tierCount ≤ 5) .invalidTierCount
  validateLoadedUsagePricingBounds plan
  let units ← reportedUnits ctx.computationCiphertext
  let period ← mandateBillingPeriod mandate
  check (ctx.periodStart < ctx.periodEnd) .invalidPeriod
  check (ctx.periodStart = period.1 ∧ ctx.periodEnd = period.2) .periodMismatch
  check (ctx.periodEnd ≤ w.clock.unixTimestamp) .pullTooEarly
  let termsHash ← plan.usageTermsHash P ctx.usagePlan
  return { w with
    usageReport := Function.update w.usageReport (ctx.mandate, ctx.periodStart) (some {
      mandate := ctx.mandate
      merchant := mandate.merchant
      periodStart := ctx.periodStart
      periodEnd := ctx.periodEnd
      computationCiphertext := reportCiphertext units termsHash
      ciphertextCount := 1
      nonce := ctx.nonce
      pubKey := ctx.pubKey
      settled := false
      createdAt := w.clock.unixTimestamp
      bump := (P.findProgramAddress (.usageReport ctx.mandate ctx.periodStart)).2 }) }

def anchorUsageReport (P : Platform) (w : World) (mandate : Pubkey) (periodStart : Int64) :
    Result UsageReport := do
  let report ← orHost (w.usageReport (mandate, periodStart)) .accountNotInitialized
  require (report.periodStart = periodStart) (.host .constraintSeeds)
  require (P.createProgramAddress (.usageReport mandate periodStart) report.bump =
    some (P.findProgramAddress (.usageReport mandate periodStart)).1) (.host .constraintSeeds)
  return report

structure RequestUsageComputation where
  payer : Pubkey
  usagePlan : Pubkey
  mandate : Pubkey
  /-- the period start stored in the report account that is passed -/
  reportPeriodStart : Int64
  accounts : QueueAccounts
  requestedComputationOffset : UInt64

/-- One tier is priced by the single-rate circuit. -/
def usageCircuit (plan : UsagePlan) : Circuit :=
  if plan.tierCount = 1 then .usageCharge else .tieredPricing

def usageArgs (plan : UsagePlan) (report : UsageReport) : ComputationArgs :=
  if plan.tierCount = 1 then
    .usageCharge report.pubKey report.nonce report.computationCiphertext[0]
      plan.firstTier.ratePerUnit plan.maxChargePerPeriod
  else
    .tieredPricing report.pubKey report.nonce report.computationCiphertext[0]
      (plan.tiers.map (·.upTo)) (plan.tiers.map (·.ratePerUnit)) plan.tierCount
      plan.maxChargePerPeriod

structure UsageRequest where
  loaded : LoadedMandateAccount
  usagePlan : UsagePlan
  report : UsageReport
  period : Int64 × Int64

def checkUsageRequest (P : Platform) (w : World) (ctx : RequestUsageComputation) :
    Result UsageRequest := do
  let usagePlan ← anchorUsagePlan w ctx.usagePlan
  require (P.createProgramAddress (.usagePlan usagePlan.merchant usagePlan.planId) usagePlan.bump =
    some ctx.usagePlan) (.host .constraintSeeds)
  let report ← anchorUsageReport P w ctx.mandate ctx.reportPeriodStart
  let loaded ← loadValidMandate P w ctx.mandate
  let mandate := loaded.intoCurrent
  check (mandate.billingType = .usage) .billingTypeMismatch
  check (ctx.usagePlan = mandate.plan) .planNotActive
  check (mandate.status = .active) .mandateNotActive
  check (report.settled = false) .usageReportAlreadySettled
  check (report.mandate = ctx.mandate) .billingTypeMismatch
  check (report.merchant = mandate.merchant) .billingTypeMismatch
  let period ← mandateBillingPeriod mandate
  check (report.periodStart = period.1 ∧ report.periodEnd = period.2) .periodMismatch
  check (period.2 ≤ w.clock.unixTimestamp) .pullTooEarly
  return { loaded, usagePlan, report, period }

/-- The pricing inputs must be the ones the report committed to. -/
def checkUsageTerms (P : Platform) (ctx : RequestUsageComputation) (usagePlan : UsagePlan)
    (report : UsageReport) : Result Unit := do
  check (report.ciphertextCount = 1) .invalidCiphertextInput
  check (0 < usagePlan.tierCount ∧ usagePlan.tierCount ≤ 5) .invalidTierCount
  validateUsagePricingBounds (usagePlan.tiers.toList.take usagePlan.tierCount.toNat)
    usagePlan.maxChargePerPeriod
  check (report.computationCiphertext[1] = usagePlanTermsHashFromParts P ctx.usagePlan
    usagePlan.merchant usagePlan.planId usagePlan.tiers usagePlan.tierCount
    usagePlan.maxChargePerPeriod usagePlan.settlementFrequency) .invalidCiphertextInput

def requestUsageComputation (P : Platform) (w : World) (ctx : RequestUsageComputation) :
    Result World := do
  let r ← checkUsageRequest P w ctx
  let mandate := r.loaded.intoCurrent
  let config ← loadArciumConfig P w
  let nextRequestNonce ← orVela (Checked.addU64 mandate.validationRequestNonce 1) .overflow
  let computationOffset := deriveUsageComputationOffset P ctx.mandate r.report.periodStart
    nextRequestNonce
  check (ctx.requestedComputationOffset = computationOffset) .invalidComputationOffset
  check (ctx.accounts.clusterAccount = config.clusterPubkey) .invalidArciumAccount
  checkUsageTerms P ctx r.usagePlan r.report
  validateQueueAccounts P ctx.accounts config.clusterOffset computationOffset
    (usageCircuit r.usagePlan) config.effectiveMxeProgramId
  check (¬(w.approvalOrZeroed ctx.mandate).coversPeriod ctx.mandate r.period
    w.clock.unixTimestamp) .approvalAlreadyExists
  let w ← w.startRequest P (.usageComputation, ctx.mandate, r.report.periodStart.toBitVec)
    computationOffset nextRequestNonce
  let mandate := { mandate with validationRequestNonce := nextRequestNonce }
  let w := (w.resetApproval P ctx.mandate).writeMandate ctx.mandate mandate r.loaded.isLegacy
  return w.queueComputation {
    mandate := ctx.mandate
    computationOffset := computationOffset
    circuit := usageCircuit r.usagePlan
    args := usageArgs r.usagePlan r.report }

structure UsageComputationCallback where
  mandate : Pubkey
  reportPeriodStart : Int64
  accounts : CallbackAccounts
  /-- the verified output, if any -/
  output : Option UInt64

/-- `validate_usage_callback_accounts`: either pricing circuit -/
def validateUsageCallbackAccounts (P : Platform) (accounts : CallbackAccounts)
    (mxeProgramId : Pubkey) : Result Unit :=
  match validateStaticCallbackAccounts P accounts .usageCharge mxeProgramId with
  | .ok () => .ok ()
  | .error _ => validateStaticCallbackAccounts P accounts .tieredPricing mxeProgramId

def usageChargeCallback (P : Platform) (w : World) (ctx : UsageComputationCallback) :
    Result World := do
  let mandate ← anchorVelaMandate w ctx.mandate
  let report ← anchorUsageReport P w ctx.mandate ctx.reportPeriodStart
  let _ ← orHost (w.pullApproval ctx.mandate) .accountNotInitialized
  let config ← loadArciumConfig P w
  validateUsageCallbackAccounts P ctx.accounts config.effectiveMxeProgramId
  let key : RequestKey := (.usageComputation, ctx.mandate, report.periodStart.toBitVec)
  let request ← validateCallback P w config ctx.accounts key
  let computedCharge ← orVela ctx.output .abortedComputation
  check (report.mandate = ctx.mandate) .billingTypeMismatch
  check (report.merchant = mandate.merchant) .billingTypeMismatch
  check (mandate.status = .active) .mandateNotActive
  check (mandate.billingType = .usage) .billingTypeMismatch
  check (report.settled = false) .usageReportAlreadySettled
  let period ← mandateBillingPeriod mandate
  check (report.periodStart = period.1 ∧ report.periodEnd = period.2) .periodMismatch
  check (computedCharge ≤ mandate.amount) .amountExceedsPlanAmount
  let w ← grantApproval P w ctx.mandate period true computedCharge
  let w ← w.completeRequest key request
  return w.emit (.usageComputationComplete {
    mandate := ctx.mandate
    approvedAmount := computedCharge
    timestamp := w.clock.unixTimestamp })

structure UsageReported (w : World) (ctx : SubmitUsageReport) (w' : World) (report : UsageReport) :
    Prop where
  stored : w' = { w with
    usageReport := Function.update w.usageReport (ctx.mandate, ctx.periodStart) (some report) }
  vacant : w.usageReport (ctx.mandate, ctx.periodStart) = none
  unsettled : report.settled = false
  ended : report.periodEnd ≤ w.clock.unixTimestamp

theorem submitUsageReport_eq_ok {P : Platform} {w w' : World} {ctx : SubmitUsageReport}
    (h : submitUsageReport P w ctx = .ok w') : ∃ report, UsageReported w ctx w' report := by
  simp only [submitUsageReport, check, orVela, bind_eq_ok, orError_eq_ok, require_eq_ok,
    pure_eq_ok, exists_const] at h
  obtain ⟨vacant, _, _, _, _, _, _, _, _, _, _, _, _, _, _, _, _, _, _, _, _, _, _, _, ended, _, _,
    rfl⟩ := h
  exact ⟨_, rfl, Option.isNone_iff_eq_none.mp vacant, rfl, ended⟩

theorem checkUsageRequest_eq_ok {P : Platform} {w : World} {ctx : RequestUsageComputation}
    {r : UsageRequest} (h : checkUsageRequest P w ctx = .ok r) :
    w.currentMandate ctx.mandate = some r.loaded.intoCurrent ∧
      r.loaded.intoCurrent.billingType = .usage ∧ r.report.periodStart = ctx.reportPeriodStart := by
  simp only [checkUsageRequest, anchorUsageReport, check, bind_eq_ok, require_eq_ok, pure_eq_ok,
    exists_const] at h
  obtain ⟨_, _, _, _, ⟨_, _, seed, _, rfl⟩, loaded, load, usage, _, _, _, _, _, _, _, _, _,
    rfl⟩ := h
  exact ⟨loadValidMandate_currentMandate load, usage, seed⟩

structure UsageRequested (P : Platform) (w : World) (ctx : RequestUsageComputation) (w' : World)
    (mandate : VelaMandate) : Prop where
  found : w.currentMandate ctx.mandate = some mandate
  usage : mandate.billingType = .usage
  written : ∃ nonce,
    w'.currentMandate ctx.mandate = some { mandate with validationRequestNonce := nonce }
  others : ∀ other, other ≠ ctx.mandate → w'.currentMandate other = w.currentMandate other
  pullApproval : w'.pullApproval = Function.update w.pullApproval ctx.mandate
    (some (PullApproval.reset (P.findProgramAddress (.approval ctx.mandate)).2))
  requestState : ∀ key : RequestKey, key.1 ≠ .usageComputation →
    w'.requestState key = w.requestState key
  frame : SetupFrame w w'
  usageReport : w'.usageReport = w.usageReport
  money : SameMoney w w'

theorem requestUsageComputation_eq_ok {P : Platform} {w w' : World}
    {ctx : RequestUsageComputation} (h : requestUsageComputation P w ctx = .ok w') :
    ∃ mandate, UsageRequested P w ctx w' mandate := by
  simp only [requestUsageComputation, check, orVela, bind_eq_ok, orError_eq_ok, require_eq_ok,
    pure_eq_ok, exists_const] at h
  obtain ⟨r, checked, _, _, nonce, _, _, _, _, _, _, _, _, w₁, started, rfl⟩ := h
  obtain ⟨found, usage, _⟩ := checkUsageRequest_eq_ok checked
  obtain ⟨_, rfl⟩ := startRequest_eq_ok started
  have terms : r.loaded.intoCurrent.SameTerms
    { r.loaded.intoCurrent with validationRequestNonce := nonce } :=
    ⟨rfl, id⟩
  refine ⟨_, found, usage, ⟨nonce, writeMandate_self found terms.fits⟩, ?_, rfl, ?_,
    ⟨rfl, rfl, rfl, rfl, fun _ => le_refl _⟩, rfl, SameMoney.of_entry rfl rfl⟩
  · exact fun other different => writeMandate_of_ne different _ _
  · intro key flow
    refine Function.update_of_ne (fun same => flow ?_) _ _
    rw [same]

theorem usageChargeCallback_eq_ok {P : Platform} {w w' : World} {ctx : UsageComputationCallback}
    (h : usageChargeCallback P w ctx = .ok w') :
    ∃ mandate charge subject, mandate.billingType = .usage ∧ ctx.output = some charge ∧
      charge ≤ mandate.amount ∧
      (∃ key report, w.usageReport key = some report ∧
        report.periodEnd = mandate.nextPaymentDue) ∧
      Approved w ctx.mandate w' (.usageComputation, ctx.mandate, subject) mandate true charge := by
  simp only [usageChargeCallback, anchorUsageReport, check, orVela, orHost, bind_eq_ok,
    orError_eq_ok, require_eq_ok, pure_eq_ok, exists_const] at h
  obtain ⟨mandate, anchored, _, ⟨report, reported, _, _, rfl⟩, _, _, _, _, _, _, state, valid,
    charge, output, _, _, active, usage, _, period, window, covers, cap, w₁, granted, w₂,
    completed, emitted⟩ := h
  obtain ⟨stored, found, version⟩ := anchorVelaMandate_terms anchored
  rw [version] at active usage window cap
  obtain ⟨pending, _, _, _, status⟩ := validateCallback_eq_ok valid
  have ends : report.periodEnd = stored.nextPaymentDue :=
    covers.2.trans (mandateBillingPeriod_eq_ok.mp window).2.1
  exact ⟨stored, charge, _, usage, output, cap, ⟨_, report, reported, ends⟩,
    approved_of found active ⟨pending, status⟩ window granted completed rfl emitted⟩

theorem usageChargeCallback_approval {P : Platform} {w w' : World} {ctx : UsageComputationCallback}
    (h : usageChargeCallback P w ctx = .ok w') : ∃ charge approval, ctx.output = some charge ∧
      w'.pullApproval ctx.mandate = some approval ∧ approval.periodStart = ctx.reportPeriodStart ∧
        approval.approvedAmount = charge := by
  simp only [usageChargeCallback, anchorUsageReport, World.completeRequest, check, orVela, orHost,
    bind_eq_ok, orError_eq_ok, require_eq_ok, pure_eq_ok, exists_const] at h
  obtain ⟨mandate, _, _, ⟨report, _, seed, _, rfl⟩, _, _, _, _, _, _, _, _, charge, output, _, _, _,
    _, _, period, _, covers, _, w₁, granted, w₂, ⟨_, _, rfl⟩, rfl⟩ := h
  obtain ⟨validUntil, bump, rfl⟩ := grantApproval_eq_ok granted
  exact ⟨charge, _, output, Function.update_self _ _ _, covers.1.symm.trans seed, rfl⟩

end VelaProtocol
