import VelaProtocol.Accounts.Mandate
import VelaProtocol.Accounts.Plan
import VelaProtocol.Arcium

/-! Approving a flat pull: the request that queues the confidential check and its callback. -/
namespace VelaProtocol

open Guard

structure MandateValidationInput where
  mandateAmount : UInt64
  planAmount : UInt64
  subscriberBalance : UInt64
  currentTimestamp : Int64
  nextPaymentDue : Int64
  expiry : Int64
  pullsExecuted : UInt64
  maxPulls : UInt64

def validateMandate (v : MandateValidationInput) : Bool :=
  let amountValid := v.mandateAmount = v.planAmount
  let balanceSufficient := v.planAmount ≤ v.subscriberBalance
  let timingValid := v.nextPaymentDue ≤ v.currentTimestamp
  let notExpired := if v.expiry = 0 then True else v.currentTimestamp < v.expiry
  let pullsRemaining := v.pullsExecuted < v.maxPulls
  amountValid && balanceSufficient && timingValid && notExpired && pullsRemaining

structure RequestValidation where
  payer : Pubkey
  plan : Pubkey
  mandate : Pubkey
  accounts : QueueAccounts
  requestedComputationOffset : UInt64
  nextPaymentDueSeed : Int64
  ciphertext : List (Bytes 32)
  pubKey : Bytes 32
  nonce : Bytes 16

/-- An approval of the current period that a new request may not displace. -/
def PullApproval.coversPeriod (approval : PullApproval) (mandate : Pubkey)
    (period : Int64 × Int64) (now : Int64) : Prop :=
  approval.approved = true ∧ approval.mandate = mandate ∧ approval.periodStart = period.1 ∧
    approval.periodEnd = period.2 ∧ now ≤ approval.validUntil

instance (approval : PullApproval) (mandate : Pubkey) (period : Int64 × Int64) (now : Int64) :
    Decidable (approval.coversPeriod mandate period now) :=
  inferInstanceAs (Decidable (_ ∧ _ ∧ _ ∧ _ ∧ _))

/-- Both request handlers clear the approval while a computation is in flight. -/
def World.resetApproval (P : Platform) (w : World) (mandate : Pubkey) : World :=
  { w with
    pullApproval := Function.update w.pullApproval mandate
      (some (PullApproval.reset (P.findProgramAddress (.approval mandate)).2)) }

def checkValidationRequest (P : Platform) (w : World) (ctx : RequestValidation) :
    Result LoadedMandateAccount := do
  let loaded ← loadValidMandate P w ctx.mandate
  let mandate := loaded.intoCurrent
  let plan ← loadPlanAccount P w ctx.plan
  let now := w.clock.unixTimestamp
  check (ctx.plan = mandate.plan) .planNotActive
  requirePlanBillingType plan .flat
  check (mandate.status = .active) .mandateNotActive
  check (mandate.amount = plan.mandateAmount) .planNotActive
  check (mandate.pullsExecuted < mandate.maxPulls) .maxPullsExceeded
  check (0 < mandate.expiry → now < mandate.expiry) .mandateExpired
  check (mandate.nextPaymentDue ≤ now) .pullTooEarly
  check (ctx.nextPaymentDueSeed = mandate.nextPaymentDue) .invalidArciumRequestState
  check (plan.status = .active) .planNotActive
  check (ctx.ciphertext.length = 8) .invalidCiphertextInput
  return loaded

def requestValidation (P : Platform) (w : World) (ctx : RequestValidation) : Result World := do
  let loaded ← checkValidationRequest P w ctx
  let mandate := loaded.intoCurrent
  let config ← loadArciumConfig P w
  let nextRequestNonce ← orVela (Checked.addU64 mandate.validationRequestNonce 1) .overflow
  let computationOffset := deriveValidationComputationOffset P ctx.mandate mandate.nextPaymentDue
    nextRequestNonce
  check (ctx.requestedComputationOffset = computationOffset) .invalidComputationOffset
  check (ctx.accounts.clusterAccount = config.clusterPubkey) .invalidArciumAccount
  validateQueueAccounts P ctx.accounts config.clusterOffset computationOffset .validateMandate
    config.effectiveMxeProgramId
  let period ← mandateBillingPeriod mandate
  check (¬(w.approvalOrZeroed ctx.mandate).coversPeriod ctx.mandate period w.clock.unixTimestamp)
    .approvalAlreadyExists
  let w ← w.startRequest P (.validation, ctx.mandate, ctx.nextPaymentDueSeed.toBitVec)
    computationOffset nextRequestNonce
  let mandate := { mandate with validationRequestNonce := nextRequestNonce }
  let w := (w.resetApproval P ctx.mandate).writeMandate ctx.mandate mandate loaded.isLegacy
  return w.queueComputation {
    mandate := ctx.mandate
    computationOffset := computationOffset
    circuit := .validateMandate
    args := .validateMandate ctx.pubKey ctx.nonce ctx.ciphertext }

structure ValidateMandateCallback where
  mandate : Pubkey
  accounts : CallbackAccounts
  /-- the verified output, if any -/
  output : Option Bool

/-- Both approving callbacks store an approval with the same lifetime. -/
def grantApproval (P : Platform) (w : World) (mandate : Pubkey) (period : Int64 × Int64)
    (approved : Bool) (approvedAmount : UInt64) : Result World := do
  let now := w.clock.unixTimestamp
  let validUntil ← orVela (Checked.addI64 now pullApprovalTtlSeconds) .overflow
  return { w with
    pullApproval := Function.update w.pullApproval mandate (some {
      mandate := mandate
      periodStart := period.1
      periodEnd := period.2
      validUntil := validUntil
      approved := approved
      approvedAmount := approvedAmount
      createdAt := now
      bump := (P.findProgramAddress (.approval mandate)).2 }) }

def validationKey (mandateKey : Pubkey) (mandate : VelaMandate) : RequestKey :=
  (.validation, mandateKey, mandate.nextPaymentDue.toBitVec)

/-- `validate_mandate_callback`: period and amount are read from the mandate as it is now -/
def validateMandateCallback (P : Platform) (w : World) (ctx : ValidateMandateCallback) :
    Result World := do
  let mandate ← anchorVelaMandate w ctx.mandate
  let _ ← orHost (w.pullApproval ctx.mandate) .accountNotInitialized
  let config ← loadArciumConfig P w
  validateStaticCallbackAccounts P ctx.accounts .validateMandate config.effectiveMxeProgramId
  let request ← validateCallback P w config ctx.accounts (validationKey ctx.mandate mandate)
  let result ← orVela ctx.output .abortedComputation
  check (mandate.status = .active) .mandateNotActive
  check (mandate.billingType = .flat) .billingTypeMismatch
  let period ← mandateBillingPeriod mandate
  let w ← grantApproval P w ctx.mandate period result mandate.amount
  let w ← w.completeRequest (validationKey ctx.mandate mandate) request
  return w.emit (.validationComplete {
    mandate := ctx.mandate
    approved := result
    timestamp := w.clock.unixTimestamp })

structure ValidationChecked (P : Platform) (w : World) (ctx : RequestValidation)
    (mandate : VelaMandate) (plan : LoadedPlanAccount) : Prop where
  found : w.currentMandate ctx.mandate = some mandate
  loaded : loadPlanAccount P w ctx.plan = .ok plan
  planKey : ctx.plan = mandate.plan
  flat : plan.billingType = .flat
  active : mandate.status = .active
  amount : mandate.amount = plan.mandateAmount
  pulls : mandate.pullsExecuted < mandate.maxPulls
  due : mandate.nextPaymentDue ≤ w.clock.unixTimestamp
  seed : ctx.nextPaymentDueSeed = mandate.nextPaymentDue

theorem checkValidationRequest_eq_ok {P : Platform} {w : World} {ctx : RequestValidation}
    {loaded : LoadedMandateAccount} (h : checkValidationRequest P w ctx = .ok loaded) :
    ∃ plan, ValidationChecked P w ctx loaded.intoCurrent plan := by
  simp only [checkValidationRequest, requirePlanBillingType, check, bind_eq_ok, require_eq_ok,
    pure_eq_ok, exists_const] at h
  obtain ⟨loaded, load, plan, loadPlan, planKey, flat, active, amount, pulls, _, due, seed, _, _,
    rfl⟩ := h
  exact ⟨plan, loadValidMandate_currentMandate load, loadPlan, planKey, flat, active, amount,
    pulls, due, seed⟩

structure ValidationRequested (P : Platform) (w : World) (ctx : RequestValidation) (w' : World)
    (mandate : VelaMandate) (plan : LoadedPlanAccount) : Prop where
  checked : ValidationChecked P w ctx mandate plan
  free : ¬((w.requestOrZeroed (validationKey ctx.mandate mandate)).createdAt ≠ 0 ∧
    (w.requestOrZeroed (validationKey ctx.mandate mandate)).status = .pending)
  written : ∃ nonce,
    w'.currentMandate ctx.mandate = some { mandate with validationRequestNonce := nonce }
  others : ∀ other, other ≠ ctx.mandate → w'.currentMandate other = w.currentMandate other
  pullApproval : w'.pullApproval = Function.update w.pullApproval ctx.mandate
    (some (PullApproval.reset (P.findProgramAddress (.approval ctx.mandate)).2))
  requestState : ∃ request, w'.requestState =
    Function.update w.requestState (validationKey ctx.mandate mandate) (some request) ∧
      request.status = .pending
  frame : SetupFrame w w'
  usageReport : w'.usageReport = w.usageReport
  money : SameMoney w w'

theorem requestValidation_eq_ok {P : Platform} {w w' : World} {ctx : RequestValidation}
    (h : requestValidation P w ctx = .ok w') :
    ∃ mandate plan, ValidationRequested P w ctx w' mandate plan := by
  simp only [requestValidation, check, orVela, bind_eq_ok, orError_eq_ok, require_eq_ok,
    pure_eq_ok, exists_const] at h
  obtain ⟨loaded, checked, _, _, nonce, _, _, _, _, _, _, _, _, w₁, started, rfl⟩ := h
  obtain ⟨plan, checked⟩ := checkValidationRequest_eq_ok checked
  obtain ⟨free, rfl⟩ := startRequest_eq_ok started
  have key : (ArciumRequestFlow.validation, ctx.mandate, ctx.nextPaymentDueSeed.toBitVec) =
      validationKey ctx.mandate loaded.intoCurrent := by
    rw [validationKey, checked.seed]
  have terms : loaded.intoCurrent.SameTerms
    { loaded.intoCurrent with validationRequestNonce := nonce } :=
    ⟨rfl, id⟩
  refine ⟨_, plan, checked, key ▸ free, ⟨nonce, ?_⟩, ?_, rfl,
    ⟨_, congrArg (Function.update w.requestState · _) key, rfl⟩,
    ⟨rfl, rfl, rfl, rfl, fun _ => le_refl _⟩, rfl,
    SameMoney.of_entry rfl rfl⟩
  · exact writeMandate_self checked.found terms.fits
  · exact fun other different => writeMandate_of_ne different _ _

theorem anchorVelaMandate_terms {w : World} {key : Pubkey} {mandate : VelaMandate}
    (h : anchorVelaMandate w key = .ok mandate) :
    ∃ stored, w.currentMandate key = some stored ∧
      mandate = { stored with version := mandate.version } := by
  obtain ⟨account, found, layout⟩ := anchorVelaMandate_eq_ok h
  refine ⟨account.contents.intoCurrent, currentMandate_eq_some found, ?_⟩
  rcases layout with current | ⟨legacy, layout, rfl⟩
  · rw [current]
    rfl
  · rw [layout]
    rfl

theorem grantApproval_eq_ok {P : Platform} {w w' : World} {mandate : Pubkey}
    {period : Int64 × Int64} {approved : Bool} {approvedAmount : UInt64}
    (h : grantApproval P w mandate period approved approvedAmount = .ok w') :
    ∃ validUntil bump, w' = { w with
      pullApproval := Function.update w.pullApproval mandate (some ⟨mandate, period.1, period.2,
        validUntil, approved, approvedAmount, w.clock.unixTimestamp, bump⟩) } := by
  simp only [grantApproval, orVela, bind_eq_ok, orError_eq_ok, pure_eq_ok] at h
  obtain ⟨validUntil, _, rfl⟩ := h
  exact ⟨validUntil, _, rfl⟩

theorem completeRequest_eq_ok {w w' : World} {key : RequestKey} {request : ArciumRequestState}
    (h : w.completeRequest key request = .ok w') :
    ∃ completed, completed.status = .completed ∧
      w' = { w with requestState := Function.update w.requestState key (some completed) } := by
  simp only [World.completeRequest, bind_eq_ok, pure_eq_ok, completeArciumRequest_eq_ok] at h
  obtain ⟨completed, ⟨_, rfl⟩, rfl⟩ := h
  exact ⟨_, rfl, rfl⟩

/-- A successful approving callback: it answers a pending request, completes it and stores an
approval of `amount` for the period of the mandate as it is now. -/
structure Approved (w : World) (key : Pubkey) (w' : World) (request : RequestKey)
    (mandate : VelaMandate) (approved : Bool) (amount : UInt64) : Prop where
  found : w.currentMandate key = some mandate
  active : mandate.status = .active
  pending : ∃ state, w.requestState request = some state ∧ state.status = .pending
  granted : ∃ period validUntil bump, mandateBillingPeriod mandate = .ok period ∧
    w'.pullApproval = Function.update w.pullApproval key (some ⟨key, period.1, period.2,
      validUntil, approved, amount, w.clock.unixTimestamp, bump⟩)
  completed : ∃ state : ArciumRequestState, state.status = .completed ∧
    w'.requestState = Function.update w.requestState request (some state)
  mandates : w'.mandate = w.mandate
  frame : SetupFrame w w'
  usageReport : w'.usageReport = w.usageReport
  money : SameMoney w w'

theorem approved_of {P : Platform} {w w₁ w₂ w' : World} {key : Pubkey} {request : RequestKey}
    {state : ArciumRequestState} {mandate : VelaMandate} {period : Int64 × Int64}
    {approved : Bool} {amount : UInt64} {entry : LogEntry}
    (found : w.currentMandate key = some mandate) (active : mandate.status = .active)
    (pending : w.requestState request = some state ∧ state.status = .pending)
    (window : mandateBillingPeriod mandate = .ok period)
    (granted : grantApproval P w key period approved amount = .ok w₁)
    (completed : w₁.completeRequest request state = .ok w₂) (neutral : entry.neutral = true)
    (emitted : w₂.emit entry = w') : Approved w key w' request mandate approved amount := by
  obtain ⟨validUntil, bump, rfl⟩ := grantApproval_eq_ok granted
  obtain ⟨done, status, rfl⟩ := completeRequest_eq_ok completed
  subst emitted
  exact ⟨found, active, ⟨state, pending⟩, ⟨period, validUntil, bump, window, rfl⟩,
    ⟨done, status, rfl⟩, rfl, ⟨rfl, rfl, rfl, rfl, fun _ => le_refl _⟩, rfl,
    SameMoney.of_entry rfl neutral⟩

theorem validateMandateCallback_eq_ok {P : Platform} {w w' : World} {ctx : ValidateMandateCallback}
    (h : validateMandateCallback P w ctx = .ok w') :
    ∃ mandate result, mandate.billingType = .flat ∧ ctx.output = some result ∧
      Approved w ctx.mandate w' (validationKey ctx.mandate mandate) mandate result
        mandate.amount := by
  simp only [validateMandateCallback, check, orVela, bind_eq_ok, orError_eq_ok, require_eq_ok,
    pure_eq_ok, exists_const] at h
  obtain ⟨mandate, anchored, _, _, _, _, _, _, state, valid, result, output, active, flat, period,
    window, w₁, granted, w₂, completed, emitted⟩ := h
  obtain ⟨stored, found, version⟩ := anchorVelaMandate_terms anchored
  rw [version] at valid active flat window granted completed
  obtain ⟨pending, _, _, _, status⟩ := validateCallback_eq_ok valid
  exact ⟨stored, result, flat, output,
    approved_of found active ⟨pending, status⟩ window granted completed rfl emitted⟩

end VelaProtocol
