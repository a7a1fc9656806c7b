import VelaProtocol.Accounts.Plan
import VelaProtocol.Instructions.Proration
import VelaProtocol.Token

/-! Changing the plan of a live mandate: at once with proration, or scheduled for the due date. -/
namespace VelaProtocol

open Guard

/-- The assignments both plan-change paths make once the new plan is accepted. -/
def VelaMandate.switchPlan (mandate : VelaMandate) (planKey : Pubkey) (plan : LoadedPlanAccount) :
    VelaMandate :=
  { mandate with
    plan := planKey
    amount := plan.mandateAmount
    frequency := plan.mandateFrequency
    maxPulls := plan.maxPulls
    billingType := plan.billingType
    version := currentAccountVersion }.clearPending

def VelaMandate.signerSeeds (mandate : VelaMandate) : Seeds :=
  .mandate mandate.subscriber mandate.merchant mandate.mandateIndex

def World.closeApproval (w : World) (mandate : Pubkey) : World :=
  { w with pullApproval := Function.update w.pullApproval mandate none }

structure UpdateMandatePlan where
  authority : Pubkey
  newPlan : Pubkey
  mandate : Pubkey
  subscriberWrappedAccount : Pubkey
  merchantWrappedAccount : Pubkey
  wrappedUsdcMint : Pubkey
  pullApproval : Pubkey
  wrappingVault : Pubkey
  hookProgram : Pubkey

def elapsedInPeriod (mandate : VelaMandate) (clockNow : Int64) : Result UInt64 := do
  let periodTotal ← orVela (Checked.toI64 mandate.frequency.toNat) .overflow
  let periodStart ← orVela (Checked.subI64 mandate.nextPaymentDue periodTotal) .overflow
  if clockNow ≤ periodStart then return 0
  else if mandate.nextPaymentDue ≤ clockNow then return mandate.frequency
  else orVela (Checked.toU64 (clockNow.toInt - periodStart.toInt)) .overflow

def validatePullApproval (P : Platform) (w : World) (ctx : UpdateMandatePlan)
    (mandate : VelaMandate) (chargeAmount : UInt64) (clockNow : Int64) : Result Unit := do
  check (ctx.pullApproval = (P.findProgramAddress (.approval ctx.mandate)).1) .approvalNotGranted
  let approval ← orVela (w.pullApproval ctx.mandate) .approvalNotGranted
  check (approval.approved = true) .approvalNotGranted
  check (approval.mandate = ctx.mandate) .approvalNotGranted
  let (periodStart, periodEnd) ← mandateBillingPeriod mandate
  check (approval.periodStart = periodStart ∧ approval.periodEnd = periodEnd) .periodMismatch
  check (clockNow ≤ approval.validUntil) .approvalExpired
  check (chargeAmount ≤ approval.approvedAmount) .amountExceedsPlanAmount

structure PlanSwitch where
  config : LoadedProtocolConfig
  mandate : VelaMandate
  newPlan : LoadedPlanAccount
  tokenConfig : TokenConfig

/-- The checks of `update_mandate_plan` up to the same-plan exit -/
def checkPlanSwitch (P : Platform) (w : World) (ctx : UpdateMandatePlan) : Result PlanSwitch := do
  let tokenConfig ← anchorTokenConfig w ctx.wrappedUsdcMint
  let config ← loadProtocolConfig w
  check (config.paused = false) .protocolPaused
  check (config.hookProgramId ≠ Pubkey.default) .invalidProtocolConfig
  check (ctx.hookProgram = config.hookProgramId) .invalidProtocolConfig
  check (ctx.wrappingVault = config.wrappingVault) .vaultMismatch
  let loaded ← loadMandateAccount w ctx.mandate
  check (loaded.isLegacy = false) .mandateVersionUnsupported
  validateLoadedMandateAddress P ctx.mandate loaded
  let mandate := loaded.intoCurrent
  check (mandate.status = .active) .mandateNotActive
  let newPlan ← loadPlanAccount P w ctx.newPlan
  check (newPlan.merchant = mandate.merchant) .unauthorizedUpgrade
  check (newPlan.status = .active) .planNotActive
  check (newPlan.billingMint ≠ Pubkey.default → ctx.wrappedUsdcMint = newPlan.billingMint)
    .tokenChangeNotSupported
  check (tokenConfig.enabled = true) .tokenDisabled
  check (tokenConfig.mint = ctx.wrappedUsdcMint) .tokenNotRegistered
  check (ctx.authority = mandate.subscriber ∨ ctx.authority = mandate.merchant)
    .unauthorizedUpgrade
  check (mandate.amount < newPlan.mandateAmount → ctx.authority = mandate.subscriber)
    .unauthorizedUpgrade
  return { config, mandate, newPlan, tokenConfig }

def invokeUpgradeTransfer (P : Platform) (w : World) (ctx : UpdateMandatePlan)
    (mandate : VelaMandate) (tokenConfig : TokenConfig) (chargeAmount : UInt64) :
    Result World := do
  validateToken2022TransferAccounts w ctx.subscriberWrappedAccount ctx.merchantWrappedAccount
    ctx.wrappedUsdcMint ctx.mandate mandate.merchant
  invokeTransferCheckedWithHook P w
    { source := ctx.subscriberWrappedAccount
      mint := ctx.wrappedUsdcMint
      destination := ctx.merchantWrappedAccount
      authority := ctx.mandate
      wrappingVault := ctx.wrappingVault
      hookProgram := ctx.hookProgram }
    chargeAmount tokenConfig.decimals mandate.signerSeeds mandate.bump

/-- The positive branch: the delta is charged against the approval, which is closed. -/
def chargeDelta (P : Platform) (w : World) (ctx : UpdateMandatePlan) (s : PlanSwitch)
    (signedDelta : Int) : Result World := do
  let chargeAmount ← orVela (Checked.toU64 signedDelta) .mathOverflow
  validatePullApproval P w ctx s.mandate chargeAmount w.clock.unixTimestamp
  let w ← invokeUpgradeTransfer P w ctx s.mandate s.tokenConfig chargeAmount
  return w.closeApproval ctx.mandate

/-- The negative branch: the delta is added to the mandate's credit. -/
def creditDelta (w : World) (ctx : UpdateMandatePlan) (s : PlanSwitch) (signedDelta : Int) :
    Result (World × VelaMandate) := do
  let creditAmount ← orVela (Checked.toU64 (-signedDelta)) .mathOverflow
  let creditBalance ← orVela (Checked.addU64 s.mandate.creditBalance creditAmount) .overflow
  return (w.emit (.mandateCreditAdded {
    schemaVersion := 1
    mandate := ctx.mandate
    mint := ctx.wrappedUsdcMint
    tokenSymbol := eventTokenSymbol ctx.wrappedUsdcMint s.config.wrappedUsdcMint
    oldPlan := s.mandate.plan
    newPlan := ctx.newPlan
    creditAmount := creditAmount
    newCreditBalance := creditBalance
    appliedAt := w.clock.unixTimestamp
    timestamp := w.clock.unixTimestamp }),
    { s.mandate with creditBalance := creditBalance })

def settleProration (P : Platform) (w : World) (ctx : UpdateMandatePlan) (s : PlanSwitch)
    (signedDelta : Int) : Result (World × VelaMandate) :=
  if 0 < signedDelta then do
    let w ← chargeDelta P w ctx s signedDelta
    return (w, s.mandate)
  else if signedDelta < 0 then creditDelta w ctx s signedDelta
  else return (w, s.mandate)

def switchDelta (P : Platform) (w : World) (s : PlanSwitch) : Result Int := do
  let elapsedSeconds ← elapsedInPeriod s.mandate w.clock.unixTimestamp
  computeProration P.precise s.mandate.amount s.newPlan.mandateAmount elapsedSeconds
    s.mandate.frequency

/-- `update_mandate_plan` after the same-plan exit -/
def applyPlanSwitch (P : Platform) (w : World) (ctx : UpdateMandatePlan) (s : PlanSwitch) :
    Result World := do
  let clockNow := w.clock.unixTimestamp
  let signedDelta ← switchDelta P w s
  let eventProrationAmount ← orVela (Checked.toI64 signedDelta) .mathOverflow
  let tokenSymbol := eventTokenSymbol ctx.wrappedUsdcMint s.config.wrappedUsdcMint
  let w := w.emit (.mandateUpgradeInitiated {
    schemaVersion := 1
    mandate := ctx.mandate
    mint := ctx.wrappedUsdcMint
    tokenSymbol := tokenSymbol
    oldPlan := s.mandate.plan
    newPlan := ctx.newPlan
    prorationAmount := eventProrationAmount
    changeType := 1
    signer := ctx.authority
    appliedAt := clockNow
    timestamp := clockNow })
  let (w, mandate) ← settleProration P w ctx s signedDelta
  let w := w.writeMandate ctx.mandate (mandate.switchPlan ctx.newPlan s.newPlan) false
  return w.emit (.mandateUpgradeFinalized {
    schemaVersion := 1
    mandate := ctx.mandate
    mint := ctx.wrappedUsdcMint
    tokenSymbol := tokenSymbol
    oldPlan := s.mandate.plan
    newPlan := ctx.newPlan
    prorationAmount := eventProrationAmount
    changeType := 1
    appliedAt := clockNow
    timestamp := clockNow })

def updateMandatePlan (P : Platform) (w : World) (ctx : UpdateMandatePlan) : Result World := do
  let s ← checkPlanSwitch P w ctx
  if s.mandate.plan = ctx.newPlan then return w else applyPlanSwitch P w ctx s

structure SchedulePlanChange where
  authority : Pubkey
  newPlan : Pubkey
  mandate : Pubkey

structure Scheduling where
  config : LoadedProtocolConfig
  mandate : VelaMandate
  newPlan : LoadedPlanAccount

def checkScheduling (P : Platform) (w : World) (ctx : SchedulePlanChange) : Result Scheduling := do
  let config ← loadProtocolConfig w
  check (config.paused = false) .protocolPaused
  let loaded ← loadMandateAccount w ctx.mandate
  check (loaded.isLegacy = false) .mandateVersionUnsupported
  validateLoadedMandateAddress P ctx.mandate loaded
  let mandate := loaded.intoCurrent
  check (mandate.status = .active) .mandateNotActive
  let newPlan ← loadPlanAccount P w ctx.newPlan
  check (newPlan.merchant = mandate.merchant) .unauthorizedUpgrade
  check (newPlan.status = .active) .planNotActive
  check (ctx.authority = mandate.subscriber ∨ ctx.authority = mandate.merchant)
    .unauthorizedUpgrade
  check (mandate.amount < newPlan.mandateAmount → ctx.authority = mandate.subscriber)
    .unauthorizedUpgrade
  return { config, mandate, newPlan }

/-- `compute_nonce`: the slot alone -/
def computeNonce (_mandate _newPlan : Pubkey) (slot : UInt64) : Bytes 8 := slot.toBitVec

def VelaMandate.schedule (mandate : VelaMandate) (newPlan : Pubkey) (nonce : Bytes 8) :
    VelaMandate :=
  { mandate with
    pendingNewPlan := newPlan
    pendingEffectiveAt := mandate.nextPaymentDue
    pendingChangeType := 2
    pendingNonceShort := nonce
    version := currentAccountVersion }

def schedulePlanChange (P : Platform) (w : World) (ctx : SchedulePlanChange) : Result World := do
  let s ← checkScheduling P w ctx
  let nonce := computeNonce ctx.mandate ctx.newPlan w.clock.slot
  if s.mandate.plan = ctx.newPlan then return w
  else if s.mandate.pendingChangeType = 2 ∧ s.mandate.pendingNewPlan = ctx.newPlan ∧
      s.mandate.pendingNonceShort = nonce then return w
  else
    let eventMint := effectiveMint s.config.wrappedUsdcMint s.newPlan
    return (w.writeMandate ctx.mandate (s.mandate.schedule ctx.newPlan nonce) false).emit
      (.mandateUpgradeInitiated {
        schemaVersion := 1
        mandate := ctx.mandate
        mint := eventMint
        tokenSymbol := eventTokenSymbol eventMint s.config.wrappedUsdcMint
        oldPlan := s.mandate.plan
        newPlan := ctx.newPlan
        prorationAmount := 0
        changeType := 2
        signer := ctx.authority
        appliedAt := s.mandate.nextPaymentDue
        timestamp := w.clock.unixTimestamp })

structure CancelPlanChange where
  authority : Pubkey
  mandate : Pubkey

def VelaMandate.dropPending (mandate : VelaMandate) : VelaMandate :=
  { mandate.clearPending with version := currentAccountVersion }

def cancelPlanChange (P : Platform) (w : World) (ctx : CancelPlanChange) : Result World := do
  let _ ← loadProtocolConfig w
  let loaded ← loadMandateAccount w ctx.mandate
  check (loaded.isLegacy = false) .mandateVersionUnsupported
  validateLoadedMandateAddress P ctx.mandate loaded
  let mandate := loaded.intoCurrent
  check (mandate.status = .active) .mandateNotActive
  check (mandate.hasPendingChange = true) .noPendingChange
  check (ctx.authority = mandate.subscriber ∨ ctx.authority = mandate.merchant)
    .unauthorizedUpgrade
  return (w.writeMandate ctx.mandate mandate.dropPending false).emit (.mandateUpgradeCancelled {
    schemaVersion := 1
    mandate := ctx.mandate
    mint := Pubkey.default
    tokenSymbol := ""
    oldPlan := mandate.plan
    newPlan := mandate.pendingNewPlan
    prorationAmount := 0
    changeType := 2
    signer := ctx.authority
    appliedAt := mandate.pendingEffectiveAt
    timestamp := w.clock.unixTimestamp })

structure Elsewhere (w w' : World) (key : Pubkey) : Prop where
  mandate : ∀ other, other ≠ key → w'.currentMandate other = w.currentMandate other
  pullApproval : ∀ other, other ≠ key → w'.pullApproval other = w.pullApproval other
  transfersBy : ∀ other, other ≠ key → w'.transfersBy other = w.transfersBy other
  creditsTo : ∀ other, other ≠ key → w'.creditsTo other = w.creditsTo other

structure SwitchChecked (P : Platform) (w : World) (ctx : UpdateMandatePlan) (s : PlanSwitch) :
    Prop where
  tokenConfig : w.tokenConfig ctx.wrappedUsdcMint = some s.tokenConfig
  registered : s.tokenConfig.mint = ctx.wrappedUsdcMint
  config : w.protocolConfig = some s.config
  found : w.currentMandate ctx.mandate = some s.mandate
  active : s.mandate.status = .active
  newPlan : loadPlanAccount P w ctx.newPlan = .ok s.newPlan
  merchant : s.newPlan.merchant = s.mandate.merchant
  billingMint : s.newPlan.billingMint ≠ Pubkey.default →
    ctx.wrappedUsdcMint = s.newPlan.billingMint
  signer : ctx.authority = s.mandate.subscriber ∨ ctx.authority = s.mandate.merchant
  raise : s.mandate.amount < s.newPlan.mandateAmount → ctx.authority = s.mandate.subscriber

theorem checkPlanSwitch_eq_ok {P : Platform} {w : World} {ctx : UpdateMandatePlan} {s : PlanSwitch}
    (h : checkPlanSwitch P w ctx = .ok s) : SwitchChecked P w ctx s := by
  simp only [checkPlanSwitch, anchorTokenConfig, check, orHost, bind_eq_ok, orError_eq_ok,
    require_eq_ok, pure_eq_ok, exists_const] at h
  obtain ⟨tokenConfig, registry, config, loadConfig, _, _, _, _, loaded, load, _, _, _, active,
    newPlan, loadPlan, merchant, _, billingMint, _, registered, signer, raise, rfl⟩ := h
  exact ⟨registry, registered, loadProtocolConfig_eq_ok loadConfig,
    loadMandateAccount_currentMandate load, active, loadPlan, merchant, billingMint, signer, raise⟩

/-- Seconds of the running period that have passed: none before it, all of them after it. -/
def elapsedSeconds (mandate : VelaMandate) (now : Int64) : Nat :=
  min mandate.frequency.toNat
    (now.toInt - (mandate.nextPaymentDue.toInt - mandate.frequency.toNat)).toNat

theorem elapsedInPeriod_eq_ok {mandate : VelaMandate} {now : Int64} {elapsed : UInt64}
    (h : elapsedInPeriod mandate now = .ok elapsed) :
    elapsed.toNat = elapsedSeconds mandate now := by
  simp only [elapsedInPeriod, orVela, bind_eq_ok, orError_eq_ok, Checked.toI64_eq_some,
    Checked.subI64_eq_some] at h
  obtain ⟨total, total_eq, start, start_eq, h⟩ := h
  unfold elapsedSeconds
  split at h
  · rename_i early
    rw [Checked.le_iff_int] at early
    cases h
    rw [UInt64.toNat_zero]
    omega
  · rename_i started
    rw [Checked.le_iff_int] at started
    split at h
    · rename_i ended
      rw [Checked.le_iff_int] at ended
      cases h
      omega
    · rename_i running
      rw [Checked.le_iff_int] at running
      rw [orError_eq_ok, Checked.toU64_eq_some] at h
      omega

theorem elapsedSeconds_le (mandate : VelaMandate) (now : Int64) :
    elapsedSeconds mandate now ≤ mandate.frequency.toNat := Nat.min_le_left _ _

def switchFormula (mandate : VelaMandate) (newPlan : LoadedPlanAccount) (now : Int64) : Int :=
  proratedDelta mandate.amount.toNat newPlan.mandateAmount.toNat (elapsedSeconds mandate now)
    mandate.frequency.toNat

theorem switchDelta_eq_ok {P : Platform} {w : World} {s : PlanSwitch} {delta : Int}
    (h : switchDelta P w s = .ok delta) :
    0 < s.mandate.frequency ∧ delta = switchFormula s.mandate s.newPlan w.clock.unixTimestamp := by
  simp only [switchDelta, bind_eq_ok] at h
  obtain ⟨elapsed, elapsed_eq, proration⟩ := h
  obtain ⟨positive, _, formula⟩ := computeProration_eq_ok.mp proration
  refine ⟨positive, ?_⟩
  rw [formula, elapsedInPeriod_eq_ok elapsed_eq, switchFormula]

structure UpgradeApproved (w : World) (key : Pubkey) (mandate : VelaMandate)
    (chargeAmount : UInt64) (approval : PullApproval) : Prop where
  found : w.pullApproval key = some approval
  approved : approval.approved = true
  bound : approval.mandate = key
  period : ∃ period, mandateBillingPeriod mandate = .ok period ∧
    approval.periodStart = period.1 ∧ approval.periodEnd = period.2
  fresh : w.clock.unixTimestamp ≤ approval.validUntil
  amount : chargeAmount ≤ approval.approvedAmount

theorem validatePullApproval_eq_ok {P : Platform} {w : World} {ctx : UpdateMandatePlan}
    {mandate : VelaMandate} {chargeAmount : UInt64} {u : Unit}
    (h : validatePullApproval P w ctx mandate chargeAmount w.clock.unixTimestamp = .ok u) :
    ∃ approval, UpgradeApproved w ctx.mandate mandate chargeAmount approval := by
  simp only [validatePullApproval, check, orVela, bind_eq_ok, orError_eq_ok, require_eq_ok,
    exists_const] at h
  obtain ⟨_, approval, found, approved, mandate_eq, period, window, start_eq, fresh, amount⟩ := h
  exact ⟨approval, found, approved, mandate_eq, ⟨period, window, start_eq⟩, fresh, amount⟩

def UpdateMandatePlan.transferAccounts (ctx : UpdateMandatePlan) : TransferAccounts where
  source := ctx.subscriberWrappedAccount
  mint := ctx.wrappedUsdcMint
  destination := ctx.merchantWrappedAccount
  authority := ctx.mandate
  wrappingVault := ctx.wrappingVault
  hookProgram := ctx.hookProgram

inductive DeltaSettled (w : World) (ctx : UpdateMandatePlan) (mandate : VelaMandate) (delta : Int)
    (w' : World) (priced : VelaMandate) : Prop
  | charged (amount : UInt64) (approval : PullApproval) (value : (amount.toNat : Int) = delta)
      (positive : 0 < delta)
      (approved : UpgradeApproved w ctx.mandate mandate amount approval)
      (transfers : w'.transfersBy ctx.mandate = w.transfersBy ctx.mandate ∧
          ctx.subscriberWrappedAccount = ctx.merchantWrappedAccount ∨
        w'.transfersBy ctx.mandate = ⟨ctx.wrappedUsdcMint, ctx.subscriberWrappedAccount,
          ctx.merchantWrappedAccount, ctx.mandate, amount⟩ :: w.transfersBy ctx.mandate)
      (credits : w'.creditsTo ctx.mandate = w.creditsTo ctx.mandate)
      (closed : w'.pullApproval ctx.mandate = none)
      (same : priced = mandate)
  | credited (amount : UInt64) (value : (amount.toNat : Int) = -delta) (negative : delta < 0)
      (entry : MandateCreditAdded) (mint : entry.mint = ctx.wrappedUsdcMint)
      (granted : entry.creditAmount = amount)
      (transfers : w'.transfersBy ctx.mandate = w.transfersBy ctx.mandate)
      (credits : w'.creditsTo ctx.mandate = entry :: w.creditsTo ctx.mandate)
      (kept : w'.pullApproval ctx.mandate = w.pullApproval ctx.mandate)
      (balance : priced.creditBalance.toNat = mandate.creditBalance.toNat + amount.toNat)
      (rest : priced = { mandate with creditBalance := priced.creditBalance })
  | nothing (zero : delta = 0)
      (transfers : w'.transfersBy ctx.mandate = w.transfersBy ctx.mandate)
      (credits : w'.creditsTo ctx.mandate = w.creditsTo ctx.mandate)
      (kept : w'.pullApproval ctx.mandate = w.pullApproval ctx.mandate)
      (same : priced = mandate)

theorem DeltaSettled.rest {w w' : World} {ctx : UpdateMandatePlan} {mandate priced : VelaMandate}
    {delta : Int} (settled : DeltaSettled w ctx mandate delta w' priced) :
    priced = { mandate with creditBalance := priced.creditBalance } := by
  cases settled with
  | charged amount approval value positive approved transfers credits closed same => rw [same]
  | credited amount value negative entry mint granted transfers credits kept balance rest =>
    exact rest
  | nothing zero transfers credits kept same => rw [same]

structure DeltaFrame (w w' : World) (key : Pubkey) : Prop where
  setup : SetupFrame w w'
  mandate : w'.mandate = w.mandate
  requestState : w'.requestState = w.requestState
  usageReport : w'.usageReport = w.usageReport
  elsewhere : Elsewhere w w' key

theorem chargeDelta_eq_ok {P : Platform} {w w' : World} {ctx : UpdateMandatePlan} {s : PlanSwitch}
    {delta : Int} (positive : 0 < delta) (h : chargeDelta P w ctx s delta = .ok w') :
    DeltaSettled w ctx s.mandate delta w' s.mandate ∧ DeltaFrame w w' ctx.mandate := by
  simp only [chargeDelta, invokeUpgradeTransfer, orVela, bind_eq_ok, orError_eq_ok,
    pure_eq_ok] at h
  obtain ⟨amount, value, _, valid, w₁, ⟨_, accounts, invoked⟩, rfl⟩ := h
  obtain ⟨approval, approved⟩ := validatePullApproval_eq_ok valid
  have paid := paid_of accounts invoked
  have only := paid.frame
  constructor
  · refine .charged amount approval (Checked.toU64_eq_some.mp value) positive approved ?_ ?_ ?_ rfl
    · exact paid.moved.transfersBy_self.imp id And.left
    · exact paid.moved.creditsTo _
    · exact Function.update_self _ _ _
  · refine ⟨⟨only.clock, only.protocolConfig, only.tokenConfig, only.plan,
        mandateCounter_le_of_eq only.merchantState⟩, only.mandate,
      only.requestState, only.usageReport, ⟨?_, ?_, ?_, ?_⟩⟩
    · exact fun other _ => currentMandate_congr only.mandate other
    · intro other different
      show Function.update w₁.pullApproval ctx.mandate none other = w.pullApproval other
      rw [Function.update_of_ne different, only.pullApproval]
    · exact fun other different => paid.moved.transfersBy_of_ne different
    · exact fun other _ => paid.moved.creditsTo other

theorem creditDelta_eq_ok {w : World} {ctx : UpdateMandatePlan} {s : PlanSwitch} {delta : Int}
    {result : World × VelaMandate} (negative : delta < 0)
    (h : creditDelta w ctx s delta = .ok result) :
    DeltaSettled w ctx s.mandate delta result.1 result.2 ∧
      DeltaFrame w result.1 ctx.mandate := by
  simp only [creditDelta, orVela, bind_eq_ok, orError_eq_ok, pure_eq_ok] at h
  obtain ⟨amount, value, balance, sum, rfl⟩ := h
  constructor
  · refine .credited amount (Checked.toU64_eq_some.mp value) negative _ ?_ ?_ rfl
      ((creditsTo_emit_credit w _ _).trans (if_pos rfl)) rfl (Checked.addU64_eq_some.mp sum) rfl
    · rfl
    · rfl
  · refine ⟨⟨rfl, rfl, rfl, rfl, fun _ => le_refl _⟩, rfl, rfl, rfl,
      ⟨fun _ _ => rfl, fun _ _ => rfl, fun _ _ => rfl,
      ?_⟩⟩
    intro other different
    exact (creditsTo_emit_credit w _ _).trans (if_neg (Ne.symm different))

theorem settleProration_eq_ok {P : Platform} {w : World} {ctx : UpdateMandatePlan} {s : PlanSwitch}
    {delta : Int} {result : World × VelaMandate}
    (h : settleProration P w ctx s delta = .ok result) :
    DeltaSettled w ctx s.mandate delta result.1 result.2 ∧
      DeltaFrame w result.1 ctx.mandate := by
  unfold settleProration at h
  split at h
  · rename_i positive
    simp only [bind_eq_ok, pure_eq_ok] at h
    obtain ⟨w₁, charged, rfl⟩ := h
    exact chargeDelta_eq_ok positive charged
  · rename_i charge
    split at h
    · rename_i negative
      exact creditDelta_eq_ok negative h
    · rename_i credit
      rw [pure_eq_ok] at h
      subst h
      exact ⟨.nothing (by omega) rfl rfl rfl rfl,
        ⟨⟨rfl, rfl, rfl, rfl, fun _ => le_refl _⟩, rfl, rfl, rfl,
        ⟨fun _ _ => rfl, fun _ _ => rfl, fun _ _ => rfl, fun _ _ => rfl⟩⟩⟩

/-- Two worlds that show a billing instruction the same mandate money, approvals and clock. -/
structure SameBilling (w w' : World) : Prop where
  clock : w'.clock = w.clock
  pullApproval : w'.pullApproval = w.pullApproval
  money : SameMoney w w'

theorem UpgradeApproved.congr {w w₀ : World} {key : Pubkey} {mandate : VelaMandate}
    {amount : UInt64} {approval : PullApproval} (same : SameBilling w w₀)
    (approved : UpgradeApproved w₀ key mandate amount approval) :
    UpgradeApproved w key mandate amount approval :=
  ⟨by rw [← same.pullApproval]; exact approved.found, approved.approved, approved.bound,
    approved.period, by rw [← same.clock]; exact approved.fresh, approved.amount⟩

theorem DeltaSettled.congr {w w₀ w₁ w' : World} {ctx : UpdateMandatePlan}
    {mandate priced : VelaMandate} {delta : Int} (start : SameBilling w w₀)
    (finish : SameBilling w₁ w') (settled : DeltaSettled w₀ ctx mandate delta w₁ priced) :
    DeltaSettled w ctx mandate delta w' priced := by
  have transfers_start := start.money.transfersBy ctx.mandate
  have transfers_finish := finish.money.transfersBy ctx.mandate
  have credits_start := start.money.creditsTo ctx.mandate
  have credits_finish := finish.money.creditsTo ctx.mandate
  cases settled with
  | charged amount approval value positive approved transfers credits closed same =>
    refine .charged amount approval value positive (approved.congr start) ?_ ?_ ?_ same
    · rwa [transfers_finish, ← transfers_start]
    · rw [credits_finish, credits, credits_start]
    · rw [finish.pullApproval, closed]
  | credited amount value negative entry mint granted transfers credits kept balance rest =>
    refine .credited amount value negative entry mint granted ?_ ?_ ?_ balance rest
    · rw [transfers_finish, transfers, transfers_start]
    · rw [credits_finish, credits, credits_start]
    · rw [finish.pullApproval, kept, start.pullApproval]
  | nothing zero transfers credits kept same =>
    refine .nothing zero ?_ ?_ ?_ same
    · rw [transfers_finish, transfers, transfers_start]
    · rw [credits_finish, credits, credits_start]
    · rw [finish.pullApproval, kept, start.pullApproval]

/-- A successful `update_mandate_plan` that changes the plan; `priced` is the mandate once the
delta is settled and before the new terms are copied in. -/
structure Switched (P : Platform) (w : World) (ctx : UpdateMandatePlan) (w' : World)
    (s : PlanSwitch) (delta : Int) (priced : VelaMandate) : Prop where
  checked : SwitchChecked P w ctx s
  changed : s.mandate.plan ≠ ctx.newPlan
  positive : 0 < s.mandate.frequency
  formula : delta = switchFormula s.mandate s.newPlan w.clock.unixTimestamp
  settled : DeltaSettled w ctx s.mandate delta w' priced
  written : w'.currentMandate ctx.mandate = some (priced.switchPlan ctx.newPlan s.newPlan)
  frame : SetupFrame w w'
  requestState : w'.requestState = w.requestState
  usageReport : w'.usageReport = w.usageReport
  elsewhere : Elsewhere w w' ctx.mandate

theorem updateMandatePlan_eq_ok {P : Platform} {w w' : World} {ctx : UpdateMandatePlan}
    (h : updateMandatePlan P w ctx = .ok w') :
    (w' = w ∧ ∃ s, SwitchChecked P w ctx s ∧ s.mandate.plan = ctx.newPlan) ∨
      ∃ s delta priced, Switched P w ctx w' s delta priced := by
  simp only [updateMandatePlan, bind_eq_ok] at h
  obtain ⟨s, checked, h⟩ := h
  have checked := checkPlanSwitch_eq_ok checked
  split at h
  · rename_i unchanged
    rw [pure_eq_ok] at h
    exact .inl ⟨h.symm, s, checked, unchanged⟩
  · rename_i changed
    simp only [applyPlanSwitch, orVela, bind_eq_ok, orError_eq_ok, pure_eq_ok] at h
    obtain ⟨delta, delta_eq, _, _, ⟨w₁, priced⟩, settled, rfl⟩ := h
    obtain ⟨positive, formula⟩ := switchDelta_eq_ok delta_eq
    obtain ⟨settled, frame⟩ := settleProration_eq_ok settled
    have found₁ : w₁.currentMandate ctx.mandate = some s.mandate :=
      (currentMandate_congr frame.mandate ctx.mandate).trans checked.found
    refine .inr ⟨s, delta, priced, checked, changed, positive, formula, ?_, ?_, ?_, ?_, ?_, ?_⟩
    · refine DeltaSettled.congr ?_ ?_ settled
      · exact ⟨rfl, rfl, SameMoney.of_entry rfl rfl⟩
      · exact ⟨rfl, rfl, SameMoney.of_entry rfl rfl⟩
    · exact writeMandate_self found₁ (fits_current _)
    · exact ⟨frame.setup.clock, frame.setup.protocolConfig, frame.setup.tokenConfig,
        frame.setup.plan, frame.setup.counter⟩
    · exact frame.requestState
    · exact frame.usageReport
    · refine ⟨?_, frame.elsewhere.pullApproval, frame.elsewhere.transfersBy,
        frame.elsewhere.creditsTo⟩
      intro other different
      exact (writeMandate_of_ne different _ _).trans (currentMandate_congr frame.mandate other)

structure SchedulingChecked (P : Platform) (w : World) (ctx : SchedulePlanChange)
    (s : Scheduling) : Prop where
  config : w.protocolConfig = some s.config
  found : w.currentMandate ctx.mandate = some s.mandate
  active : s.mandate.status = .active
  newPlan : loadPlanAccount P w ctx.newPlan = .ok s.newPlan
  merchant : s.newPlan.merchant = s.mandate.merchant
  planActive : s.newPlan.status = .active
  signer : ctx.authority = s.mandate.subscriber ∨ ctx.authority = s.mandate.merchant
  raise : s.mandate.amount < s.newPlan.mandateAmount → ctx.authority = s.mandate.subscriber

theorem checkScheduling_eq_ok {P : Platform} {w : World} {ctx : SchedulePlanChange} {s : Scheduling}
    (h : checkScheduling P w ctx = .ok s) : SchedulingChecked P w ctx s := by
  simp only [checkScheduling, check, bind_eq_ok, require_eq_ok, pure_eq_ok, exists_const] at h
  obtain ⟨config, loadConfig, _, loaded, load, _, _, _, active, newPlan, loadPlan, merchant,
    planActive, signer, raise, rfl⟩ := h
  exact ⟨loadProtocolConfig_eq_ok loadConfig, loadMandateAccount_currentMandate load, active,
    loadPlan, merchant, planActive, signer, raise⟩

theorem schedulePlanChange_eq_ok {P : Platform} {w w' : World} {ctx : SchedulePlanChange}
    (h : schedulePlanChange P w ctx = .ok w') :
    ∃ s, SchedulingChecked P w ctx s ∧ MandateFrame w w' ∧
      (∀ other, other ≠ ctx.mandate → w'.currentMandate other = w.currentMandate other) ∧
      (w' = w ∨ s.mandate.plan ≠ ctx.newPlan ∧ ∃ nonce,
        w'.currentMandate ctx.mandate = some (s.mandate.schedule ctx.newPlan nonce)) := by
  simp only [schedulePlanChange, bind_eq_ok] at h
  obtain ⟨s, checked, h⟩ := h
  have checked := checkScheduling_eq_ok checked
  refine ⟨s, checked, ?_⟩
  split at h
  · cases h
    exact ⟨⟨⟨rfl, rfl, rfl, rfl, fun _ => le_refl _⟩, rfl, rfl, rfl, SameMoney.of_log rfl⟩,
      fun _ _ => rfl, .inl rfl⟩
  · rename_i changed
    split at h
    · cases h
      exact ⟨⟨⟨rfl, rfl, rfl, rfl, fun _ => le_refl _⟩, rfl, rfl, rfl, SameMoney.of_log rfl⟩,
        fun _ _ => rfl,
        .inl rfl⟩
    · cases h
      refine ⟨⟨⟨rfl, rfl, rfl, rfl, fun _ => le_refl _⟩, rfl, rfl, rfl, ?_⟩, ?_,
        .inr ⟨changed, computeNonce ctx.mandate ctx.newPlan w.clock.slot, ?_⟩⟩
      · exact SameMoney.of_entry rfl rfl
      · exact fun other different => writeMandate_of_ne different _ _
      · exact writeMandate_self checked.found (fits_current _)

structure Dropped (w : World) (ctx : CancelPlanChange) (w' : World) (mandate : VelaMandate) :
    Prop where
  found : w.currentMandate ctx.mandate = some mandate
  written : w'.currentMandate ctx.mandate = some mandate.dropPending
  others : ∀ other, other ≠ ctx.mandate → w'.currentMandate other = w.currentMandate other
  frame : MandateFrame w w'

theorem cancelPlanChange_eq_ok {P : Platform} {w w' : World} {ctx : CancelPlanChange}
    (h : cancelPlanChange P w ctx = .ok w') : ∃ mandate, Dropped w ctx w' mandate := by
  simp only [cancelPlanChange, check, bind_eq_ok, require_eq_ok, pure_eq_ok, exists_const] at h
  obtain ⟨_, _, loaded, load, _, _, _, _, _, _, rfl⟩ := h
  have found := loadMandateAccount_currentMandate load
  refine ⟨_, found, writeMandate_self found (fits_current _), ?_, ?_⟩
  · exact fun other different => writeMandate_of_ne different _ _
  · exact ⟨⟨rfl, rfl, rfl, rfl, fun _ => le_refl _⟩, rfl, rfl, rfl, SameMoney.of_entry rfl rfl⟩

end VelaProtocol
