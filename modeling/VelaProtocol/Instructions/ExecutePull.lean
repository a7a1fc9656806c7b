import VelaProtocol.Instructions.PlanChange

/-! Collecting a due payment: a scheduled change is applied first, then the approval is checked,
credit is spent, the rest is transferred and the mandate advances by one period. -/
namespace VelaProtocol

open Guard

structure ExecutePull where
  payer : Pubkey
  subscriber : Pubkey
  merchant : Pubkey
  plan : Pubkey
  mandate : Pubkey
  subscriberWrappedAccount : Pubkey
  merchantWrappedAccount : Pubkey
  wrappedUsdcMint : Pubkey
  pullApproval : Pubkey
  wrappingVault : Pubkey
  hookProgram : Pubkey
  /-- the usage report of a usage mandate, then the plan of a pending change -/
  remainingAccounts : List Pubkey

structure Pull where
  config : LoadedProtocolConfig
  plan : LoadedPlanAccount
  loaded : LoadedMandateAccount
  tokenConfig : TokenConfig
  /-- the billing period before a pending change is applied -/
  period : Int64 × Int64

def Pull.mandate (p : Pull) : VelaMandate := p.loaded.intoCurrent

/-- The plan's own mint, or the protocol's for a plan without one. -/
def checkBillingMint (config : LoadedProtocolConfig) (plan : LoadedPlanAccount) (mint : Pubkey) :
    Result Unit :=
  if plan.billingMint ≠ Pubkey.default then check (mint = plan.billingMint) .tokenChangeNotSupported
  else check (mint = config.wrappedUsdcMint) .usdcMintMismatch

def loadPull (P : Platform) (w : World) (ctx : ExecutePull) :
    Result (LoadedProtocolConfig × LoadedPlanAccount × LoadedMandateAccount × TokenConfig) := do
  let tokenConfig ← anchorTokenConfig w ctx.wrappedUsdcMint
  let keeperConfig ← loadKeeperConfig w
  let config ← loadProtocolConfig w
  check (config.paused = false) .protocolPaused
  check (config.hookProgramId ≠ Pubkey.default) .invalidProtocolConfig
  check (ctx.hookProgram = config.hookProgramId) .invalidProtocolConfig
  check (ctx.wrappingVault = config.wrappingVault) .vaultMismatch
  let plan ← loadPlanAccount P w ctx.plan
  let loaded ← loadValidMandate P w ctx.mandate
  check (ctx.payer = keeperConfig.keeperAuthority ∨ ctx.payer = loaded.intoCurrent.subscriber)
    .unauthorizedKeeper
  requirePlanBillingType plan loaded.intoCurrent.billingType
  check (plan.status = .active) .planNotActive
  checkBillingMint config plan ctx.wrappedUsdcMint
  check (tokenConfig.enabled = true) .tokenDisabled
  check (tokenConfig.mint = ctx.wrappedUsdcMint) .tokenNotRegistered
  return (config, plan, loaded, tokenConfig)

def checkPull (P : Platform) (w : World) (ctx : ExecutePull) : Result Pull := do
  let (config, plan, loaded, tokenConfig) ← loadPull P w ctx
  let mandate := loaded.intoCurrent
  check (mandate.status = .active) .mandateNotActive
  require (ctx.plan = mandate.plan) (.host .requireKeysEqViolated)
  require (plan.merchant = ctx.merchant) (.host .requireKeysEqViolated)
  require (mandate.subscriber = ctx.subscriber) (.host .requireKeysEqViolated)
  require (mandate.merchant = ctx.merchant) (.host .requireKeysEqViolated)
  check (mandate.lastBillingRecordedPull = mandate.pullsExecuted) .pendingBillingRecord
  check (0 < mandate.expiry → w.clock.unixTimestamp < mandate.expiry) .mandateExpired
  check (mandate.pullsExecuted < mandate.maxPulls) .maxPullsExceeded
  check (mandate.nextPaymentDue ≤ w.clock.unixTimestamp) .pullTooEarly
  let period ← mandateBillingPeriod mandate
  return { config, plan, loaded, tokenConfig, period }

def usageReportInfo (ctx : ExecutePull) (mandate : VelaMandate) : Result (Option Pubkey) :=
  match mandate.billingType with
  | .flat => return none
  | .usage => do
    let info ← orVela ctx.remainingAccounts.head? .periodMismatch
    return some info

/-- A scheduled change takes effect once the clock reaches it. -/
def VelaMandate.changeDue (mandate : VelaMandate) (now : Int64) : Prop :=
  mandate.pendingChangeType = 2 ∧ mandate.pendingEffectiveAt ≤ now

instance (mandate : VelaMandate) (now : Int64) : Decidable (mandate.changeDue now) :=
  inferInstanceAs (Decidable (_ ∧ _))

structure BilledTerms where
  mandate : VelaMandate
  plan : LoadedPlanAccount
  /-- old plan, new plan and time of an applied change -/
  autoAppliedChange : Option (Pubkey × Pubkey × Int64)

def loadPendingPlan (P : Platform) (w : World) (mandate : VelaMandate) (plan : LoadedPlanAccount)
    (pendingPlanInfo : Option Pubkey) : Result LoadedPlanAccount := do
  let info ← orVela pendingPlanInfo .pendingPlanAccountMissing
  check (info = mandate.pendingNewPlan) .pendingPlanAccountMissing
  let pendingPlan ← loadPlanAccount P w info
  check (pendingPlan.merchant = mandate.merchant) .unauthorizedUpgrade
  check (pendingPlan.status = .active) .planNotActive
  requirePlanBillingType pendingPlan mandate.billingType
  check (plan.billingMint ≠ Pubkey.default ∧ pendingPlan.billingMint ≠ Pubkey.default →
    pendingPlan.billingMint = plan.billingMint) .tokenChangeNotSupported
  return pendingPlan

/-- The automatic change of `execute_pull` -/
def applyPending (P : Platform) (w : World) (ctx : ExecutePull) (mandate : VelaMandate)
    (plan : LoadedPlanAccount) (usageReport : Option Pubkey) : Result BilledTerms :=
  if mandate.changeDue w.clock.unixTimestamp then do
    let pendingPlanIndex := if usageReport.isSome then 1 else 0
    let pendingPlan ← loadPendingPlan P w mandate plan ctx.remainingAccounts[pendingPlanIndex]?
    return {
      mandate := mandate.switchPlan mandate.pendingNewPlan pendingPlan
      plan := pendingPlan
      autoAppliedChange := some (mandate.plan, mandate.pendingNewPlan, w.clock.unixTimestamp) }
  else return { mandate := mandate, plan := plan, autoAppliedChange := none }

def checkPullApproval (P : Platform) (w : World) (ctx : ExecutePull) (period : Int64 × Int64) :
    Result PullApproval := do
  check (ctx.pullApproval = (P.findProgramAddress (.approval ctx.mandate)).1) .approvalNotGranted
  let approval ← orVela (w.pullApproval ctx.mandate) .approvalNotGranted
  check (approval.approved = true) .approvalNotGranted
  check (approval.mandate = ctx.mandate) .approvalNotGranted
  check (approval.periodStart = period.1 ∧ approval.periodEnd = period.2) .periodMismatch
  check (w.clock.unixTimestamp ≤ approval.validUntil) .approvalExpired
  return approval

/-- `validate_usage_report_for_settlement`; a flat mandate has no report -/
def validateUsageReportForSettlement (P : Platform) (w : World) (mandateKey merchant : Pubkey)
    (period : Int64 × Int64) : Option Pubkey → Result Unit
  | none => return ()
  | some info => do
    check (info = (P.findProgramAddress (.usageReport mandateKey period.1)).1) .periodMismatch
    let report ← orVela (w.usageReport (mandateKey, period.1)) .billingTypeMismatch
    check (report.mandate = mandateKey) .billingTypeMismatch
    check (report.merchant = merchant) .billingTypeMismatch
    check (report.periodStart = period.1 ∧ report.periodEnd = period.2) .periodMismatch
    check (report.settled = false) .usageReportAlreadySettled

/-- A flat pull charges the mandate's amount, a usage pull the approved one. -/
def baseChargeAmount (terms : BilledTerms) (approval : PullApproval) : Result UInt64 :=
  match terms.plan.billingType with
  | .flat => do
    check (terms.mandate.amount ≤ approval.approvedAmount) .amountExceedsPlanAmount
    return terms.mandate.amount
  | .usage => do
    check (approval.approvedAmount ≤ terms.mandate.amount) .amountExceedsPlanAmount
    return approval.approvedAmount

def chargeAfterCredit (base credit : UInt64) : UInt64 := Checked.satSubU64 base (min base credit)

def VelaMandate.spendCredit (mandate : VelaMandate) (base : UInt64) : VelaMandate :=
  { mandate with
    creditBalance := Checked.satSubU64 mandate.creditBalance (min base mandate.creditBalance) }

def billingSeeds (mandate : VelaMandate) (legacyLayout : Bool) : Seeds :=
  if legacyLayout then .legacyMandate mandate.subscriber mandate.plan else mandate.signerSeeds

def invokeBillingTransfer (P : Platform) (w : World) (ctx : ExecutePull) (mandate : VelaMandate)
    (legacyLayout : Bool) (tokenConfig : TokenConfig) (chargeAmount : UInt64) : Result World :=
  if 0 < chargeAmount then do
    validateToken2022TransferAccounts w ctx.subscriberWrappedAccount ctx.merchantWrappedAccount
      ctx.wrappedUsdcMint ctx.mandate mandate.merchant
    invokeTransferCheckedWithHook P w
      { source := ctx.subscriberWrappedAccount
        mint := ctx.wrappedUsdcMint
        destination := ctx.merchantWrappedAccount
        authority := ctx.mandate
        wrappingVault := ctx.wrappingVault
        hookProgram := ctx.hookProgram }
      chargeAmount tokenConfig.decimals (billingSeeds mandate legacyLayout) mandate.bump
  else return w

/-- The mandate after a settled pull: one more pull, due one period later. -/
def VelaMandate.advance (mandate : VelaMandate) (now : Int64) : Result VelaMandate := do
  let mandateFrequency ← orVela (Checked.toI64 mandate.frequency.toNat) .overflow
  let pullsExecuted ← orVela (Checked.addU64 mandate.pullsExecuted 1) .overflow
  let nextPaymentDue ← orVela (Checked.addI64 mandate.nextPaymentDue mandateFrequency) .overflow
  return { mandate with
    pullsExecuted := pullsExecuted
    nextPaymentDue := nextPaymentDue
    lastPullAt := now
    lastBillingRecordedPull :=
      if mandate.billingType = .usage then pullsExecuted else mandate.lastBillingRecordedPull
    status := if mandate.maxPulls ≤ pullsExecuted then .expired else mandate.status }

def World.markUsageReportSettled (w : World) (mandateKey : Pubkey) (periodStart : Int64)
    (reportInfo : Option Pubkey) : World :=
  match reportInfo with
  | none => w
  | some _ =>
    { w with
      usageReport := Function.update w.usageReport (mandateKey, periodStart)
        ((w.usageReport (mandateKey, periodStart)).map fun report =>
          { report with settled := true }) }

def World.emitAutoApplied (w : World) (ctx : ExecutePull) (wrappedUsdcMint : Pubkey)
    (autoAppliedChange : Option (Pubkey × Pubkey × Int64)) : World :=
  match autoAppliedChange with
  | none => w
  | some (oldPlan, newPlan, appliedAt) =>
    w.emit (.mandateUpgradeFinalized {
      schemaVersion := 1
      mandate := ctx.mandate
      mint := ctx.wrappedUsdcMint
      tokenSymbol := eventTokenSymbol ctx.wrappedUsdcMint wrappedUsdcMint
      oldPlan := oldPlan
      newPlan := newPlan
      prorationAmount := 0
      changeType := 2
      appliedAt := appliedAt
      timestamp := w.clock.unixTimestamp })

structure Settlement where
  pull : Pull
  usageReport : Option Pubkey
  terms : BilledTerms
  approval : PullApproval
  base : UInt64

/-- `execute_pull` up to the charge -/
def prepareSettlement (P : Platform) (w : World) (ctx : ExecutePull) : Result Settlement := do
  let pull ← checkPull P w ctx
  let usageReport ← usageReportInfo ctx pull.mandate
  let terms ← applyPending P w ctx pull.mandate pull.plan usageReport
  let approval ← checkPullApproval P w ctx pull.period
  validateUsageReportForSettlement P w ctx.mandate terms.mandate.merchant pull.period usageReport
  let base ← baseChargeAmount terms approval
  return { pull, usageReport, terms, approval, base }

def Settlement.chargeAmount (s : Settlement) : UInt64 :=
  chargeAfterCredit s.base s.terms.mandate.creditBalance

def executePull (P : Platform) (w : World) (ctx : ExecutePull) : Result World := do
  let s ← prepareSettlement P w ctx
  let w ← invokeBillingTransfer P w ctx s.terms.mandate s.pull.loaded.isLegacy s.pull.tokenConfig
    s.chargeAmount
  let mandate ← (s.terms.mandate.spendCredit s.base).advance w.clock.unixTimestamp
  let w := w.writeMandate ctx.mandate mandate s.pull.loaded.isLegacy
  let w := w.markUsageReportSettled ctx.mandate s.pull.period.1 s.usageReport
  let w := w.emitAutoApplied ctx s.pull.config.wrappedUsdcMint s.terms.autoAppliedChange
  return w.closeApproval ctx.mandate

structure PullChecked (P : Platform) (w : World) (ctx : ExecutePull) (p : Pull) : Prop where
  found : w.currentMandate ctx.mandate = some p.mandate
  config : w.protocolConfig = some p.config
  tokenConfig : w.tokenConfig ctx.wrappedUsdcMint = some p.tokenConfig
  plan : loadPlanAccount P w ctx.plan = .ok p.plan
  mint : ctx.wrappedUsdcMint = effectiveMint p.config.wrappedUsdcMint p.plan
  planKey : ctx.plan = p.mandate.plan
  billingType : p.plan.billingType = p.mandate.billingType
  active : p.mandate.status = .active
  recorded : p.mandate.lastBillingRecordedPull = p.mandate.pullsExecuted
  unexpired : 0 < p.mandate.expiry → w.clock.unixTimestamp < p.mandate.expiry
  pulls : p.mandate.pullsExecuted < p.mandate.maxPulls
  due : p.mandate.nextPaymentDue ≤ w.clock.unixTimestamp
  period : mandateBillingPeriod p.mandate = .ok p.period

theorem checkBillingMint_eq_ok {config : LoadedProtocolConfig} {plan : LoadedPlanAccount}
    {mint : Pubkey} {u : Unit} (h : checkBillingMint config plan mint = .ok u) :
    mint = effectiveMint config.wrappedUsdcMint plan := by
  unfold checkBillingMint at h
  unfold effectiveMint
  split at h
  · rename_i own
    rw [if_neg own]
    exact require_eq_ok.mp h
  · rename_i wrapped
    rw [if_pos (not_not.mp wrapped)]
    exact require_eq_ok.mp h

theorem checkPull_eq_ok {P : Platform} {w : World} {ctx : ExecutePull} {p : Pull}
    (h : checkPull P w ctx = .ok p) : PullChecked P w ctx p := by
  simp only [checkPull, loadPull, anchorTokenConfig, requirePlanBillingType, check, orHost,
    bind_eq_ok, orError_eq_ok, require_eq_ok, pure_eq_ok, exists_const] at h
  obtain ⟨_, ⟨tokenConfig, registry, _, _, config, loadConfig, _, _, _, _, plan, loadPlan, loaded,
    load, _, billingType, _, u, mint, _, _, rfl⟩, active, planKey, _, _, _, recorded, unexpired,
    pulls, due, period, window, rfl⟩ := h
  exact ⟨loadValidMandate_currentMandate load, loadProtocolConfig_eq_ok loadConfig, registry,
    loadPlan, checkBillingMint_eq_ok mint, planKey, billingType, active, recorded, unexpired,
    pulls, due, window⟩

/-- The automatic change: the pending plan as it is now replaces the terms. -/
structure AutoApplied (P : Platform) (w : World) (mandate : VelaMandate)
    (plan pending : LoadedPlanAccount) : Prop where
  due : mandate.changeDue w.clock.unixTimestamp
  loaded : loadPlanAccount P w mandate.pendingNewPlan = .ok pending
  billingType : pending.billingType = mandate.billingType
  mints : plan.billingMint ≠ Pubkey.default ∧ pending.billingMint ≠ Pubkey.default →
    pending.billingMint = plan.billingMint

inductive TermsBilled (P : Platform) (w : World) (mandate : VelaMandate)
    (plan : LoadedPlanAccount) (terms : BilledTerms) : Prop
  | asIs (undue : ¬mandate.changeDue w.clock.unixTimestamp) (mandate_eq : terms.mandate = mandate)
      (plan_eq : terms.plan = plan)
  | switched (applied : AutoApplied P w mandate plan terms.plan)
      (mandate_eq : terms.mandate = mandate.switchPlan mandate.pendingNewPlan terms.plan)

theorem TermsBilled.keeps {P : Platform} {w : World} {mandate : VelaMandate}
    {plan : LoadedPlanAccount} {terms : BilledTerms} (billed : TermsBilled P w mandate plan terms) :
    terms.mandate.merchant = mandate.merchant ∧
      terms.mandate.nextPaymentDue = mandate.nextPaymentDue ∧
      terms.mandate.pullsExecuted = mandate.pullsExecuted ∧
      terms.mandate.creditBalance = mandate.creditBalance := by
  cases billed with
  | asIs undue mandate_eq plan_eq => exact mandate_eq ▸ ⟨rfl, rfl, rfl, rfl⟩
  | switched applied mandate_eq => exact mandate_eq ▸ ⟨rfl, rfl, rfl, rfl⟩

theorem applyPending_eq_ok {P : Platform} {w : World} {ctx : ExecutePull} {mandate : VelaMandate}
    {plan : LoadedPlanAccount} {usageReport : Option Pubkey} {terms : BilledTerms}
    (h : applyPending P w ctx mandate plan usageReport = .ok terms) :
    TermsBilled P w mandate plan terms := by
  unfold applyPending at h
  split at h
  · rename_i due
    simp only [loadPendingPlan, requirePlanBillingType, check, orVela, bind_eq_ok, orError_eq_ok,
      require_eq_ok, pure_eq_ok, exists_const] at h
    obtain ⟨pending, ⟨info, _, rfl, plan', load, _, _, billingType, mints, rfl⟩, rfl⟩ := h
    exact .switched ⟨due, load, billingType, mints⟩ rfl
  · rename_i undue
    cases h
    exact .asIs undue rfl rfl

structure ApprovalChecked (w : World) (key : Pubkey) (period : Int64 × Int64)
    (approval : PullApproval) : Prop where
  found : w.pullApproval key = some approval
  approved : approval.approved = true
  mandate : approval.mandate = key
  period : approval.periodStart = period.1 ∧ approval.periodEnd = period.2
  fresh : w.clock.unixTimestamp ≤ approval.validUntil

theorem checkPullApproval_eq_ok {P : Platform} {w : World} {ctx : ExecutePull}
    {period : Int64 × Int64} {approval : PullApproval}
    (h : checkPullApproval P w ctx period = .ok approval) :
    ApprovalChecked w ctx.mandate period approval := by
  simp only [checkPullApproval, check, orVela, bind_eq_ok, orError_eq_ok, require_eq_ok,
    pure_eq_ok, exists_const] at h
  obtain ⟨_, approval, found, approved, mandate, period_eq, fresh, rfl⟩ := h
  exact ⟨found, approved, mandate, period_eq, fresh⟩

theorem baseChargeAmount_eq_ok {terms : BilledTerms} {approval : PullApproval} {base : UInt64}
    (h : baseChargeAmount terms approval = .ok base) :
    base ≤ terms.mandate.amount ∧ base ≤ approval.approvedAmount := by
  unfold baseChargeAmount at h
  split at h <;> simp only [check, bind_eq_ok, require_eq_ok, pure_eq_ok, exists_const] at h <;>
    obtain ⟨le, rfl⟩ := h
  · exact ⟨UInt64.le_refl _, le⟩
  · exact ⟨le, UInt64.le_refl _⟩

inductive ReportChecked (w : World) (key : Pubkey) (period : Int64 × Int64) :
    BillingType → Option Pubkey → Prop
  | flat : ReportChecked w key period .flat none
  | usage (info : Pubkey) (report : UsageReport)
      (found : w.usageReport (key, period.1) = some report) (unsettled : report.settled = false)
      (own : report.mandate = key)
      (covers : report.periodStart = period.1 ∧ report.periodEnd = period.2) :
      ReportChecked w key period .usage (some info)

theorem reportChecked {P : Platform} {w : World} {ctx : ExecutePull} {mandate : VelaMandate}
    {merchant : Pubkey} {period : Int64 × Int64} {info : Option Pubkey} {u : Unit}
    (named : usageReportInfo ctx mandate = .ok info)
    (valid : validateUsageReportForSettlement P w ctx.mandate merchant period info = .ok u) :
    ReportChecked w ctx.mandate period mandate.billingType info := by
  unfold usageReportInfo at named
  cases type : mandate.billingType with
  | flat =>
    simp only [type, pure_eq_ok] at named
    subst named
    exact .flat
  | usage =>
    simp only [type, orVela, bind_eq_ok, orError_eq_ok, pure_eq_ok] at named
    obtain ⟨address, _, rfl⟩ := named
    simp only [validateUsageReportForSettlement, check, orVela, bind_eq_ok, orError_eq_ok,
      require_eq_ok, exists_const] at valid
    obtain ⟨_, report, found, own, _, covers, unsettled⟩ := valid
    exact .usage address report found unsettled own covers

structure SettlementChecked (P : Platform) (w : World) (ctx : ExecutePull) (s : Settlement) :
    Prop where
  pull : PullChecked P w ctx s.pull
  terms : TermsBilled P w s.pull.mandate s.pull.plan s.terms
  approval : ApprovalChecked w ctx.mandate s.pull.period s.approval
  report : ReportChecked w ctx.mandate s.pull.period s.pull.mandate.billingType s.usageReport
  base : baseChargeAmount s.terms s.approval = .ok s.base

theorem prepareSettlement_eq_ok {P : Platform} {w : World} {ctx : ExecutePull} {s : Settlement}
    (h : prepareSettlement P w ctx = .ok s) : SettlementChecked P w ctx s := by
  simp only [prepareSettlement, bind_eq_ok, pure_eq_ok] at h
  obtain ⟨pull, checked, report, named, terms, applied, approval, approved, _, valid, base, charge,
    rfl⟩ := h
  exact ⟨checkPull_eq_ok checked, applyPending_eq_ok applied, checkPullApproval_eq_ok approved,
    reportChecked named valid, charge⟩

theorem chargeAfterCredit_toNat (base credit : UInt64) :
    (chargeAfterCredit base credit).toNat = base.toNat - credit.toNat := by
  rw [chargeAfterCredit, Checked.satSubU64_toNat, Checked.min_toNat]
  omega

theorem spendCredit_toNat (mandate : VelaMandate) (base : UInt64) :
    (mandate.spendCredit base).creditBalance.toNat =
      mandate.creditBalance.toNat - base.toNat := by
  rw [VelaMandate.spendCredit, Checked.satSubU64_toNat, Checked.min_toNat]
  omega

structure Advanced (mandate : VelaMandate) (now : Int64) (after : VelaMandate) : Prop where
  frequency : mandate.frequency.toNat < 2 ^ 63
  pulls : after.pullsExecuted.toNat = mandate.pullsExecuted.toNat + 1
  due : after.nextPaymentDue.toInt = mandate.nextPaymentDue.toInt + mandate.frequency.toNat
  rest : after = { mandate with
    pullsExecuted := after.pullsExecuted
    nextPaymentDue := after.nextPaymentDue
    lastPullAt := now
    lastBillingRecordedPull := after.lastBillingRecordedPull
    status := after.status }
  open_pulls : after.status = .active → after.pullsExecuted < after.maxPulls

theorem advance_eq_ok {mandate after : VelaMandate} {now : Int64}
    (h : mandate.advance now = .ok after) : Advanced mandate now after := by
  simp only [VelaMandate.advance, orVela, bind_eq_ok, orError_eq_ok, pure_eq_ok,
    Checked.toI64_eq_some, Checked.addU64_eq_some, Checked.addI64_eq_some] at h
  obtain ⟨frequency, value, pulls, pulls_eq, due, due_eq, rfl⟩ := h
  have bounds := Checked.toInt_bounds frequency
  refine ⟨by omega, pulls_eq, by simp only; omega, rfl, ?_⟩
  intro active
  simp only at active ⊢
  split at active
  · cases active
  · rename_i remaining
    exact UInt64.not_le.mp remaining

def ExecutePull.transferAccounts (ctx : ExecutePull) : TransferAccounts where
  source := ctx.subscriberWrappedAccount
  mint := ctx.wrappedUsdcMint
  destination := ctx.merchantWrappedAccount
  authority := ctx.mandate
  wrappingVault := ctx.wrappingVault
  hookProgram := ctx.hookProgram

inductive PullPaid (w : World) (ctx : ExecutePull) (merchant : Pubkey) (amount : UInt64)
    (w' : World) : Prop
  | covered (zero : amount = 0) (unchanged : w' = w)
  | paid (positive : 0 < amount) (paid : Paid w ctx.transferAccounts merchant amount w')

theorem invokeBillingTransfer_eq_ok {P : Platform} {w w' : World} {ctx : ExecutePull}
    {mandate : VelaMandate} {legacyLayout : Bool} {tokenConfig : TokenConfig} {amount : UInt64}
    (h : invokeBillingTransfer P w ctx mandate legacyLayout tokenConfig amount = .ok w') :
    PullPaid w ctx mandate.merchant amount w' := by
  unfold invokeBillingTransfer at h
  split at h
  · rename_i positive
    simp only [bind_eq_ok] at h
    obtain ⟨_, valid, invoked⟩ := h
    exact .paid positive (paid_of valid invoked)
  · rename_i none
    cases h
    exact .covered (UInt64.le_zero_iff.mp (UInt64.not_lt.mp none)) rfl

theorem PullPaid.tokenOnly {w w' : World} {ctx : ExecutePull} {merchant : Pubkey} {amount : UInt64}
    (paid : PullPaid w ctx merchant amount w') : TokenOnly w w' := by
  cases paid with
  | covered zero unchanged => exact unchanged ▸ TokenOnly.refl w
  | paid positive paid => exact paid.frame

theorem PullPaid.creditsTo {w w' : World} {ctx : ExecutePull} {merchant : Pubkey} {amount : UInt64}
    (paid : PullPaid w ctx merchant amount w') (key : Pubkey) :
    w'.creditsTo key = w.creditsTo key := by
  cases paid with
  | covered zero unchanged => rw [unchanged]
  | paid positive paid => exact paid.moved.creditsTo key

theorem PullPaid.transfersBy_of_ne {w w' : World} {ctx : ExecutePull} {merchant : Pubkey}
    {amount : UInt64} (paid : PullPaid w ctx merchant amount w') {key : Pubkey}
    (different : key ≠ ctx.mandate) : w'.transfersBy key = w.transfersBy key := by
  cases paid with
  | covered zero unchanged => rw [unchanged]
  | paid positive paid => exact paid.moved.transfersBy_of_ne different

theorem pulled_fits {P : Platform} {w : World} {loaded : LoadedMandateAccount}
    {plan : LoadedPlanAccount} {terms : BilledTerms} {base : UInt64} {now : Int64}
    {after : VelaMandate} (billed : TermsBilled P w loaded.intoCurrent plan terms)
    (advanced : Advanced (terms.mandate.spendCredit base) now after) :
    after.Fits loaded.isLegacy := by
  cases loaded with
  | current _ => exact fits_current after
  | legacy old =>
    have same : terms.mandate = currentFromLegacyMandate old := by
      cases billed with
      | asIs undue mandate_eq plan_eq => exact mandate_eq
      | switched applied mandate_eq =>
        have scheduled : (0 : UInt8) = 2 := applied.due.1
        exact absurd scheduled (by decide)
    have spent : (terms.mandate.spendCredit base).creditBalance = 0 := by
      rw [← UInt64.toNat_inj, spendCredit_toNat, same]
      exact Nat.zero_sub _
    have shape : terms.mandate.spendCredit base = currentFromLegacyMandate old := by
      have rest : terms.mandate.spendCredit base = { terms.mandate with
        creditBalance := (terms.mandate.spendCredit base).creditBalance } := rfl
      rw [rest, spent, same]
      rfl
    rw [shape] at advanced
    rw [advanced.rest]
    rfl

def SameReports (w w' : World) : Prop :=
  ∀ key report, w'.usageReport key = some report →
    ∃ old, w.usageReport key = some old ∧ report.periodEnd = old.periodEnd

theorem SameReports.of_eq {w w' : World} (same : w'.usageReport = w.usageReport) :
    SameReports w w' := fun key report found => ⟨report, by rw [← same]; exact found, rfl⟩

theorem markUsageReportSettled_reports (w : World) (mandateKey : Pubkey) (periodStart : Int64)
    (reportInfo : Option Pubkey) :
    SameReports w (w.markUsageReportSettled mandateKey periodStart reportInfo) := by
  cases reportInfo with
  | none => exact .of_eq rfl
  | some info =>
    intro key report found
    by_cases same : key = (mandateKey, periodStart)
    · subst same
      simp only [World.markUsageReportSettled, Function.update_self,
        Option.map_eq_some_iff] at found
      obtain ⟨old, present, rfl⟩ := found
      exact ⟨old, present, rfl⟩
    · simp only [World.markUsageReportSettled, Function.update_of_ne same] at found
      exact ⟨report, found, rfl⟩

inductive ReportSettled (w : World) (key : Pubkey) (period : Int64 × Int64) (w' : World) :
    BillingType → Prop
  | flat (same : w'.usageReport = w.usageReport) : ReportSettled w key period w' .flat
  | usage (report : UsageReport) (found : w.usageReport (key, period.1) = some report)
      (unsettled : report.settled = false)
      (written : w'.usageReport = Function.update w.usageReport (key, period.1)
        (some { report with settled := true })) : ReportSettled w key period w' .usage

theorem ReportChecked.settled {w w₁ w' : World} {key : Pubkey} {period : Int64 × Int64}
    {type : BillingType} {info : Option Pubkey} (checked : ReportChecked w key period type info)
    (same : w₁.usageReport = w.usageReport)
    (marked : w'.usageReport = (w₁.markUsageReportSettled key period.1 info).usageReport) :
    ReportSettled w key period w' type := by
  cases checked with
  | flat => exact .flat (marked.trans same)
  | usage info report found unsettled own covers =>
    refine .usage report found unsettled (marked.trans ?_)
    simp only [World.markUsageReportSettled, same, found, Option.map_some]

/-- A successful `execute_pull`; `paid` is the world right after the transfer. -/
structure Pulled (P : Platform) (w : World) (ctx : ExecutePull) (w' : World) (s : Settlement)
    (after : VelaMandate) : Prop where
  checked : SettlementChecked P w ctx s
  paid : ∃ paid, PullPaid w ctx s.terms.mandate.merchant s.chargeAmount paid ∧
    w'.tokenAccount = paid.tokenAccount ∧ SameMoney paid w'
  advanced : Advanced (s.terms.mandate.spendCredit s.base) w.clock.unixTimestamp after
  written : w'.currentMandate ctx.mandate = some after
  closed : w'.pullApproval ctx.mandate = none
  frame : SetupFrame w w'
  requestState : w'.requestState = w.requestState
  reports : SameReports w w'
  settles : ReportSettled w ctx.mandate s.pull.period w' s.pull.mandate.billingType
  elsewhere : Elsewhere w w' ctx.mandate

theorem finishPull_frame (w : World) (ctx : ExecutePull) (periodStart : Int64)
    (usageReport : Option Pubkey) (mint : Pubkey) (change : Option (Pubkey × Pubkey × Int64)) :
    let w' := (w.markUsageReportSettled ctx.mandate periodStart usageReport).emitAutoApplied ctx
      mint change
    SetupFrame w w' ∧ w'.mandate = w.mandate ∧ w'.requestState = w.requestState ∧
      w'.pullApproval = w.pullApproval ∧ w'.tokenAccount = w.tokenAccount ∧
      w'.usageReport =
        (w.markUsageReportSettled ctx.mandate periodStart usageReport).usageReport ∧
      SameMoney w w' := by
  cases usageReport <;> cases change <;>
    refine ⟨⟨rfl, rfl, rfl, rfl, fun _ => le_refl _⟩, rfl, rfl, rfl, rfl, rfl, ?_⟩
  · exact SameMoney.of_log rfl
  · exact SameMoney.of_entry rfl rfl
  · exact SameMoney.of_log rfl
  · exact SameMoney.of_entry rfl rfl

theorem executePull_advances {P : Platform} {w w' : World} {ctx : ExecutePull}
    (h : executePull P w ctx = .ok w') : ∃ s after, Pulled P w ctx w' s after ∧
      prepareSettlement P w ctx = .ok s ∧
        (s.terms.mandate.spendCredit s.base).advance w.clock.unixTimestamp = .ok after := by
  simp only [executePull, bind_eq_ok, pure_eq_ok] at h
  obtain ⟨s, prepared, w₁, transferred, after, advance, rfl⟩ := h
  have checked := prepareSettlement_eq_ok prepared
  have paid := invokeBillingTransfer_eq_ok transferred
  have only := paid.tokenOnly
  rw [only.clock] at advance
  have advanced := advance_eq_ok advance
  have found₁ : w₁.currentMandate ctx.mandate = some s.pull.mandate :=
    (currentMandate_congr only.mandate ctx.mandate).trans checked.pull.found
  have fits := pulled_fits checked.terms advanced
  obtain ⟨setup, mandates, requests, approvals, tokens, reports, money⟩ := finishPull_frame
    (w₁.writeMandate ctx.mandate after s.pull.loaded.isLegacy) ctx s.pull.period.1 s.usageReport
    s.pull.config.wrappedUsdcMint s.terms.autoAppliedChange
  refine ⟨s, after, ⟨checked, ⟨w₁, paid, tokens, ⟨money.transfersBy, money.creditsTo⟩⟩,
    advanced, ?_, ?_, ?_, ?_, ?_, ?_, ?_⟩, prepared, advance⟩
  · exact (currentMandate_congr mandates ctx.mandate).trans (writeMandate_self found₁ fits)
  · exact Function.update_self _ _ _
  · exact ⟨setup.clock.trans only.clock, setup.protocolConfig.trans only.protocolConfig,
      setup.tokenConfig.trans only.tokenConfig, setup.plan.trans only.plan,
      fun merchant => (mandateCounter_le_of_eq only.merchantState merchant).trans
        (setup.counter merchant)⟩
  · exact requests.trans only.requestState
  · intro key report found
    have settled := markUsageReportSettled_reports
      (w₁.writeMandate ctx.mandate after s.pull.loaded.isLegacy) ctx.mandate s.pull.period.1
      s.usageReport key report (by rw [← reports]; exact found)
    obtain ⟨old, present, same⟩ := settled
    exact ⟨old, by rw [← only.usageReport]; exact present, same⟩
  · refine checked.report.settled ?_ reports
    exact only.usageReport
  · refine ⟨?_, ?_, ?_, ?_⟩
    · intro other different
      exact (currentMandate_congr mandates other).trans ((writeMandate_of_ne different _ _).trans
        (currentMandate_congr only.mandate other))
    · intro other different
      refine (Function.update_of_ne different _ _).trans ?_
      rw [approvals]
      exact congrFun only.pullApproval other
    · exact fun other different => (money.transfersBy other).trans
        (paid.transfersBy_of_ne different)
    · exact fun other different => (money.creditsTo other).trans (paid.creditsTo other)

theorem executePull_eq_ok {P : Platform} {w w' : World} {ctx : ExecutePull}
    (h : executePull P w ctx = .ok w') : ∃ s after, Pulled P w ctx w' s after := by
  obtain ⟨s, after, spec, _, _⟩ := executePull_advances h
  exact ⟨s, after, spec⟩

end VelaProtocol
