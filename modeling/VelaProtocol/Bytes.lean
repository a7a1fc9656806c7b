import VelaProtocol.Accounts.Records
import VelaProtocol.Instructions.AgentMandates
import VelaProtocol.Instructions.Configuration
import VelaProtocol.Instructions.Plans

/-! Loading and writing accounts on their bytes.
Nothing but the tag, the length, the version and the padding tells the layouts of an account
apart. The handlers elsewhere act on accounts already told apart. -/
namespace VelaProtocol

open Guard

structure ConfiguredPlatform extends Platform where
  configAddress : Pubkey
  keeperConfigAddress : Pubkey

namespace Raw

def mandateOf : VelaMandate ⊕ VelaMandateV1 → LoadedMandateAccount
  | .inl mandate => .current mandate
  | .inr legacy => .legacy legacy

def loadMandateAccount (info : AccountInfo) : Result LoadedMandateAccount := do
  require (info.owner = programId) (.host .incorrectProgramId)
  let loaded ← orHost (Layout.mandates.load info.data) .invalidAccountData
  return mandateOf loaded

def writeMandate (info : AccountInfo) (mandate : VelaMandate) (legacyLayout : Bool) :
    Result AccountInfo :=
  if legacyLayout then do
    require (8 ≤ info.data.length) (.host .programFailedToComplete)
    let data ← orHost (Layout.mandates.write info.data (.inr mandate.toLegacy)) .borshIoError
    return { info with data := data }
  else do
    let data ← orHost (Layout.mandates.write info.data (.inl mandate)) .accountDidNotSerialize
    return { info with data := data }

def writeMandateAccount (info : AccountInfo) : LoadedMandateAccount → Result AccountInfo
  | .current mandate => writeMandate info mandate false
  | .legacy legacy => writeMandate info (currentFromLegacyMandate legacy) true

def anchorVelaMandate (info : AccountInfo) : Result VelaMandate := do
  require (info.owner = programId) (.host .accountOwnedByWrongProgram)
  orHost (Layout.velaMandateAccount.read info.data) .accountDidNotDeserialize

def validatePlan (P : Platform) (info : AccountInfo) (plan : LoadedPlanAccount) :
    Result LoadedPlanAccount := do
  check (info.key = (P.findProgramAddress plan.seeds).1) .billingTypeMismatch
  return plan

def legacyPlan (P : Platform) (info : AccountInfo) (plan : LoadedPlanAccount)
    (rest : List UInt8) : Result LoadedPlanAccount := do
  require (Layered.blank rest = true) (.host .invalidAccountData)
  validatePlan P info plan

def loadUsagePlanInner (P : Platform) (info : AccountInfo) : Result LoadedPlanAccount :=
  match Layout.usagePlans.latestIn info.data with
  | some plan => validatePlan P info (.usage plan)
  | none =>
    match Layout.usagePlanV1.decode (info.data.drop 8) with
    | some (legacy, rest) => legacyPlan P info (.legacyUsage legacy) rest
    | none => .error (.vela .billingTypeMismatch)

/-- `load_plan_account`: a flat discriminator may still hold what only reads as a usage plan -/
def loadPlanAccount (P : Platform) (info : AccountInfo) : Result LoadedPlanAccount := do
  check (info.owner = programId) .billingTypeMismatch
  if info.data.take 8 = Layout.VelaPlan.discriminator then
    match Layout.flatPlans.latestIn info.data with
    | some plan => validatePlan P info (.flat plan)
    | none =>
      match Layout.velaPlanV1.decode (info.data.drop 8) with
      | some (legacy, rest) => legacyPlan P info (.legacyFlat legacy) rest
      | none => loadUsagePlanInner P info
  else if info.data.take 8 = Layout.UsagePlan.discriminator then loadUsagePlanInner P info
  else .error (.vela .billingTypeMismatch)

/-- Growing an account appends zero bytes; a long one is left as it is. -/
def growTo (n : Nat) (info : AccountInfo) : AccountInfo :=
  { info with data := info.data ++ List.replicate (n - info.data.length) 0 }

def writePlan (info : AccountInfo) (plan : VelaPlan) : Result AccountInfo := do
  let data ← orHost (Layout.flatPlans.write info.data (.inl plan)) .accountDidNotSerialize
  return { info with data := data }

def writeUsagePlan (info : AccountInfo) (plan : UsagePlan) : Result AccountInfo := do
  let data ← orHost (Layout.usagePlans.write info.data (.inl plan)) .accountDidNotSerialize
  return { info with data := data }

def migratePlan (P : Platform) (info : AccountInfo) : Result AccountInfo := do
  match ← loadPlanAccount P info with
  | .flat p =>
    check (p.version = currentAccountVersion) .planVersionUnsupported
    return info
  | .usage p =>
    check (p.version = currentAccountVersion) .planVersionUnsupported
    return info
  | .legacyFlat p => writePlan (growTo VelaPlan.size info) p.upgrade
  | .legacyUsage p => writeUsagePlan (growTo UsagePlan.size info) p.upgrade

def editPlan (ctx : VelaProtocol.UpdatePlan) (old : VelaPlan) : VelaPlan :=
  { old with
    amount := ctx.amount.getD old.amount
    frequency := ctx.frequency.getD old.frequency
    trialPeriod := ctx.trialPeriod.getD old.trialPeriod
    maxPulls := ctx.maxPulls.getD old.maxPulls }

def updatePlan (P : Platform) (ctx : VelaProtocol.UpdatePlan) (info : AccountInfo) :
    Result AccountInfo := do
  check (ctx.amount.isSome ∨ ctx.frequency.isSome ∨ ctx.trialPeriod.isSome ∨ ctx.maxPulls.isSome)
    .noUpdateProvided
  let loaded ← loadPlanAccount P info
  check (loaded.isFlat = true) .billingTypeMismatch
  check (loaded.merchant = ctx.merchant) .unauthorizedCancel
  let old ← editableFlat loaded
  let plan := editPlan ctx old
  validateFlatPlanTerms plan.amount plan.frequency plan.maxPulls
  writePlan (growTo VelaPlan.size info) plan

def editUsagePlan (ctx : VelaProtocol.UpdateUsagePlan) (old : UsagePlan) : Result UsagePlan := do
  let nextMaxCharge := ctx.maxChargePerPeriod.getD old.maxChargePerPeriod
  let plan ← replaceTiers old nextMaxCharge ctx.tiers
  check (∀ charge ∈ ctx.maxChargePerPeriod, 0 < charge) .invalidAmount
  let plan := { plan with maxChargePerPeriod := nextMaxCharge }
  checkKeptTiers plan ctx.tiers
  check (∀ seconds ∈ ctx.settlementFrequency, 0 < seconds) .invalidFrequency
  return { plan with
    settlementFrequency := ctx.settlementFrequency.getD old.settlementFrequency }

def updateUsagePlan (P : Platform) (ctx : VelaProtocol.UpdateUsagePlan) (info : AccountInfo) :
    Result AccountInfo := do
  check (ctx.tiers.isSome ∨ ctx.maxChargePerPeriod.isSome ∨ ctx.settlementFrequency.isSome)
    .noUpdateProvided
  let loaded ← loadPlanAccount P info
  check (loaded.isFlat = false) .billingTypeMismatch
  check (loaded.merchant = ctx.merchant) .unauthorizedCancel
  let old ← editableUsage loaded
  let plan ← editUsagePlan ctx old
  writeUsagePlan (growTo UsagePlan.size info) plan

def loadAgentMandate (P : Platform) (info : AccountInfo) (authority agent : Pubkey) :
    Result LoadedAgentMandate := do
  validateAgentMandateAddress P info.key authority agent
  require (info.owner = programId) (.host .incorrectProgramId)
  match ← orHost (Layout.agentMandates.loadStrict info.data) .invalidAccountData with
  | .inl m =>
    require (m.1.authority = authority ∧ m.1.agent = agent) (.host .invalidAccountData)
    return .current m.1
  | .inr m =>
    require (m.1.authority = authority ∧ m.1.agent = agent) (.host .invalidAccountData)
    return .legacy m.1

def loadProtocolConfig (P : ConfiguredPlatform) (info : AccountInfo) :
    Result LoadedProtocolConfig := do
  require (info.key = P.configAddress) (.host .invalidSeeds)
  check (info.owner = programId) .invalidProtocolConfig
  check (info.data.take 8 = Layout.ProtocolConfig.discriminator) .invalidProtocolConfig
  match ← orHost (Layout.protocolConfigs.loadStrict info.data) .invalidAccountData with
  | .inl config => return .current config
  | .inr config => return .legacy config

def loadKeeperConfig (P : ConfiguredPlatform) (info : AccountInfo) :
    Result LoadedKeeperConfig := do
  require (info.key = P.keeperConfigAddress) (.host .invalidSeeds)
  require (info.owner = programId) (.host .incorrectProgramId)
  match ← orHost (Layout.keeperConfigs.loadStrict info.data) .invalidAccountData with
  | .inl config => return .current config
  | .inr config => return .legacy config

def usageReportSize : Nat :=
  8 + 32 + 32 + 8 + 8 + (32 * maxUsageComputationCiphertexts) + 1 + 16 + 32 + 1 + 8 + 1

def settledOffset : Nat :=
  8 + 32 + 32 + 8 + 8 + (32 * maxUsageComputationCiphertexts) + 1 + 16 + 32

def validateUsageReportForSettlement (P : Platform) (info : AccountInfo)
    (mandate merchant : Pubkey) (periodStart periodEnd : Int64) : Result Unit := do
  check (info.owner = programId) .billingTypeMismatch
  check (info.key = (P.findProgramAddress (.usageReport mandate periodStart)).1) .periodMismatch
  let report ← orVela (Layout.usageReportAccount.read info.data) .periodMismatch
  check (report.mandate = mandate) .billingTypeMismatch
  check (report.merchant = merchant) .billingTypeMismatch
  check (report.periodStart = periodStart ∧ report.periodEnd = periodEnd) .periodMismatch
  check (report.settled = false) .usageReportAlreadySettled

/-- `mark_usage_report_settled`: one byte at a place the source adds up itself -/
def markUsageReportSettled (info : AccountInfo) : Result AccountInfo := do
  check (settledOffset < info.data.length) .periodMismatch
  return { info with data := info.data.set settledOffset 1 }

structure UpdateMandate where
  merchant : Pubkey
  plan : AccountInfo
  mandate : AccountInfo
  amount : Option UInt64
  frequency : Option UInt64
  maxPulls : Option UInt64
  billingType : Option BillingType
  planUpdate : Option Pubkey

/-- `ensure_min_mandate_size`: a grown account ends in 64 zero bytes -/
def ensureMinMandateSize (info : AccountInfo) : AccountInfo :=
  if VelaMandate.size ≤ info.data.length then info
  else { info with
    data := (growTo VelaMandate.size info).data.take (VelaMandate.size - 64) ++
      List.replicate 64 0 }

/-- `update_mandate`; the economic arguments may only repeat what the mandate says -/
def updateMandate (P : Platform) (ctx : UpdateMandate) : Result AccountInfo := do
  check (ctx.amount.isSome ∨ ctx.frequency.isSome ∨ ctx.maxPulls.isSome ∨
    ctx.billingType.isSome ∨ ctx.planUpdate.isSome) .noUpdateProvided
  let mandate ← loadMandateAccount ctx.mandate
  validateLoadedMandateAddress P ctx.mandate.key mandate
  check (mandate.merchant = ctx.merchant) .unauthorizedCancel
  check (mandate.status = .active) .mandateNotActive
  let targetPlanKey := ctx.planUpdate.getD mandate.plan
  check (ctx.plan.key = targetPlanKey) .migrationPreconditionFailed
  let targetPlan ← loadPlanAccount P ctx.plan
  check (targetPlan.merchant = ctx.merchant) .unauthorizedCancel
  check (targetPlan.status = .active) .planNotActive
  let info := ensureMinMandateSize ctx.mandate
  check (∀ next ∈ ctx.amount, next = mandate.amount) .unauthorizedUpgrade
  check (∀ next ∈ ctx.frequency, next = mandate.frequency) .unauthorizedUpgrade
  check (∀ next ∈ ctx.maxPulls, next = mandate.maxPulls) .unauthorizedUpgrade
  check (ctx.planUpdate.isSome → targetPlanKey = mandate.plan) .unauthorizedUpgrade
  check (∀ next ∈ ctx.billingType, next = mandate.billingType) .unauthorizedUpgrade
  check (∀ next ∈ ctx.billingType, next = targetPlan.billingType) .billingTypeMismatch
  writeMandateAccount info mandate

end Raw

end VelaProtocol
