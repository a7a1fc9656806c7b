import VelaProtocol.Instructions.Streams
import VelaProtocol.Instructions.Wrapping

/-! Agent mandates: an owner funds a mandate from which an agent pays listed services within
daily, per-service and lifetime limits. -/
namespace VelaProtocol

open Guard

def agentDailyResetWindowSeconds : Int64 := 86400

def agentPullApprovalTtlSeconds : Int64 := 60

def agentMandateMaxServices : Nat := 8

def AgentMandate.resetDailyIfNeeded (m : AgentMandate) (now : Int64) : AgentMandate :=
  if agentDailyResetWindowSeconds ≤ Checked.satSubI64 now m.dailyLastReset then
    { m with dailySpent := 0, dailyLastReset := now }
  else m

def AgentMandate.findServiceIndex (m : AgentMandate) (service : Pubkey) : Option Nat :=
  m.services.findIdx? fun limit => limit.service = service

def ServiceLimit.resetIfNeeded (s : ServiceLimit) (now : Int64) : ServiceLimit :=
  if agentDailyResetWindowSeconds ≤ Checked.satSubI64 now s.lastReset then
    { s with dailySpent := 0, lastReset := now }
  else s

def AgentMandate.resetServiceDailyIfNeeded (m : AgentMandate) (index : Nat) (now : Int64) :
    AgentMandate :=
  { m with services := m.services.modify index fun limit => limit.resetIfNeeded now }

def AgentMandate.spend (mandate : AgentMandate) (service : Pubkey) (amount : UInt64)
    (now : Int64) : Result AgentMandate := do
  let index ← orVela (mandate.findServiceIndex service) .unauthorizedService
  let m := (mandate.resetServiceDailyIfNeeded index now).resetDailyIfNeeded now
  let serviceLimit ← orVela m.services[index]? .unauthorizedService
  let nextServiceSpent ← orVela (Checked.addU64 serviceLimit.dailySpent amount) .overflow
  check (nextServiceSpent ≤ serviceLimit.dailyLimit) .serviceDailyLimitExceeded
  let nextDailySpent ← orVela (Checked.addU64 m.dailySpent amount) .overflow
  check (nextDailySpent ≤ m.dailyLimit) .dailyLimitExceeded
  let nextTotalSpent ← orVela (Checked.addU64 m.totalSpent amount) .overflow
  check (nextTotalSpent ≤ m.lifetimeCap) .lifetimeCapExceeded
  check (m.minPullAmount ≤ amount) .pullAmountTooSmall
  check (0 < m.lastPullAt ∧ 0 < m.minPullInterval →
    m.minPullInterval ≤ Checked.satSubI64 now m.lastPullAt) .pullCooldownActive
  return { m with
    services := m.services.set index { serviceLimit with dailySpent := nextServiceSpent }
    dailySpent := nextDailySpent
    totalSpent := nextTotalSpent
    lastPullAt := now }

def AgentMandateV1.intoCurrent (m : AgentMandateV1) : AgentMandate where
  authority := m.authority
  agent := m.agent
  dailyLimit := m.dailyLimit
  dailySpent := m.dailySpent
  dailyLastReset := m.dailyLastReset
  lifetimeCap := m.lifetimeCap
  totalSpent := m.totalSpent
  minPullAmount := m.minPullAmount
  minPullInterval := m.minPullInterval
  lastPullAt := m.lastPullAt
  status := m.status
  services := m.services
  bump := m.bump
  version := currentAccountVersion
  reserved := 0

def AgentMandate.toLegacy (m : AgentMandate) : AgentMandateV1 where
  authority := m.authority
  agent := m.agent
  dailyLimit := m.dailyLimit
  dailySpent := m.dailySpent
  dailyLastReset := m.dailyLastReset
  lifetimeCap := m.lifetimeCap
  totalSpent := m.totalSpent
  minPullAmount := m.minPullAmount
  minPullInterval := m.minPullInterval
  lastPullAt := m.lastPullAt
  status := m.status
  services := m.services
  bump := m.bump

def LoadedAgentMandate.intoCurrent : LoadedAgentMandate → AgentMandate
  | .legacy m => m.intoCurrent
  | .current m => m

def LoadedAgentMandate.isLegacy : LoadedAgentMandate → Bool
  | .legacy _ => true
  | .current _ => false

def agentMandateV1Len (services : Nat) : Nat := 142 + 56 * services

def agentMandateLen (services : Nat) : Nat := agentMandateV1Len services + 65

def validateAgentMandateAddress (P : Platform) (key authority agent : Pubkey) : Result Unit :=
  require (key = (P.findProgramAddress (.agentMandate authority agent)).1) (.host .invalidSeeds)

def agentMandateAccount (w : World) (key : Pubkey) : Result AgentMandateAccount :=
  match w.agentMandate key with
  | some account => .ok account
  | none =>
    if w.protocolOwned key then .error (.host .invalidAccountData)
    else .error (.host .incorrectProgramId)

/-- `load_agent_mandate`; a legacy mandate with room for the current layout behind it reads as a
current one of version zero and is refused -/
def loadAgentMandate (P : Platform) (w : World) (key authority agent : Pubkey) :
    Result LoadedAgentMandate := do
  validateAgentMandateAddress P key authority agent
  let account ← agentMandateAccount w key
  match account.contents with
  | .current m => do
    require (m.version = currentAccountVersion) (.host .invalidAccountData)
    require (m.authority = authority ∧ m.agent = agent) (.host .invalidAccountData)
    return .current m
  | .legacy m => do
    require (account.dataLen < agentMandateLen m.services.length) (.host .invalidAccountData)
    require (m.authority = authority ∧ m.agent = agent) (.host .invalidAccountData)
    return .legacy m

def World.writeAgentMandate (w : World) (key : Pubkey) (m : AgentMandate) (legacyLayout : Bool) :
    Result World := do
  let account ← orHost (w.agentMandate key) .accountNotInitialized
  if legacyLayout then do
    require (agentMandateV1Len m.services.length ≤ account.dataLen) (.host .borshIoError)
    return { w with
      agentMandate := Function.update w.agentMandate key
        (some ⟨.legacy m.toLegacy, account.dataLen⟩) }
  else do
    require (agentMandateLen m.services.length ≤ account.dataLen) (.host .accountDidNotSerialize)
    return { w with
      agentMandate := Function.update w.agentMandate key (some ⟨.current m, account.dataLen⟩) }

def World.initializeAgentMandate (w : World) (key : Pubkey) (m : AgentMandate) : World :=
  { w with
    agentMandate := Function.update w.agentMandate key
      (some ⟨.current m, agentMandateLen agentMandateMaxServices⟩) }

def agentSeeds (P : Platform) (key authority agent : Pubkey) : Result Unit :=
  require (key = (P.findProgramAddress (.agentMandate authority agent)).1)
    (.host .constraintSeeds)

def mandateTokenAccount (w : World) (account mint mandate : Pubkey) : Result TokenAccount := do
  let token ← orHost (w.tokenAccount account) .accountNotInitialized
  require (token.mint = mint) (.host .constraintTokenMint)
  require (token.owner = mandate) (.host .constraintTokenOwner)
  return token

def World.tokenAmount (w : World) (account : Pubkey) : UInt64 :=
  ((w.tokenAccount account).map TokenAccount.amount).getD 0

structure ServiceLimitInput where
  service : Pubkey
  dailyLimit : UInt64
  deriving DecidableEq

def checkServiceCount (services : List ServiceLimitInput) : Result Unit :=
  check (services.length ≤ agentMandateMaxServices) .tooManyServices

def checkServicesDistinct (services : List ServiceLimitInput) : Result Unit :=
  check (services.Pairwise fun a b => a.service ≠ b.service) .duplicateService

structure CreateAgentMandate where
  authority : Pubkey
  agent : Pubkey
  agentMandate : Pubkey
  splUsdcMint : Pubkey
  authorityUsdcAccount : Pubkey
  wrappedUsdcMint : Pubkey
  wrappingVault : Pubkey
  dailyLimit : UInt64
  lifetimeCap : UInt64
  minPullAmount : UInt64
  minPullInterval : Int64
  services : List ServiceLimitInput
  fundedAmount : UInt64

def CreateAgentMandate.accounts (P : Platform) (ctx : CreateAgentMandate) : WrappingAccounts where
  splUsdcMint := ctx.splUsdcMint
  wrappedUsdcMint := ctx.wrappedUsdcMint
  usdcAccount := ctx.authorityUsdcAccount
  wrappedAccount := associatedTokenAddress P ctx.agentMandate ctx.wrappedUsdcMint
  wrappingVault := ctx.wrappingVault

def initialAgentMandate (ctx : CreateAgentMandate) (now : Int64) (bump : UInt8) :
    AgentMandate where
  authority := ctx.authority
  agent := ctx.agent
  dailyLimit := ctx.dailyLimit
  dailySpent := 0
  dailyLastReset := now
  lifetimeCap := ctx.lifetimeCap
  totalSpent := 0
  minPullAmount := ctx.minPullAmount
  minPullInterval := ctx.minPullInterval
  lastPullAt := 0
  status := .active
  services := ctx.services.map fun entry => ⟨entry.service, entry.dailyLimit, 0, now⟩
  bump := bump
  version := currentAccountVersion
  reserved := 0

def agentMandateCreated (ctx : CreateAgentMandate) (remainingBalance : UInt64) :
    AgentMandateCreated where
  mandate := ctx.agentMandate
  authority := ctx.authority
  agent := ctx.agent
  dailyLimit := ctx.dailyLimit
  lifetimeCap := ctx.lifetimeCap
  serviceCount := UInt8.ofNat ctx.services.length
  fundedAmount := ctx.fundedAmount
  remainingBalance := remainingBalance

def refuseExisting (P : Platform) (w : World) (key authority agent : Pubkey) : Result Unit :=
  if w.dataIsEmpty key then return ()
  else do
    let _ ← loadAgentMandate P w key authority agent
    .error (.vela .agentMandateAlreadyExists)

def createAgentMandate (P : Platform) (w : World) (ctx : CreateAgentMandate) : Result World := do
  let config ← anchorProtocolConfig w
  let accounts := ctx.accounts P
  agentSeeds P ctx.agentMandate ctx.authority ctx.agent
  validateUsdcAccount w accounts ctx.authority (.vela .usdcMintMismatch)
  let funded ← createIdempotent P w ctx.agentMandate ctx.wrappedUsdcMint
  require (ctx.wrappedUsdcMint = config.wrappedUsdcMint) (.host .constraintAddress)
  require (ctx.wrappingVault = config.wrappingVault) (.host .constraintAddress)
  validateVault P w accounts
  checkServiceCount ctx.services
  check (0 ≤ ctx.minPullInterval) .invalidFrequency
  checkServicesDistinct ctx.services
  refuseExisting P w ctx.agentMandate ctx.authority ctx.agent
  let bump := (P.findProgramAddress (.agentMandate ctx.authority ctx.agent)).2
  let mandate := initialAgentMandate ctx w.clock.unixTimestamp bump
  let created := funded.initializeAgentMandate ctx.agentMandate mandate
  let deposited ← deposit P created accounts ctx.authority ctx.fundedAmount
  return deposited.emit (.agent (.created
    (agentMandateCreated ctx (deposited.tokenAmount accounts.wrappedAccount))))

structure AgentPull where
  payer : Pubkey
  agent : Pubkey
  authority : Pubkey
  agentMandate : Pubkey
  mandateWrappedAccount : Pubkey
  serviceWrappedAccount : Pubkey
  tokenConfig : TokenConfigArgument
  wrappedUsdcMint : Pubkey
  wrappingVault : Pubkey
  hookProgram : Pubkey
  amount : UInt64

def AgentPull.accounts (P : Platform) (ctx : AgentPull) : StreamTransferAccounts where
  subscriberWrappedAccount := ctx.mandateWrappedAccount
  merchantWrappedAccount := ctx.serviceWrappedAccount
  wrappedUsdcMint := ctx.wrappedUsdcMint
  pullApproval := (P.findProgramAddress (.approval ctx.agentMandate)).1
  tokenConfig := ctx.tokenConfig
  wrappingVault := ctx.wrappingVault
  hookProgram := ctx.hookProgram

/-- The approval a pull grants itself for the transfer hook to see. -/
def agentPullApproval (P : Platform) (ctx : AgentPull) (now validUntil : Int64) :
    PullApproval where
  mandate := ctx.agentMandate
  periodStart := 0
  periodEnd := 0
  validUntil := validUntil
  approved := true
  approvedAmount := ctx.amount
  createdAt := now
  bump := (P.findProgramAddress (.approval ctx.agentMandate)).2

def agentPullExecuted (ctx : AgentPull) (service : Pubkey) (m : AgentMandate)
    (remainingBalance : UInt64) : AgentPullExecuted where
  mandate := ctx.agentMandate
  authority := m.authority
  agent := m.agent
  service := service
  amount := ctx.amount
  dailySpent := m.dailySpent
  totalSpent := m.totalSpent
  remainingBalance := remainingBalance

def checkAgentActive (status : AgentMandateStatus) : Result Unit :=
  match status with
  | .active => return ()
  | .paused => .error (.vela .mandatePaused)
  | .revoked => .error (.vela .mandateRevoked)

/-- The transfer of a pull, under an approval that exists for its duration only. -/
def payService (P : Platform) (w : World) (ctx : AgentPull) (bump : UInt8) : Result World := do
  let now := w.clock.unixTimestamp
  let validUntil ← orVela (Checked.addI64 now agentPullApprovalTtlSeconds) .overflow
  let approval := agentPullApproval P ctx now validUntil
  let approving :=
    { w with pullApproval := Function.update w.pullApproval ctx.agentMandate (some approval) }
  let accounts := ctx.accounts P
  let paid ← invokeTransferCheckedWithHook P approving (accounts.transfer ctx.agentMandate)
    ctx.amount usdcDecimals (.agentMandate ctx.authority ctx.agent) bump
  require (HookSlots P approving accounts ctx.agentMandate) (.host .transferHookRejected)
  return { paid with pullApproval := Function.update paid.pullApproval ctx.agentMandate none }

def agentPull (P : Platform) (w : World) (ctx : AgentPull) : Result World := do
  let config ← anchorProtocolConfig w
  agentSeeds P ctx.agentMandate ctx.authority ctx.agent
  let source ← mandateTokenAccount w ctx.mandateWrappedAccount ctx.wrappedUsdcMint
    ctx.agentMandate
  let destination ← orHost (w.tokenAccount ctx.serviceWrappedAccount) .accountNotInitialized
  require (destination.mint = ctx.wrappedUsdcMint) (.host .constraintTokenMint)
  require ((w.pullApproval ctx.agentMandate).isNone) (.host .accountAlreadyInitialized)
  require (ctx.wrappedUsdcMint = config.wrappedUsdcMint) (.host .constraintAddress)
  require (ctx.wrappingVault = config.wrappingVault) (.host .constraintAddress)
  require ((w.splTokenAccount ctx.wrappingVault).isSome) (.host .accountNotInitialized)
  let loaded ← loadAgentMandate P w ctx.agentMandate ctx.authority ctx.agent
  let mandate := loaded.intoCurrent
  checkAgentActive mandate.status
  check (config.paused = false) .protocolPaused
  check (config.transferHookProgramId ≠ Pubkey.default) .invalidProtocolConfig
  check (ctx.hookProgram = config.transferHookProgramId) .invalidProtocolConfig
  let service := destination.owner
  let spent ← mandate.spend service ctx.amount w.clock.unixTimestamp
  check (ctx.amount ≤ source.amount) .insufficientMandateBalance
  let paid ← payService P w ctx mandate.bump
  let written ← paid.writeAgentMandate ctx.agentMandate spent loaded.isLegacy
  return written.emit (.agent (.pullExecuted
    (agentPullExecuted ctx service spent (written.tokenAmount ctx.mandateWrappedAccount))))

structure AgentControl where
  authority : Pubkey
  agent : Pubkey
  agentMandate : Pubkey

def openAgentMandate (P : Platform) (w : World) (ctx : AgentControl) :
    Result LoadedAgentMandate := do
  agentSeeds P ctx.agentMandate ctx.authority ctx.agent
  let loaded ← loadAgentMandate P w ctx.agentMandate ctx.authority ctx.agent
  check (loaded.intoCurrent.authority = ctx.authority) .unauthorizedAgentMandateAuthority
  return loaded

def agentSpending (ctx : AgentControl) (m : AgentMandate) : AgentMandateSpending where
  mandate := ctx.agentMandate
  authority := m.authority
  agent := m.agent
  dailySpent := m.dailySpent
  totalSpent := m.totalSpent

def AgentMandate.withStatus (m : AgentMandate) (status : AgentMandateStatus) : AgentMandate :=
  { m with status := status }

def pauseAgentMandate (P : Platform) (w : World) (ctx : AgentControl) : Result World := do
  let loaded ← openAgentMandate P w ctx
  let mandate := loaded.intoCurrent
  check (mandate.status = .active) .invalidAgentMandateStatusTransition
  let paused := mandate.withStatus .paused
  let written ← w.writeAgentMandate ctx.agentMandate paused loaded.isLegacy
  return written.emit (.agent (.paused (agentSpending ctx paused)))

def resumeAgentMandate (P : Platform) (w : World) (ctx : AgentControl) : Result World := do
  let loaded ← openAgentMandate P w ctx
  let mandate := loaded.intoCurrent
  check (mandate.status = .paused) .invalidAgentMandateStatusTransition
  let resumed := mandate.withStatus .active
  let written ← w.writeAgentMandate ctx.agentMandate resumed loaded.isLegacy
  return written.emit (.agent (.resumed (agentSpending ctx resumed)))

structure AdjustAgentMandate extends AgentControl where
  mandateWrappedAccount : Pubkey
  wrappedUsdcMint : Pubkey
  dailyLimit : Option UInt64
  lifetimeCap : Option UInt64
  minPullAmount : Option UInt64
  minPullInterval : Option Int64
  services : Option (List ServiceLimitInput)

def AdjustAgentMandate.updates (ctx : AdjustAgentMandate) : Bool :=
  ctx.dailyLimit.isSome || ctx.lifetimeCap.isSome || ctx.minPullAmount.isSome ||
    ctx.minPullInterval.isSome || ctx.services.isSome

def adjustLimits (m : AgentMandate) (ctx : AdjustAgentMandate) : Result AgentMandate := do
  check (∀ next ∈ ctx.dailyLimit, m.dailySpent ≤ next) .invalidAmount
  check (∀ next ∈ ctx.lifetimeCap, m.totalSpent ≤ next) .invalidAmount
  check (∀ next ∈ ctx.minPullInterval, 0 ≤ next) .invalidFrequency
  return { m with
    dailyLimit := ctx.dailyLimit.getD m.dailyLimit
    lifetimeCap := ctx.lifetimeCap.getD m.lifetimeCap
    minPullAmount := ctx.minPullAmount.getD m.minPullAmount
    minPullInterval := ctx.minPullInterval.getD m.minPullInterval }

/-- A listed service keeps what it has spent, a new one starts at zero. -/
def adjustService (current : List ServiceLimit) (now : Int64) (input : ServiceLimitInput) :
    Result ServiceLimit := do
  let existing := current.find? fun limit => limit.service = input.service
  let dailySpent := (existing.map ServiceLimit.dailySpent).getD 0
  let lastReset := (existing.map ServiceLimit.lastReset).getD now
  check (dailySpent ≤ input.dailyLimit) .invalidAmount
  return ⟨input.service, input.dailyLimit, dailySpent, lastReset⟩

def adjustServices (m : AgentMandate) (now : Int64) :
    Option (List ServiceLimitInput) → Result AgentMandate
  | none => return m
  | some next => do
    checkServiceCount next
    checkServicesDistinct next
    let updated ← next.mapM (adjustService m.services now)
    return { m with services := updated }

def agentMandateAdjusted (ctx : AdjustAgentMandate) (m : AgentMandate)
    (remainingBalance : UInt64) : AgentMandateAdjusted where
  mandate := ctx.agentMandate
  authority := m.authority
  agent := m.agent
  dailyLimit := m.dailyLimit
  lifetimeCap := m.lifetimeCap
  minPullAmount := m.minPullAmount
  minPullInterval := m.minPullInterval
  dailySpent := m.dailySpent
  totalSpent := m.totalSpent
  remainingBalance := remainingBalance

def adjustAgentMandate (P : Platform) (w : World) (ctx : AdjustAgentMandate) : Result World := do
  let config ← anchorProtocolConfig w
  let token ← mandateTokenAccount w ctx.mandateWrappedAccount ctx.wrappedUsdcMint ctx.agentMandate
  require (ctx.wrappedUsdcMint = config.wrappedUsdcMint) (.host .constraintAddress)
  check (ctx.updates = true) .noUpdateProvided
  let loaded ← openAgentMandate P w ctx.toAgentControl
  let mandate := loaded.intoCurrent
  check (mandate.status ≠ .revoked) .invalidAgentMandateStatusTransition
  let limited ← adjustLimits mandate ctx
  let adjusted ← adjustServices limited w.clock.unixTimestamp ctx.services
  let written ← w.writeAgentMandate ctx.agentMandate adjusted loaded.isLegacy
  return written.emit (.agent (.adjusted (agentMandateAdjusted ctx adjusted token.amount)))

structure AgentExit extends AgentControl where
  accounts : WrappingAccounts

def validateAgentExit (P : Platform) (w : World) (ctx : AgentExit) : Result UInt64 := do
  let config ← anchorProtocolConfig w
  let token ← mandateTokenAccount w ctx.accounts.wrappedAccount ctx.accounts.wrappedUsdcMint
    ctx.agentMandate
  validateUsdcAccount w ctx.accounts ctx.authority (.vela .usdcMintMismatch)
  require (ctx.accounts.wrappedUsdcMint = config.wrappedUsdcMint) (.host .constraintAddress)
  require (ctx.accounts.wrappingVault = config.wrappingVault) (.host .constraintAddress)
  validateVault P w ctx.accounts
  return token.amount

/-- Everything the mandate holds goes back to its owner; the mandate signs the burn. -/
def returnFunds (P : Platform) (w : World) (ctx : AgentExit) (amount : UInt64) (bump : UInt8) :
    Result World :=
  if 0 < amount then do
    require (P.createProgramAddress (.agentMandate ctx.authority ctx.agent) bump =
      some ctx.agentMandate) (.host .missingRequiredSignature)
    withdraw P w ctx.accounts ctx.agentMandate amount
  else return w

def agentMandateDrained (ctx : AgentExit) (m : AgentMandate) (remainingBalance : UInt64) :
    AgentMandateDrained where
  mandate := ctx.agentMandate
  authority := m.authority
  agent := m.agent
  status := m.status
  dailySpent := m.dailySpent
  totalSpent := m.totalSpent
  remainingBalance := remainingBalance

def agentMandateRevoked (ctx : AgentExit) (m : AgentMandate) (remainingBalance : UInt64) :
    AgentMandateRevoked where
  mandate := ctx.agentMandate
  authority := m.authority
  agent := m.agent
  dailySpent := m.dailySpent
  totalSpent := m.totalSpent
  remainingBalance := remainingBalance

def drainAgentMandate (P : Platform) (w : World) (ctx : AgentExit) : Result World := do
  let amount ← validateAgentExit P w ctx
  let loaded ← openAgentMandate P w ctx.toAgentControl
  let mandate := loaded.intoCurrent
  let drained ← returnFunds P w ctx amount mandate.bump
  return drained.emit (.agent (.drained
    (agentMandateDrained ctx mandate (drained.tokenAmount ctx.accounts.wrappedAccount))))

def revokeAgentMandate (P : Platform) (w : World) (ctx : AgentExit) : Result World := do
  let amount ← validateAgentExit P w ctx
  let loaded ← openAgentMandate P w ctx.toAgentControl
  let mandate := loaded.intoCurrent
  check (mandate.status ≠ .revoked) .invalidAgentMandateStatusTransition
  let drained ← returnFunds P w ctx amount mandate.bump
  let revoked := mandate.withStatus .revoked
  let written ← drained.writeAgentMandate ctx.agentMandate revoked loaded.isLegacy
  return written.emit (.agent (.revoked
    (agentMandateRevoked ctx revoked (written.tokenAmount ctx.accounts.wrappedAccount))))

variable {P : Platform} {w w' : World} {m after : AgentMandate} {service : Pubkey}
  {amount : UInt64} {now : Int64}

structure AgentSpent (m : AgentMandate) (service : Pubkey) (amount : UInt64) (now : Int64)
    (after : AgentMandate) : Prop where
  booked : ∃ index limit, m.services[index]? = some limit ∧ limit.service = service ∧
    ∃ spent : UInt64, spent ≤ limit.dailyLimit ∧
      after.services = (m.services.modify index fun s => s.resetIfNeeded now).set index
        { limit.resetIfNeeded now with dailySpent := spent }
  daily : after.dailySpent.toNat = (m.resetDailyIfNeeded now).dailySpent.toNat + amount.toNat
  dailyReset : after.dailyLastReset = (m.resetDailyIfNeeded now).dailyLastReset
  dailyFits : after.dailySpent ≤ m.dailyLimit
  total : after.totalSpent.toNat = m.totalSpent.toNat + amount.toNat
  lifetime : after.totalSpent ≤ m.lifetimeCap
  dailyLimit : after.dailyLimit = m.dailyLimit
  lifetimeCap : after.lifetimeCap = m.lifetimeCap
  status : after.status = m.status
  version : after.version = m.version
  reserved : after.reserved = m.reserved

theorem ServiceLimit.resetIfNeeded_terms (s : ServiceLimit) (now : Int64) :
    (s.resetIfNeeded now).service = s.service ∧
      (s.resetIfNeeded now).dailyLimit = s.dailyLimit := by
  unfold ServiceLimit.resetIfNeeded
  split
  · exact ⟨rfl, rfl⟩
  · exact ⟨rfl, rfl⟩

theorem AgentMandate.resetDailyIfNeeded_form (m : AgentMandate) (now : Int64) :
    ∃ spent last, m.resetDailyIfNeeded now =
      { m with dailySpent := spent, dailyLastReset := last } := by
  unfold AgentMandate.resetDailyIfNeeded
  split
  · exact ⟨0, now, rfl⟩
  · exact ⟨m.dailySpent, m.dailyLastReset, rfl⟩

theorem AgentMandate.resetService_daily (m : AgentMandate) (index : Nat) (now : Int64) :
    (m.resetServiceDailyIfNeeded index now).resetDailyIfNeeded now =
      { m.resetDailyIfNeeded now with
        services := m.services.modify index fun s => s.resetIfNeeded now } := by
  unfold AgentMandate.resetDailyIfNeeded AgentMandate.resetServiceDailyIfNeeded
  split
  · rfl
  · rfl

theorem AgentMandate.spend_eq_ok (h : m.spend service amount now = .ok after) :
    AgentSpent m service amount now after := by
  simp only [AgentMandate.spend, check, orVela, orError_bind_eq_ok, require_bind_eq_ok,
    pure_eq_ok, AgentMandate.resetService_daily] at h
  obtain ⟨index, listed, reset, present, serviceSpent, service_sum, service_fits, dailySpent,
    daily_sum, daily_fits, totalSpent, total_sum, total_fits, _, _, rfl⟩ := h
  rw [List.getElem?_modify_eq] at present
  obtain ⟨limit, found, rfl⟩ := Option.map_eq_some_iff.mp present
  obtain ⟨inside, same, _⟩ := List.findIdx?_eq_some_iff_getElem.mp listed
  have named : limit.service = service := by
    have there := List.getElem?_eq_getElem inside
    obtain rfl := Option.some.inj (found.symm.trans there)
    exact of_decide_eq_true same
  have fits := (limit.resetIfNeeded_terms now).2 ▸ service_fits
  obtain ⟨spent, last, form⟩ := m.resetDailyIfNeeded_form now
  rw [form] at daily_sum daily_fits total_sum total_fits ⊢
  constructor
  case booked => exact ⟨index, limit, found, named, serviceSpent, fits, rfl⟩
  case daily =>
    rw [form]
    exact Checked.addU64_eq_some.mp daily_sum
  case dailyReset => rw [form]
  case dailyFits => exact daily_fits
  case total => exact Checked.addU64_eq_some.mp total_sum
  case lifetime => exact total_fits
  all_goals rfl

def World.agentMandateAt (w : World) (key : Pubkey) : Option AgentMandate :=
  (w.agentMandate key).map fun account => account.contents.intoCurrent

theorem LoadedAgentMandate.layout {loaded : LoadedAgentMandate} (legacy : loaded.isLegacy = true) :
    loaded.intoCurrent.version = currentAccountVersion ∧ loaded.intoCurrent.reserved = 0 := by
  cases loaded with
  | legacy m => exact ⟨rfl, rfl⟩
  | current m => cases legacy

theorem AgentMandate.toLegacy_intoCurrent (version : m.version = currentAccountVersion)
    (reserved : m.reserved = 0) : m.toLegacy.intoCurrent = m := by
  obtain ⟨⟩ := m
  subst version reserved
  rfl

structure AgentWritten (w : World) (key : Pubkey) (m : AgentMandate) (w' : World) : Prop where
  stored : w'.agentMandateAt = Function.update w.agentMandateAt key (some m)
  only : w' = { w with agentMandate := w'.agentMandate }

theorem agentMandateAt_update (key : Pubkey) (account : AgentMandateAccount) :
    ({ w with agentMandate := Function.update w.agentMandate key (some account) } :
      World).agentMandateAt =
      Function.update w.agentMandateAt key (some account.contents.intoCurrent) := by
  funext k
  by_cases same : k = key
  · subst same
    simp only [World.agentMandateAt, Function.update_self, Option.map_some]
  · simp only [World.agentMandateAt, Function.update_of_ne same]

theorem writeAgentMandate_eq_ok {key : Pubkey} {legacyLayout : Bool}
    (layout : legacyLayout = true → m.version = currentAccountVersion ∧ m.reserved = 0)
    (h : w.writeAgentMandate key m legacyLayout = .ok w') : AgentWritten w key m w' := by
  simp only [World.writeAgentMandate, orHost, orError_bind_eq_ok] at h
  obtain ⟨account, _, h⟩ := h
  split at h
  · rename_i legacy
    obtain ⟨version, reserved⟩ := layout legacy
    simp only [require_bind_eq_ok, pure_eq_ok] at h
    obtain ⟨_, rfl⟩ := h
    constructor
    · rw [agentMandateAt_update]
      congr 2
      exact AgentMandate.toLegacy_intoCurrent version reserved
    · rfl
  · simp only [require_bind_eq_ok, pure_eq_ok] at h
    obtain ⟨_, rfl⟩ := h
    exact ⟨agentMandateAt_update key _, rfl⟩

theorem loadAgentMandate_eq_ok {key authority agent : Pubkey} {loaded : LoadedAgentMandate}
    (h : loadAgentMandate P w key authority agent = .ok loaded) :
    w.agentMandateAt key = some loaded.intoCurrent ∧
      key = (P.findProgramAddress (.agentMandate authority agent)).1 ∧
      loaded.intoCurrent.authority = authority ∧ loaded.intoCurrent.agent = agent := by
  obtain ⟨_, address, h⟩ := bind_eq_ok.mp h
  have address := require_eq_ok.mp address
  obtain ⟨account, found, h⟩ := bind_eq_ok.mp h
  have stored : w.agentMandate key = some account := by
    unfold agentMandateAccount at found
    split at found
    · rename_i present
      cases found
      exact present
    · split at found
      · cases found
      · cases found
  split at h
  · rename_i m contents
    simp only [require_bind_eq_ok, pure_eq_ok] at h
    obtain ⟨_, ⟨owner, spender⟩, rfl⟩ := h
    refine ⟨?_, address, owner, spender⟩
    rw [World.agentMandateAt, stored, Option.map_some, contents]
  · rename_i m contents
    simp only [require_bind_eq_ok, pure_eq_ok] at h
    obtain ⟨_, ⟨owner, spender⟩, rfl⟩ := h
    refine ⟨?_, address, owner, spender⟩
    rw [World.agentMandateAt, stored, Option.map_some, contents]

end VelaProtocol
