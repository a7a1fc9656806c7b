import VelaProtocol.Instructions.Streams
import VelaProtocol.State.Layout

/-! The transfer hook program on the bytes of the accounts it is given.
Token-2022's own layouts are that program's; everything else is decoded here. -/
namespace VelaProtocol

open Guard

/-- What the hook needs besides: the layouts of Token-2022 and three more derived addresses. -/
structure HookPlatform extends Platform where
  unpackAccount : AccountInfo → Option TokenAccount
  unpackMint : AccountInfo → Option Mint
  configAddress : Pubkey
  tokenConfigAddress : Pubkey → Pubkey
  extraAccountMetasAddress : Pubkey → Pubkey

/-- The accounts of `transfer_hook`, less three reserved slots. -/
structure TransferHook where
  sourceToken : AccountInfo
  mint : AccountInfo
  destinationToken : AccountInfo
  owner : AccountInfo
  extraAccountMetaList : AccountInfo
  protocolProgram : AccountInfo
  wrappingVault : AccountInfo
  protocolConfig : AccountInfo
  pullApproval : AccountInfo
  tokenConfig : AccountInfo

namespace Hook

/-- `load_protocol_config` of the hook: no version check and no legacy layout -/
def loadProtocolConfig (P : HookPlatform) (account : AccountInfo) : Result ProtocolConfig := do
  check (account.key = P.configAddress) .invalidProtocolConfig
  check (account.owner = programId) .invalidProtocolConfig
  check (account.dataIsEmpty = false) .invalidProtocolConfig
  orVela (Layout.protocolConfigAccount.read account.data) .invalidProtocolConfig

def loadTokenConfig (P : HookPlatform) (account : AccountInfo) (mint : Pubkey) :
    Result TokenConfig := do
  check (account.key = P.tokenConfigAddress mint) .tokenNotRegistered
  check (account.owner = programId) .tokenNotRegistered
  check (account.dataIsEmpty = false) .tokenNotRegistered
  orVela (Layout.tokenConfigAccount.read account.data) .tokenNotRegistered

def checkCap (stream : StreamMandate) (amount : UInt64) : Result Unit :=
  match stream.maxStreamed with
  | none => return ()
  | some cap => do
    let nextTotal ← orVela (Checked.addU128 stream.totalStreamed.toNat amount.toNat) .overflow
    check (nextTotal ≤ cap.toNat) .streamCapExceeded

def checkStream (now : Int64) (stream : StreamMandate) (amount : UInt64) : Result Unit := do
  check (stream.status = .active) .streamNotActive
  let elapsed ← orVela (Checked.subI64 now stream.lastSettledTs) .clockRegression
  check (0 ≤ elapsed) .clockRegression
  check ((stream.minSettleInterval.toNat : Int) ≤ elapsed.toInt) .minSettleIntervalViolation
  let gross ← orVela (Checked.mulU128 elapsed.toInt.toNat stream.ratePerSecond.toNat) .overflow
  check (amount.toNat ≤ gross) .amountExceedsStreamRate
  checkCap stream amount

def checkApproval (now : Int64) (approval : PullApproval) (owner : Pubkey)
    (expectedApprovalPeriod : Option (Int64 × Int64)) (amount : UInt64) : Result Unit := do
  check (approval.mandate = owner) .transferNotAuthorized
  check (approval.approved = true) .approvalNotGranted
  check (now ≤ approval.validUntil) .approvalExpired
  check (∀ period ∈ expectedApprovalPeriod,
    approval.periodStart = period.1 ∧ approval.periodEnd = period.2) .transferNotAuthorized
  check (amount ≤ approval.approvedAmount) .amountExceedsPlanAmount

def approvalBranch (P : HookPlatform) (now : Int64) (ctx : TransferHook)
    (expectedApprovalPeriod : Option (Int64 × Int64)) (amount : UInt64) : Result Unit := do
  check (ctx.pullApproval.key = (P.findProgramAddress (.approval ctx.owner.key)).1)
    .transferNotAuthorized
  check (ctx.pullApproval.owner = programId ∧ ctx.pullApproval.dataIsEmpty = false)
    .transferNotAuthorized
  check (8 ≤ ctx.pullApproval.data.length) .wrongAccountType
  check (ctx.pullApproval.data.take 8 = Layout.PullApproval.discriminator) .wrongAccountType
  let approval ← orVela (Layout.pullApprovalAccount.read ctx.pullApproval.data)
    .transferNotAuthorized
  checkApproval now approval ctx.owner.key expectedApprovalPeriod amount

def streamBranch (now : Int64) (ownerData : List UInt8) (amount : UInt64) : Result Unit := do
  let stream ← orVela (Layout.streamMandateAccount.read ownerData) .wrongAccountType
  checkStream now stream amount

/-- The discriminator of the authority decides which rule applies. -/
def authorityBranch (P : HookPlatform) (now : Int64) (ctx : TransferHook) (amount : UInt64) :
    Result Unit :=
  if ctx.owner.dataIsEmpty then approvalBranch P now ctx none amount
  else if ctx.owner.data.length < 8 then .error (.host .invalidAccountData)
  else if ctx.owner.data.take 8 = Layout.StreamMandate.discriminator then
    streamBranch now ctx.owner.data amount
  else if ctx.owner.data.take 8 = Layout.VelaMandate.discriminator then do
    let mandate ← orVela (Layout.velaMandateAccount.read ctx.owner.data) .wrongAccountType
    let period ← mandateBillingPeriod mandate
    approvalBranch P now ctx (some period) amount
  else approvalBranch P now ctx none amount

def openAccounts (P : HookPlatform) (ctx : TransferHook) :
    Result (TokenAccount × TokenAccount) := do
  let sourceToken ← orHost (P.unpackAccount ctx.sourceToken) .accountDidNotDeserialize
  let _ ← orHost (P.unpackMint ctx.mint) .accountDidNotDeserialize
  let destinationToken ← orHost (P.unpackAccount ctx.destinationToken) .accountDidNotDeserialize
  require (ctx.extraAccountMetaList.key = P.extraAccountMetasAddress ctx.mint.key)
    (.host .constraintSeeds)
  require (ctx.protocolProgram.key = programId) (.host .constraintAddress)
  return (sourceToken, destinationToken)

def handler (P : HookPlatform) (clock : Clock) (ctx : TransferHook) (amount : UInt64) :
    Result Unit := do
  let (sourceToken, destinationToken) ← openAccounts P ctx
  let config ← loadProtocolConfig P ctx.protocolConfig
  check (config.transferHookProgramId = transferHookProgramId) .invalidProtocolConfig
  let tokenConfig ← loadTokenConfig P ctx.tokenConfig ctx.mint.key
  check (tokenConfig.mint = ctx.mint.key) .tokenNotRegistered
  check (tokenConfig.enabled = true) .tokenDisabled
  check (tokenConfig.billingRail = .transferHook) .invalidBillingRail
  check (sourceToken.mint = ctx.mint.key) .transferNotAuthorized
  check (destinationToken.mint = ctx.mint.key) .transferNotAuthorized
  check (sourceToken.owner = ctx.owner.key) .transferNotAuthorized
  check (ctx.mint.key = config.wrappedUsdcMint → ctx.wrappingVault.key = config.wrappingVault)
    .vaultMismatch
  if vaultTransfer config ctx.mint.key ctx.sourceToken.key ctx.destinationToken.key then return ()
  else if ctx.owner.owner ≠ programId then return ()
  else authorityBranch P clock.unixTimestamp ctx amount

structure StreamAllows (now : Int64) (stream : StreamMandate) (amount : UInt64) : Prop where
  active : stream.status = .active
  short : now.toInt - stream.lastSettledTs.toInt < 2 ^ 63
  due : stream.lastSettledTs.toInt + stream.minSettleInterval.toNat ≤ now.toInt
  accrued : amount.toNat ≤ stream.gross now
  capped : ∀ cap ∈ stream.maxStreamed, stream.totalStreamed.toNat + amount.toNat ≤ cap.toNat

theorem checkCap_eq_ok {stream : StreamMandate} {amount : UInt64} {u : Unit} :
    checkCap stream amount = .ok u ↔
      ∀ cap ∈ stream.maxStreamed, stream.totalStreamed.toNat + amount.toNat ≤ cap.toNat := by
  unfold checkCap
  cases stream.maxStreamed with
  | none => simp [pure_eq_ok]
  | some cap =>
    have fits := Checked.addU128_of_lt (Checked.toNat_lt stream.totalStreamed)
      (Checked.toNat_lt amount)
    simp [fits, orVela, orError, Bind.bind, Except.bind, require_eq_ok]

theorem checkStream_eq_ok {now : Int64} {stream : StreamMandate} {amount : UInt64} {u : Unit} :
    checkStream now stream amount = .ok u ↔ StreamAllows now stream amount := by
  simp only [checkStream, check, orVela, bind_eq_ok, orError_eq_ok, require_eq_ok, exists_const,
    checkCap_eq_ok, Checked.le_iff_int]
  constructor
  · rintro ⟨active, elapsed, difference, nonneg, due, gross, product, accrued, capped⟩
    have nonneg : 0 ≤ elapsed.toInt := nonneg
    have value := Checked.subI64_eq_some.mp difference
    have bound := (Checked.toInt_bounds elapsed).2
    rw [gross_fits nonneg] at product
    obtain rfl := Option.some.inj product
    refine ⟨active, by omega, by omega, ?_, capped⟩
    rw [StreamMandate.gross, ← value]
    exact accrued
  · rintro ⟨active, short, due, accrued, capped⟩
    obtain ⟨elapsed, fits⟩ := Checked.exists_toI64
      (n := now.toInt - stream.lastSettledTs.toInt) ⟨by omega, short⟩
    have value : elapsed.toInt = now.toInt - stream.lastSettledTs.toInt :=
      Checked.toI64_eq_some.mp fits
    have nonneg : 0 ≤ elapsed.toInt := by omega
    rw [StreamMandate.gross, ← value] at accrued
    exact ⟨active, elapsed, fits, nonneg, by omega, _, gross_fits nonneg _, accrued, capped⟩

structure ApprovalAllows (P : HookPlatform) (now : Int64) (ctx : TransferHook)
    (period : Option (Int64 × Int64)) (amount : UInt64) (approval : PullApproval) : Prop where
  address : ctx.pullApproval.key = (P.findProgramAddress (.approval ctx.owner.key)).1
  owner : ctx.pullApproval.owner = programId
  decodes : Layout.pullApprovalAccount.read ctx.pullApproval.data = some approval
  mandate : approval.mandate = ctx.owner.key
  approved : approval.approved = true
  fresh : now ≤ approval.validUntil
  period : ∀ p ∈ period, approval.periodStart = p.1 ∧ approval.periodEnd = p.2
  enough : amount ≤ approval.approvedAmount

theorem read_tagged {α : Type} {c : Codec α} {tag bytes : List UInt8} {a : α}
    (decodes : (c.tagged tag).read bytes = some a) : bytes.take tag.length = tag := by
  simp only [Codec.read, Codec.tagged, Option.map_eq_some_iff, Option.ite_none_right_eq_some]
    at decodes
  obtain ⟨_, ⟨front, _⟩, _⟩ := decodes
  exact front

theorem length_of_tagged {bytes tag : List UInt8} (front : bytes.take tag.length = tag) :
    tag.length ≤ bytes.length := by
  have length := congrArg List.length front
  rw [List.length_take] at length
  omega

theorem isEmpty_of_length {bytes : List UInt8} (long : 8 ≤ bytes.length) :
    bytes.isEmpty = false := by
  cases bytes with
  | nil => exact absurd long (by decide)
  | cons _ _ => rfl

theorem approvalBranch_eq_ok {P : HookPlatform} {now : Int64} {ctx : TransferHook}
    {period : Option (Int64 × Int64)} {amount : UInt64} {u : Unit} :
    approvalBranch P now ctx period amount = .ok u ↔
      ∃ approval, ApprovalAllows P now ctx period amount approval := by
  simp only [approvalBranch, checkApproval, check, orVela, bind_eq_ok, orError_eq_ok,
    require_eq_ok, exists_const]
  constructor
  · rintro ⟨address, ⟨owner, _⟩, _, _, approval, decodes, mandate, approved, fresh, period,
      enough⟩
    exact ⟨approval, address, owner, decodes, mandate, approved, fresh, period, enough⟩
  · rintro ⟨approval, address, owner, decodes, mandate, approved, fresh, period, enough⟩
    have front := read_tagged decodes
    have long : 8 ≤ ctx.pullApproval.data.length := length_of_tagged front
    exact ⟨address, ⟨owner, isEmpty_of_length long⟩, long, front, approval, decodes, mandate,
      approved, fresh, period, enough⟩

theorem streamBranch_eq_ok {now : Int64} {bytes : List UInt8} {amount : UInt64} {u : Unit} :
    streamBranch now bytes amount = .ok u ↔
      ∃ stream, Layout.streamMandateAccount.read bytes = some stream ∧
        StreamAllows now stream amount := by
  simp only [streamBranch, orVela, orError_bind_eq_ok, checkStream_eq_ok]

structure Registered (P : HookPlatform) (ctx : TransferHook) (config : ProtocolConfig)
    (tokenConfig : TokenConfig) : Prop where
  configAddress : ctx.protocolConfig.key = P.configAddress
  configOwner : ctx.protocolConfig.owner = programId
  configDecodes : Layout.protocolConfigAccount.read ctx.protocolConfig.data = some config
  hook : config.transferHookProgramId = transferHookProgramId
  tokenAddress : ctx.tokenConfig.key = P.tokenConfigAddress ctx.mint.key
  tokenOwner : ctx.tokenConfig.owner = programId
  tokenDecodes : Layout.tokenConfigAccount.read ctx.tokenConfig.data = some tokenConfig
  mint : tokenConfig.mint = ctx.mint.key
  enabled : tokenConfig.enabled = true
  rail : tokenConfig.billingRail = .transferHook

structure Moves (P : HookPlatform) (ctx : TransferHook) (config : ProtocolConfig)
    (source destination : TokenAccount) : Prop where
  sourceDecodes : P.unpackAccount ctx.sourceToken = some source
  mintDecodes : (P.unpackMint ctx.mint).isSome = true
  destinationDecodes : P.unpackAccount ctx.destinationToken = some destination
  metas : ctx.extraAccountMetaList.key = P.extraAccountMetasAddress ctx.mint.key
  protocol : ctx.protocolProgram.key = programId
  sourceMint : source.mint = ctx.mint.key
  destinationMint : destination.mint = ctx.mint.key
  sourceOwner : source.owner = ctx.owner.key
  vault : ctx.mint.key = config.wrappedUsdcMint → ctx.wrappingVault.key = config.wrappingVault

/-- The exempted flow through the vault. -/
def exempt (ctx : TransferHook) (config : ProtocolConfig) : Prop :=
  vaultTransfer config ctx.mint.key ctx.sourceToken.key ctx.destinationToken.key = true

theorem loadProtocolConfig_eq_ok {P : HookPlatform} {account : AccountInfo}
    {config : ProtocolConfig} :
    loadProtocolConfig P account = .ok config ↔ account.key = P.configAddress ∧
      account.owner = programId ∧
      Layout.protocolConfigAccount.read account.data = some config := by
  simp only [loadProtocolConfig, check, orVela, require_bind_eq_ok, orError_eq_ok]
  constructor
  · rintro ⟨key, owner, _, decodes⟩
    exact ⟨key, owner, decodes⟩
  · rintro ⟨key, owner, decodes⟩
    have long : 8 ≤ account.data.length := length_of_tagged (read_tagged decodes)
    exact ⟨key, owner, isEmpty_of_length long, decodes⟩

theorem loadTokenConfig_eq_ok {P : HookPlatform} {account : AccountInfo} {mint : Pubkey}
    {config : TokenConfig} :
    loadTokenConfig P account mint = .ok config ↔ account.key = P.tokenConfigAddress mint ∧
      account.owner = programId ∧ Layout.tokenConfigAccount.read account.data = some config := by
  simp only [loadTokenConfig, check, orVela, require_bind_eq_ok, orError_eq_ok]
  constructor
  · rintro ⟨key, owner, _, decodes⟩
    exact ⟨key, owner, decodes⟩
  · rintro ⟨key, owner, decodes⟩
    have long : 8 ≤ account.data.length := length_of_tagged (read_tagged decodes)
    exact ⟨key, owner, isEmpty_of_length long, decodes⟩

/-- The hook accepts exactly under its configuration, for the right accounts, when the flow is
exempted, the authority is not the protocol's or its branch accepts. -/
theorem handler_eq_ok {P : HookPlatform} {clock : Clock} {ctx : TransferHook} {amount : UInt64}
    {u : Unit} :
    handler P clock ctx amount = .ok u ↔ ∃ config tokenConfig source destination,
      Registered P ctx config tokenConfig ∧ Moves P ctx config source destination ∧
        (exempt ctx config ∨ ctx.owner.owner ≠ programId ∨
          authorityBranch P clock.unixTimestamp ctx amount = .ok ()) := by
  simp only [handler, openAccounts, check, orHost, bind_eq_ok, require_eq_ok, orError_eq_ok,
    pure_eq_ok, exists_const, loadProtocolConfig_eq_ok, loadTokenConfig_eq_ok]
  constructor
  · rintro ⟨⟨source, destination⟩, ⟨_, source_, mint, mintDecodes, _, destination_, metas,
      protocol, same⟩, config, ⟨key, owner, decodes⟩, hook, tokenConfig, ⟨tokenKey, tokenOwner,
      tokenDecodes⟩, tokenMint, enabled, rail, sourceMint, destinationMint, sourceOwner, vault,
      branch⟩
    cases same
    refine ⟨config, tokenConfig, source, destination, ⟨key, owner, decodes, hook, tokenKey,
      tokenOwner, tokenDecodes, tokenMint, enabled, rail⟩, ⟨source_, by rw [mintDecodes]; rfl,
      destination_, metas, protocol, sourceMint, destinationMint, sourceOwner, vault⟩, ?_⟩
    split at branch
    · rename_i exempted
      exact .inl exempted
    · split at branch
      · rename_i foreign
        exact .inr (.inl foreign)
      · exact .inr (.inr branch)
  · rintro ⟨config, tokenConfig, source, destination, registered, moves, branch⟩
    obtain ⟨mint, mintDecodes⟩ := Option.isSome_iff_exists.mp moves.mintDecodes
    refine ⟨(source, destination), ⟨source, moves.sourceDecodes, mint, mintDecodes, destination,
      moves.destinationDecodes, moves.metas, moves.protocol, rfl⟩,
      config, ⟨registered.configAddress,
      registered.configOwner, registered.configDecodes⟩, registered.hook, tokenConfig,
      ⟨registered.tokenAddress, registered.tokenOwner, registered.tokenDecodes⟩, registered.mint,
      registered.enabled, registered.rail, moves.sourceMint, moves.destinationMint,
      moves.sourceOwner, moves.vault, ?_⟩
    by_cases exempted : exempt ctx config
    · rw [exempt] at exempted
      rw [if_pos exempted]
      rfl
    · have required := branch.resolve_left exempted
      rw [exempt] at exempted
      rw [if_neg exempted]
      by_cases foreign : ctx.owner.owner ≠ programId
      · rw [if_pos foreign]
        rfl
      · rw [if_neg foreign]
        exact required.resolve_left foreign

end Hook

end VelaProtocol
