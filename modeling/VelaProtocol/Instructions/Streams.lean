import VelaProtocol.Token

/-! The streaming instructions and the settlement they share.
Rent is not modelled; `create_account` on an address that holds data fails. -/
namespace VelaProtocol

open Guard

def loadStreamMandate (w : World) (key : Pubkey) : Result StreamMandate :=
  match w.stream key with
  | none =>
    if w.protocolOwned key then .error (.vela .wrongAccountType)
    else .error (.host .incorrectProgramId)
  | some mandate => do
    require (mandate.version = currentAccountVersion) (.host .invalidAccountData)
    return mandate

def StreamMandate.seeds (s : StreamMandate) : Seeds :=
  .stream s.subscriber s.merchant s.mandateIndex

def validateStreamMandateAddress (P : Platform) (key : Pubkey) (mandate : StreamMandate) :
    Result Unit :=
  check (key = (P.findProgramAddress mandate.seeds).1) .invalidStreamAddress

def World.writeStreamMandate (w : World) (key : Pubkey) (mandate : StreamMandate) : World :=
  { w with stream := Function.update w.stream key (some mandate) }

def remainingUnderCap (s : StreamMandate) : Result Nat :=
  match s.maxStreamed with
  | some cap => do
    check (s.totalStreamed ≤ cap) .streamCapExceeded
    return cap.toNat - s.totalStreamed.toNat
  | none => return 2 ^ 128 - 1

def StreamMandate.settle (s : StreamMandate) (total : UInt64) (now : Int64) : StreamMandate :=
  { s with totalStreamed := total, lastSettledTs := now }

/-- `settle_accrued_in_place`: the settled mandate and the amount that became payable -/
def settleAccruedInPlace (s : StreamMandate) (clockNow : Int64) :
    Result (StreamMandate × UInt64) :=
  if s.status ≠ .active then return (s, 0)
  else if s.pausedAt.isSome then return (s, 0)
  else do
    let elapsed ← orVela (Checked.subI64 clockNow s.lastSettledTs) .clockRegression
    check (0 ≤ elapsed) .clockRegression
    check ((s.minSettleInterval.toNat : Int) ≤ elapsed.toInt) .minSettleIntervalViolation
    let gross ← orVela (Checked.mulU128 elapsed.toInt.toNat s.ratePerSecond.toNat) .overflow
    let remaining ← remainingUnderCap s
    let amount ← orVela (Checked.toU64 (min gross remaining)) .overflow
    let totalStreamed ← orVela (Checked.addU64 s.totalStreamed amount) .overflow
    return (s.settle totalStreamed clockNow, amount)

/-- What is passed for the token configuration: the mint's own account, or another one with the
decimals that decode there. -/
inductive TokenConfigArgument where
  | registered
  | other (decimals : Option UInt8)
  deriving DecidableEq

def TokenConfigArgument.decimals (w : World) (mint : Pubkey) :
    TokenConfigArgument → Option UInt8
  | .registered => (w.tokenConfig mint).map TokenConfig.decimals
  | .other decimals => decimals

structure StreamTransferAccounts where
  subscriberWrappedAccount : Pubkey
  merchantWrappedAccount : Pubkey
  wrappedUsdcMint : Pubkey
  pullApproval : Pubkey
  tokenConfig : TokenConfigArgument
  wrappingVault : Pubkey
  hookProgram : Pubkey
  deriving DecidableEq

def validateStreamTransferAccounts (w : World) (accounts : StreamTransferAccounts) :
    Result Unit := do
  let config ← loadProtocolConfig w
  check (config.paused = false) .protocolPaused
  check (config.hookProgramId ≠ Pubkey.default) .invalidProtocolConfig
  check (accounts.hookProgram = config.hookProgramId) .invalidProtocolConfig
  check (accounts.wrappingVault = config.wrappingVault) .vaultMismatch

def StreamTransferAccounts.transfer (accounts : StreamTransferAccounts) (stream : Pubkey) :
    TransferAccounts where
  source := accounts.subscriberWrappedAccount
  mint := accounts.wrappedUsdcMint
  destination := accounts.merchantWrappedAccount
  authority := stream
  wrappingVault := accounts.wrappingVault
  hookProgram := accounts.hookProgram

/-- Token-2022 looks the extra accounts of the protocol's hook up among those passed: the
approval derived from the authority and the mint's own token configuration. -/
def HookSlots (P : Platform) (w : World) (accounts : StreamTransferAccounts) (stream : Pubkey) :
    Prop :=
  accounts.subscriberWrappedAccount ≠ accounts.merchantWrappedAccount →
    (w.mint accounts.wrappedUsdcMint).bind Mint.transferHookProgramId =
      some transferHookProgramId →
    accounts.pullApproval = (P.findProgramAddress (.approval stream)).1 ∧
      accounts.tokenConfig = .registered

instance (P : Platform) (w : World) (accounts : StreamTransferAccounts) (stream : Pubkey) :
    Decidable (HookSlots P w accounts stream) :=
  inferInstanceAs (Decidable (_ → _ → _ ∧ _))

def invokeStreamTransfer (P : Platform) (w : World) (accounts : StreamTransferAccounts)
    (stream merchant : Pubkey) (amount : UInt64) (seeds : Seeds) (bump : UInt8) :
    Result World := do
  validateToken2022TransferAccounts w accounts.subscriberWrappedAccount
    accounts.merchantWrappedAccount accounts.wrappedUsdcMint stream merchant
  let decimals ← orVela (accounts.tokenConfig.decimals w accounts.wrappedUsdcMint)
    .tokenNotRegistered
  let paid ← invokeTransferCheckedWithHook P w (accounts.transfer stream) amount decimals seeds bump
  require (HookSlots P w accounts stream) (.host .transferHookRejected)
  return paid

def payStream (P : Platform) (w : World) (accounts : StreamTransferAccounts) (key : Pubkey)
    (s : StreamMandate) (amount : UInt64) : Result World :=
  if 0 < amount then invokeStreamTransfer P w accounts key s.merchant amount s.seeds s.bump
  else return w

structure CreateStreamMandate where
  subscriber : Pubkey
  /-- whose merchant record is passed -/
  merchant : Pubkey
  mandate : Pubkey
  mint : Pubkey
  payer : Pubkey
  ratePerSecond : UInt64
  authorizedMaxRate : UInt64
  maxStreamed : Option UInt64
  minSettleInterval : UInt32

def initialStream (ctx : CreateStreamMandate) (merchant : Pubkey) (now : Int64)
    (mandateIndex : UInt64) (bump : UInt8) : StreamMandate where
  version := currentAccountVersion
  subscriber := ctx.subscriber
  merchant := merchant
  mint := ctx.mint
  ratePerSecond := ctx.ratePerSecond
  authorizedMaxRate := ctx.authorizedMaxRate
  lastSettledTs := now
  totalStreamed := 0
  maxStreamed := ctx.maxStreamed
  pausedAt := none
  minSettleInterval := ctx.minSettleInterval
  status := .active
  mandateIndex := mandateIndex
  bump := bump
  pendingNewRatePerSecond := 0
  pendingNewAuthorizedMaxRate := 0
  pendingEffectiveAt := 0
  pendingChangeType := 0
  pendingNonceShort := 0
  reservedV2 := 0

def streamCreated (key : Pubkey) (s : StreamMandate) (now : Int64) : StreamCreated where
  schemaVersion := 1
  mandate := key
  subscriber := s.subscriber
  merchant := s.merchant
  mint := s.mint
  tokenSymbol := ""
  ratePerSecond := s.ratePerSecond
  authorizedMaxRate := s.authorizedMaxRate
  maxStreamed := s.maxStreamed
  minSettleInterval := s.minSettleInterval
  timestamp := now

def createStreamMandate (P : Platform) (w : World) (ctx : CreateStreamMandate) :
    Result World := do
  let merchantState ← anchorMerchantState w ctx.merchant
  require ((w.mint ctx.mint).isSome ∨ (w.splMint ctx.mint).isSome) (.host .invalidMint)
  let tokenConfig ← anchorTokenConfig w ctx.mint
  check (60 ≤ ctx.minSettleInterval) .minSettleIntervalTooLow
  check (0 < ctx.ratePerSecond) .rateMustBeNonZero
  check (ctx.ratePerSecond ≤ ctx.authorizedMaxRate) .authorizedMaxRateTooLow
  check (tokenConfig.enabled = true) .tokenDisabled
  check (tokenConfig.billingRail = .transferHook) .invalidBillingRail
  check (tokenConfig.mint = ctx.mint) .tokenNotRegistered
  let merchant := merchantState.merchant
  require ((P.findProgramAddress (.merchant ctx.merchant)).1 =
    (P.findProgramAddress (.merchant merchant)).1) (.host .invalidSeeds)
  let mandateIndex := merchantState.streamMandateCounter
  let (expectedMandate, mandateBump) :=
    P.findProgramAddress (.stream ctx.subscriber merchant mandateIndex)
  require (ctx.mandate = expectedMandate) (.host .requireKeysEqViolated)
  require (w.dataIsEmpty ctx.mandate = true) (.host .accountAlreadyInitialized)
  let now := w.clock.unixTimestamp
  let mandate := initialStream ctx merchant now mandateIndex mandateBump
  let counter ← orVela (Checked.addU64 merchantState.streamMandateCounter 1) .overflow
  return ((w.writeStreamMandate ctx.mandate mandate).writeMerchantState ctx.merchant
    { merchantState with streamMandateCounter := counter }).emit
      (.stream (.created (streamCreated ctx.mandate mandate now)))

structure ExecuteStream where
  payer : Pubkey
  subscriber : Pubkey
  merchant : Pubkey
  streamMandate : Pubkey
  accounts : StreamTransferAccounts

def streamSettled (key : Pubkey) (s : StreamMandate) (wrappedUsdcMint : Pubkey) (amount : UInt64)
    (now : Int64) : StreamSettled where
  schemaVersion := 1
  mandate := key
  mint := s.mint
  tokenSymbol := eventTokenSymbol s.mint wrappedUsdcMint
  amount := amount
  totalStreamedAfter := s.totalStreamed
  lastSettledTs := s.lastSettledTs
  timestamp := now

def executeStream (P : Platform) (w : World) (ctx : ExecuteStream) : Result World := do
  let keeperConfig ← loadKeeperConfig w
  validateStreamTransferAccounts w ctx.accounts
  let stream ← loadStreamMandate w ctx.streamMandate
  let config ← loadProtocolConfig w
  validateStreamMandateAddress P ctx.streamMandate stream
  require (ctx.subscriber = stream.subscriber) (.host .requireKeysEqViolated)
  require (ctx.merchant = stream.merchant) (.host .requireKeysEqViolated)
  check (ctx.accounts.wrappedUsdcMint = stream.mint) .usdcMintMismatch
  check (ctx.payer = keeperConfig.keeperAuthority ∨ ctx.payer = stream.merchant ∨
    ctx.payer = stream.subscriber) .unauthorizedStreamSigner
  check (ctx.accounts.pullApproval = (P.findProgramAddress (.approval ctx.streamMandate)).1)
    .transferNotAuthorized
  let now := w.clock.unixTimestamp
  let (settled, amount) ← settleAccruedInPlace stream now
  if amount = 0 then return w.writeStreamMandate ctx.streamMandate settled
  else do
    let paid ← invokeStreamTransfer P w ctx.accounts ctx.streamMandate settled.merchant amount
      settled.seeds (P.findProgramAddress settled.seeds).2
    return (paid.writeStreamMandate ctx.streamMandate settled).emit (.stream (.settled
      (streamSettled ctx.streamMandate settled config.wrappedUsdcMint amount now)))

structure StreamControl where
  authority : Pubkey
  mandate : Pubkey
  accounts : StreamTransferAccounts

def openStream (P : Platform) (w : World) (ctx : StreamControl) :
    Result (LoadedProtocolConfig × StreamMandate) := do
  validateStreamTransferAccounts w ctx.accounts
  let config ← loadProtocolConfig w
  let mandate ← loadStreamMandate w ctx.mandate
  validateStreamMandateAddress P ctx.mandate mandate
  check (ctx.accounts.wrappedUsdcMint = mandate.mint) .usdcMintMismatch
  return (config, mandate)

def elapsedSinceSettle (s : StreamMandate) (clockNow : Int64) : Result Int64 := do
  let elapsed ← orVela (Checked.subI64 clockNow s.lastSettledTs) .clockRegression
  check (0 ≤ elapsed) .clockRegression
  return elapsed

/-- `pause_stream` settles what is due, and nothing inside the minimum interval. -/
def settleBeforePause (s : StreamMandate) (clockNow : Int64) :
    Result (StreamMandate × UInt64) := do
  let elapsed ← elapsedSinceSettle s clockNow
  if (s.minSettleInterval.toNat : Int) ≤ elapsed.toInt then settleAccruedInPlace s clockNow
  else return (s, 0)

/-- `cancel_stream` does the same, and nothing unless the stream is active. -/
def settleBeforeCancel (s : StreamMandate) (clockNow : Int64) :
    Result (StreamMandate × UInt64) := do
  let elapsed ← elapsedSinceSettle s clockNow
  if s.status = .active ∧ (s.minSettleInterval.toNat : Int) ≤ elapsed.toInt then
    settleAccruedInPlace s clockNow
  else return (s, 0)

def StreamMandate.pause (s : StreamMandate) (now : Int64) : StreamMandate :=
  { s with pausedAt := some now, status := .paused }

def StreamMandate.resume (s : StreamMandate) (now : Int64) : StreamMandate :=
  { s with lastSettledTs := now, pausedAt := none, status := .active }

def StreamMandate.cancel (s : StreamMandate) : StreamMandate :=
  { s with status := .cancelled, pausedAt := none }

def streamPaused (ctx : StreamControl) (s : StreamMandate) (wrappedUsdcMint : Pubkey)
    (amount : UInt64) (now : Int64) : StreamPaused where
  schemaVersion := 1
  mandate := ctx.mandate
  mint := s.mint
  tokenSymbol := eventTokenSymbol s.mint wrappedUsdcMint
  pausedAt := now
  signer := ctx.authority
  finalSettleAmount := amount
  timestamp := now

def pauseStream (P : Platform) (w : World) (ctx : StreamControl) : Result World := do
  let (config, mandate) ← openStream P w ctx
  check (ctx.authority = mandate.subscriber ∨ ctx.authority = mandate.merchant)
    .unauthorizedStreamSigner
  check (mandate.status ≠ .paused) .streamAlreadyPaused
  check (mandate.status ≠ .cancelled) .streamAlreadyCancelled
  let now := w.clock.unixTimestamp
  let (settled, amount) ← settleBeforePause mandate now
  let paid ← payStream P w ctx.accounts ctx.mandate settled amount
  return (paid.writeStreamMandate ctx.mandate (settled.pause now)).emit
    (.stream (.paused (streamPaused ctx settled config.wrappedUsdcMint amount now)))

structure ResumeStream where
  authority : Pubkey
  mandate : Pubkey

def streamResumed (ctx : ResumeStream) (s : StreamMandate) (duration now : Int64) :
    StreamResumed where
  schemaVersion := 1
  mandate := ctx.mandate
  mint := s.mint
  tokenSymbol := ""
  resumedAt := now
  pauseDurationSecs := duration.toUInt64
  signer := ctx.authority
  timestamp := now

/-- `resume_stream`: the time spent paused is never billed -/
def resumeStream (P : Platform) (w : World) (ctx : ResumeStream) : Result World := do
  let mandate ← loadStreamMandate w ctx.mandate
  validateStreamMandateAddress P ctx.mandate mandate
  check (ctx.authority = mandate.subscriber ∨ ctx.authority = mandate.merchant)
    .unauthorizedStreamSigner
  check (mandate.status ≠ .active) .streamNotActive
  check (mandate.status ≠ .cancelled) .streamAlreadyCancelled
  let pausedAt ← orVela mandate.pausedAt .streamNotActive
  let now := w.clock.unixTimestamp
  let duration ← orVela (Checked.subI64 now pausedAt) .clockRegression
  check (0 ≤ duration) .clockRegression
  return (w.writeStreamMandate ctx.mandate (mandate.resume now)).emit
    (.stream (.resumed (streamResumed ctx mandate duration now)))

def streamCancelled (ctx : StreamControl) (s : StreamMandate) (wrappedUsdcMint : Pubkey)
    (amount : UInt64) (now : Int64) : StreamCancelled where
  schemaVersion := 1
  mandate := ctx.mandate
  mint := s.mint
  tokenSymbol := eventTokenSymbol s.mint wrappedUsdcMint
  cancelledAt := now
  signer := ctx.authority
  finalSettleAmount := amount
  totalStreamedFinal := s.totalStreamed
  timestamp := now

def cancelStream (P : Platform) (w : World) (ctx : StreamControl) : Result World := do
  let (config, mandate) ← openStream P w ctx
  check (ctx.authority = mandate.subscriber ∨ ctx.authority = mandate.merchant)
    .unauthorizedStreamSigner
  check (mandate.status ≠ .cancelled) .streamAlreadyCancelled
  let now := w.clock.unixTimestamp
  let (settled, amount) ← settleBeforeCancel mandate now
  let paid ← payStream P w ctx.accounts ctx.mandate settled amount
  return (paid.writeStreamMandate ctx.mandate settled.cancel).emit
    (.stream (.cancelled (streamCancelled ctx settled config.wrappedUsdcMint amount now)))

structure UpdateStreamRate extends StreamControl where
  newRate : Option UInt64
  newAuthorizedMaxRate : Option UInt64

/-- A rate above the authorised maximum, or another maximum, needs the subscriber. -/
def subscriberRequired (s : StreamMandate) (newRate newAuthorizedMaxRate : Option UInt64) : Prop :=
  newAuthorizedMaxRate.isSome ∨ ∃ next ∈ newRate, s.authorizedMaxRate < next

instance (s : StreamMandate) (newRate newAuthorizedMaxRate : Option UInt64) :
    Decidable (subscriberRequired s newRate newAuthorizedMaxRate) :=
  match newRate with
  | none => decidable_of_iff (newAuthorizedMaxRate.isSome) (by simp [subscriberRequired])
  | some next => decidable_of_iff (newAuthorizedMaxRate.isSome ∨ s.authorizedMaxRate < next)
      (by simp [subscriberRequired])

def StreamMandate.setRate (s : StreamMandate) (newRate newAuthorizedMaxRate : Option UInt64) :
    StreamMandate :=
  { s with
    ratePerSecond := newRate.getD s.ratePerSecond
    authorizedMaxRate := newAuthorizedMaxRate.getD s.authorizedMaxRate }

def rateUpgradeInitiated (ctx : UpdateStreamRate) (s : StreamMandate) (wrappedUsdcMint : Pubkey)
    (proration now : Int64) : MandateUpgradeInitiated where
  schemaVersion := 1
  mandate := ctx.mandate
  mint := s.mint
  tokenSymbol := eventTokenSymbol s.mint wrappedUsdcMint
  oldPlan := Pubkey.default
  newPlan := Pubkey.default
  prorationAmount := proration
  changeType := 1
  signer := ctx.authority
  appliedAt := now
  timestamp := now

def rateUpgradeFinalized (ctx : UpdateStreamRate) (s : StreamMandate) (wrappedUsdcMint : Pubkey)
    (proration now : Int64) : MandateUpgradeFinalized where
  schemaVersion := 1
  mandate := ctx.mandate
  mint := s.mint
  tokenSymbol := eventTokenSymbol s.mint wrappedUsdcMint
  oldPlan := Pubkey.default
  newPlan := Pubkey.default
  prorationAmount := proration
  changeType := 1
  appliedAt := now
  timestamp := now

def streamRateUpdated (ctx : UpdateStreamRate) (old new : StreamMandate)
    (wrappedUsdcMint : Pubkey) (amount : UInt64) (now : Int64) : StreamRateUpdated where
  schemaVersion := 1
  mandate := ctx.mandate
  mint := new.mint
  tokenSymbol := eventTokenSymbol new.mint wrappedUsdcMint
  oldRatePerSecond := old.ratePerSecond
  newRatePerSecond := new.ratePerSecond
  oldAuthorizedMaxRate := old.authorizedMaxRate
  newAuthorizedMaxRate := new.authorizedMaxRate
  signer := ctx.authority
  finalSettleAmount := amount
  timestamp := now

/-- `update_stream_rate`: the past is settled at the old rate first -/
def updateStreamRate (P : Platform) (w : World) (ctx : UpdateStreamRate) : Result World := do
  let (config, mandate) ← openStream P w ctx.toStreamControl
  check (mandate.status = .active) .streamNotActive
  check (ctx.authority = mandate.subscriber ∨ ctx.authority = mandate.merchant)
    .unauthorizedStreamSigner
  check (ctx.newRate.isSome ∨ ctx.newAuthorizedMaxRate.isSome) .noUpdateProvided
  check (subscriberRequired mandate ctx.newRate ctx.newAuthorizedMaxRate →
    ctx.authority = mandate.subscriber) .unauthorizedStreamSigner
  check (∀ next ∈ ctx.newRate, 0 < next) .rateMustBeNonZero
  let now := w.clock.unixTimestamp
  let (settled, amount) ← settleAccruedInPlace mandate now
  let paid ← payStream P w ctx.accounts ctx.mandate settled amount
  let updated := settled.setRate ctx.newRate ctx.newAuthorizedMaxRate
  check (updated.ratePerSecond ≤ updated.authorizedMaxRate) .authorizedMaxRateTooLow
  let proration ← orVela (Checked.toI64 amount.toNat) .overflow
  return (((paid.writeStreamMandate ctx.mandate updated).emit
    (.mandateUpgradeInitiated
      (rateUpgradeInitiated ctx updated config.wrappedUsdcMint proration now))).emit
    (.stream (.rateUpdated
      (streamRateUpdated ctx settled updated config.wrappedUsdcMint amount now)))).emit
    (.mandateUpgradeFinalized
      (rateUpgradeFinalized ctx updated config.wrappedUsdcMint proration now))

def StreamMandate.remaining (s : StreamMandate) : Nat :=
  match s.maxStreamed with
  | some cap => cap.toNat - s.totalStreamed.toNat
  | none => 2 ^ 128 - 1

def StreamMandate.gross (s : StreamMandate) (now : Int64) : Nat :=
  (now.toInt - s.lastSettledTs.toInt).toNat * s.ratePerSecond.toNat

def StreamMandate.Idle (s : StreamMandate) : Prop := s.status ≠ .active ∨ s.pausedAt.isSome = true

structure Accrued (s : StreamMandate) (now : Int64) (amount : UInt64) (after : StreamMandate) :
    Prop where
  active : s.status = .active
  running : s.pausedAt = none
  short : now.toInt - s.lastSettledTs.toInt < 2 ^ 63
  due : s.lastSettledTs.toInt + s.minSettleInterval.toNat ≤ now.toInt
  capped : ∀ cap ∈ s.maxStreamed, s.totalStreamed ≤ cap
  payable : amount.toNat = min (s.gross now) s.remaining
  settled : ∃ total : UInt64, total.toNat = s.totalStreamed.toNat + amount.toNat ∧
    after = s.settle total now

theorem gross_fits {elapsed : Int64} (nonneg : 0 ≤ elapsed.toInt) (rate : UInt64) :
    Checked.mulU128 elapsed.toInt.toNat rate.toNat = some (elapsed.toInt.toNat * rate.toNat) := by
  have bound := (Checked.toInt_bounds elapsed).2
  exact Checked.mulU128_of_lt (by omega) (Checked.toNat_lt rate)

theorem remainingUnderCap_eq_ok {s : StreamMandate} {remaining : Nat} :
    remainingUnderCap s = .ok remaining ↔
      remaining = s.remaining ∧ ∀ cap ∈ s.maxStreamed, s.totalStreamed ≤ cap := by
  unfold remainingUnderCap StreamMandate.remaining
  cases limit : s.maxStreamed with
  | none =>
    simp only [pure_eq_ok, Option.not_mem_none, false_implies, implies_true, and_true]
    exact eq_comm
  | some cap =>
    simp only [require_bind_eq_ok, pure_eq_ok, Option.mem_some_iff, forall_eq']
    constructor
    · rintro ⟨below, rfl⟩
      exact ⟨rfl, below⟩
    · rintro ⟨rfl, below⟩
      exact ⟨below, rfl⟩

theorem StreamMandate.not_idle_iff {s : StreamMandate} :
    ¬s.Idle ↔ s.status = .active ∧ s.pausedAt = none := by
  simp [StreamMandate.Idle]

theorem settleAccruedInPlace_idle {s : StreamMandate} (idle : s.Idle) (now : Int64) :
    settleAccruedInPlace s now = .ok (s, 0) := by
  unfold settleAccruedInPlace
  by_cases active : s.status = .active
  · rw [if_neg (not_not_intro active), if_pos (idle.resolve_left (not_not_intro active))]
    rfl
  · rw [if_pos active]
    rfl

theorem Accrued.of_settled {s after : StreamMandate} {now : Int64} {amount : UInt64}
    (active : s.status = .active) (running : s.pausedAt = none)
    (h : settleAccruedInPlace s now = .ok (after, amount)) : Accrued s now amount after := by
  have open_ : s.pausedAt.isSome = false := by rw [running]; rfl
  simp only [settleAccruedInPlace, active, open_, ne_eq, not_true, if_false, Bool.false_eq_true,
    check, orVela, bind_eq_ok, orError_eq_ok, require_eq_ok, pure_eq_ok, exists_const,
    Prod.mk.injEq, remainingUnderCap_eq_ok, Checked.le_iff_int] at h
  obtain ⟨elapsed, difference, nonneg, due, gross, product, remaining, ⟨rfl, capped⟩, amount,
    clipped, total, sum, rfl, rfl⟩ := h
  have nonneg : 0 ≤ elapsed.toInt := nonneg
  have value := Checked.subI64_eq_some.mp difference
  have bound := (Checked.toInt_bounds elapsed).2
  have payable := Checked.toU64_eq_some.mp clipped
  rw [gross_fits nonneg] at product
  obtain rfl := Option.some.inj product
  refine ⟨active, running, by omega, by omega, capped, ?_, total, Checked.addU64_eq_some.mp sum,
    rfl⟩
  rw [StreamMandate.gross, ← value]
  omega

theorem Accrued.settles {s after : StreamMandate} {now : Int64} {amount : UInt64}
    (accrued : Accrued s now amount after) : settleAccruedInPlace s now = .ok (after, amount) := by
  have open_ : s.pausedAt.isSome = false := by rw [accrued.running]; rfl
  have due := accrued.due
  have payable := accrued.payable
  obtain ⟨total, sum, rfl⟩ := accrued.settled
  obtain ⟨elapsed, fits⟩ := Checked.exists_toI64 (n := now.toInt - s.lastSettledTs.toInt)
    ⟨by omega, accrued.short⟩
  have value : elapsed.toInt = now.toInt - s.lastSettledTs.toInt := Checked.toI64_eq_some.mp fits
  have nonneg : 0 ≤ elapsed.toInt := by omega
  rw [StreamMandate.gross, ← value] at payable
  simp only [settleAccruedInPlace, accrued.active, open_, ne_eq, not_true, if_false,
    Bool.false_eq_true, check, orVela, bind_eq_ok, orError_eq_ok, require_eq_ok, pure_eq_ok,
    exists_const, Prod.mk.injEq, remainingUnderCap_eq_ok, Checked.le_iff_int]
  exact ⟨elapsed, fits, nonneg, by omega, _, gross_fits nonneg _, s.remaining,
    ⟨rfl, accrued.capped⟩, amount, Checked.toU64_eq_some.mpr (by omega), total,
    Checked.addU64_eq_some.mpr sum, rfl, rfl⟩

theorem settleAccruedInPlace_eq_ok {s after : StreamMandate} {now : Int64} {amount : UInt64} :
    settleAccruedInPlace s now = .ok (after, amount) ↔
      s.Idle ∧ after = s ∧ amount = 0 ∨ Accrued s now amount after := by
  by_cases idle : s.Idle
  · rw [settleAccruedInPlace_idle idle]
    simp only [Except.ok.injEq, Prod.mk.injEq]
    constructor
    · rintro ⟨rfl, rfl⟩
      exact .inl ⟨idle, rfl, rfl⟩
    · rintro (⟨_, rfl, rfl⟩ | accrued)
      · exact ⟨rfl, rfl⟩
      · exact absurd idle (StreamMandate.not_idle_iff.mpr ⟨accrued.active, accrued.running⟩)
  · obtain ⟨active, running⟩ := StreamMandate.not_idle_iff.mp idle
    constructor
    · intro h
      exact .inr (.of_settled active running h)
    · rintro (⟨impossible, _⟩ | accrued)
      · exact absurd impossible idle
      · exact accrued.settles

inductive StreamInstruction where
  | createStreamMandate (ctx : CreateStreamMandate)
  | executeStream (ctx : ExecuteStream)
  | pauseStream (ctx : StreamControl)
  | resumeStream (ctx : ResumeStream)
  | updateStreamRate (ctx : UpdateStreamRate)
  | cancelStream (ctx : StreamControl)

def executeStreaming (P : Platform) (w : World) : StreamInstruction → Result World
  | .createStreamMandate ctx => createStreamMandate P w ctx
  | .executeStream ctx => executeStream P w ctx
  | .pauseStream ctx => pauseStream P w ctx
  | .resumeStream ctx => resumeStream P w ctx
  | .updateStreamRate ctx => updateStreamRate P w ctx
  | .cancelStream ctx => cancelStream P w ctx

def StreamInstruction.stream : StreamInstruction → Pubkey
  | .createStreamMandate ctx => ctx.mandate
  | .executeStream ctx => ctx.streamMandate
  | .pauseStream ctx => ctx.mandate
  | .resumeStream ctx => ctx.mandate
  | .updateStreamRate ctx => ctx.mandate
  | .cancelStream ctx => ctx.mandate

def StreamInstruction.signers : StreamInstruction → List Pubkey
  | .createStreamMandate ctx => [ctx.subscriber, ctx.payer]
  | .executeStream ctx => [ctx.payer]
  | .pauseStream ctx => [ctx.authority]
  | .resumeStream ctx => [ctx.authority]
  | .updateStreamRate ctx => [ctx.authority]
  | .cancelStream ctx => [ctx.authority]

inductive ExitSettlement (s : StreamMandate) (now : Int64) (amount : UInt64)
    (after : StreamMandate) : Prop
  | skipped (sofar : s.lastSettledTs.toInt ≤ now.toInt)
      (early : s.status = .active → now.toInt < s.lastSettledTs.toInt + s.minSettleInterval.toNat)
      (zero : amount = 0) (unchanged : after = s)
  | settled (active : s.status = .active)
      (due : s.lastSettledTs.toInt + s.minSettleInterval.toNat ≤ now.toInt)
      (done : settleAccruedInPlace s now = .ok (after, amount))

/-- How an instruction signed by `signer` changes the stream it is called on, and what it pays. -/
inductive StreamChange (now : Int64) (signer : Pubkey) (s : StreamMandate) :
    StreamInstruction → UInt64 → StreamMandate → Prop
  | executed {ctx : ExecuteStream} {amount : UInt64} {after : StreamMandate}
      (settled : settleAccruedInPlace s now = .ok (after, amount)) :
      StreamChange now signer s (.executeStream ctx) amount after
  | paused {ctx : StreamControl} {amount : UInt64} {after : StreamMandate}
      (active : s.status = .active) (settled : ExitSettlement s now amount after) :
      StreamChange now signer s (.pauseStream ctx) amount (after.pause now)
  | resumed {ctx : ResumeStream} (pausedAt : Int64) (paused : s.status = .paused)
      (since : s.pausedAt = some pausedAt) (later : pausedAt.toInt ≤ now.toInt) :
      StreamChange now signer s (.resumeStream ctx) 0 (s.resume now)
  | rerated {ctx : UpdateStreamRate} {amount : UInt64} {after : StreamMandate}
      (active : s.status = .active)
      (consent : subscriberRequired s ctx.newRate ctx.newAuthorizedMaxRate →
        signer = s.subscriber)
      (positive : ∀ next ∈ ctx.newRate, 0 < next)
      (settled : settleAccruedInPlace s now = .ok (after, amount))
      (bounded : (after.setRate ctx.newRate ctx.newAuthorizedMaxRate).ratePerSecond ≤
        (after.setRate ctx.newRate ctx.newAuthorizedMaxRate).authorizedMaxRate) :
      StreamChange now signer s (.updateStreamRate ctx) amount
        (after.setRate ctx.newRate ctx.newAuthorizedMaxRate)
  | cancelled {ctx : StreamControl} {amount : UInt64} {after : StreamMandate}
      (running : s.status ≠ .cancelled) (settled : ExitSettlement s now amount after) :
      StreamChange now signer s (.cancelStream ctx) amount after.cancel

def World.unpaused (w : World) : Prop :=
  ∃ config, w.protocolConfig = some config ∧ config.paused = false

/-- What a settlement moves: nothing, or its amount from an account of the stream to one of the
merchant. -/
inductive StreamPayment (w : World) (accounts : StreamTransferAccounts) (key merchant : Pubkey)
    (amount : UInt64) (paid : World) : Prop
  | nothing (zero : amount = 0) (unchanged : paid = w)
  | transfer (positive : 0 < amount) (unpaused : w.unpaused)
      (done : Paid w (accounts.transfer key) merchant amount paid)

structure StreamWritten (w : World) (key : Pubkey) (after : StreamMandate) (w' : World) :
    Prop where
  stream : w'.stream = Function.update w.stream key (some after)
  clock : w'.clock = w.clock
  protocolConfig : w'.protocolConfig = w.protocolConfig
  keeperConfig : w'.keeperConfig = w.keeperConfig
  tokenConfig : w'.tokenConfig = w.tokenConfig
  mint : w'.mint = w.mint
  tokenAccount : w'.tokenAccount = w.tokenAccount
  splMint : w'.splMint = w.splMint
  splTokenAccount : w'.splTokenAccount = w.splTokenAccount
  plan : w'.plan = w.plan
  mandate : w'.mandate = w.mandate
  agentMandate : w'.agentMandate = w.agentMandate
  pullApproval : w'.pullApproval = w.pullApproval
  requestState : w'.requestState = w.requestState
  usageReport : w'.usageReport = w.usageReport
  billingEvent : w'.billingEvent = w.billingEvent
  money : SameMoney w w'

structure StreamCalled (P : Platform) (w : World) (i : StreamInstruction) (signer : Pubkey)
    (w' : World) (before after : StreamMandate) (amount : UInt64) : Prop where
  found : w.stream i.stream = some before
  address : i.stream = (P.findProgramAddress before.seeds).1
  signs : signer ∈ i.signers
  change : StreamChange w.clock.unixTimestamp signer before i amount after
  effect : ∃ accounts paid, StreamPayment w accounts i.stream before.merchant amount paid ∧
    StreamWritten paid i.stream after w' ∧ w'.merchantState = w.merchantState

theorem loadStreamMandate_eq_ok {w : World} {key : Pubkey} {s : StreamMandate}
    (h : loadStreamMandate w key = .ok s) : w.stream key = some s := by
  unfold loadStreamMandate at h
  cases found : w.stream key with
  | none =>
    simp only [found] at h
    split at h <;> cases h
  | some stored =>
    simp only [found, require_bind_eq_ok, pure_eq_ok] at h
    rw [h.2]

theorem validateStreamTransferAccounts_unpaused {w : World} {accounts : StreamTransferAccounts}
    {u : Unit} (h : validateStreamTransferAccounts w accounts = .ok u) : w.unpaused := by
  simp only [validateStreamTransferAccounts, check, bind_eq_ok, require_eq_ok] at h
  obtain ⟨config, loaded, _, unpaused, _⟩ := h
  exact ⟨config, loadProtocolConfig_eq_ok loaded, unpaused⟩

theorem invokeStreamTransfer_paid {P : Platform} {w w' : World}
    {accounts : StreamTransferAccounts} {stream merchant : Pubkey} {amount : UInt64}
    {seeds : Seeds} {bump : UInt8}
    (h : invokeStreamTransfer P w accounts stream merchant amount seeds bump = .ok w') :
    Paid w (accounts.transfer stream) merchant amount w' := by
  simp only [invokeStreamTransfer, bind_eq_ok, pure_eq_ok] at h
  obtain ⟨_, valid, decimals, _, paid, invoked, _, _, rfl⟩ := h
  exact paid_of valid invoked

theorem settle_terms {s after : StreamMandate} {now : Int64} {amount : UInt64}
    (h : settleAccruedInPlace s now = .ok (after, amount)) :
    after.merchant = s.merchant ∧ after.seeds = s.seeds := by
  rcases settleAccruedInPlace_eq_ok.mp h with ⟨_, rfl, _⟩ | accrued
  · exact ⟨rfl, rfl⟩
  · obtain ⟨total, _, rfl⟩ := accrued.settled
    exact ⟨rfl, rfl⟩

theorem payStream_payment {P : Platform} {w w' : World} {accounts : StreamTransferAccounts}
    {key : Pubkey} {s : StreamMandate} {amount : UInt64} (unpaused : w.unpaused)
    (h : payStream P w accounts key s amount = .ok w') :
    StreamPayment w accounts key s.merchant amount w' := by
  unfold payStream at h
  split at h
  · rename_i positive
    exact .transfer positive unpaused (invokeStreamTransfer_paid h)
  · rename_i zero
    cases h
    refine .nothing (UInt64.toNat_inj.mp ?_) rfl
    rw [Checked.lt_iff] at zero
    exact Nat.eq_zero_of_not_pos zero

theorem openStream_eq_ok {P : Platform} {w : World} {ctx : StreamControl}
    {config : LoadedProtocolConfig} {s : StreamMandate}
    (h : openStream P w ctx = .ok (config, s)) :
    w.stream ctx.mandate = some s ∧ ctx.mandate = (P.findProgramAddress s.seeds).1 ∧
      w.unpaused := by
  simp only [openStream, validateStreamMandateAddress, check, bind_eq_ok, require_eq_ok,
    pure_eq_ok, Prod.mk.injEq, exists_const] at h
  obtain ⟨_, valid, _, _, _, loaded, address, _, _, rfl⟩ := h
  exact ⟨loadStreamMandate_eq_ok loaded, address, validateStreamTransferAccounts_unpaused valid⟩

theorem elapsedSinceSettle_eq_ok {s : StreamMandate} {now elapsed : Int64}
    (h : elapsedSinceSettle s now = .ok elapsed) :
    elapsed.toInt = now.toInt - s.lastSettledTs.toInt ∧ s.lastSettledTs.toInt ≤ now.toInt := by
  simp only [elapsedSinceSettle, check, orVela, bind_eq_ok, orError_eq_ok, require_eq_ok,
    pure_eq_ok, exists_const, Checked.le_iff_int] at h
  obtain ⟨seconds, difference, nonneg, same⟩ := h
  have value := Checked.subI64_eq_some.mp difference
  have nonneg : 0 ≤ seconds.toInt := nonneg
  exact ⟨same ▸ value, by omega⟩

theorem settleBeforePause_eq_ok {s after : StreamMandate} {now : Int64} {amount : UInt64}
    (active : s.status = .active) (h : settleBeforePause s now = .ok (after, amount)) :
    ExitSettlement s now amount after := by
  simp only [settleBeforePause, bind_eq_ok] at h
  obtain ⟨elapsed, measured, h⟩ := h
  obtain ⟨value, sofar⟩ := elapsedSinceSettle_eq_ok measured
  split at h
  · exact .settled active (by omega) h
  · cases h
    exact .skipped sofar (fun _ => by omega) rfl rfl

theorem settleBeforeCancel_eq_ok {s after : StreamMandate} {now : Int64} {amount : UInt64}
    (h : settleBeforeCancel s now = .ok (after, amount)) : ExitSettlement s now amount after := by
  simp only [settleBeforeCancel, bind_eq_ok] at h
  obtain ⟨elapsed, measured, h⟩ := h
  obtain ⟨value, sofar⟩ := elapsedSinceSettle_eq_ok measured
  split at h
  · rename_i both
    exact .settled both.1 (by omega) h
  · rename_i either
    cases h
    refine .skipped sofar (fun active => ?_) rfl rfl
    by_contra late
    exact either ⟨active, by omega⟩

theorem ExitSettlement.merchant {s after : StreamMandate} {now : Int64} {amount : UInt64}
    (settlement : ExitSettlement s now amount after) : after.merchant = s.merchant := by
  cases settlement with
  | skipped sofar early zero unchanged => rw [unchanged]
  | settled active due done => exact (settle_terms done).1

theorem World.emit_merchantState (w : World) (e : LogEntry) :
    (w.emit e).merchantState = w.merchantState := rfl

theorem StreamWritten.of_write (w : World) (key : Pubkey) (after : StreamMandate) :
    StreamWritten w key after (w.writeStreamMandate key after) := by
  constructor
  case money => exact SameMoney.of_log rfl
  all_goals rfl

theorem StreamWritten.emit {w w' : World} {key : Pubkey} {after : StreamMandate} {e : LogEntry}
    (written : StreamWritten w key after w') (neutral : e.neutral = true) :
    StreamWritten w key after (w'.emit e) where
  stream := written.stream
  clock := written.clock
  protocolConfig := written.protocolConfig
  keeperConfig := written.keeperConfig
  tokenConfig := written.tokenConfig
  mint := written.mint
  tokenAccount := written.tokenAccount
  splMint := written.splMint
  splTokenAccount := written.splTokenAccount
  plan := written.plan
  mandate := written.mandate
  agentMandate := written.agentMandate
  pullApproval := written.pullApproval
  requestState := written.requestState
  usageReport := written.usageReport
  billingEvent := written.billingEvent
  money := written.money.trans (SameMoney.of_entry rfl neutral)

theorem executeStream_eq_ok {P : Platform} {w w' : World} {ctx : ExecuteStream}
    (h : executeStream P w ctx = .ok w') :
    ∃ before after amount,
      StreamCalled P w (.executeStream ctx) ctx.payer w' before after amount := by
  simp only [executeStream, validateStreamMandateAddress, check, bind_eq_ok, require_eq_ok,
    exists_const] at h
  obtain ⟨_, _, _, valid, s, loaded, _, _, address, _, _, _, _, _, ⟨after, amount⟩, settled,
    h⟩ := h
  have found := loadStreamMandate_eq_ok loaded
  have unpaused := validateStreamTransferAccounts_unpaused valid
  split at h
  · rename_i zero
    cases h
    subst zero
    exact ⟨s, after, 0, found, address, List.mem_singleton_self _,
      .executed settled, ctx.accounts, w, .nothing rfl rfl,
      .of_write _ _ _, rfl⟩
  · rename_i nonzero
    simp only [bind_eq_ok, pure_eq_ok] at h
    obtain ⟨paid, invoked, rfl⟩ := h
    have done := invokeStreamTransfer_paid invoked
    rw [(settle_terms settled).1] at done
    have positive : 0 < amount := by
      rw [Checked.lt_iff]
      exact Nat.pos_of_ne_zero (fun zero => nonzero (UInt64.toNat_inj.mp zero))
    exact ⟨s, after, amount, found, address, List.mem_singleton_self _,
      .executed settled, ctx.accounts, paid,
      .transfer positive unpaused done, .emit (.of_write _ _ _) rfl, done.frame.merchantState⟩

theorem StreamPayment.merchantState {w paid : World} {accounts : StreamTransferAccounts}
    {key merchant : Pubkey} {amount : UInt64}
    (payment : StreamPayment w accounts key merchant amount paid) :
    paid.merchantState = w.merchantState := by
  cases payment with
  | nothing zero unchanged => rw [unchanged]
  | transfer positive unpaused done => exact done.frame.merchantState

theorem pauseStream_eq_ok {P : Platform} {w w' : World} {ctx : StreamControl}
    (h : pauseStream P w ctx = .ok w') :
    ∃ before after amount,
      StreamCalled P w (.pauseStream ctx) ctx.authority w' before after amount := by
  simp only [pauseStream, check, bind_eq_ok, require_eq_ok, pure_eq_ok, exists_const] at h
  obtain ⟨⟨config, s⟩, opened, _, notPaused, notCancelled, ⟨after, amount⟩, settled, paid, payment,
    rfl⟩ := h
  obtain ⟨found, address, unpaused⟩ := openStream_eq_ok opened
  have active : s.status = .active := by
    cases status : s.status with
    | active => rfl
    | paused => exact absurd status notPaused
    | cancelled => exact absurd status notCancelled
  have payment := payStream_payment unpaused payment
  have settled := settleBeforePause_eq_ok active settled
  rw [settled.merchant] at payment
  exact ⟨s, _, amount, found, address, List.mem_singleton_self _,
    .paused active settled, ctx.accounts, paid, payment,
    .emit (.of_write _ _ _) rfl, payment.merchantState⟩

theorem resumeStream_eq_ok {P : Platform} {w w' : World} {ctx : ResumeStream}
    (h : resumeStream P w ctx = .ok w') :
    ∃ before after amount,
      StreamCalled P w (.resumeStream ctx) ctx.authority w' before after amount := by
  simp only [resumeStream, validateStreamMandateAddress, check, orVela, bind_eq_ok, orError_eq_ok,
    require_eq_ok, pure_eq_ok, exists_const] at h
  obtain ⟨s, loaded, address, _, notActive, notCancelled, pausedAt, since, duration, difference,
    nonneg, rfl⟩ := h
  have paused : s.status = .paused := by
    cases status : s.status with
    | active => exact absurd status notActive
    | paused => rfl
    | cancelled => exact absurd status notCancelled
  have value := Checked.subI64_eq_some.mp difference
  have nonneg : 0 ≤ duration.toInt := Checked.le_iff_int.mp nonneg
  refine ⟨s, _, 0, loadStreamMandate_eq_ok loaded, address, List.mem_singleton_self _,
    .resumed pausedAt paused since (by omega), ?_⟩
  exact ⟨⟨0, 0, 0, 0, .registered, 0, 0⟩, w, .nothing rfl rfl, .emit (.of_write _ _ _) rfl, rfl⟩

theorem cancelStream_eq_ok {P : Platform} {w w' : World} {ctx : StreamControl}
    (h : cancelStream P w ctx = .ok w') :
    ∃ before after amount,
      StreamCalled P w (.cancelStream ctx) ctx.authority w' before after amount := by
  simp only [cancelStream, check, bind_eq_ok, require_eq_ok, pure_eq_ok, exists_const] at h
  obtain ⟨⟨config, s⟩, opened, _, running, ⟨after, amount⟩, settled, paid, payment, rfl⟩ := h
  obtain ⟨found, address, unpaused⟩ := openStream_eq_ok opened
  have payment := payStream_payment unpaused payment
  have settled := settleBeforeCancel_eq_ok settled
  rw [settled.merchant] at payment
  exact ⟨s, _, amount, found, address, List.mem_singleton_self _,
    .cancelled running settled, ctx.accounts, paid, payment,
    .emit (.of_write _ _ _) rfl, payment.merchantState⟩

theorem updateStreamRate_eq_ok {P : Platform} {w w' : World} {ctx : UpdateStreamRate}
    (h : updateStreamRate P w ctx = .ok w') :
    ∃ before after amount,
      StreamCalled P w (.updateStreamRate ctx) ctx.authority w' before after amount := by
  simp only [updateStreamRate, check, orVela, bind_eq_ok, orError_eq_ok, require_eq_ok, pure_eq_ok,
    exists_const] at h
  obtain ⟨⟨config, s⟩, opened, active, _, _, consent, positive, ⟨after, amount⟩, settled, paid,
    payment, bounded, proration, _, rfl⟩ := h
  obtain ⟨found, address, unpaused⟩ := openStream_eq_ok opened
  have payment := payStream_payment unpaused payment
  rw [(settle_terms settled).1] at payment
  refine ⟨s, after.setRate ctx.newRate ctx.newAuthorizedMaxRate, amount, found, address,
    List.mem_singleton_self _, .rerated active consent positive settled bounded,
    ctx.accounts, paid, payment, ?_, ?_⟩
  · exact .emit (.emit (.emit (.of_write _ _ _) rfl) rfl) rfl
  · simp only [World.emit_merchantState]
    exact payment.merchantState

structure StreamOpened (P : Platform) (w : World) (ctx : CreateStreamMandate) (w' : World)
    (state : MerchantState) (stream : StreamMandate) : Prop where
  loaded : w.merchantState ctx.merchant = some (.current state)
  vacant : Vacant w ctx.mandate
  address : ctx.mandate = (P.findProgramAddress stream.seeds).1
  positive : 0 < ctx.ratePerSecond
  bounded : ctx.ratePerSecond ≤ ctx.authorizedMaxRate
  interval : 60 ≤ ctx.minSettleInterval
  initial : stream = initialStream ctx state.merchant w.clock.unixTimestamp
    state.streamMandateCounter
    (P.findProgramAddress (.stream ctx.subscriber state.merchant state.streamMandateCounter)).2
  counted : ∃ counter : UInt64, counter.toNat = state.streamMandateCounter.toNat + 1 ∧
    w'.merchantState = Function.update w.merchantState ctx.merchant
      (some (.current { state with streamMandateCounter := counter }))
  written : StreamWritten w ctx.mandate stream w'

theorem anchorMerchantState_eq_ok {w : World} {merchant : Pubkey} {state : MerchantState}
    (h : anchorMerchantState w merchant = .ok state) :
    w.merchantState merchant = some (.current state) := by
  unfold anchorMerchantState at h
  split at h
  · cases h
  · cases h
  · rename_i found
    cases h
    exact found

theorem createStreamMandate_eq_ok {P : Platform} {w w' : World} {ctx : CreateStreamMandate}
    (h : createStreamMandate P w ctx = .ok w') :
    ∃ state stream, StreamOpened P w ctx w' state stream := by
  simp only [createStreamMandate, check, orVela, bind_eq_ok, orError_eq_ok, require_eq_ok,
    pure_eq_ok, exists_const] at h
  obtain ⟨state, loaded, _, config, _, interval, positive, bounded, _, _, _, _, address, empty,
    counter, added, rfl⟩ := h
  let stream := initialStream ctx state.merchant w.clock.unixTimestamp state.streamMandateCounter
    (P.findProgramAddress (.stream ctx.subscriber state.merchant state.streamMandateCounter)).2
  refine ⟨state, stream, anchorMerchantState_eq_ok loaded, dataIsEmpty_vacant empty, address,
    positive, bounded, interval, rfl, ⟨counter, Checked.addU64_eq_some.mp added, rfl⟩, ?_⟩
  constructor
  case money => exact SameMoney.of_entry (e := .stream _) rfl rfl
  all_goals rfl

end VelaProtocol
