import VelaProtocol.Accounts.Mandate
import VelaProtocol.Accounts.Merchant

/-! Token-2022 as far as the program uses it, and the protocol's own transfer hook.
Accounts carry no delegates and are never frozen; the hook reads the stored ledger, so it sees a
mandate as it was before the calling instruction writes it back. -/
namespace VelaProtocol

open Guard

def World.protocolOwned (w : World) (address : Pubkey) : Bool :=
  (w.mandate address).isSome || (w.stream address).isSome || (w.plan address).isSome ||
    (w.agentMandate address).isSome

def hookStream (w : World) (stream : StreamMandate) (amount : UInt64) : Result Unit := do
  check (stream.status = .active) .streamNotActive
  let elapsed ← orVela (Checked.subI64 w.clock.unixTimestamp stream.lastSettledTs) .clockRegression
  check (0 ≤ elapsed) .clockRegression
  check ((stream.minSettleInterval.toNat : Int) ≤ elapsed.toInt) .minSettleIntervalViolation
  check ((amount.toNat : Int) ≤ elapsed.toInt * stream.ratePerSecond.toNat) .amountExceedsStreamRate
  match stream.maxStreamed with
  | none => return ()
  | some cap => check (stream.totalStreamed.toNat + amount.toNat ≤ cap.toNat) .streamCapExceeded

def hookApproval (w : World) (authority : Pubkey) (period : Option (Int64 × Int64))
    (amount : UInt64) : Result Unit := do
  let approval ← orVela (w.pullApproval authority) .transferNotAuthorized
  check (approval.mandate = authority) .transferNotAuthorized
  check (approval.approved = true) .approvalNotGranted
  check (w.clock.unixTimestamp ≤ approval.validUntil) .approvalExpired
  check (∀ p ∈ period, approval.periodStart = p.1 ∧ approval.periodEnd = p.2)
    .transferNotAuthorized
  check (amount ≤ approval.approvedAmount) .amountExceedsPlanAmount

/-- The authority's account decides which rule applies. -/
def hookAuthority (w : World) (authority : Pubkey) (amount : UInt64) : Result Unit :=
  match w.stream authority with
  | some stream => hookStream w stream amount
  | none =>
    match w.mandate authority with
    | none => hookApproval w authority none amount
    | some _ => do
      let mandate ← orVela (anchorVelaMandate w authority).toOption .wrongAccountType
      let period ← mandateBillingPeriod mandate
      hookApproval w authority (some period) amount

/-- A wrap or unwrap moves tokens through the configured vault. -/
def vaultTransfer (config : ProtocolConfig) (mint source destination : Pubkey) : Bool :=
  mint = config.wrappedUsdcMint &&
    (source = config.wrappingVault || destination = config.wrappingVault)

def handlerTransferHook (w : World) (mint source destination authority wrappingVault : Pubkey)
    (amount : UInt64) : Result Unit := do
  let config ← match w.protocolConfig with
    | some (.current c) => pure c
    | _ => .error (.vela .invalidProtocolConfig)
  check (config.transferHookProgramId = transferHookProgramId) .invalidProtocolConfig
  let tokenConfig ← orVela (w.tokenConfig mint) .tokenNotRegistered
  check (tokenConfig.mint = mint) .tokenNotRegistered
  check (tokenConfig.enabled = true) .tokenDisabled
  check (tokenConfig.billingRail = .transferHook) .invalidBillingRail
  let sourceToken ← orHost (w.tokenAccount source) .accountDidNotDeserialize
  let destinationToken ← orHost (w.tokenAccount destination) .accountDidNotDeserialize
  check (sourceToken.mint = mint) .transferNotAuthorized
  check (destinationToken.mint = mint) .transferNotAuthorized
  check (sourceToken.owner = authority) .transferNotAuthorized
  check (mint = config.wrappedUsdcMint → wrappingVault = config.wrappingVault) .vaultMismatch
  if vaultTransfer config mint source destination then return ()
  else if w.protocolOwned authority then hookAuthority w authority amount
  else return ()

structure HookOpen (w : World) (mint source destination authority wrappingVault : Pubkey)
    (config : ProtocolConfig) (tokenConfig : TokenConfig)
    (sourceToken destinationToken : TokenAccount) : Prop where
  configured : w.protocolConfig = some (.current config)
  program : config.transferHookProgramId = transferHookProgramId
  registered : w.tokenConfig mint = some tokenConfig
  registeredMint : tokenConfig.mint = mint
  enabled : tokenConfig.enabled = true
  rail : tokenConfig.billingRail = .transferHook
  sourceFound : w.tokenAccount source = some sourceToken
  destinationFound : w.tokenAccount destination = some destinationToken
  sourceMint : sourceToken.mint = mint
  destinationMint : destinationToken.mint = mint
  sourceOwner : sourceToken.owner = authority
  vault : mint = config.wrappedUsdcMint → wrappingVault = config.wrappingVault

theorem handlerTransferHook_eq_ok {w : World}
    {mint source destination authority wrappingVault : Pubkey} {amount : UInt64} {u : Unit} :
    handlerTransferHook w mint source destination authority wrappingVault amount = .ok u ↔
      ∃ config tokenConfig sourceToken destinationToken,
        HookOpen w mint source destination authority wrappingVault config tokenConfig sourceToken
          destinationToken ∧
        (vaultTransfer config mint source destination = true ∨ w.protocolOwned authority = false ∨
          hookAuthority w authority amount = .ok ()) := by
  unfold handlerTransferHook
  rcases found : w.protocolConfig with _ | legacy | config
  · constructor
    · exact nofun
    · rintro ⟨config, _, _, _, opens, _⟩
      exact absurd (found.symm.trans opens.configured) nofun
  · constructor
    · exact nofun
    · rintro ⟨config, _, _, _, opens, _⟩
      exact absurd (found.symm.trans opens.configured) nofun
  · simp only [check, orVela, orHost, bind_eq_ok, orError_eq_ok, require_eq_ok, pure_eq_ok,
      exists_const]
    constructor
    · rintro ⟨config, rfl, program, tokenConfig, registered, mint_eq, enabled, rail, sourceToken,
        paid, destinationToken, received, source_mint, destination_mint, owner, vault, verdict⟩
      refine ⟨config, tokenConfig, sourceToken, destinationToken, ⟨found, program, registered,
        mint_eq, enabled, rail, paid, received, source_mint, destination_mint, owner, vault⟩, ?_⟩
      split at verdict
      · rename_i passes
        exact .inl passes
      · split at verdict
        · exact .inr (.inr verdict)
        · rename_i foreign
          exact .inr (.inl (Bool.not_eq_true _ ▸ foreign))
    · rintro ⟨config', tokenConfig, sourceToken, destinationToken, opens, verdict⟩
      obtain rfl : config = config' :=
        LoadedProtocolConfig.current.inj (Option.some.inj (found.symm.trans opens.configured))
      refine ⟨config, rfl, opens.program, tokenConfig, opens.registered, opens.registeredMint,
        opens.enabled, opens.rail, sourceToken, opens.sourceFound, destinationToken,
        opens.destinationFound, opens.sourceMint, opens.destinationMint, opens.sourceOwner,
        opens.vault, ?_⟩
      by_cases passes : vaultTransfer config mint source destination = true
      · rw [if_pos passes]
        rfl
      · rw [if_neg passes]
        by_cases own : w.protocolOwned authority = true
        · rw [if_pos own]
          rcases verdict with flow | foreign | accepted
          · exact absurd flow passes
          · exact absurd own (by rw [foreign]; decide)
          · exact accepted
        · rw [if_neg own]
          rfl

structure TransferAccounts where
  source : Pubkey
  mint : Pubkey
  destination : Pubkey
  authority : Pubkey
  wrappingVault : Pubkey
  hookProgram : Pubkey
  deriving DecidableEq

def validateToken2022TransferAccounts (w : World) (source destination mint : Pubkey)
    (expectedSourceAuthority expectedDestinationOwner : Pubkey) : Result Unit := do
  let sourceAccount ← orVela (w.tokenAccount source) .transferNotAuthorized
  let destinationAccount ← orVela (w.tokenAccount destination) .transferNotAuthorized
  check (sourceAccount.mint = mint) .usdcMintMismatch
  check (destinationAccount.mint = mint) .usdcMintMismatch
  check (sourceAccount.owner = expectedSourceAuthority) .transferNotAuthorized
  check (destinationAccount.owner = expectedDestinationOwner) .transferNotAuthorized

/-- The hook Token-2022 calls after moving the balances. -/
def executeHook (P : Platform) (w : World) (mint : Mint) (accounts : TransferAccounts)
    (amount : UInt64) : Result Unit :=
  match mint.transferHookProgramId with
  | none => return ()
  | some program => do
    require (program = accounts.hookProgram) (.host .transferHookRejected)
    if program = transferHookProgramId then
      handlerTransferHook w accounts.mint accounts.source accounts.destination accounts.authority
        accounts.wrappingVault amount
    else require (P.foreignHook program = true) (.host .transferHookRejected)

/-- `transfer_checked`; a transfer to the same account moves nothing and calls no hook -/
def transferChecked (P : Platform) (w : World) (accounts : TransferAccounts) (amount : UInt64)
    (decimals : UInt8) : Result World := do
  let source ← orHost (w.tokenAccount accounts.source) .accountNotInitialized
  let destination ← orHost (w.tokenAccount accounts.destination) .accountNotInitialized
  require (amount ≤ source.amount) (.host .insufficientFunds)
  require (source.mint = destination.mint) (.host .mintMismatch)
  require (source.mint = accounts.mint) (.host .mintMismatch)
  let mint ← orHost (w.mint accounts.mint) .invalidMint
  require (mint.nonTransferable = false) (.host .nonTransferable)
  require (decimals = mint.decimals) (.host .mintDecimalsMismatch)
  require (source.owner = accounts.authority) (.host .ownerMismatch)
  if accounts.source = accounts.destination then return w
  else do
    let received ← orHost (Checked.addU64 destination.amount amount) .tokenOverflow
    executeHook P w mint accounts amount
    return { w with
      tokenAccount := Function.update
        (Function.update w.tokenAccount accounts.source
          (some { source with amount := source.amount - amount }))
        accounts.destination (some { destination with amount := received })
      log := .transfer ⟨accounts.mint, accounts.source, accounts.destination,
        accounts.authority, amount⟩ :: w.log }

/-- `invoke_transfer_checked_with_hook`: the program signs for a derived authority -/
def invokeTransferCheckedWithHook (P : Platform) (w : World) (accounts : TransferAccounts)
    (amount : UInt64) (decimals : UInt8) (seeds : Seeds) (bump : UInt8) : Result World := do
  require (P.createProgramAddress seeds bump = some accounts.authority)
    (.host .missingRequiredSignature)
  transferChecked P w accounts amount decimals

def associatedTokenAddress (P : Platform) (owner mint : Pubkey) : Pubkey :=
  (P.findProgramAddress (.associatedToken owner mint)).1

def createIdempotent (P : Platform) (w : World) (owner mint : Pubkey) : Result World :=
  let address := associatedTokenAddress P owner mint
  match w.tokenAccount address with
  | some account => do
    require (account.owner = owner) (.host .ownerMismatch)
    require (account.mint = mint) (.host .mintMismatch)
    return w
  | none => do
    let _ ← orHost (w.mint mint) .invalidMint
    return { w with
      tokenAccount := Function.update w.tokenAccount address (some ⟨mint, owner, 0⟩) }

def mintTo (w : World) (mintKey account authority : Pubkey) (amount : UInt64) : Result World := do
  let destination ← orHost (w.tokenAccount account) .accountNotInitialized
  require (destination.mint = mintKey) (.host .mintMismatch)
  let mint ← orHost (w.mint mintKey) .invalidMint
  require (mint.mintAuthority = some authority) (.host .ownerMismatch)
  let supply ← orHost (Checked.addU64 mint.supply amount) .tokenOverflow
  let received ← orHost (Checked.addU64 destination.amount amount) .tokenOverflow
  return { w with
    mint := Function.update w.mint mintKey (some { mint with supply := supply })
    tokenAccount := Function.update w.tokenAccount account
      (some { destination with amount := received }) }

def burn (w : World) (account mintKey authority : Pubkey) (amount : UInt64) : Result World := do
  let source ← orHost (w.tokenAccount account) .accountNotInitialized
  let mint ← orHost (w.mint mintKey) .invalidMint
  require (source.mint = mintKey) (.host .mintMismatch)
  require (amount ≤ source.amount) (.host .insufficientFunds)
  require (mint.permanentDelegate = some authority ∨ source.owner = authority)
    (.host .ownerMismatch)
  return { w with
    mint := Function.update w.mint mintKey (some { mint with supply := mint.supply - amount })
    tokenAccount := Function.update w.tokenAccount account
      (some { source with amount := source.amount - amount }) }

structure TokenOnly (w w' : World) : Prop where
  clock : w'.clock = w.clock
  protocolConfig : w'.protocolConfig = w.protocolConfig
  keeperConfig : w'.keeperConfig = w.keeperConfig
  merchantState : w'.merchantState = w.merchantState
  tokenConfig : w'.tokenConfig = w.tokenConfig
  plan : w'.plan = w.plan
  mandate : w'.mandate = w.mandate
  stream : w'.stream = w.stream
  agentMandate : w'.agentMandate = w.agentMandate
  pullApproval : w'.pullApproval = w.pullApproval
  requestState : w'.requestState = w.requestState
  usageReport : w'.usageReport = w.usageReport
  billingEvent : w'.billingEvent = w.billingEvent
  splMint : w'.splMint = w.splMint
  splTokenAccount : w'.splTokenAccount = w.splTokenAccount

theorem TokenOnly.refl (w : World) : TokenOnly w w :=
  ⟨rfl, rfl, rfl, rfl, rfl, rfl, rfl, rfl, rfl, rfl, rfl, rfl, rfl, rfl, rfl⟩

theorem TokenOnly.trans {w₁ w₂ w₃ : World} (first : TokenOnly w₁ w₂) (second : TokenOnly w₂ w₃) :
    TokenOnly w₁ w₃ :=
  ⟨second.clock.trans first.clock, second.protocolConfig.trans first.protocolConfig,
    second.keeperConfig.trans first.keeperConfig, second.merchantState.trans first.merchantState,
    second.tokenConfig.trans first.tokenConfig, second.plan.trans first.plan,
    second.mandate.trans first.mandate, second.stream.trans first.stream,
    second.agentMandate.trans first.agentMandate, second.pullApproval.trans first.pullApproval,
    second.requestState.trans first.requestState,
    second.usageReport.trans first.usageReport, second.billingEvent.trans first.billingEvent,
    second.splMint.trans first.splMint, second.splTokenAccount.trans first.splTokenAccount⟩

def World.balance (w : World) (address : Pubkey) : Nat :=
  ((w.tokenAccount address).map fun account => account.amount.toNat).getD 0

/-- A transfer between two accounts moves exactly the amount and logs it once; one from an account
to itself does nothing. -/
inductive Moved (w : World) (accounts : TransferAccounts) (amount : UInt64) (w' : World) : Prop
  | nothing (same : accounts.source = accounts.destination) (unchanged : w' = w)
  | tokens (different : accounts.source ≠ accounts.destination)
      (log : w'.log = .transfer ⟨accounts.mint, accounts.source, accounts.destination,
        accounts.authority, amount⟩ :: w.log)
      (paid : w'.balance accounts.source + amount.toNat = w.balance accounts.source)
      (received : w'.balance accounts.destination =
        w.balance accounts.destination + amount.toNat)
      (others : ∀ address, address ≠ accounts.source → address ≠ accounts.destination →
        w'.tokenAccount address = w.tokenAccount address)

structure Transferred (w : World) (accounts : TransferAccounts) (amount : UInt64) (w' : World) :
    Prop where
  frame : TokenOnly w w'
  moved : Moved w accounts amount w'

theorem transferChecked_eq_ok {P : Platform} {w w' : World} {accounts : TransferAccounts}
    {amount : UInt64} {decimals : UInt8}
    (h : transferChecked P w accounts amount decimals = .ok w') :
    Transferred w accounts amount w' := by
  simp only [transferChecked, orHost, orError_bind_eq_ok, require_bind_eq_ok] at h
  obtain ⟨source, found, destination, present, funds, _, _, mint, _, _, _, _, h⟩ := h
  split at h
  · rename_i same
    cases h
    exact ⟨TokenOnly.refl w, .nothing same rfl⟩
  · rename_i different
    simp only [bind_eq_ok, orError_eq_ok, pure_eq_ok] at h
    obtain ⟨received, sum, ⟨⟩, _, rfl⟩ := h
    refine ⟨⟨rfl, rfl, rfl, rfl, rfl, rfl, rfl, rfl, rfl, rfl, rfl, rfl, rfl, rfl, rfl⟩,
      .tokens different rfl ?_ ?_ ?_⟩
    · have enough : amount.toNat ≤ source.amount.toNat := Checked.le_iff.mp funds
      have left : (source.amount - amount).toNat = source.amount.toNat - amount.toNat :=
        UInt64.toNat_sub_of_le _ _ funds
      simp only [World.balance, Function.update_of_ne different, Function.update_self, found,
        Option.map_some, Option.getD_some, left]
      omega
    · simp only [World.balance, Function.update_self, present, Option.map_some, Option.getD_some,
        Checked.addU64_eq_some.mp sum]
    · intro address source_ne destination_ne
      simp only [Function.update_of_ne destination_ne, Function.update_of_ne source_ne]

theorem transferChecked_funds {P : Platform} {w w' : World} {accounts : TransferAccounts}
    {amount : UInt64} {decimals : UInt8} {source : TokenAccount}
    (found : w.tokenAccount accounts.source = some source)
    (h : transferChecked P w accounts amount decimals = .ok w') : amount ≤ source.amount := by
  simp only [transferChecked, orHost, found, orError_some, ok_bind, orError_bind_eq_ok,
    require_bind_eq_ok] at h
  obtain ⟨destination, _, funds, _⟩ := h
  exact funds

theorem transferChecked_of {P : Platform} {w : World} {accounts : TransferAccounts}
    {amount received : UInt64} {source destination : TokenAccount} {mint : Mint}
    (found : w.tokenAccount accounts.source = some source)
    (present : w.tokenAccount accounts.destination = some destination)
    (funds : amount ≤ source.amount) (sourceMint : source.mint = accounts.mint)
    (destinationMint : destination.mint = accounts.mint)
    (mintFound : w.mint accounts.mint = some mint) (transferable : mint.nonTransferable = false)
    (owner : source.owner = accounts.authority) (different : accounts.source ≠ accounts.destination)
    (fits : Checked.addU64 destination.amount amount = some received)
    (hooked : executeHook P w mint accounts amount = .ok ()) :
    ∃ w', transferChecked P w accounts amount mint.decimals = .ok w' := by
  simp only [transferChecked, orHost, found, present, mintFound, orError_some, ok_bind,
    require_bind_eq_ok, if_neg different, fits, hooked]
  exact ⟨_, funds, sourceMint.trans destinationMint.symm, sourceMint, transferable,
    trivial, owner, rfl⟩

structure Paid (w : World) (accounts : TransferAccounts) (merchant : Pubkey) (amount : UInt64)
    (w' : World) : Prop extends Transferred w accounts amount w' where
  source : ∃ account, w.tokenAccount accounts.source = some account ∧
    account.mint = accounts.mint ∧ account.owner = accounts.authority
  destination : ∃ account, w.tokenAccount accounts.destination = some account ∧
    account.mint = accounts.mint ∧ account.owner = merchant

theorem paid_of {P : Platform} {w w' : World} {accounts : TransferAccounts} {merchant : Pubkey}
    {amount : UInt64} {decimals : UInt8} {seeds : Seeds} {bump : UInt8} {u : Unit}
    (valid : validateToken2022TransferAccounts w accounts.source accounts.destination
      accounts.mint accounts.authority merchant = .ok u)
    (invoked : invokeTransferCheckedWithHook P w accounts amount decimals seeds bump = .ok w') :
    Paid w accounts merchant amount w' := by
  simp only [validateToken2022TransferAccounts, check, orVela, bind_eq_ok, orError_eq_ok,
    require_eq_ok, exists_const] at valid
  simp only [invokeTransferCheckedWithHook, bind_eq_ok, require_eq_ok, exists_const] at invoked
  obtain ⟨source, found, destination, present, source_mint, destination_mint, source_owner,
    destination_owner⟩ := valid
  exact ⟨transferChecked_eq_ok invoked.2, ⟨source, found, source_mint, source_owner⟩,
    ⟨destination, present, destination_mint, destination_owner⟩⟩

theorem Moved.creditsTo {w w' : World} {accounts : TransferAccounts} {amount : UInt64}
    (moved : Moved w accounts amount w') (key : Pubkey) : w'.creditsTo key = w.creditsTo key := by
  cases moved with
  | nothing same unchanged => rw [unchanged]
  | tokens different log paid received others => exact creditsTo_of_transfer key log

theorem Moved.transfersBy_of_ne {w w' : World} {accounts : TransferAccounts} {amount : UInt64}
    (moved : Moved w accounts amount w') {key : Pubkey} (different : key ≠ accounts.authority) :
    w'.transfersBy key = w.transfersBy key := by
  cases moved with
  | nothing same unchanged => rw [unchanged]
  | tokens apart log paid received others =>
    rw [transfersBy_of_transfer key log, if_neg (Ne.symm different)]

theorem Moved.transfersBy_self {w w' : World} {accounts : TransferAccounts} {amount : UInt64}
    (moved : Moved w accounts amount w') :
    w'.transfersBy accounts.authority = w.transfersBy accounts.authority ∧
        accounts.source = accounts.destination ∨
      w'.transfersBy accounts.authority = ⟨accounts.mint, accounts.source, accounts.destination,
        accounts.authority, amount⟩ :: w.transfersBy accounts.authority ∧
        accounts.source ≠ accounts.destination := by
  cases moved with
  | nothing same unchanged => exact .inl ⟨by rw [unchanged], same⟩
  | tokens different log paid received others =>
    exact .inr ⟨by rw [transfersBy_of_transfer _ log, if_pos rfl], different⟩

theorem createIdempotent_frame {P : Platform} {w w' : World} {owner mint : Pubkey}
    (h : createIdempotent P w owner mint = .ok w') : TokenOnly w w' ∧ w'.log = w.log := by
  simp only [createIdempotent] at h
  split at h
  · simp only [require_bind_eq_ok, pure_eq_ok] at h
    obtain ⟨_, _, rfl⟩ := h
    exact ⟨TokenOnly.refl w, rfl⟩
  · simp only [orHost, orError_bind_eq_ok, pure_eq_ok] at h
    obtain ⟨_, _, rfl⟩ := h
    exact ⟨⟨rfl, rfl, rfl, rfl, rfl, rfl, rfl, rfl, rfl, rfl, rfl, rfl, rfl, rfl, rfl⟩, rfl⟩

theorem mintTo_frame {w w' : World} {mint account authority : Pubkey} {amount : UInt64}
    (h : mintTo w mint account authority amount = .ok w') : TokenOnly w w' ∧ w'.log = w.log := by
  simp only [mintTo, orHost, orError_bind_eq_ok, require_bind_eq_ok, pure_eq_ok] at h
  obtain ⟨_, _, _, _, _, _, _, _, _, _, rfl⟩ := h
  exact ⟨⟨rfl, rfl, rfl, rfl, rfl, rfl, rfl, rfl, rfl, rfl, rfl, rfl, rfl, rfl, rfl⟩, rfl⟩

theorem burn_frame {w w' : World} {account mint authority : Pubkey} {amount : UInt64}
    (h : burn w account mint authority amount = .ok w') : TokenOnly w w' ∧ w'.log = w.log := by
  simp only [burn, orHost, orError_bind_eq_ok, require_bind_eq_ok, pure_eq_ok] at h
  obtain ⟨_, _, _, _, _, _, _, rfl⟩ := h
  exact ⟨⟨rfl, rfl, rfl, rfl, rfl, rfl, rfl, rfl, rfl, rfl, rfl, rfl, rfl, rfl, rfl⟩, rfl⟩

end VelaProtocol
