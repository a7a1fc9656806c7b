import VelaProtocol.Requests
import VelaProtocol.Resemblance

/-! Exactly when the steps that collect a flat payment are accepted, and what resembling worlds
make of them. -/
namespace VelaProtocol

open Guard

variable {P : Platform} {w w' w₁ : World}

structure RequestAccepted (P : Platform) (w : World) (ctx : RequestValidation)
    (loaded : LoadedMandateAccount) (plan : LoadedPlanAccount) (config : ProtocolConfig)
    (nonce : UInt64) (period : Int64 × Int64) : Prop where
  loads : loadValidMandate P w ctx.mandate = .ok loaded
  offered : loadPlanAccount P w ctx.plan = .ok plan
  planKey : ctx.plan = loaded.intoCurrent.plan
  flat : plan.billingType = .flat
  active : loaded.intoCurrent.status = .active
  amount : loaded.intoCurrent.amount = plan.mandateAmount
  pulls : loaded.intoCurrent.pullsExecuted < loaded.intoCurrent.maxPulls
  unexpired : 0 < loaded.intoCurrent.expiry → w.clock.unixTimestamp < loaded.intoCurrent.expiry
  due : loaded.intoCurrent.nextPaymentDue ≤ w.clock.unixTimestamp
  seed : ctx.nextPaymentDueSeed = loaded.intoCurrent.nextPaymentDue
  planActive : plan.status = .active
  length : ctx.ciphertext.length = 8
  configured : loadArciumConfig P w = .ok config
  next : Checked.addU64 loaded.intoCurrent.validationRequestNonce 1 = some nonce
  offset : ctx.requestedComputationOffset =
    deriveValidationComputationOffset P ctx.mandate loaded.intoCurrent.nextPaymentDue nonce
  cluster : ctx.accounts.clusterAccount = config.clusterPubkey
  accounts : ctx.accounts = canonicalQueueAccounts P config.clusterOffset.toUInt32
    ctx.requestedComputationOffset .validateMandate config.effectiveMxeProgramId
  window : mandateBillingPeriod loaded.intoCurrent = .ok period
  uncovered : ¬(w.approvalOrZeroed ctx.mandate).coversPeriod ctx.mandate period
    w.clock.unixTimestamp
  free : w.requestFree (.validation, ctx.mandate, ctx.nextPaymentDueSeed.toBitVec)

def World.withValidationRequest (P : Platform) (w : World) (ctx : RequestValidation)
    (loaded : LoadedMandateAccount) (nonce : UInt64) : World :=
  let request : OffsetInput :=
    ⟨(.validation, ctx.mandate, ctx.nextPaymentDueSeed.toBitVec), nonce⟩
  let started : World := { w with
    requestState := Function.update w.requestState request.key
      (some (pendingRequest P w.clock.unixTimestamp request)) }
  ((started.resetApproval P ctx.mandate).writeMandate ctx.mandate
    { loaded.intoCurrent with validationRequestNonce := nonce } loaded.isLegacy).queueComputation {
      mandate := ctx.mandate
      computationOffset := ctx.requestedComputationOffset
      circuit := .validateMandate
      args := .validateMandate ctx.pubKey ctx.nonce ctx.ciphertext }

theorem requestValidation_iff {ctx : RequestValidation} : requestValidation P w ctx = .ok w₁ ↔
    ∃ loaded plan config nonce period, RequestAccepted P w ctx loaded plan config nonce period ∧
      w₁ = w.withValidationRequest P ctx loaded nonce := by
  simp only [requestValidation, checkValidationRequest, requirePlanBillingType, check, orVela,
    bind_eq_ok, orError_eq_ok, require_eq_ok, pure_eq_ok, exists_const, validateQueueAccounts_eq_ok,
    startRequest_iff]
  constructor
  · rintro ⟨_, ⟨loaded, load, plan, offered, planKey, flat, active,
      amount, pulls, expiry, due, seed,
      planActive, length, rfl⟩, config, configured, nonce, next, offset, cluster, ⟨_, accounts⟩,
      period, window, uncovered, _, ⟨free, rfl⟩, rfl⟩
    refine ⟨loaded, plan, config, nonce, period, ⟨load, offered, planKey, flat, active, amount,
      pulls, expiry, due, seed, planActive, length, configured, next, offset, cluster,
      offset ▸ accounts, window, uncovered, free⟩, ?_⟩
    simp only [World.withValidationRequest, pendingRequest, OffsetInput.offset, seed, offset]
    rfl
  · rintro ⟨loaded, plan, config, nonce, period, a, rfl⟩
    obtain ⟨small, _⟩ := loadArciumConfig_eq_ok a.configured
    refine ⟨loaded, ⟨loaded, a.loads, plan, a.offered, a.planKey, a.flat, a.active,
      a.amount, a.pulls,
      a.unexpired, a.due, a.seed, a.planActive, a.length, rfl⟩, config, a.configured, nonce, a.next,
      a.offset, a.cluster, ⟨small, a.offset ▸ a.accounts⟩, period, a.window, a.uncovered, _,
      ⟨a.free, rfl⟩, ?_⟩
    simp only [World.withValidationRequest, pendingRequest, OffsetInput.offset, a.seed, a.offset]
    rfl

theorem RequestAccepted.resembles {ctx : RequestValidation} {loaded other : LoadedMandateAccount}
    {plan plan' : LoadedPlanAccount} {config : ProtocolConfig} {nonce : UInt64}
    {period : Int64 × Int64} (a : RequestAccepted P w ctx loaded plan config nonce period)
    (alike : Resembles w w') (loads : loadValidMandate P w' ctx.mandate = .ok other)
    (same : loaded.Resembles other) (offered : loadPlanAccount P w' ctx.plan = .ok plan')
    (offer : plan.SameOffer plan') (amount : loaded.intoCurrent.amount = plan'.mandateAmount) :
    RequestAccepted P w' ctx other plan' config nonce period := by
  have flat := offer.billingType.trans a.flat
  have planActive := offer.status.trans a.planActive
  obtain ⟨plans, mandates, log, rfl⟩ := alike.form
  cases same with
  | current mandate other apart =>
    obtain ⟨_, _, _, _, _, rfl⟩ := apart
    exact ⟨loads, offered, a.planKey, flat, a.active, amount, a.pulls, a.unexpired, a.due, a.seed,
      planActive, a.length, a.configured, a.next, a.offset, a.cluster, a.accounts, a.window,
      a.uncovered, a.free⟩
  | legacy mandate =>
    exact ⟨loads, offered, a.planKey, flat, a.active, amount, a.pulls, a.unexpired, a.due, a.seed,
      planActive, a.length, a.configured, a.next, a.offset, a.cluster, a.accounts, a.window,
      a.uncovered, a.free⟩

theorem World.withValidationRequest_resembles {ctx : RequestValidation}
    {loaded other : LoadedMandateAccount} (alike : Resembles w w') (same : loaded.Resembles other)
    (nonce : UInt64) : Resembles (w.withValidationRequest P ctx loaded nonce)
      (w'.withValidationRequest P ctx other nonce) := by
  have apart : { loaded.intoCurrent with validationRequestNonce := nonce }.PendingApart
      { other.intoCurrent with validationRequestNonce := nonce } := by
    obtain ⟨_, _, _, _, _, form⟩ := same.apart
    rw [form]
    exact ⟨_, _, _, _, _, rfl⟩
  have written : Resembles (w.writeMandate ctx.mandate _ loaded.isLegacy)
    (w'.writeMandate ctx.mandate _ loaded.isLegacy) := alike.writeMandate apart loaded.isLegacy
  rw [← same.isLegacy] at written
  obtain ⟨plans, mandates, log, rfl⟩ := alike.form
  refine written.congr rfl rfl rfl ?_ rfl
  rw [same.isLegacy]
  rfl

theorem requestValidation_resembles {ctx : RequestValidation} (alike : Resembles w w')
    (h : requestValidation P w ctx = .ok w₁)
    (priced : ∀ mandate plan, w.currentMandate ctx.mandate = some mandate →
      loadPlanAccount P w' ctx.plan = .ok plan → mandate.amount = plan.mandateAmount) :
    ∃ w₁', requestValidation P w' ctx = .ok w₁' ∧ Resembles w₁ w₁' ∧
      (w'.mandate = w.mandate → w₁'.mandate = w₁.mandate) := by
  obtain ⟨loaded, plan, config, nonce, period, accepted, rfl⟩ := requestValidation_iff.mp h
  obtain ⟨other, loads, same⟩ := alike.loadMandate accepted.loads
  obtain ⟨plan', offered, offer⟩ := alike.loadPlan accepted.offered
  have amount := priced _ plan' (loadValidMandate_currentMandate accepted.loads) offered
  refine ⟨_, requestValidation_iff.mpr ⟨other, plan', config, nonce, period,
    accepted.resembles alike loads same offered offer amount, rfl⟩,
    World.withValidationRequest_resembles alike same nonce, fun mandates => ?_⟩
  have congruent : other = loaded :=
    Except.ok.inj (loads.symm.trans ((loadValidMandate_congr mandates).trans accepted.loads))
  subst congruent
  simp only [World.withValidationRequest, World.queueComputation, World.emit, World.writeMandate,
    World.resetApproval, mandates]

structure AnswerAccepted (P : Platform) (w : World) (ctx : ValidateMandateCallback)
    (mandate : VelaMandate) (config : ProtocolConfig) (request : ArciumRequestState)
    (result : Bool) (period : Int64 × Int64) (validUntil : Int64) : Prop where
  anchored : anchorVelaMandate w ctx.mandate = .ok mandate
  approval : ∃ approval, w.pullApproval ctx.mandate = some approval
  configured : loadArciumConfig P w = .ok config
  static : validateStaticCallbackAccounts P ctx.accounts .validateMandate
    config.effectiveMxeProgramId = .ok ()
  bound : validateCallback P w config ctx.accounts (validationKey ctx.mandate mandate) = .ok request
  output : ctx.output = some result
  active : mandate.status = .active
  flat : mandate.billingType = .flat
  window : mandateBillingPeriod mandate = .ok period
  lifetime : Checked.addI64 w.clock.unixTimestamp pullApprovalTtlSeconds = some validUntil

def World.withAnswer (P : Platform) (w : World) (ctx : ValidateMandateCallback)
    (mandate : VelaMandate) (request : ArciumRequestState) (result : Bool)
    (period : Int64 × Int64) (validUntil : Int64) : World :=
  let answered : World := { w with
    pullApproval := Function.update w.pullApproval ctx.mandate (some {
      mandate := ctx.mandate
      periodStart := period.1
      periodEnd := period.2
      validUntil := validUntil
      approved := result
      approvedAmount := mandate.amount
      createdAt := w.clock.unixTimestamp
      bump := (P.findProgramAddress (.approval ctx.mandate)).2 })
    requestState := Function.update w.requestState (validationKey ctx.mandate mandate)
      (some { request with status := .completed, completedAt := w.clock.unixTimestamp }) }
  answered.emit (.validationComplete {
    mandate := ctx.mandate
    approved := result
    timestamp := w.clock.unixTimestamp })

theorem validateMandateCallback_iff {ctx : ValidateMandateCallback} :
    validateMandateCallback P w ctx = .ok w₁ ↔ ∃ mandate config request result period validUntil,
      AnswerAccepted P w ctx mandate config request result period validUntil ∧
        w₁ = w.withAnswer P ctx mandate request result period validUntil := by
  simp only [validateMandateCallback, grantApproval, World.completeRequest, check, orVela, orHost,
    bind_eq_ok, orError_eq_ok, require_eq_ok, pure_eq_ok, exists_const,
    completeArciumRequest_eq_ok]
  constructor
  · rintro ⟨mandate, anchored, approval, present, config, configured, _, static, request, bound,
      result, output, active, flat, period, window, _, ⟨validUntil, lifetime, rfl⟩, _,
      ⟨_, ⟨_, rfl⟩, rfl⟩, rfl⟩
    exact ⟨mandate, config, request, result, period, validUntil, ⟨anchored, ⟨approval, present⟩,
      configured, static, bound, output, active, flat, window, lifetime⟩, rfl⟩
  · rintro ⟨mandate, config, request, result, period, validUntil, a, rfl⟩
    obtain ⟨approval, present⟩ := a.approval
    obtain ⟨_, _, _, _, pending⟩ := validateCallback_eq_ok a.bound
    exact ⟨mandate, a.anchored, approval, present, config, a.configured, (), a.static, request,
      a.bound, result, a.output, a.active, a.flat, period, a.window, _,
      ⟨validUntil, a.lifetime, rfl⟩, _, ⟨_, ⟨pending, rfl⟩, rfl⟩, rfl⟩

theorem validateMandateCallback_resembles {ctx : ValidateMandateCallback} (alike : Resembles w w')
    (h : validateMandateCallback P w ctx = .ok w₁) :
    ∃ w₁', validateMandateCallback P w' ctx = .ok w₁' ∧ Resembles w₁ w₁' ∧
      (w'.mandate = w.mandate → w₁'.mandate = w₁.mandate) := by
  obtain ⟨mandate, config, request, result, period, validUntil, a, rfl⟩ :=
    validateMandateCallback_iff.mp h
  obtain ⟨other, anchored, apart⟩ := alike.anchorMandate a.anchored
  have form := alike.form
  obtain ⟨_, _, _, _, _, rfl⟩ := apart
  obtain ⟨plans, mandates, log, rfl⟩ := form
  refine ⟨_, validateMandateCallback_iff.mpr ⟨_, config, request, result, period, validUntil,
    ⟨anchored, a.approval, a.configured, a.static, a.bound, a.output, a.active, a.flat, a.window,
      a.lifetime⟩, rfl⟩, alike.congr rfl rfl rfl rfl rfl, id⟩

section

variable {amount amount' : UInt64} {u : Unit}

theorem hookStream_le {stream : StreamMandate} (le : amount' ≤ amount)
    (h : hookStream w stream amount = .ok u) : hookStream w stream amount' = .ok () := by
  have le := Checked.le_iff.mp le
  simp only [hookStream, check, orVela, bind_eq_ok, orError_eq_ok, require_eq_ok,
    exists_const] at h ⊢
  obtain ⟨active, elapsed, past, forward, interval, rate, cap⟩ := h
  refine ⟨active, elapsed, past, forward, interval, by omega, ?_⟩
  cases limited : stream.maxStreamed with
  | none => rfl
  | some limit =>
    simp only [limited, require_eq_ok] at cap ⊢
    omega

theorem hookApproval_le {authority : Pubkey} {period : Option (Int64 × Int64)}
    (le : amount' ≤ amount) (h : hookApproval w authority period amount = .ok u) :
    hookApproval w authority period amount' = .ok () := by
  simp only [hookApproval, check, orVela, bind_eq_ok, orError_eq_ok, require_eq_ok,
    exists_const] at h ⊢
  obtain ⟨approval, found, own, approved, fresh, covers, bound⟩ := h
  exact ⟨approval, found, own, approved, fresh, covers, UInt64.le_trans le bound⟩

theorem hookAuthority_resembles {authority : Pubkey} (alike : Resembles w w')
    (le : amount' ≤ amount) (h : hookAuthority w authority amount = .ok u) :
    hookAuthority w' authority amount' = .ok () := by
  have stored := alike.mandates authority
  have streams : w'.stream authority = w.stream authority := by
    obtain ⟨plans, mandates, log, rfl⟩ := alike.form
    rfl
  have approvals : ∀ period, hookApproval w' authority period =
      hookApproval w authority period := by
    obtain ⟨plans, mandates, log, rfl⟩ := alike.form
    exact fun _ => rfl
  have clocks : ∀ stream, hookStream w' stream = hookStream w stream := by
    obtain ⟨plans, mandates, log, rfl⟩ := alike.form
    exact fun _ => rfl
  unfold hookAuthority at h ⊢
  rw [streams]
  cases streaming : w.stream authority with
  | some stream =>
    simp only [streaming, clocks] at h ⊢
    exact hookStream_le le h
  | none =>
    simp only [streaming, approvals] at h ⊢
    cases found : w.mandate authority with
    | none =>
      rw [found] at stored
      simp only [found] at h
      generalize w'.mandate authority = other at stored
      cases stored
      exact hookApproval_le le h
    | some account =>
      obtain ⟨other, found', _⟩ := rel_some stored found
      simp only [found, found', orVela, bind_eq_ok, orError_eq_ok, toOption_eq_some] at h ⊢
      obtain ⟨mandate, anchored, period, window, approved⟩ := h
      obtain ⟨other, anchored', _, _, _, _, _, rfl⟩ := alike.anchorMandate anchored
      exact ⟨_, anchored', period, window, hookApproval_le le approved⟩

theorem protocolOwned_resembles (alike : Resembles w w') (address : Pubkey) :
    w'.protocolOwned address = w.protocolOwned address := by
  have plans := rel_isSome (alike.plans address)
  have mandates := rel_isSome (alike.mandates address)
  have streams : w'.stream address = w.stream address ∧
      w'.agentMandate address = w.agentMandate address := by
    obtain ⟨plans, mandates, log, rfl⟩ := alike.form
    exact ⟨rfl, rfl⟩
  rw [World.protocolOwned, World.protocolOwned, plans, mandates, streams.1, streams.2]

theorem handlerTransferHook_resembles {mint source destination authority vault : Pubkey}
    (alike : Resembles w w') (le : amount' ≤ amount)
    (h : handlerTransferHook w mint source destination authority vault amount = .ok u) :
    handlerTransferHook w' mint source destination authority vault amount' = .ok () := by
  have owned := protocolOwned_resembles alike authority
  have authorised : ∀ u, hookAuthority w authority amount = .ok u →
      hookAuthority w' authority amount' = .ok () := fun _ => hookAuthority_resembles alike le
  obtain ⟨plans, mandates, log, form⟩ := alike.form
  have configs : w'.protocolConfig = w.protocolConfig := by rw [form]
  have tokens : w'.tokenAccount = w.tokenAccount := by rw [form]
  have registry : w'.tokenConfig = w.tokenConfig := by rw [form]
  unfold handlerTransferHook at h ⊢
  rw [owned, configs, tokens, registry]
  generalize w.protocolConfig = config at h ⊢
  rcases config with _ | config | config
  · cases h
  · cases h
  · simp only [check, orVela, orHost, bind_eq_ok, orError_eq_ok, require_eq_ok, pure_eq_ok,
      exists_const] at h ⊢
    obtain ⟨config, rfl, program, tokenConfig, registered, mint_eq, enabled, rail,
      sourceToken, paid,
      destinationToken, received, source_mint, destination_mint, owner, vault_eq, verdict⟩ := h
    refine ⟨config, rfl, program, tokenConfig, registered, mint_eq, enabled, rail,
      sourceToken, paid,
      destinationToken, received, source_mint, destination_mint, owner, vault_eq, ?_⟩
    split at verdict
    · rename_i passes
      rw [if_pos passes]
      rfl
    · rename_i bills
      rw [if_neg bills]
      split at verdict
      · rename_i own
        rw [if_pos own]
        exact authorised _ verdict
      · rename_i foreign
        rw [if_neg foreign]
        rfl

theorem executeHook_resembles {mint : Mint} {accounts : TransferAccounts} (alike : Resembles w w')
    (le : amount' ≤ amount) (h : executeHook P w mint accounts amount = .ok u) :
    executeHook P w' mint accounts amount' = .ok () := by
  unfold executeHook at h ⊢
  cases hooked : mint.transferHookProgramId with
  | none => rfl
  | some program =>
    simp only [hooked, require_bind_eq_ok] at h ⊢
    obtain ⟨named, verdict⟩ := h
    refine ⟨named, ?_⟩
    split at verdict
    · rename_i own
      rw [if_pos own]
      exact handlerTransferHook_resembles alike le verdict
    · rename_i foreign
      rw [if_neg foreign]
      exact verdict

theorem transferChecked_resembles {accounts : TransferAccounts} {decimals : UInt8}
    (alike : Resembles w w') (le : amount' ≤ amount)
    (h : transferChecked P w accounts amount decimals = .ok w₁) :
    ∃ w₁', transferChecked P w' accounts amount' decimals = .ok w₁' ∧
      (amount' = amount → Resembles w₁ w₁') := by
  have hooked : ∀ mint u, executeHook P w mint accounts amount = .ok u →
      executeHook P w' mint accounts amount' = .ok () := fun _ _ => executeHook_resembles alike le
  obtain ⟨plans, mandates, log, form⟩ := alike.form
  have tokens : w'.tokenAccount = w.tokenAccount := by rw [form]
  have mints : w'.mint = w.mint := by rw [form]
  simp only [transferChecked, orHost, orError_bind_eq_ok, require_bind_eq_ok] at h ⊢
  rw [tokens, mints]
  obtain ⟨source, found, destination, present, funds, pair, own, mint, minted, transferable, exact,
    owner, h⟩ := h
  have funds' := UInt64.le_trans le funds
  by_cases same : accounts.source = accounts.destination
  · simp only [if_pos same, pure_eq_ok] at h ⊢
    subst h
    exact ⟨w', ⟨source, found, destination, present, funds', pair, own, mint, minted, transferable,
      exact, owner, rfl⟩, fun _ => alike⟩
  · simp only [if_neg same, bind_eq_ok, orError_eq_ok, pure_eq_ok] at h ⊢
    obtain ⟨received, sum, u, verdict, rfl⟩ := h
    have bound := Checked.toNat_lt received
    have total := Checked.addU64_eq_some.mp sum
    have le_nat := Checked.le_iff.mp le
    have sum' : Checked.addU64 destination.amount amount' = some (destination.amount + amount') :=
      if_pos (by omega)
    refine ⟨_, ⟨source, found, destination, present, funds', pair, own, mint, minted, transferable,
      exact, owner, _, sum', (), hooked mint u verdict, rfl⟩, ?_⟩
    rintro rfl
    obtain rfl := Option.some.inj (sum.symm.trans sum')
    subst form
    exact alike.congr rfl rfl rfl rfl rfl

theorem invokeBillingTransfer_resembles {ctx : ExecutePull} {mandate : VelaMandate}
    (ctx' : ExecutePull) (other : VelaMandate)
    {legacyLayout : Bool} {tokenConfig : TokenConfig} (alike : Resembles w w')
    (le : amount' ≤ amount) (accounts : ctx'.transferAccounts = ctx.transferAccounts)
    (merchant : other.merchant = mandate.merchant) (bump : other.bump = mandate.bump)
    (seeds : billingSeeds other legacyLayout = billingSeeds mandate legacyLayout)
    (h : invokeBillingTransfer P w ctx mandate legacyLayout tokenConfig amount = .ok w₁) :
    ∃ w₁', invokeBillingTransfer P w' ctx' other legacyLayout tokenConfig amount' = .ok w₁' ∧
      (amount' = amount → Resembles w₁ w₁') := by
  unfold invokeBillingTransfer at h ⊢
  by_cases positive : 0 < amount'
  · have positive₀ : 0 < amount := UInt64.lt_of_lt_of_le positive le
    simp only [if_pos positive, if_pos positive₀, invokeTransferCheckedWithHook, bind_eq_ok,
      require_eq_ok, exists_const] at h ⊢
    obtain ⟨u, valid, signed, moved⟩ := h
    obtain ⟨w₁', moved', kept⟩ := transferChecked_resembles alike le moved
    simp only [ExecutePull.transferAccounts, TransferAccounts.mk.injEq] at accounts
    obtain ⟨source, mint, destination, authority, vault, hook⟩ := accounts
    have valid' : validateToken2022TransferAccounts w' ctx.subscriberWrappedAccount
        ctx.merchantWrappedAccount ctx.wrappedUsdcMint ctx.mandate mandate.merchant = .ok u := by
      obtain ⟨plans, mandates, log, rfl⟩ := alike.form
      exact valid
    rw [source, mint, destination, authority, vault, hook, merchant, bump, seeds]
    exact ⟨w₁', ⟨u, valid', signed, moved'⟩, kept⟩
  · refine ⟨w', by rw [if_neg positive]; rfl, ?_⟩
    rintro rfl
    rw [if_neg positive, pure_eq_ok] at h
    exact h ▸ alike

end

structure Pull.Resembles (pull other : Pull) : Prop where
  config : other.config = pull.config
  plan : pull.plan.SameOffer other.plan
  loaded : pull.loaded.Resembles other.loaded
  tokenConfig : other.tokenConfig = pull.tokenConfig
  period : other.period = pull.period

theorem checkBillingMint_sameOffer {config : LoadedProtocolConfig} {plan other : LoadedPlanAccount}
    (same : plan.SameOffer other) (mint : Pubkey) :
    checkBillingMint config other mint = checkBillingMint config plan mint := by
  simp only [checkBillingMint, same.billingMint]

theorem checkPull_resembles {ctx : ExecutePull} {pull : Pull} (alike : Resembles w w')
    (h : checkPull P w ctx = .ok pull) :
    ∃ other, checkPull P w' ctx = .ok other ∧ pull.Resembles other := by
  simp only [checkPull, loadPull, anchorTokenConfig, requirePlanBillingType, check, orHost,
    bind_eq_ok, orError_eq_ok, require_eq_ok, pure_eq_ok, exists_const] at h ⊢
  obtain ⟨_, ⟨tokenConfig, registry, keeper, loadKeeper, config, loadConfig, unpaused, hooked, hook,
    vault, plan, loadPlan, loaded, load, payer, billingType, planActive, u, mint, enabled,
    registered, rfl⟩, active, planKey, planMerchant, subscriber, merchant, recorded, unexpired,
    pulls, due, period, window, rfl⟩ := h
  obtain ⟨other, load', same⟩ := alike.loadMandate load
  obtain ⟨plan', loadPlan', offer⟩ := alike.loadPlan loadPlan
  have billingType' := offer.billingType.trans billingType
  have planActive' := offer.status.trans planActive
  have planMerchant' := offer.merchant.trans planMerchant
  have mint' := (checkBillingMint_sameOffer offer ctx.wrappedUsdcMint).trans mint
  have resembles : Pull.Resembles ⟨config, plan, loaded, tokenConfig, period⟩
    ⟨config, plan', other, tokenConfig, period⟩ := ⟨rfl, offer, same, rfl, rfl⟩
  obtain ⟨plans, mandates, log, rfl⟩ := alike.form
  cases same with
  | current mandate other apart =>
    obtain ⟨_, _, _, _, _, rfl⟩ := apart
    exact ⟨_, ⟨_, ⟨tokenConfig, registry, keeper, loadKeeper, config, loadConfig, unpaused, hooked,
      hook, vault, plan', loadPlan', _, load', payer, billingType', planActive', u, mint', enabled,
      registered, rfl⟩, active, planKey, planMerchant', subscriber, merchant, recorded, unexpired,
      pulls, due, period, window, rfl⟩, resembles⟩
  | legacy mandate =>
    exact ⟨_, ⟨_, ⟨tokenConfig, registry, keeper, loadKeeper, config, loadConfig, unpaused, hooked,
      hook, vault, plan', loadPlan', _, load', payer, billingType', planActive', u, mint', enabled,
      registered, rfl⟩, active, planKey, planMerchant', subscriber, merchant, recorded, unexpired,
      pulls, due, period, window, rfl⟩, resembles⟩

theorem applyPending_undue {ctx : ExecutePull} {mandate : VelaMandate} {plan : LoadedPlanAccount}
    {usageReport : Option Pubkey} (undue : ¬mandate.changeDue w.clock.unixTimestamp) :
    applyPending P w ctx mandate plan usageReport = .ok ⟨mandate, plan, none⟩ := by
  rw [applyPending, if_neg undue]
  rfl

def World.undue (w : World) (k : Pubkey) : Prop :=
  ∀ mandate, w.currentMandate k = some mandate → ¬mandate.changeDue w.clock.unixTimestamp

theorem usageReportInfo_apart {ctx : ExecutePull} {mandate other : VelaMandate}
    (apart : mandate.PendingApart other) :
    usageReportInfo ctx other = usageReportInfo ctx mandate := by
  obtain ⟨_, _, _, _, _, rfl⟩ := apart
  rfl

theorem baseChargeAmount_resembles {pull other : Pull} (same : pull.Resembles other)
    (approval : PullApproval) : baseChargeAmount ⟨other.mandate, other.plan, none⟩ approval =
      baseChargeAmount ⟨pull.mandate, pull.plan, none⟩ approval := by
  obtain ⟨_, _, _, _, _, form⟩ := same.loaded.apart
  have amount : other.mandate.amount = pull.mandate.amount := by
    rw [Pull.mandate, form]
    rfl
  simp only [baseChargeAmount, same.plan.billingType, amount]

theorem prepareSettlement_resembles {ctx : ExecutePull} {s : Settlement} (alike : Resembles w w')
    (undue : w.undue ctx.mandate) (undue' : w'.undue ctx.mandate)
    (h : prepareSettlement P w ctx = .ok s) : s.terms = ⟨s.pull.mandate, s.pull.plan, none⟩ ∧
      ∃ pull, s.pull.Resembles pull ∧ w'.currentMandate ctx.mandate = some pull.mandate ∧
        prepareSettlement P w' ctx =
          .ok ⟨pull, s.usageReport, ⟨pull.mandate, pull.plan, none⟩, s.approval, s.base⟩ := by
  simp only [prepareSettlement, bind_eq_ok, pure_eq_ok] at h
  obtain ⟨pull, checked, report, named, terms, applied, approval, approved, u, valid, base, charge,
    rfl⟩ := h
  obtain ⟨other, checked', same⟩ := checkPull_resembles alike checked
  have found' := (checkPull_eq_ok checked').found
  rw [applyPending_undue (undue _ (checkPull_eq_ok checked).found)] at applied
  obtain rfl := Except.ok.inj applied
  have merchant : other.mandate.merchant = pull.mandate.merchant := by
    obtain ⟨_, _, _, _, _, form⟩ := same.loaded.apart
    rw [Pull.mandate, form]
    rfl
  refine ⟨rfl, other, same, found', ?_⟩
  simp only [prepareSettlement, bind_eq_ok, pure_eq_ok]
  refine ⟨other, checked', report, (usageReportInfo_apart same.loaded.apart).trans named, _,
    applyPending_undue (undue' _ found'), approval, ?_, u, ?_, base,
    (baseChargeAmount_resembles same approval).trans charge, rfl⟩
  · rw [same.period]
    obtain ⟨_, _, _, rfl⟩ := alike.form
    exact approved
  · rw [same.period, merchant]
    obtain ⟨_, _, _, rfl⟩ := alike.form
    exact valid

theorem advance_apart {mandate other after : VelaMandate} {base : UInt64} {now : Int64}
    (apart : mandate.PendingApart other) (h : (mandate.spendCredit base).advance now = .ok after) :
    ∃ after', (other.spendCredit base).advance now = .ok after' ∧ after.PendingApart after' := by
  obtain ⟨_, _, _, _, _, rfl⟩ := apart
  simp only [VelaMandate.advance, orVela, bind_eq_ok, orError_eq_ok, pure_eq_ok] at h ⊢
  obtain ⟨frequency, value, pulls, counted, due, later, rfl⟩ := h
  exact ⟨_, ⟨frequency, value, pulls, counted, due, later, rfl⟩, ⟨_, _, _, _, _, rfl⟩⟩

theorem finishPull_resembles {key : Pubkey} {mandate other : VelaMandate} {legacyLayout : Bool}
    {start : Int64} {report : Option Pubkey} (alike : Resembles w w')
    (apart : mandate.PendingApart other) :
    Resembles
      (((w.writeMandate key mandate legacyLayout).markUsageReportSettled key start
        report).closeApproval key)
      (((w'.writeMandate key other legacyLayout).markUsageReportSettled key start
        report).closeApproval key) := by
  have written : Resembles (w.writeMandate key mandate legacyLayout)
    (w'.writeMandate key other legacyLayout) := alike.writeMandate apart _
  obtain ⟨_, _, _, rfl⟩ := alike.form
  cases report with
  | none => exact written.congr rfl rfl rfl rfl rfl
  | some info => exact written.congr rfl rfl rfl rfl rfl

theorem finishPull_mandate {key : Pubkey} {mandate : VelaMandate} {legacyLayout : Bool}
    {start : Int64} {report : Option Pubkey} (mandates : w'.mandate = w.mandate) :
    (((w'.writeMandate key mandate legacyLayout).markUsageReportSettled key start
        report).closeApproval key).mandate =
      (((w.writeMandate key mandate legacyLayout).markUsageReportSettled key start
        report).closeApproval key).mandate := by
  have stored : (w'.writeMandate key mandate legacyLayout).mandate =
      (w.writeMandate key mandate legacyLayout).mandate := by
    simp only [World.writeMandate, mandates]
  cases report <;> exact stored

theorem executePull_resembles {ctx : ExecutePull} (alike : Resembles w w')
    (undue : w.undue ctx.mandate) (undue' : w'.undue ctx.mandate)
    (h : executePull P w ctx = .ok w₁) :
    ∃ w₁', executePull P w' ctx = .ok w₁' ∧ Resembles w₁ w₁' ∧
      (w'.mandate = w.mandate → w₁'.mandate = w₁.mandate) := by
  simp only [executePull, bind_eq_ok, pure_eq_ok] at h
  obtain ⟨s, prepared, w₂, transferred, after, advanced, rfl⟩ := h
  obtain ⟨terms, pull, same, found', prepared'⟩ :=
    prepareSettlement_resembles alike undue undue' prepared
  have found := (prepareSettlement_eq_ok prepared).pull.found
  have apart : s.pull.mandate.PendingApart pull.mandate := same.loaded.apart
  have charge : s.chargeAmount = chargeAfterCredit s.base s.pull.mandate.creditBalance := by
    rw [Settlement.chargeAmount, terms]
  have charge' : chargeAfterCredit s.base pull.mandate.creditBalance =
      chargeAfterCredit s.base s.pull.mandate.creditBalance := by
    obtain ⟨_, _, _, _, _, form⟩ := apart
    rw [form]
  rw [charge, terms] at transferred
  rw [terms] at advanced
  have sent := invokeBillingTransfer_resembles ctx pull.mandate alike
    (UInt64.le_refl _) rfl ?_ ?_ ?_ transferred
  rotate_left
  · obtain ⟨_, _, _, _, _, form⟩ := apart
    rw [form]
  · obtain ⟨_, _, _, _, _, form⟩ := apart
    rw [form]
  · obtain ⟨_, _, _, _, _, form⟩ := apart
    rw [form]
    rfl
  obtain ⟨w₂', transferred', kept⟩ := sent
  have paid := (invokeBillingTransfer_eq_ok transferred).tokenOnly
  have paid' := (invokeBillingTransfer_eq_ok transferred').tokenOnly
  obtain ⟨after', advanced', apart'⟩ := advance_apart apart advanced
  have clock : w₂'.clock = w₂.clock := by
    obtain ⟨_, _, _, form⟩ := (kept rfl).form
    rw [form]
  rw [terms]
  simp only [executePull, bind_eq_ok, pure_eq_ok]
  refine ⟨_, ⟨_, prepared', w₂', ?_, after', ?_, rfl⟩, ?_, fun mandates => ?_⟩
  · rw [same.loaded.isLegacy, same.tokenConfig, Settlement.chargeAmount, charge']
    exact transferred'
  · rw [clock]
    exact advanced'
  · rw [same.loaded.isLegacy, same.period]
    exact finishPull_resembles (kept rfl) apart'
  · rw [currentMandate_congr mandates] at found'
    have own : pull.mandate = s.pull.mandate := Option.some.inj (found'.symm.trans found)
    rw [own, advanced] at advanced'
    obtain rfl := Except.ok.inj advanced'
    rw [same.loaded.isLegacy, same.period]
    exact finishPull_mandate (paid'.mandate.trans (mandates.trans paid.mandate.symm))

section

variable {k : Pubkey}

/-- What the circuit should be told: the mandate and its plan as they are, and the balance of the
account that pays. -/
def truthfulInput (w : World) (mandate : VelaMandate) (plan : LoadedPlanAccount)
    (subscriberAccount : Pubkey) : MandateValidationInput where
  mandateAmount := mandate.amount
  planAmount := plan.mandateAmount
  subscriberBalance := ((w.tokenAccount subscriberAccount).map TokenAccount.amount).getD 0
  currentTimestamp := w.clock.unixTimestamp
  nextPaymentDue := mandate.nextPaymentDue
  expiry := mandate.expiry
  pullsExecuted := mandate.pullsExecuted
  maxPulls := mandate.maxPulls

/-- A request, its truthful answer and a pull, each accepted. -/
structure Collects (P : Platform) (w : World) (k : Pubkey) (request : RequestValidation)
    (answer : ValidateMandateCallback) (pull : ExecutePull) (w₁ w₂ w₃ : World) : Prop where
  mandates : request.mandate = k ∧ answer.mandate = k ∧ pull.mandate = k
  requested : requestValidation P w request = .ok w₁
  truthful : ∃ mandate plan, w.currentMandate k = some mandate ∧
    loadPlanAccount P w mandate.plan = .ok plan ∧ answer.output =
      some (validateMandate (truthfulInput w mandate plan pull.subscriberWrappedAccount))
  answered : validateMandateCallback P w₁ answer = .ok w₂
  pulled : executePull P w₂ pull = .ok w₃

theorem Collects.onPlan {request : RequestValidation} {answer : ValidateMandateCallback}
    {pull : ExecutePull} {w₂ w₃ : World} {mandate : VelaMandate}
    (collects : Collects P w k request answer pull w₁ w₂ w₃)
    (found : w.currentMandate k = some mandate) : request.plan = mandate.plan := by
  obtain ⟨own, _, _⟩ := collects.mandates
  obtain ⟨loaded, _, _, _, _, accepted, _⟩ := requestValidation_iff.mp collects.requested
  have found' := loadValidMandate_currentMandate accepted.loads
  rw [own] at found'
  obtain rfl := Option.some.inj (found'.symm.trans found)
  exact accepted.planKey

/-- The payment can be collected at the mandate's own amount. -/
def Collectable (P : Platform) (w : World) (k : Pubkey) : Prop :=
  ∃ mandate request answer pull w₁ w₂ w₃ s, w.currentMandate k = some mandate ∧
    Collects P w k request answer pull w₁ w₂ w₃ ∧ w₂.undue k ∧
      prepareSettlement P w₂ pull = .ok s ∧ s.base = mandate.amount

theorem requestValidation_priced {ctx : RequestValidation} (mandates : w'.mandate = w.mandate)
    (h : requestValidation P w' ctx = .ok w₁) (mandate : VelaMandate) (plan : LoadedPlanAccount)
    (found : w.currentMandate ctx.mandate = some mandate)
    (offered : loadPlanAccount P w' ctx.plan = .ok plan) : mandate.amount = plan.mandateAmount := by
  obtain ⟨loaded, _, _, _, _, accepted, _⟩ := requestValidation_iff.mp h
  have found' := loadValidMandate_currentMandate accepted.loads
  rw [currentMandate_congr mandates] at found'
  obtain rfl := Option.some.inj (found'.symm.trans found)
  obtain rfl := Except.ok.inj (accepted.offered.symm.trans offered)
  exact accepted.amount

theorem truthfulInput_congr {mandate : VelaMandate} {plan other : LoadedPlanAccount}
    (alike : Resembles w w') (amount : other.mandateAmount = plan.mandateAmount)
    (account : Pubkey) :
    truthfulInput w' mandate other account = truthfulInput w mandate plan account := by
  obtain ⟨_, _, _, form⟩ := alike.form
  rw [truthfulInput, truthfulInput, amount, form]

theorem undue_congr (clock : w'.clock = w.clock) (mandates : w'.mandate = w.mandate)
    (undue : w.undue k) : w'.undue k := by
  intro mandate found
  rw [currentMandate_congr mandates] at found
  rw [clock]
  exact undue mandate found

structure Approvable (w w₂ : World) (k : Pubkey) (mandate : VelaMandate) : Prop where
  found : ∃ nonce, w₂.currentMandate k = some { mandate with validationRequestNonce := nonce }
  flat : mandate.billingType = .flat
  approval : ∃ approval, w₂.pullApproval k = some approval ∧
    approval.approvedAmount = mandate.amount
  plan : w₂.plan = w.plan
  clock : w₂.clock = w.clock

theorem approvable_of {request : RequestValidation} {answer : ValidateMandateCallback}
    {w₂ : World} {mandate : VelaMandate} (own : request.mandate = k)
    (answerOwn : answer.mandate = k)
    (requested : requestValidation P w request = .ok w₁)
    (answered : validateMandateCallback P w₁ answer = .ok w₂)
    (found : w.currentMandate k = some mandate) : Approvable w w₂ k mandate := by
  obtain ⟨stored, _, opened⟩ := requestValidation_eq_ok requested
  obtain ⟨current, _, flat, _, granted⟩ := validateMandateCallback_eq_ok answered
  obtain ⟨nonce, written⟩ := opened.written
  have before := opened.checked.found
  rw [own] at before written
  obtain rfl := Option.some.inj (before.symm.trans found)
  have present := granted.found
  rw [answerOwn, written] at present
  obtain rfl := Option.some.inj present
  obtain ⟨_, _, _, _, approvals⟩ := granted.granted
  have approval := congrFun approvals k
  rw [answerOwn, Function.update_self] at approval
  exact ⟨⟨nonce, (currentMandate_congr granted.mandates k).trans written⟩, flat, ⟨_, approval, rfl⟩,
    granted.frame.plan.trans opened.frame.plan, granted.frame.clock.trans opened.frame.clock⟩

end

end VelaProtocol
