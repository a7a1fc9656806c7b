import VelaProtocol.Deployment.Hook

/-! Every charge a pull or an upgrade attempts passes the transfer hook: at the transfer the
mandate is still stored as it was read, and the approval is the one that was checked. -/
namespace VelaProtocol

open Guard

variable {w : World}

abbrev AccountsValid (w : World) (accounts : TransferAccounts) (merchant : Pubkey) : Prop :=
  validateToken2022TransferAccounts w accounts.source accounts.destination accounts.mint
    accounts.authority merchant = .ok ()

/-- A charge at the moment of its transfer, with the mandate, the billing period and the approval
the instruction has read. -/
inductive ChargeAttempt (P : Platform) (w : World) :
    TransferAccounts → VelaMandate → Int64 × Int64 → PullApproval → UInt64 → Prop
  | pull (ctx : ExecutePull) (s : Settlement) (prepared : prepareSettlement P w ctx = .ok s)
      (positive : 0 < s.chargeAmount)
      (valid : AccountsValid w ctx.transferAccounts s.terms.mandate.merchant) :
      ChargeAttempt P w ctx.transferAccounts s.pull.mandate s.pull.period s.approval s.chargeAmount
  | upgrade (ctx : UpdateMandatePlan) (s : PlanSwitch) (delta : Int) (chargeAmount : UInt64)
      (period : Int64 × Int64) (approval : PullApproval)
      (checked : checkPlanSwitch P w ctx = .ok s) (other : s.mandate.plan ≠ ctx.newPlan)
      (prorated : switchDelta P w s = .ok delta) (positive : 0 < delta)
      (amount : Checked.toU64 delta = some chargeAmount)
      (computed : mandateBillingPeriod s.mandate = .ok period)
      (found : w.pullApproval ctx.mandate = some approval)
      (approved : validatePullApproval P w ctx s.mandate chargeAmount w.clock.unixTimestamp =
        .ok ())
      (valid : AccountsValid w ctx.transferAccounts s.mandate.merchant) :
      ChargeAttempt P w ctx.transferAccounts s.mandate period approval chargeAmount

theorem executePull_attempt {P : Platform} {w' : World} {ctx : ExecutePull}
    (h : executePull P w ctx = .ok w') : ∃ s, prepareSettlement P w ctx = .ok s ∧
      (s.chargeAmount = 0 ∨ ChargeAttempt P w ctx.transferAccounts s.pull.mandate s.pull.period
        s.approval s.chargeAmount) := by
  simp only [executePull, bind_eq_ok] at h
  obtain ⟨s, prepared, paid, transferred, _⟩ := h
  refine ⟨s, prepared, ?_⟩
  unfold invokeBillingTransfer at transferred
  split at transferred
  · rename_i positive
    obtain ⟨_, valid, _⟩ := bind_eq_ok.mp transferred
    exact .inr (.pull ctx s prepared positive valid)
  · rename_i none
    exact .inl (UInt64.le_zero_iff.mp (UInt64.not_lt.mp none))

theorem updateMandatePlan_attempt {P : Platform} {w' : World} {ctx : UpdateMandatePlan}
    (h : updateMandatePlan P w ctx = .ok w') : ∃ s, checkPlanSwitch P w ctx = .ok s ∧
      (s.mandate.plan = ctx.newPlan ∨ ∃ delta, switchDelta P w s = .ok delta ∧
        (delta ≤ 0 ∨ ∃ chargeAmount period approval, Checked.toU64 delta = some chargeAmount ∧
          ChargeAttempt P w ctx.transferAccounts s.mandate period approval chargeAmount)) := by
  obtain ⟨s, checked, h⟩ := bind_eq_ok.mp h
  refine ⟨s, checked, ?_⟩
  by_cases same : s.mandate.plan = ctx.newPlan
  · exact .inl same
  rw [if_neg same] at h
  obtain ⟨delta, prorated, h⟩ := bind_eq_ok.mp h
  refine .inr ⟨delta, prorated, ?_⟩
  by_cases positive : 0 < delta
  · simp only [settleProration, if_pos positive, chargeDelta, invokeUpgradeTransfer, orVela,
      bind_eq_ok, orError_eq_ok] at h
    obtain ⟨_, _, _, ⟨_, ⟨chargeAmount, amount, _, approved, _, ⟨_, valid, _⟩, _⟩, _⟩, _⟩ := h
    have approved : validatePullApproval P w ctx s.mandate chargeAmount w.clock.unixTimestamp =
        .ok () := approved
    have read := approved
    simp only [validatePullApproval, orVela, bind_eq_ok, orError_eq_ok] at read
    obtain ⟨_, _, approval, found, _, _, _, _, period, computed, _⟩ := read
    exact .inr ⟨chargeAmount, period, approval, amount, .upgrade ctx s delta chargeAmount period
      approval checked same prorated positive amount computed found approved valid⟩
  · exact .inl (not_lt.mp positive)

structure Attempted (w : World) (accounts : TransferAccounts) (mandate : VelaMandate)
    (period : Int64 × Int64) (approval : PullApproval) (amount : UInt64) : Prop where
  found : w.currentMandate accounts.authority = some mandate
  computed : mandateBillingPeriod mandate = .ok period
  checked : ApprovalChecked w accounts.authority period approval
  enough : amount ≤ approval.approvedAmount
  vault : ∃ config, w.protocolConfig = some config ∧ accounts.wrappingVault = config.wrappingVault
  token : ∃ tokenConfig, w.tokenConfig accounts.mint = some tokenConfig ∧
    tokenConfig.enabled = true ∧ tokenConfig.mint = accounts.mint
  source : ∃ t, w.tokenAccount accounts.source = some t ∧ t.mint = accounts.mint ∧
    t.owner = accounts.authority
  destination : ∃ t, w.tokenAccount accounts.destination = some t ∧ t.mint = accounts.mint

theorem accountsValid_eq_ok {accounts : TransferAccounts} {merchant : Pubkey}
    (valid : AccountsValid w accounts merchant) :
    (∃ t, w.tokenAccount accounts.source = some t ∧ t.mint = accounts.mint ∧
        t.owner = accounts.authority) ∧
      ∃ t, w.tokenAccount accounts.destination = some t ∧ t.mint = accounts.mint := by
  simp only [AccountsValid, validateToken2022TransferAccounts, check, orVela, bind_eq_ok,
    orError_eq_ok, require_eq_ok, exists_const] at valid
  obtain ⟨source, found, destination, present, sourceMint, destinationMint, owner, _⟩ := valid
  exact ⟨⟨source, found, sourceMint, owner⟩, destination, present, destinationMint⟩

theorem prepareSettlement_registered {P : Platform} {ctx : ExecutePull} {s : Settlement}
    (prepared : prepareSettlement P w ctx = .ok s) :
    (∃ config, w.protocolConfig = some config ∧ ctx.wrappingVault = config.wrappingVault) ∧
      ∃ tokenConfig, w.tokenConfig ctx.wrappedUsdcMint = some tokenConfig ∧
        tokenConfig.enabled = true ∧ tokenConfig.mint = ctx.wrappedUsdcMint := by
  simp only [prepareSettlement, bind_eq_ok, pure_eq_ok] at prepared
  obtain ⟨pull, checked, _⟩ := prepared
  simp only [checkPull, loadPull, anchorTokenConfig, requirePlanBillingType, check, orHost,
    bind_eq_ok, orError_eq_ok, require_eq_ok, pure_eq_ok, exists_const] at checked
  obtain ⟨_, ⟨tokenConfig, registry, _, _, config, loaded, _, _, _, vault, _, _, _, _, _, _, _, _,
    _, enabled, registered, _⟩, _⟩ := checked
  exact ⟨⟨config, loadProtocolConfig_eq_ok loaded, vault⟩, tokenConfig, registry, enabled,
    registered⟩

theorem checkPlanSwitch_registered {P : Platform} {ctx : UpdateMandatePlan} {s : PlanSwitch}
    (checked : checkPlanSwitch P w ctx = .ok s) :
    (∃ config, w.protocolConfig = some config ∧ ctx.wrappingVault = config.wrappingVault) ∧
      ∃ tokenConfig, w.tokenConfig ctx.wrappedUsdcMint = some tokenConfig ∧
        tokenConfig.enabled = true ∧ tokenConfig.mint = ctx.wrappedUsdcMint := by
  simp only [checkPlanSwitch, anchorTokenConfig, check, orHost, bind_eq_ok, orError_eq_ok,
    require_eq_ok, pure_eq_ok, exists_const] at checked
  obtain ⟨tokenConfig, registry, config, loaded, _, _, _, vault, _, _, _, _, _, _, _, _, _, _, _,
    enabled, registered, _⟩ := checked
  exact ⟨⟨config, loadProtocolConfig_eq_ok loaded, vault⟩, tokenConfig, registry, enabled,
    registered⟩

theorem ChargeAttempt.attempted {P : Platform} {accounts : TransferAccounts}
    {mandate : VelaMandate} {period : Int64 × Int64} {approval : PullApproval} {amount : UInt64}
    (attempt : ChargeAttempt P w accounts mandate period approval amount) :
    Attempted w accounts mandate period approval amount := by
  cases attempt with
  | pull ctx s prepared positive valid =>
    have checked := prepareSettlement_eq_ok prepared
    obtain ⟨vault, token⟩ := prepareSettlement_registered prepared
    obtain ⟨source, destination⟩ := accountsValid_eq_ok valid
    have base := (baseChargeAmount_eq_ok checked.base).2
    exact ⟨checked.pull.found, checked.pull.period, checked.approval,
      UInt64.le_trans s.chargeAmount_le base, vault, token, source, destination⟩
  | upgrade ctx s delta chargeAmount period approval checked other prorated positive amount
      computed found approved valid =>
    obtain ⟨vault, token⟩ := checkPlanSwitch_registered checked
    obtain ⟨source, destination⟩ := accountsValid_eq_ok valid
    simp only [validatePullApproval, check, orVela, bind_eq_ok, orError_eq_ok, require_eq_ok,
      exists_const] at approved
    obtain ⟨_, stored, present, granted, own, window, computed', bounds, fresh, enough⟩ := approved
    obtain rfl := Option.some.inj (found.symm.trans present)
    obtain rfl := Except.ok.inj (computed.symm.trans computed')
    exact ⟨(checkPlanSwitch_eq_ok checked).found, computed,
      ⟨found, granted, own, bounds, fresh⟩, enough, vault, token, source, destination⟩

theorem Depicts.not_stream {P : HookPlatform} {accounts : TransferAccounts} {ctx : TransferHook}
    {m : VelaMandate} {dataLen : Nat} (depicts : Depicts P w accounts ctx)
    (found : w.mandate accounts.authority = some ⟨.current m, dataLen⟩) :
    w.stream accounts.authority = none := by
  cases streaming : w.stream accounts.authority with
  | none => rfl
  | some s =>
    have mandateTag := (depicts.mandate _ found m rfl).holds.tag
    have streamTag := (depicts.stream s streaming).holds.tag
    have both : Layout.VelaMandate.discriminator = Layout.StreamMandate.discriminator :=
      mandateTag.symm.trans streamTag
    exact absurd both (by decide)

theorem Attempted.accepted {accounts : TransferAccounts} {mandate : VelaMandate}
    {period : Int64 × Int64} {approval : PullApproval} {amount : UInt64} {config : ProtocolConfig}
    {dataLen : Nat} (attempted : Attempted w accounts mandate period approval amount)
    (stored : w.mandate accounts.authority = some ⟨.current mandate, dataLen⟩)
    (apart : w.stream accounts.authority = none)
    (configured : w.protocolConfig = some (.current config))
    (program : config.transferHookProgramId = transferHookProgramId)
    (rail : ∀ t ∈ w.tokenConfig accounts.mint, t.billingRail = .transferHook) :
    handlerTransferHook w accounts.mint accounts.source accounts.destination accounts.authority
      accounts.wrappingVault amount = .ok () := by
  obtain ⟨loaded, same, vault⟩ := attempted.vault
  obtain rfl := Option.some.inj (configured.symm.trans same)
  obtain ⟨tokenConfig, registered, enabled, registeredMint⟩ := attempted.token
  obtain ⟨source, sourceFound, sourceMint, sourceOwner⟩ := attempted.source
  obtain ⟨destination, destinationFound, destinationMint⟩ := attempted.destination
  refine handlerTransferHook_eq_ok.mpr ⟨config, tokenConfig, source, destination,
    ⟨configured, program, registered, registeredMint, enabled, rail tokenConfig registered,
      sourceFound, destinationFound, sourceMint, destinationMint, sourceOwner, fun _ => vault⟩,
    .inr (.inr ?_)⟩
  rw [hookAuthority_eq_mandate apart stored, anchorVelaMandate_current stored rfl]
  refine bind_eq_ok.mpr ⟨mandate, rfl, bind_eq_ok.mpr ⟨period, attempted.computed, ?_⟩⟩
  have checked := attempted.checked
  simp only [hookApproval, check, orVela, bind_eq_ok, orError_eq_ok, require_eq_ok, exists_const]
  refine ⟨approval, checked.found, checked.mandate, checked.approved, checked.fresh, ?_,
    attempted.enough⟩
  intro p same
  cases same
  exact checked.period

/-- What the hook makes of a charge: it accepts, and the bytes decode to the mandate, the billing
period and the approval the instruction has used. -/
structure PassesHook (P : HookPlatform) (w : World) (hook : TransferHook) (mandate : VelaMandate)
    (period : Int64 × Int64) (approval : PullApproval) (amount : UInt64) : Prop where
  accepted : Hook.handler P w.clock hook amount = .ok ()
  decodes : Layout.velaMandateAccount.read hook.owner.data = some mandate
  computed : mandateBillingPeriod mandate = .ok period
  stored : Layout.pullApprovalAccount.read hook.pullApproval.data = some approval
  window : approval.periodStart = period.1 ∧ approval.periodEnd = period.2
  enough : amount ≤ approval.approvedAmount

theorem ChargeAttempt.passes {P : HookPlatform} {accounts : TransferAccounts}
    {mandate : VelaMandate} {period : Int64 × Int64} {approval : PullApproval} {amount : UInt64}
    {config : ProtocolConfig} {hook : TransferHook}
    (attempt : ChargeAttempt P.toPlatform w accounts mandate period approval amount)
    (layout : ∀ account ∈ w.mandate accounts.authority, account.contents.isLegacy = false)
    (configured : w.protocolConfig = some (.current config))
    (program : config.transferHookProgramId = transferHookProgramId)
    (rail : ∀ t ∈ w.tokenConfig accounts.mint, t.billingRail = .transferHook)
    (depicts : Depicts P w accounts hook) :
    PassesHook P w hook mandate period approval amount := by
  have attempted := attempt.attempted
  obtain ⟨account, stored, current⟩ := Option.map_eq_some_iff.mp attempted.found
  obtain ⟨contents, dataLen⟩ := account
  cases contents with
  | legacy old => exact absurd (layout _ stored) nofun
  | current m =>
    obtain rfl : m = mandate := current
    have apart := depicts.not_stream stored
    have accepted := attempted.accepted stored apart configured program rail
    exact ⟨handler_of_handlerTransferHook depicts (.mandate m dataLen apart stored) accepted,
      (depicts.mandate _ stored m rfl).holds.read, attempted.computed,
      (depicts.approval approval attempted.checked.found).holds.read,
      attempted.checked.period, attempted.enough⟩

/-- A pull or a plan change charges nothing or what the hook accepts on the bytes as they stand at
the transfer; and so does any attempt that gets as far as its transfer. -/
theorem charges_pass_hook {P : HookPlatform} {accounts : TransferAccounts}
    {config : ProtocolConfig} {hook : TransferHook} (depicts : Depicts P w accounts hook)
    (layout : ∀ account ∈ w.mandate accounts.authority, account.contents.isLegacy = false)
    (configured : w.protocolConfig = some (.current config))
    (program : config.transferHookProgramId = transferHookProgramId)
    (rail : ∀ t ∈ w.tokenConfig accounts.mint, t.billingRail = .transferHook) :
    (∀ mandate period approval amount,
      ChargeAttempt P.toPlatform w accounts mandate period approval amount →
        PassesHook P w hook mandate period approval amount) ∧
    (∀ ctx w', ctx.transferAccounts = accounts → executePull P.toPlatform w ctx = .ok w' →
      ∃ s, prepareSettlement P.toPlatform w ctx = .ok s ∧ (s.chargeAmount = 0 ∨
        PassesHook P w hook s.pull.mandate s.pull.period s.approval s.chargeAmount)) ∧
    ∀ ctx w', ctx.transferAccounts = accounts → updateMandatePlan P.toPlatform w ctx = .ok w' →
      ∃ s, checkPlanSwitch P.toPlatform w ctx = .ok s ∧ (s.mandate.plan = ctx.newPlan ∨
        ∃ delta, switchDelta P.toPlatform w s = .ok delta ∧ (delta ≤ 0 ∨
          ∃ chargeAmount period approval, Checked.toU64 delta = some chargeAmount ∧
            PassesHook P w hook s.mandate period approval chargeAmount)) := by
  have passes {mandate period approval amount}
      (attempt : ChargeAttempt P.toPlatform w accounts mandate period approval amount) :
      PassesHook P w hook mandate period approval amount :=
    attempt.passes layout configured program rail depicts
  refine ⟨fun _ _ _ _ => passes, fun ctx w' same pulled => ?_, fun ctx w' same changed => ?_⟩
  · subst same
    obtain ⟨s, prepared, none | attempt⟩ := executePull_attempt pulled
    · exact ⟨s, prepared, .inl none⟩
    · exact ⟨s, prepared, .inr (passes attempt)⟩
  · subst same
    obtain ⟨s, checked, keeps | ⟨delta, prorated, free | charged⟩⟩ :=
      updateMandatePlan_attempt changed
    · exact ⟨s, checked, .inl keeps⟩
    · exact ⟨s, checked, .inr ⟨delta, prorated, .inl free⟩⟩
    · obtain ⟨chargeAmount, period, approval, amount, attempt⟩ := charged
      exact ⟨s, checked, .inr ⟨delta, prorated, .inr
        ⟨chargeAmount, period, approval, amount, passes attempt⟩⟩⟩

open Deployment

def firstCharge : List Action :=
  [offerFlat 0 100 3600 0 10 mintA, .instruction (.subscribe (subscription (flatPlan 0) mintA)),
    tick 3600, requestFlat (flatPlan 0) 3600 1, answerFlat 3600 1 true]

theorem charges_pass_hook_first_payment : ∃ (w w' : World) (s : Settlement),
    executePull platform w (pullContext (flatPlan 0) mintA []) = .ok w' ∧ s.chargeAmount = 100 ∧
      PassesHook hookPlatform w (hookView w (pullContext (flatPlan 0) mintA []).transferAccounts)
        s.pull.mandate s.pull.period s.approval s.chargeAmount := by
  have played : (runScript (world 0) firstCharge).any (fun w =>
      ((executePull platform w (pullContext (flatPlan 0) mintA [])).toOption.isSome &&
        (prepareSettlement platform w (pullContext (flatPlan 0) mintA [])).toOption.any
          fun s => s.chargeAmount = 100) &&
      decide (w.protocolConfig = some (.current config) ∧ (w.stream mandate).isNone ∧
        w.tokenConfig mintA = some (tokenConfig mintA)) &&
      (w.mandate mandate).all fun account => !account.contents.isLegacy) = true := by
    decide +kernel
  simp only [Option.any_eq_true, Bool.and_eq_true, decide_eq_true_eq, toOption_eq_some,
    Option.isSome_iff_exists, Option.isNone_iff_eq_none, Option.all_eq_true,
    Bool.not_eq_true'] at played
  obtain ⟨w, ran, ⟨⟨⟨w', pulled⟩, s, prepared, amount⟩, configured, apart, registered⟩, layout⟩ :=
    played
  have rail : ∀ t ∈ w.tokenConfig mintA, t.billingRail = .transferHook := by
    intro t found
    obtain rfl := Option.some.inj (registered.symm.trans found)
    rfl
  have depicts : Depicts hookPlatform w (pullContext (flatPlan 0) mintA []).transferAccounts
      (hookView w (pullContext (flatPlan 0) mintA []).transferAccounts) :=
    hookView_depicts (.inl apart)
  have program : config.transferHookProgramId = transferHookProgramId := rfl
  obtain ⟨s', prepared', charged⟩ :=
    (charges_pass_hook depicts layout configured program rail).2.1 _ w' rfl pulled
  obtain rfl := Except.ok.inj (prepared.symm.trans prepared')
  refine ⟨w, w', s, pulled, amount, charged.resolve_left fun none => ?_⟩
  exact absurd (amount.symm.trans none) (by decide)

end VelaProtocol
