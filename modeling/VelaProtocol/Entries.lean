import VelaProtocol.Custody

/-! What each instruction adds to the log, by kind of entry. -/
namespace VelaProtocol

open Guard

inductive LogKind where
  | tokens | change | stream | agent | notice
  deriving DecidableEq, Repr

def LogEntry.kind : LogEntry → LogKind
  | .transfer _ => .tokens
  | .mandateCreditAdded _ => .tokens
  | .mandateUpgradeInitiated _ => .change
  | .mandateUpgradeFinalized _ => .change
  | .mandateUpgradeCancelled _ => .change
  | .stream _ => .stream
  | .agent _ => .agent
  | _ => .notice

/-- Entries are only added, and of these kinds. -/
def Logs (kinds : List LogKind) (w w' : World) : Prop :=
  ∃ new, w'.log = new ++ w.log ∧ ∀ e ∈ new, e.kind ∈ kinds

variable {P : Platform} {w w₁ w' : World} {kinds : List LogKind}

theorem Logs.of_log (same : w'.log = w.log) : Logs kinds w w' :=
  ⟨[], same, fun _ member => absurd member List.not_mem_nil⟩

theorem Logs.refl (w : World) : Logs kinds w w := .of_log rfl

theorem Logs.trans (first : Logs kinds w w₁) (second : Logs kinds w₁ w') : Logs kinds w w' := by
  obtain ⟨old, log, known⟩ := first
  obtain ⟨new, log', known'⟩ := second
  refine ⟨new ++ old, by rw [log', log, List.append_assoc], fun e member => ?_⟩
  rcases List.mem_append.mp member with recent | earlier
  · exact known' e recent
  · exact known e earlier

theorem Logs.entry {e : LogEntry} (log : w'.log = e :: w.log) (known : e.kind ∈ kinds) :
    Logs kinds w w' :=
  ⟨[e], log, fun _ member => List.mem_singleton.mp member ▸ known⟩

theorem Logs.emit {e : LogEntry} (logs : Logs kinds w w') (known : e.kind ∈ kinds) :
    Logs kinds w (w'.emit e) := logs.trans (.entry rfl known)

theorem Logs.mono {more : List LogKind} (logs : Logs kinds w w') (within : kinds ⊆ more) :
    Logs more w w' := by
  obtain ⟨new, log, known⟩ := logs
  exact ⟨new, log, fun e member => within (known e member)⟩

theorem Moved.logs {accounts : TransferAccounts} {amount : UInt64}
    (moved : Moved w accounts amount w') : Logs [.tokens] w w' := by
  cases moved with
  | nothing same unchanged =>
    rw [unchanged]
    exact .refl w
  | tokens different log paid received others => exact .entry log List.mem_cons_self

theorem invokeTransfer_logs {accounts : TransferAccounts} {amount : UInt64} {decimals : UInt8}
    {seeds : Seeds} {bump : UInt8} :
    Ensures (invokeTransferCheckedWithHook P w accounts amount decimals seeds bump)
      (Logs [.tokens] w) :=
  .skip fun _ _ transferred => (transferChecked_eq_ok transferred).moved.logs

theorem splTransferChecked_log {source mint destination authority : Pubkey} {amount : UInt64}
    {decimals : UInt8} :
    Ensures (splTransferChecked w source mint destination authority amount decimals)
      fun w' => w'.log = w.log := by
  intro w' h
  rw [(splTransferChecked_eq_ok h).only]

theorem deposit_log {accounts : WrappingAccounts} {payer : Pubkey} {amount : UInt64} :
    Ensures (deposit P w accounts payer amount) fun w' => w'.log = w.log :=
  .bind splTransferChecked_log fun _ paid _ minted => (mintTo_frame minted).2.trans paid

theorem withdraw_log {accounts : WrappingAccounts} {owner : Pubkey} {amount : UInt64} :
    Ensures (withdraw P w accounts owner amount) fun w' => w'.log = w.log :=
  .bind (fun _ burned => (burn_frame burned).2) fun _ burned =>
    splTransferChecked_log.mono fun _ paid => paid.trans burned

theorem ensureVault_log {ctx : InitWrappedMint} :
    Ensures (w.ensureVault P ctx) fun w' => w'.log = w.log := by
  intro w' h
  unfold World.ensureVault at h
  split at h
  · simp only [require_bind_eq_ok, pure_eq_ok] at h
    obtain ⟨_, _, rfl⟩ := h
    rfl
  · cases h
    rfl

theorem ensureMerchantState_log {merchant : Pubkey} {bump : UInt8} :
    Ensures (ensureMerchantState w merchant bump) fun result => result.1.log = w.log := by
  intro result ensured
  rw [(ensureMerchantState_eq_ok ensured).1]
  rfl

theorem createPlan_logs {ctx : CreatePlan} : Ensures (createPlan P w ctx) (Logs kinds w) := by
  unfold createPlan
  iterate 6 refine .skip fun _ => ?_
  refine .bind ensureMerchantState_log ?_
  rintro ⟨w₁, state⟩ same
  iterate 5 refine .skip fun _ => ?_
  exact .of_pure (.of_log same)

theorem createUsagePlan_logs {ctx : CreateUsagePlan} :
    Ensures (createUsagePlan P w ctx) (Logs kinds w) := by
  unfold createUsagePlan
  iterate 6 refine .skip fun _ => ?_
  refine .bind ensureMerchantState_log ?_
  rintro ⟨w₁, state⟩ same
  iterate 4 refine .skip fun _ => ?_
  exact .of_pure (.of_log same)

theorem updatePlan_logs {ctx : UpdatePlan} : Ensures (updatePlan P w ctx) (Logs [.notice] w) := by
  unfold updatePlan
  iterate 6 refine .skip fun _ => ?_
  exact .of_pure (.entry rfl List.mem_cons_self)

theorem updateUsagePlan_logs {ctx : UpdateUsagePlan} :
    Ensures (updateUsagePlan P w ctx) (Logs [.notice] w) := by
  unfold updateUsagePlan
  iterate 9 refine .skip fun _ => ?_
  exact .of_pure (.entry rfl List.mem_cons_self)

theorem migratePlan_logs {plan : Pubkey} : Ensures (migratePlan P w plan) (Logs kinds w) := by
  refine .skip fun loaded => ?_
  cases loaded with
  | flat p => exact .skip fun _ => .of_pure (.refl w)
  | usage p => exact .skip fun _ => .of_pure (.refl w)
  | legacyFlat p => exact .of_pure (.of_log rfl)
  | legacyUsage p => exact .of_pure (.of_log rfl)

theorem subscribe_logs {ctx : Subscribe} : Ensures (subscribe P w ctx) (Logs kinds w) := by
  unfold subscribe
  iterate 12 refine .skip fun _ => ?_
  refine .bind (fun _ opened => (createIdempotent_frame opened).2) fun w₁ opened => ?_
  iterate 3 refine .skip fun _ => ?_
  refine .bind (fun _ minted => (mintTo_frame minted).2) fun w₂ minted => ?_
  iterate 2 refine .skip fun _ => ?_
  exact .of_pure (.of_log (minted.trans opened))

theorem cancel_logs {ctx : Cancel} : Ensures (cancel P w ctx) (Logs kinds w) := by
  unfold cancel
  iterate 5 refine .skip fun _ => ?_
  exact .bind (fun _ burned => (burn_frame burned).2) fun w₁ burned => .of_pure (.of_log burned)

theorem adminCancel_logs {ctx : Cancel} : Ensures (adminCancel P w ctx) (Logs kinds w) := by
  unfold adminCancel
  iterate 7 refine .skip fun _ => ?_
  exact .bind (fun _ burned => (burn_frame burned).2) fun w₁ burned => .of_pure (.of_log burned)

theorem closeMandate_logs {ctx : CloseMandate} :
    Ensures (closeMandate P w ctx) (Logs kinds w) := by
  unfold closeMandate
  iterate 4 refine .skip fun _ => ?_
  exact .of_pure (.of_log rfl)

theorem migrateMandate_logs {ctx : MigrateMandate} :
    Ensures (migrateMandate P w ctx) (Logs kinds w) := by
  unfold migrateMandate
  iterate 14 refine .skip fun _ => ?_
  exact .of_pure (.of_log rfl)

theorem updateMandate_logs {ctx : UpdateMandate} :
    Ensures (updateMandate P w ctx) (Logs kinds w) := by
  unfold updateMandate
  iterate 14 refine .skip fun _ => ?_
  exact .of_pure (.of_log rfl)

theorem settleProration_logs {ctx : UpdateMandatePlan} {s : PlanSwitch} {delta : Int} :
    Ensures (settleProration P w ctx s delta) fun result => Logs [.tokens] w result.1 := by
  refine .ite (fun _ => ?_) fun _ => .ite (fun _ => ?_) fun _ => .of_pure (.refl w)
  · refine .bind (R := Logs [.tokens] w) ?_ fun _ paid => .of_pure paid
    refine .skip fun _ => .skip fun _ => .bind (.skip fun _ => invokeTransfer_logs) ?_
    exact fun paid logs => .of_pure (logs.trans (.of_log rfl))
  · exact .skip fun _ => .skip fun _ => .of_pure (.entry rfl List.mem_cons_self)

theorem updateMandatePlan_logs {ctx : UpdateMandatePlan} :
    Ensures (updateMandatePlan P w ctx) (Logs [.tokens, .change] w) := by
  refine .skip fun s => .ite (fun _ => .of_pure (.refl w)) fun _ => ?_
  refine .skip fun _ => .skip fun _ => .bind settleProration_logs ?_
  rintro ⟨paid, mandate⟩ logs
  have settled := logs.mono (fun _ => List.mem_append_left [LogKind.change])
  refine .of_pure (.trans (.trans ?_ settled) ?_)
  · exact .entry rfl (List.mem_cons_of_mem _ List.mem_cons_self)
  · exact .entry rfl (List.mem_cons_of_mem _ List.mem_cons_self)

theorem schedulePlanChange_logs {ctx : SchedulePlanChange} :
    Ensures (schedulePlanChange P w ctx) (Logs [.change] w) := by
  refine .skip fun s => ?_
  refine .ite (fun _ => .of_pure (.refl w)) fun _ => ?_
  refine .ite (fun _ => .of_pure (.refl w)) fun _ => ?_
  exact .of_pure (.entry rfl List.mem_cons_self)

theorem cancelPlanChange_logs {ctx : CancelPlanChange} :
    Ensures (cancelPlanChange P w ctx) (Logs [.change] w) := by
  unfold cancelPlanChange
  iterate 7 refine .skip fun _ => ?_
  exact .of_pure (.entry rfl List.mem_cons_self)

theorem startRequest_log {key : RequestKey} {offset nonce : UInt64} :
    Ensures (w.startRequest P key offset nonce) fun w' => w'.log = w.log :=
  .skip fun _ => .of_pure rfl

theorem completeRequest_log {key : RequestKey} {request : ArciumRequestState} :
    Ensures (w.completeRequest key request) fun w' => w'.log = w.log :=
  .skip fun _ => .of_pure rfl

theorem grantApproval_log {mandate : Pubkey} {period : Int64 × Int64} {approved : Bool}
    {amount : UInt64} :
    Ensures (grantApproval P w mandate period approved amount) fun w' => w'.log = w.log :=
  .skip fun _ => .of_pure rfl

theorem requestValidation_logs {ctx : RequestValidation} :
    Ensures (requestValidation P w ctx) (Logs [.notice] w) := by
  unfold requestValidation
  iterate 8 refine .skip fun _ => ?_
  refine .bind startRequest_log fun w₁ started => .of_pure ?_
  exact .trans (.trans (.of_log rfl) (.of_log started)) (.entry rfl List.mem_cons_self)

theorem validateMandateCallback_logs {ctx : ValidateMandateCallback} :
    Ensures (validateMandateCallback P w ctx) (Logs [.notice] w) := by
  unfold validateMandateCallback
  iterate 9 refine .skip fun _ => ?_
  refine .bind grantApproval_log fun w₁ granted => ?_
  refine .bind completeRequest_log fun w₂ completed => .of_pure ?_
  exact .emit (.of_log (completed.trans granted)) List.mem_cons_self

theorem submitUsageReport_logs {ctx : SubmitUsageReport} :
    Ensures (submitUsageReport P w ctx) (Logs kinds w) := by
  intro w' h
  obtain ⟨report, rfl, _⟩ := submitUsageReport_eq_ok h
  exact .of_log rfl

theorem requestUsageComputation_logs {ctx : RequestUsageComputation} :
    Ensures (requestUsageComputation P w ctx) (Logs [.notice] w) := by
  unfold requestUsageComputation
  iterate 8 refine .skip fun _ => ?_
  refine .bind startRequest_log fun w₁ started => .of_pure ?_
  exact .trans (.trans (.of_log rfl) (.of_log started)) (.entry rfl List.mem_cons_self)

theorem usageChargeCallback_logs {ctx : UsageComputationCallback} :
    Ensures (usageChargeCallback P w ctx) (Logs [.notice] w) := by
  unfold usageChargeCallback
  iterate 15 refine .skip fun _ => ?_
  refine .bind grantApproval_log fun w₁ granted => ?_
  refine .bind completeRequest_log fun w₂ completed => .of_pure ?_
  exact .emit (.of_log (completed.trans granted)) List.mem_cons_self

theorem requestBillingRecord_logs {ctx : RequestBillingRecord} :
    Ensures (requestBillingRecord P w ctx) (Logs [.notice] w) := by
  unfold requestBillingRecord
  iterate 10 refine .skip fun _ => ?_
  refine .bind startRequest_log fun w₁ started => .of_pure ?_
  exact .trans (.trans (.of_log rfl) (.of_log started)) (.entry rfl List.mem_cons_self)

theorem recordBillingEventCallback_logs {ctx : RecordBillingEventCallback} :
    Ensures (recordBillingEventCallback P w ctx) (Logs [.notice] w) := by
  unfold recordBillingEventCallback
  iterate 10 refine .skip fun _ => ?_
  refine .bind completeRequest_log fun w₁ completed => .of_pure ?_
  exact .emit (.of_log completed) List.mem_cons_self

theorem executePull_logs {ctx : ExecutePull} :
    Ensures (executePull P w ctx) (Logs [.tokens, .change] w) := by
  refine .skip fun s => ?_
  refine .bind (R := Logs [.tokens] w) ?_ fun paid logs => .skip fun mandate => .of_pure ?_
  · exact .ite (fun _ => .skip fun _ => invokeTransfer_logs) fun _ => .of_pure (.refl w)
  · have settled := logs.mono (fun _ => List.mem_append_left [LogKind.change])
    refine settled.trans ?_
    cases s.usageReport <;> rcases s.terms.autoAppliedChange with _ | ⟨oldPlan, newPlan, appliedAt⟩
    · exact .of_log rfl
    · exact .entry rfl (List.mem_cons_of_mem _ List.mem_cons_self)
    · exact .of_log rfl
    · exact .entry rfl (List.mem_cons_of_mem _ List.mem_cons_self)

theorem billing_logs {i : Instruction} :
    Ensures (execute P w i) (Logs [.tokens, .change, .notice] w) := by
  have notices : [LogKind.notice] ⊆ [.tokens, .change, .notice] := by decide
  have changes : [LogKind.change] ⊆ [.tokens, .change, .notice] := by decide
  have both : [LogKind.tokens, .change] ⊆ [.tokens, .change, .notice] := by decide
  cases i with
  | createPlan ctx => exact createPlan_logs
  | createUsagePlan ctx => exact createUsagePlan_logs
  | updatePlan ctx => exact updatePlan_logs.mono fun _ logs => logs.mono notices
  | updateUsagePlan ctx => exact updateUsagePlan_logs.mono fun _ logs => logs.mono notices
  | migratePlan plan => exact migratePlan_logs
  | subscribe ctx => exact subscribe_logs
  | cancel ctx => exact cancel_logs
  | adminCancel ctx => exact adminCancel_logs
  | closeMandate ctx => exact closeMandate_logs
  | migrateMandate ctx => exact migrateMandate_logs
  | updateMandate ctx => exact updateMandate_logs
  | updateMandatePlan ctx => exact updateMandatePlan_logs.mono fun _ logs => logs.mono both
  | schedulePlanChange ctx => exact schedulePlanChange_logs.mono fun _ logs => logs.mono changes
  | cancelPlanChange ctx => exact cancelPlanChange_logs.mono fun _ logs => logs.mono changes
  | requestValidation ctx => exact requestValidation_logs.mono fun _ logs => logs.mono notices
  | validateMandateCallback ctx =>
    exact validateMandateCallback_logs.mono fun _ logs => logs.mono notices
  | submitUsageReport ctx => exact submitUsageReport_logs
  | requestUsageComputation ctx =>
    exact requestUsageComputation_logs.mono fun _ logs => logs.mono notices
  | usageChargeCallback ctx => exact usageChargeCallback_logs.mono fun _ logs => logs.mono notices
  | executePull ctx => exact executePull_logs.mono fun _ logs => logs.mono both
  | requestBillingRecord ctx => exact requestBillingRecord_logs.mono fun _ logs => logs.mono notices
  | recordBillingEventCallback ctx =>
    exact recordBillingEventCallback_logs.mono fun _ logs => logs.mono notices

theorem invokeStreamTransfer_logs {accounts : StreamTransferAccounts} {key merchant : Pubkey}
    {amount : UInt64} {seeds : Seeds} {bump : UInt8} :
    Ensures (invokeStreamTransfer P w accounts key merchant amount seeds bump)
      (Logs [.tokens] w) :=
  .skip fun _ => .skip fun _ => .bind invokeTransfer_logs fun _ logs =>
    .skip fun _ => .of_pure logs

theorem payStream_logs {accounts : StreamTransferAccounts} {key : Pubkey} {s : StreamMandate}
    {amount : UInt64} : Ensures (payStream P w accounts key s amount) (Logs [.tokens] w) :=
  .ite (fun _ => invokeStreamTransfer_logs) fun _ => .of_pure (.refl w)

theorem createStreamMandate_logs {ctx : CreateStreamMandate} :
    Ensures (createStreamMandate P w ctx) (Logs [.stream] w) := by
  unfold createStreamMandate
  iterate 13 refine .skip fun _ => ?_
  exact .of_pure (.entry rfl List.mem_cons_self)

theorem executeStream_logs {ctx : ExecuteStream} :
    Ensures (executeStream P w ctx) (Logs [.tokens, .stream] w) := by
  unfold executeStream
  iterate 11 refine .skip fun _ => ?_
  refine .ite (fun _ => .of_pure (.of_log rfl)) fun _ => ?_
  refine .bind invokeStreamTransfer_logs fun paid logs => .of_pure ?_
  have settled := logs.mono (fun _ => List.mem_append_left [LogKind.stream])
  exact .emit (settled.trans (.of_log rfl)) (List.mem_cons_of_mem _ List.mem_cons_self)

theorem pauseStream_logs {ctx : StreamControl} :
    Ensures (pauseStream P w ctx) (Logs [.tokens, .stream] w) := by
  unfold pauseStream
  iterate 5 refine .skip fun _ => ?_
  refine .bind payStream_logs fun paid logs => .of_pure ?_
  have settled := logs.mono (fun _ => List.mem_append_left [LogKind.stream])
  exact .emit (settled.trans (.of_log rfl)) (List.mem_cons_of_mem _ List.mem_cons_self)

theorem resumeStream_logs {ctx : ResumeStream} :
    Ensures (resumeStream P w ctx) (Logs [.stream] w) := by
  unfold resumeStream
  iterate 8 refine .skip fun _ => ?_
  exact .of_pure (.entry rfl List.mem_cons_self)

theorem cancelStream_logs {ctx : StreamControl} :
    Ensures (cancelStream P w ctx) (Logs [.tokens, .stream] w) := by
  unfold cancelStream
  iterate 4 refine .skip fun _ => ?_
  refine .bind payStream_logs fun paid logs => .of_pure ?_
  have settled := logs.mono (fun _ => List.mem_append_left [LogKind.stream])
  exact .emit (settled.trans (.of_log rfl)) (List.mem_cons_of_mem _ List.mem_cons_self)

theorem updateStreamRate_logs {ctx : UpdateStreamRate} :
    Ensures (updateStreamRate P w ctx) (Logs [.tokens, .change, .stream] w) := by
  unfold updateStreamRate
  iterate 7 refine .skip fun _ => ?_
  refine .bind payStream_logs fun paid logs => .skip fun _ => .skip fun _ => .of_pure ?_
  have settled := logs.mono (fun _ => List.mem_append_left [LogKind.change, LogKind.stream])
  refine .emit (.emit (.emit (settled.trans (.of_log rfl)) ?_) ?_) ?_
  · exact List.mem_cons_of_mem _ List.mem_cons_self
  · exact List.mem_cons_of_mem _ (List.mem_cons_of_mem _ List.mem_cons_self)
  · exact List.mem_cons_of_mem _ List.mem_cons_self

theorem streaming_logs {i : StreamInstruction} :
    Ensures (executeStreaming P w i) (Logs [.tokens, .change, .stream] w) := by
  have streams : [LogKind.stream] ⊆ [.tokens, .change, .stream] := by decide
  have both : [LogKind.tokens, .stream] ⊆ [.tokens, .change, .stream] := by decide
  cases i with
  | createStreamMandate ctx =>
    exact createStreamMandate_logs.mono fun _ logs => logs.mono streams
  | executeStream ctx => exact executeStream_logs.mono fun _ logs => logs.mono both
  | pauseStream ctx => exact pauseStream_logs.mono fun _ logs => logs.mono both
  | resumeStream ctx => exact resumeStream_logs.mono fun _ logs => logs.mono streams
  | updateStreamRate ctx => exact updateStreamRate_logs
  | cancelStream ctx => exact cancelStream_logs.mono fun _ logs => logs.mono both

theorem writeAgentMandate_log {key : Pubkey} {m : AgentMandate} {legacy : Bool} :
    Ensures (w.writeAgentMandate key m legacy) fun w' => w'.log = w.log :=
  .skip fun _ => .ite (fun _ => .skip fun _ => .of_pure rfl) fun _ =>
    .skip fun _ => .of_pure rfl

theorem payService_logs {ctx : AgentPull} {bump : UInt8} :
    Ensures (payService P w ctx bump) (Logs [.tokens] w) :=
  .skip fun _ => .bind invokeTransfer_logs fun _ logs => .skip fun _ => .of_pure
    (.trans (.of_log rfl) (logs.trans (.of_log rfl)))

theorem returnFunds_log {ctx : AgentExit} {amount : UInt64} {bump : UInt8} :
    Ensures (returnFunds P w ctx amount bump) fun w' => w'.log = w.log :=
  .ite (fun _ => .skip fun _ => withdraw_log) fun _ => .of_pure rfl

theorem createAgentMandate_logs {ctx : CreateAgentMandate} :
    Ensures (createAgentMandate P w ctx) (Logs [.agent] w) := by
  unfold createAgentMandate
  iterate 3 refine .skip fun _ => ?_
  refine .bind (fun _ opened => (createIdempotent_frame opened).2) fun funded opened => ?_
  iterate 7 refine .skip fun _ => ?_
  refine .bind deposit_log fun deposited paid => .of_pure ?_
  exact .emit (.of_log (paid.trans opened)) List.mem_cons_self

theorem agentPull_logs {ctx : AgentPull} :
    Ensures (agentPull P w ctx) (Logs [.tokens, .agent] w) := by
  unfold agentPull
  iterate 16 refine .skip fun _ => ?_
  refine .bind payService_logs fun paid logs => .bind writeAgentMandate_log fun written wrote => ?_
  have settled := logs.mono (fun _ => List.mem_append_left [LogKind.agent])
  exact .of_pure ((settled.trans (.of_log wrote)).emit
    (List.mem_cons_of_mem _ List.mem_cons_self))

theorem pauseAgentMandate_logs {ctx : AgentControl} :
    Ensures (pauseAgentMandate P w ctx) (Logs [.agent] w) :=
  .skip fun _ => .skip fun _ => .bind writeAgentMandate_log fun _ wrote =>
    .of_pure (.emit (.of_log wrote) List.mem_cons_self)

theorem resumeAgentMandate_logs {ctx : AgentControl} :
    Ensures (resumeAgentMandate P w ctx) (Logs [.agent] w) :=
  .skip fun _ => .skip fun _ => .bind writeAgentMandate_log fun _ wrote =>
    .of_pure (.emit (.of_log wrote) List.mem_cons_self)

theorem adjustAgentMandate_logs {ctx : AdjustAgentMandate} :
    Ensures (adjustAgentMandate P w ctx) (Logs [.agent] w) := by
  unfold adjustAgentMandate
  iterate 8 refine .skip fun _ => ?_
  exact .bind writeAgentMandate_log fun _ wrote =>
    .of_pure (.emit (.of_log wrote) List.mem_cons_self)

theorem drainAgentMandate_logs {ctx : AgentExit} :
    Ensures (drainAgentMandate P w ctx) (Logs [.agent] w) :=
  .skip fun _ => .skip fun _ => .bind returnFunds_log fun _ returned =>
    .of_pure (.emit (.of_log returned) List.mem_cons_self)

theorem revokeAgentMandate_logs {ctx : AgentExit} :
    Ensures (revokeAgentMandate P w ctx) (Logs [.agent] w) :=
  .skip fun _ => .skip fun _ => .skip fun _ => .bind returnFunds_log fun _ returned =>
    .bind writeAgentMandate_log fun _ wrote =>
      .of_pure (.emit (.of_log (wrote.trans returned)) List.mem_cons_self)

theorem agent_logs {i : AgentInstruction} :
    Ensures (executeAgent P w i) (Logs [.tokens, .agent] w) := by
  have agents : [LogKind.agent] ⊆ [.tokens, .agent] := by decide
  cases i with
  | createAgentMandate ctx => exact createAgentMandate_logs.mono fun _ logs => logs.mono agents
  | agentPull ctx => exact agentPull_logs
  | adjustAgentMandate ctx => exact adjustAgentMandate_logs.mono fun _ logs => logs.mono agents
  | pauseAgentMandate ctx => exact pauseAgentMandate_logs.mono fun _ logs => logs.mono agents
  | resumeAgentMandate ctx => exact resumeAgentMandate_logs.mono fun _ logs => logs.mono agents
  | drainAgentMandate ctx => exact drainAgentMandate_logs.mono fun _ logs => logs.mono agents
  | revokeAgentMandate ctx => exact revokeAgentMandate_logs.mono fun _ logs => logs.mono agents

theorem configure_logs {i : ConfigInstruction} :
    Ensures (configure P w i) (Logs [.notice] w) := by
  cases i with
  | initConfig ctx =>
    unfold configure initConfig
    iterate 4 refine .skip fun _ => ?_
    exact .of_pure (.of_log rfl)
  | updateConfig ctx =>
    unfold configure updateConfig
    iterate 4 refine .skip fun _ => ?_
    exact .of_pure (.of_log rfl)
  | pauseProtocol admin => exact .skip fun _ => .skip fun _ => .of_pure (.of_log rfl)
  | unpauseProtocol admin => exact .skip fun _ => .skip fun _ => .of_pure (.of_log rfl)
  | initKeeperConfig ctx =>
    unfold configure initKeeperConfig
    iterate 4 refine .skip fun _ => ?_
    exact .of_pure (.entry rfl List.mem_cons_self)
  | updateKeeperConfig ctx =>
    unfold configure updateKeeperConfig
    iterate 6 refine .skip fun _ => ?_
    exact .of_pure (.entry rfl List.mem_cons_self)
  | initTokenConfig ctx =>
    unfold configure initTokenConfig
    iterate 4 refine .skip fun _ => ?_
    exact .of_pure (.entry rfl List.mem_cons_self)
  | updateTokenConfig ctx =>
    unfold configure updateTokenConfig
    iterate 4 refine .skip fun _ => ?_
    exact .of_pure (.entry rfl List.mem_cons_self)
  | initWrappedMint ctx =>
    unfold configure
    refine .skip fun _ => .bind ensureVault_log fun w₁ vault => ?_
    iterate 3 refine .skip fun _ => ?_
    refine .bind createMint_only fun w₂ only => .of_pure ?_
    rw [only]
    exact .of_log vault
  | initMerchantCredential ctx =>
    unfold configure
    refine .skip fun _ => .bind ensureMerchantState_log ?_
    rintro ⟨w₁, state⟩ same
    refine .ite (fun _ => .skip fun _ => .of_pure (.of_log same)) fun _ => ?_
    refine .bind createMint_only fun w₂ only => .of_pure ?_
    rw [only]
    exact .of_log same
  | initCompDef circuit ctx => exact .skip fun _ => .of_pure (.refl w)

theorem wrap_log {ctx : Wrap} : Ensures (wrap P w ctx) fun w' => w'.log = w.log := by
  unfold wrap
  iterate 9 refine .skip fun _ => ?_
  exact deposit_log

theorem unwrapTokens_log {ctx : Unwrap} :
    Ensures (unwrapTokens P w ctx) fun w' => w'.log = w.log := by
  unfold unwrapTokens
  iterate 8 refine .skip fun _ => ?_
  exact withdraw_log

end VelaProtocol
