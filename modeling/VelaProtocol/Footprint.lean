import VelaProtocol.Lib.Footprint
import VelaProtocol.Supply

/-! Which fields of the ledger each instruction may write. An instruction is one row of the table;
everything else reads the same after it. -/
namespace VelaProtocol

open Footprint Guard Monitored

variable {P : Platform} {w w₁ w' : World}

inductive WorldField where
  | clock | protocolConfig | keeperConfig | merchantState | tokenConfig
  | mint | tokenAccount | splMint | splTokenAccount
  | plan | mandate | stream | agentMandate
  | pullApproval | requestState | usageReport | billingEvent | log
  deriving DecidableEq, Repr

abbrev WorldField.Contents : WorldField → Type
  | .clock => Clock
  | .protocolConfig => Option LoadedProtocolConfig
  | .keeperConfig => Option LoadedKeeperConfig
  | .merchantState => Pubkey → Option LoadedMerchantState
  | .tokenConfig => Pubkey → Option TokenConfig
  | .mint => Pubkey → Option Mint
  | .tokenAccount => Pubkey → Option TokenAccount
  | .splMint => Pubkey → Option UInt8
  | .splTokenAccount => Pubkey → Option TokenAccount
  | .plan => Pubkey → Option PlanAccount
  | .mandate => Pubkey → Option MandateAccount
  | .stream => Pubkey → Option StreamMandate
  | .agentMandate => Pubkey → Option AgentMandateAccount
  | .pullApproval => Pubkey → Option PullApproval
  | .requestState => ArciumRequestFlow × Pubkey × Bytes 8 → Option ArciumRequestState
  | .usageReport => Pubkey × Int64 → Option UsageReport
  | .billingEvent => Pubkey × UInt64 → Option BillingEvent
  | .log => List LogEntry

def World.read (w : World) : (f : WorldField) → f.Contents
  | .clock => w.clock
  | .protocolConfig => w.protocolConfig
  | .keeperConfig => w.keeperConfig
  | .merchantState => w.merchantState
  | .tokenConfig => w.tokenConfig
  | .mint => w.mint
  | .tokenAccount => w.tokenAccount
  | .splMint => w.splMint
  | .splTokenAccount => w.splTokenAccount
  | .plan => w.plan
  | .mandate => w.mandate
  | .stream => w.stream
  | .agentMandate => w.agentMandate
  | .pullApproval => w.pullApproval
  | .requestState => w.requestState
  | .usageReport => w.usageReport
  | .billingEvent => w.billingEvent
  | .log => w.log

/-- The ledger differs in these fields at most. -/
abbrev Written (fields : List WorldField) (w w' : World) : Prop :=
  Writes World.read fields w w'

theorem World.emit_written (w : World) (e : LogEntry) : Written [.log] w (w.emit e) := by
  intro f out
  cases f <;> first | rfl | simp at out

theorem World.createPlan_written (w : World) (key : Pubkey) (p : LoadedPlanAccount) :
    Written [.plan] w (w.createPlan key p) := by
  intro f out
  cases f <;> first | rfl | simp at out

theorem World.writePlan_written (w : World) (key : Pubkey) (p : LoadedPlanAccount) :
    Written [.plan] w (w.writePlan key p) := by
  intro f out
  cases f <;> first | rfl | simp at out

theorem World.writeMerchantState_written (w : World) (merchant : Pubkey) (state : MerchantState) :
    Written [.merchantState] w (w.writeMerchantState merchant state) := by
  intro f out
  cases f <;> first | rfl | simp at out

theorem World.createMandate_written (w : World) (key : Pubkey) (m : VelaMandate) :
    Written [.mandate] w (w.createMandate key m) := by
  intro f out
  cases f <;> first | rfl | simp at out

theorem World.writeMandate_written (w : World) (key : Pubkey) (m : VelaMandate) (legacy : Bool) :
    Written [.mandate] w (w.writeMandate key m legacy) := by
  intro f out
  cases f <;> first | rfl | simp at out

theorem World.closeMandateAccount_written (w : World) (key : Pubkey) :
    Written [.mandate] w (w.closeMandateAccount key) := by
  intro f out
  cases f <;> first | rfl | simp at out

theorem World.growMandate_written (w : World) (key : Pubkey) :
    Written [.mandate] w (w.growMandate key) := by
  intro f out
  cases f <;> first | rfl | simp at out

theorem World.closeApproval_written (w : World) (key : Pubkey) :
    Written [.pullApproval] w (w.closeApproval key) := by
  intro f out
  cases f <;> first | rfl | simp at out

theorem World.writeStreamMandate_written (w : World) (key : Pubkey) (s : StreamMandate) :
    Written [.stream] w (w.writeStreamMandate key s) := by
  intro f out
  cases f <;> first | rfl | simp at out

theorem World.initializeAgentMandate_written (w : World) (key : Pubkey) (m : AgentMandate) :
    Written [.agentMandate] w (w.initializeAgentMandate key m) := by
  intro f out
  cases f <;> first | rfl | simp at out

theorem World.writeProtocolConfig_written (w : World) (config : ProtocolConfig) :
    Written [.protocolConfig] w (w.writeProtocolConfig config) := by
  intro f out
  cases f <;> first | rfl | simp at out

theorem Written.refl (fields : List WorldField) (w : World) : Written fields w w :=
  Writes.refl fields w

theorem ensureMerchantState_written {merchant : Pubkey} {bump : UInt8} :
    Ensures (ensureMerchantState w merchant bump) fun result =>
      Written [.merchantState] w result.1 := by
  intro result ensured
  rw [(ensureMerchantState_eq_ok ensured).1]
  exact w.writeMerchantState_written merchant result.2

theorem startRequest_written {key : RequestKey} {offset nonce : UInt64} :
    Ensures (w.startRequest P key offset nonce) (Written [.requestState] w) := by
  refine .skip fun _ => .of_pure fun f out => ?_
  cases f <;> first | rfl | simp at out

theorem completeRequest_written {key : RequestKey} {request : ArciumRequestState} :
    Ensures (w.completeRequest key request) (Written [.requestState] w) := by
  refine .skip fun _ => .of_pure fun f out => ?_
  cases f <;> first | rfl | simp at out

theorem grantApproval_written {mandate : Pubkey} {period : Int64 × Int64} {approved : Bool}
    {amount : UInt64} :
    Ensures (grantApproval P w mandate period approved amount) (Written [.pullApproval] w) := by
  refine .skip fun _ => .of_pure fun f out => ?_
  cases f <;> first | rfl | simp at out

theorem writeAgentMandate_written {key : Pubkey} {m : AgentMandate} {legacy : Bool} :
    Ensures (w.writeAgentMandate key m legacy) (Written [.agentMandate] w) := by
  refine .skip fun _ => .ite (fun _ => .skip fun _ => .of_pure fun f out => ?_) fun _ =>
    .skip fun _ => .of_pure fun f out => ?_
  · cases f <;> first | rfl | simp at out
  · cases f <;> first | rfl | simp at out

theorem TokenOnly.written (only : TokenOnly w w') (log : w'.log = w.log) :
    Written [.mint, .tokenAccount] w w' := by
  obtain ⟨clock, config, keeper, merchant, token, plan, mandate, stream, agent, approval, request,
    report, event, splMint, splToken⟩ := only
  intro f out
  cases f <;> first | assumption | simp at out

theorem transferChecked_written {accounts : TransferAccounts} {amount : UInt64}
    {decimals : UInt8} :
    Ensures (transferChecked P w accounts amount decimals) (Written [.tokenAccount, .log] w) := by
  intro w' h
  have mints := (transferChecked_conserves w' h).mint
  obtain ⟨clock, config, keeper, merchant, token, plan, mandate, stream, agent, approval, request,
    report, event, splMint, splToken⟩ := (transferChecked_only w' h).1
  intro f out
  cases f <;> first | assumption | simp at out

theorem invokeTransfer_written {accounts : TransferAccounts} {amount : UInt64} {decimals : UInt8}
    {seeds : Seeds} {bump : UInt8} :
    Ensures (invokeTransferCheckedWithHook P w accounts amount decimals seeds bump)
      (Written [.tokenAccount, .log] w) := .skip fun _ => transferChecked_written

theorem splTransferChecked_written {source mint destination authority : Pubkey} {amount : UInt64}
    {decimals : UInt8} :
    Ensures (splTransferChecked w source mint destination authority amount decimals)
      (Written [.splTokenAccount] w) := by
  intro w' h
  rw [(splTransferChecked_eq_ok h).only]
  intro f out
  cases f <;> first | rfl | simp at out

theorem createIdempotent_written {owner mint : Pubkey} :
    Ensures (createIdempotent P w owner mint) (Written [.mint, .tokenAccount] w) := by
  intro w' h
  obtain ⟨only, log⟩ := createIdempotent_frame h
  exact only.written log

theorem mintTo_written {mint account authority : Pubkey} {amount : UInt64} :
    Ensures (mintTo w mint account authority amount) (Written [.mint, .tokenAccount] w) := by
  intro w' h
  obtain ⟨only, log⟩ := mintTo_frame h
  exact only.written log

theorem burn_written {mint account authority : Pubkey} {amount : UInt64} :
    Ensures (burn w account mint authority amount) (Written [.mint, .tokenAccount] w) := by
  intro w' h
  obtain ⟨only, log⟩ := burn_frame h
  exact only.written log

theorem createMint_written {key : Pubkey} {m : Mint} :
    Ensures (w.createMint key m) (Written [.mint] w) := by
  refine .skip fun _ => .of_pure fun f out => ?_
  cases f <;> first | rfl | simp at out

theorem deposit_written {accounts : WrappingAccounts} {payer : Pubkey} {amount : UInt64} :
    Ensures (deposit P w accounts payer amount)
      (Written [.splTokenAccount, .mint, .tokenAccount] w) :=
  .bind splTransferChecked_written fun _ paid => mintTo_written.mono fun _ => paid.trans

theorem withdraw_written {accounts : WrappingAccounts} {owner : Pubkey} {amount : UInt64} :
    Ensures (withdraw P w accounts owner amount)
      (Written [.mint, .tokenAccount, .splTokenAccount] w) :=
  .bind burn_written fun _ burned => splTransferChecked_written.mono fun _ => burned.trans

theorem createPlan_written {ctx : CreatePlan} :
    Ensures (createPlan P w ctx) (Written [.merchantState, .plan] w) := by
  unfold createPlan
  iterate 6 refine .skip fun _ => ?_
  refine .bind ensureMerchantState_written ?_
  rintro ⟨w₁, state⟩ ensured
  iterate 5 refine .skip fun _ => ?_
  refine .of_pure ((ensured.trans (w₁.createPlan_written _ _)).within
    (World.writeMerchantState_written _ _ _) (by decide))

theorem createUsagePlan_written {ctx : CreateUsagePlan} :
    Ensures (createUsagePlan P w ctx) (Written [.merchantState, .plan] w) := by
  unfold createUsagePlan
  iterate 6 refine .skip fun _ => ?_
  refine .bind ensureMerchantState_written ?_
  rintro ⟨w₁, state⟩ ensured
  iterate 4 refine .skip fun _ => ?_
  exact .of_pure (ensured.trans (w₁.createPlan_written _ _))

theorem updatePlan_written {ctx : UpdatePlan} :
    Ensures (updatePlan P w ctx) (Written [.plan, .log] w) := by
  unfold updatePlan
  iterate 6 refine .skip fun _ => ?_
  exact .of_pure ((World.writePlan_written _ _ _).trans (World.emit_written _ _))

theorem updateUsagePlan_written {ctx : UpdateUsagePlan} :
    Ensures (updateUsagePlan P w ctx) (Written [.plan, .log] w) := by
  unfold updateUsagePlan
  iterate 9 refine .skip fun _ => ?_
  exact .of_pure ((World.writePlan_written _ _ _).trans (World.emit_written _ _))

theorem migratePlan_written {plan : Pubkey} :
    Ensures (migratePlan P w plan) (Written [.plan] w) := by
  refine .skip fun loaded => ?_
  cases loaded with
  | flat p => exact .skip fun _ => .of_pure (.refl _ w)
  | usage p => exact .skip fun _ => .of_pure (.refl _ w)
  | legacyFlat p => exact .of_pure (World.writePlan_written _ _ _)
  | legacyUsage p => exact .of_pure (World.writePlan_written _ _ _)

theorem subscribe_written {ctx : Subscribe} :
    Ensures (subscribe P w ctx) (Written [.mint, .tokenAccount, .mandate, .merchantState] w) := by
  unfold subscribe
  iterate 12 refine .skip fun _ => ?_
  refine .bind createIdempotent_written fun w₁ opened => ?_
  iterate 3 refine .skip fun _ => ?_
  refine .bind mintTo_written fun w₂ minted => ?_
  iterate 2 refine .skip fun _ => ?_
  refine .of_pure ((opened.within minted (by decide)).trans ?_)
  exact (World.createMandate_written _ _ _).trans (World.writeMerchantState_written _ _ _)

theorem cancelMandate_written (w : World) (key : Pubkey) (loaded : LoadedMandateAccount) :
    Written [.mandate] w (w.cancelMandate key loaded) := w.writeMandate_written _ _ _

theorem cancel_written {ctx : Cancel} :
    Ensures (cancel P w ctx) (Written [.mint, .tokenAccount, .mandate] w) := by
  unfold cancel
  iterate 5 refine .skip fun _ => ?_
  exact .bind burn_written fun w₁ burned => .of_pure (burned.trans (cancelMandate_written _ _ _))

theorem adminCancel_written {ctx : Cancel} :
    Ensures (adminCancel P w ctx) (Written [.mint, .tokenAccount, .mandate] w) := by
  unfold adminCancel
  iterate 7 refine .skip fun _ => ?_
  exact .bind burn_written fun w₁ burned => .of_pure (burned.trans (cancelMandate_written _ _ _))

theorem closeMandate_written {ctx : CloseMandate} :
    Ensures (closeMandate P w ctx) (Written [.mandate] w) := by
  unfold closeMandate
  iterate 4 refine .skip fun _ => ?_
  exact .of_pure (World.closeMandateAccount_written _ _)

theorem migrateMandate_written {ctx : MigrateMandate} :
    Ensures (migrateMandate P w ctx) (Written [.mandate, .merchantState] w) := by
  unfold migrateMandate
  iterate 14 refine .skip fun _ => ?_
  refine .of_pure (((World.createMandate_written _ _ _).trans
    (World.writeMerchantState_written _ _ _)).within (World.closeMandateAccount_written _ _)
    (by decide))

theorem updateMandate_written {ctx : UpdateMandate} :
    Ensures (updateMandate P w ctx) (Written [.mandate] w) := by
  unfold updateMandate
  iterate 14 refine .skip fun _ => ?_
  exact .of_pure (World.growMandate_written _ _)

theorem settleProration_written {ctx : UpdateMandatePlan} {s : PlanSwitch} {delta : Int} :
    Ensures (settleProration P w ctx s delta) fun result =>
      Written [.tokenAccount, .log, .pullApproval] w result.1 := by
  refine .ite (fun _ => ?_) fun _ => .ite (fun _ => ?_) fun _ => .of_pure (.refl _ w)
  · refine .bind (R := Written [.tokenAccount, .log, .pullApproval] w) ?_ fun _ paid =>
      .of_pure paid
    refine .skip fun _ => .skip fun _ => .bind (.skip fun _ => invokeTransfer_written) ?_
    exact fun paid spec => .of_pure (spec.trans (World.closeApproval_written _ _))
  · exact .skip fun _ => .skip fun _ => .of_pure ((World.emit_written _ _).mono (by decide))

theorem updateMandatePlan_written {ctx : UpdateMandatePlan} :
    Ensures (updateMandatePlan P w ctx)
      (Written [.tokenAccount, .log, .pullApproval, .mandate] w) := by
  refine .skip fun s => .ite (fun _ => .of_pure (.refl _ w)) fun _ => ?_
  refine .skip fun _ => .skip fun _ => .bind settleProration_written ?_
  rintro ⟨paid, mandate⟩ spec
  exact .of_pure ((((w.emit_written _).trans spec).trans (paid.writeMandate_written _ _ _)).trans
    (World.emit_written _ _) |>.mono (by decide))

theorem schedulePlanChange_written {ctx : SchedulePlanChange} :
    Ensures (schedulePlanChange P w ctx) (Written [.mandate, .log] w) := by
  refine .skip fun s => ?_
  refine .ite (fun _ => .of_pure (.refl _ w)) fun _ => ?_
  refine .ite (fun _ => .of_pure (.refl _ w)) fun _ => ?_
  exact .of_pure ((w.writeMandate_written _ _ _).trans (World.emit_written _ _))

theorem cancelPlanChange_written {ctx : CancelPlanChange} :
    Ensures (cancelPlanChange P w ctx) (Written [.mandate, .log] w) := by
  unfold cancelPlanChange
  iterate 7 refine .skip fun _ => ?_
  exact .of_pure ((w.writeMandate_written _ _ _).trans (World.emit_written _ _))

theorem World.resetApproval_written (w : World) (key : Pubkey) :
    Written [.pullApproval] w (w.resetApproval P key) := by
  intro f out
  cases f <;> first | rfl | simp at out

theorem queued_written {key : Pubkey} {m : VelaMandate} {legacy : Bool} {q : QueuedComputation}
    (started : Written [.requestState] w w₁) :
    Written [.requestState, .pullApproval, .mandate, .log] w
      (((w₁.resetApproval P key).writeMandate key m legacy).queueComputation q) :=
  ((started.trans (w₁.resetApproval_written key)).trans (World.writeMandate_written _ _ _ _)).trans
    (World.emit_written _ _)

theorem requestValidation_written {ctx : RequestValidation} :
    Ensures (requestValidation P w ctx)
      (Written [.requestState, .pullApproval, .mandate, .log] w) := by
  unfold requestValidation
  iterate 8 refine .skip fun _ => ?_
  exact .bind startRequest_written fun w₁ started => .of_pure (queued_written started)

theorem validateMandateCallback_written {ctx : ValidateMandateCallback} :
    Ensures (validateMandateCallback P w ctx)
      (Written [.pullApproval, .requestState, .log] w) := by
  unfold validateMandateCallback
  iterate 9 refine .skip fun _ => ?_
  refine .bind grantApproval_written fun w₁ granted => ?_
  refine .bind completeRequest_written fun w₂ completed => .of_pure ?_
  exact (granted.trans completed).trans (w₂.emit_written _)

theorem submitUsageReport_written {ctx : SubmitUsageReport} :
    Ensures (submitUsageReport P w ctx) (Written [.usageReport] w) := by
  intro w' h
  obtain ⟨report, rfl, _⟩ := submitUsageReport_eq_ok h
  intro f out
  cases f <;> first | rfl | simp at out

theorem requestUsageComputation_written {ctx : RequestUsageComputation} :
    Ensures (requestUsageComputation P w ctx)
      (Written [.requestState, .pullApproval, .mandate, .log] w) := by
  unfold requestUsageComputation
  iterate 8 refine .skip fun _ => ?_
  exact .bind startRequest_written fun w₁ started => .of_pure (queued_written started)

theorem usageChargeCallback_written {ctx : UsageComputationCallback} :
    Ensures (usageChargeCallback P w ctx) (Written [.pullApproval, .requestState, .log] w) := by
  unfold usageChargeCallback
  iterate 15 refine .skip fun _ => ?_
  refine .bind grantApproval_written fun w₁ granted => ?_
  refine .bind completeRequest_written fun w₂ completed => .of_pure ?_
  exact (granted.trans completed).trans (w₂.emit_written _)

theorem World.writeBillingEvent_written (w : World)
    (events : Pubkey × UInt64 → Option BillingEvent) :
    Written [.billingEvent] w { w with billingEvent := events } := by
  intro f out
  cases f <;> first | rfl | simp at out

theorem requestBillingRecord_written {ctx : RequestBillingRecord} :
    Ensures (requestBillingRecord P w ctx)
      (Written [.requestState, .billingEvent, .mandate, .log] w) := by
  unfold requestBillingRecord
  iterate 10 refine .skip fun _ => ?_
  refine .bind startRequest_written fun w₁ started => .of_pure ?_
  exact ((started.trans (w₁.writeBillingEvent_written _)).trans
    (World.writeMandate_written _ _ _ _)).trans (World.emit_written _ _)

theorem recordBillingEventCallback_written {ctx : RecordBillingEventCallback} :
    Ensures (recordBillingEventCallback P w ctx)
      (Written [.billingEvent, .mandate, .requestState, .log] w) := by
  unfold recordBillingEventCallback
  iterate 10 refine .skip fun _ => ?_
  refine .bind completeRequest_written fun w₂ completed => .of_pure ?_
  exact (((w.writeBillingEvent_written _).trans (World.writeMandate_written _ _ _ _)).trans
    completed).trans (w₂.emit_written _)

theorem finishPull_written (w : World) (ctx : ExecutePull) (periodStart : Int64)
    (report : Option Pubkey) (mint : Pubkey) (change : Option (Pubkey × Pubkey × Int64)) :
    Written [.usageReport, .log] w
      ((w.markUsageReportSettled ctx.mandate periodStart report).emitAutoApplied ctx mint
        change) := by
  intro f out
  cases report <;> cases change <;> cases f <;> first | rfl | simp at out

theorem executePull_written {ctx : ExecutePull} :
    Ensures (executePull P w ctx)
      (Written [.tokenAccount, .log, .mandate, .usageReport, .pullApproval] w) := by
  refine .skip fun s => .bind (R := Written [.tokenAccount, .log] w) ?_ fun paid spec =>
    .skip fun mandate => .of_pure ?_
  · exact .ite (fun _ => .skip fun _ => invokeTransfer_written) fun _ => .of_pure (.refl _ w)
  · have written := spec.trans (paid.writeMandate_written ctx.mandate mandate
      s.pull.loaded.isLegacy)
    have finished := finishPull_written
      (paid.writeMandate ctx.mandate mandate s.pull.loaded.isLegacy) ctx s.pull.period.1
      s.usageReport s.pull.config.wrappedUsdcMint s.terms.autoAppliedChange
    exact ((written.trans finished).trans (World.closeApproval_written _ _)).mono (by decide)

def Instruction.writes : Instruction → List WorldField
  | .createPlan _ | .createUsagePlan _ => [.merchantState, .plan]
  | .updatePlan _ | .updateUsagePlan _ => [.plan, .log]
  | .migratePlan _ => [.plan]
  | .subscribe _ => [.mint, .tokenAccount, .mandate, .merchantState]
  | .cancel _ | .adminCancel _ => [.mint, .tokenAccount, .mandate]
  | .closeMandate _ | .updateMandate _ => [.mandate]
  | .migrateMandate _ => [.mandate, .merchantState]
  | .updateMandatePlan _ => [.tokenAccount, .log, .pullApproval, .mandate]
  | .schedulePlanChange _ | .cancelPlanChange _ => [.mandate, .log]
  | .requestValidation _ | .requestUsageComputation _ =>
    [.requestState, .pullApproval, .mandate, .log]
  | .validateMandateCallback _ | .usageChargeCallback _ => [.pullApproval, .requestState, .log]
  | .submitUsageReport _ => [.usageReport]
  | .executePull _ => [.tokenAccount, .log, .mandate, .usageReport, .pullApproval]
  | .requestBillingRecord _ => [.requestState, .billingEvent, .mandate, .log]
  | .recordBillingEventCallback _ => [.billingEvent, .mandate, .requestState, .log]

theorem billing_written {i : Instruction} : Ensures (execute P w i) (Written i.writes w) := by
  cases i with
  | createPlan ctx => exact createPlan_written
  | createUsagePlan ctx => exact createUsagePlan_written
  | updatePlan ctx => exact updatePlan_written
  | updateUsagePlan ctx => exact updateUsagePlan_written
  | migratePlan plan => exact migratePlan_written
  | subscribe ctx => exact subscribe_written
  | cancel ctx => exact cancel_written
  | adminCancel ctx => exact adminCancel_written
  | closeMandate ctx => exact closeMandate_written
  | migrateMandate ctx => exact migrateMandate_written
  | updateMandate ctx => exact updateMandate_written
  | updateMandatePlan ctx => exact updateMandatePlan_written
  | schedulePlanChange ctx => exact schedulePlanChange_written
  | cancelPlanChange ctx => exact cancelPlanChange_written
  | requestValidation ctx => exact requestValidation_written
  | validateMandateCallback ctx => exact validateMandateCallback_written
  | submitUsageReport ctx => exact submitUsageReport_written
  | requestUsageComputation ctx => exact requestUsageComputation_written
  | usageChargeCallback ctx => exact usageChargeCallback_written
  | executePull ctx => exact executePull_written
  | requestBillingRecord ctx => exact requestBillingRecord_written
  | recordBillingEventCallback ctx => exact recordBillingEventCallback_written

theorem invokeStreamTransfer_written {accounts : StreamTransferAccounts} {key merchant : Pubkey}
    {amount : UInt64} {seeds : Seeds} {bump : UInt8} :
    Ensures (invokeStreamTransfer P w accounts key merchant amount seeds bump)
      (Written [.tokenAccount, .log] w) :=
  .skip fun _ => .skip fun _ => .bind invokeTransfer_written fun _ spec =>
    .skip fun _ => .of_pure spec

theorem payStream_written {accounts : StreamTransferAccounts} {key : Pubkey} {s : StreamMandate}
    {amount : UInt64} :
    Ensures (payStream P w accounts key s amount) (Written [.tokenAccount, .log] w) :=
  .ite (fun _ => invokeStreamTransfer_written) fun _ => .of_pure (.refl _ w)

theorem paidStream_written {paid : World} {key : Pubkey} {s : StreamMandate} (e : LogEntry)
    (spec : Written [.tokenAccount, .log] w paid) :
    Written [.tokenAccount, .log, .stream] w ((paid.writeStreamMandate key s).emit e) :=
  (spec.trans (paid.writeStreamMandate_written key s)).within (World.emit_written _ e) (by decide)

def StreamInstruction.writes : StreamInstruction → List WorldField
  | .createStreamMandate _ => [.stream, .merchantState, .log]
  | .resumeStream _ => [.stream, .log]
  | .executeStream _ | .pauseStream _ | .updateStreamRate _ | .cancelStream _ =>
    [.tokenAccount, .log, .stream]

theorem streaming_written {i : StreamInstruction} :
    Ensures (executeStreaming P w i) (Written i.writes w) := by
  cases i with
  | createStreamMandate ctx =>
    unfold executeStreaming createStreamMandate
    iterate 13 refine .skip fun _ => ?_
    exact .of_pure (((w.writeStreamMandate_written _ _).trans
      (World.writeMerchantState_written _ _ _)).trans (World.emit_written _ _))
  | executeStream ctx =>
    unfold executeStreaming executeStream
    iterate 11 refine .skip fun _ => ?_
    change Ensures _ (Written [.tokenAccount, .log, .stream] w)
    refine .ite (fun _ => ?_) fun _ => ?_
    · exact .of_pure ((w.writeStreamMandate_written _ _).mono (by decide))
    · exact .bind invokeStreamTransfer_written fun paid spec => .of_pure (paidStream_written _ spec)
  | pauseStream ctx =>
    unfold executeStreaming pauseStream
    iterate 5 refine .skip fun _ => ?_
    exact .bind payStream_written fun paid spec => .of_pure (paidStream_written _ spec)
  | resumeStream ctx =>
    unfold executeStreaming resumeStream
    iterate 8 refine .skip fun _ => ?_
    exact .of_pure ((w.writeStreamMandate_written _ _).trans (World.emit_written _ _))
  | cancelStream ctx =>
    unfold executeStreaming cancelStream
    iterate 4 refine .skip fun _ => ?_
    exact .bind payStream_written fun paid spec => .of_pure (paidStream_written _ spec)
  | updateStreamRate ctx =>
    unfold executeStreaming updateStreamRate
    iterate 7 refine .skip fun _ => ?_
    refine .bind payStream_written fun paid spec => .skip fun _ => .skip fun _ => .of_pure ?_
    change Written [.tokenAccount, .log, .stream] w _
    exact ((paidStream_written _ spec).within (World.emit_written _ _) (by decide)).within
      (World.emit_written _ _) (by decide)

def AgentInstruction.writes : AgentInstruction → List WorldField
  | .createAgentMandate _ => [.mint, .tokenAccount, .agentMandate, .splTokenAccount, .log]
  | .agentPull _ => [.pullApproval, .tokenAccount, .log, .agentMandate]
  | .adjustAgentMandate _ | .pauseAgentMandate _ | .resumeAgentMandate _ => [.agentMandate, .log]
  | .drainAgentMandate _ => [.mint, .tokenAccount, .splTokenAccount, .log]
  | .revokeAgentMandate _ => [.mint, .tokenAccount, .splTokenAccount, .agentMandate, .log]

theorem World.writeApprovals_written (w : World) (approvals : Pubkey → Option PullApproval) :
    Written [.pullApproval] w { w with pullApproval := approvals } := by
  intro f out
  cases f <;> first | rfl | simp at out

theorem payService_written {ctx : AgentPull} {bump : UInt8} :
    Ensures (payService P w ctx bump) (Written [.pullApproval, .tokenAccount, .log] w) := by
  refine .skip fun _ => .bind invokeTransfer_written fun paid spec => .skip fun _ => .of_pure ?_
  exact ((w.writeApprovals_written _).trans spec).within (paid.writeApprovals_written _) (by decide)

theorem returnFunds_written {ctx : AgentExit} {amount : UInt64} {bump : UInt8} :
    Ensures (returnFunds P w ctx amount bump)
      (Written [.mint, .tokenAccount, .splTokenAccount] w) :=
  .ite (fun _ => .skip fun _ => withdraw_written) fun _ => .of_pure (.refl _ w)

theorem writeBack_written {key : Pubkey} {m : AgentMandate} {legacy : Bool}
    {e : World → LogEntry} :
    Ensures (do let written ← w.writeAgentMandate key m legacy; return written.emit (e written))
      (Written [.agentMandate, .log] w) :=
  .bind writeAgentMandate_written fun _ wrote => .of_pure (wrote.trans (World.emit_written _ _))

theorem agent_written {i : AgentInstruction} :
    Ensures (executeAgent P w i) (Written i.writes w) := by
  cases i with
  | createAgentMandate ctx =>
    unfold executeAgent createAgentMandate
    iterate 3 refine .skip fun _ => ?_
    refine .bind createIdempotent_written fun funded opened => ?_
    iterate 7 refine .skip fun _ => ?_
    refine .bind deposit_written fun deposited paid => .of_pure ?_
    change Written [.mint, .tokenAccount, .agentMandate, .splTokenAccount, .log] w _
    exact (((opened.trans (funded.initializeAgentMandate_written _ _)).trans paid).trans
      (deposited.emit_written _)).mono (by decide)
  | agentPull ctx =>
    unfold executeAgent agentPull
    iterate 16 refine .skip fun _ => ?_
    change Ensures _ (Written [.pullApproval, .tokenAccount, .log, .agentMandate] w)
    refine .bind payService_written fun paid spec => ?_
    exact writeBack_written.mono fun _ wrote => (spec.trans wrote).mono (by decide)
  | adjustAgentMandate ctx =>
    unfold executeAgent adjustAgentMandate
    iterate 8 refine .skip fun _ => ?_
    exact writeBack_written
  | pauseAgentMandate ctx => exact .skip fun _ => .skip fun _ => writeBack_written
  | resumeAgentMandate ctx => exact .skip fun _ => .skip fun _ => writeBack_written
  | drainAgentMandate ctx =>
    exact .skip fun _ => .skip fun _ => .bind returnFunds_written fun drained spec =>
      .of_pure (spec.trans (drained.emit_written _))
  | revokeAgentMandate ctx =>
    exact .skip fun _ => .skip fun _ => .skip fun _ => .bind returnFunds_written fun _ spec =>
      writeBack_written.mono fun _ wrote => spec.trans wrote

def ConfigInstruction.writes : ConfigInstruction → List WorldField
  | .initConfig _ | .updateConfig _ | .pauseProtocol _ | .unpauseProtocol _ => [.protocolConfig]
  | .initKeeperConfig _ | .updateKeeperConfig _ => [.keeperConfig, .log]
  | .initTokenConfig _ | .updateTokenConfig _ => [.tokenConfig, .log]
  | .initWrappedMint _ => [.splTokenAccount, .mint, .protocolConfig]
  | .initMerchantCredential _ => [.merchantState, .mint]
  | .initCompDef .. => []

theorem ensureVault_written {ctx : InitWrappedMint} :
    Ensures (w.ensureVault P ctx) (Written [.splTokenAccount] w) := by
  intro w' h
  unfold World.ensureVault at h
  split at h
  · simp only [require_bind_eq_ok, pure_eq_ok] at h
    obtain ⟨_, _, rfl⟩ := h
    exact .refl _ w
  · cases h
    intro f out
    cases f <;> first | rfl | simp at out

theorem keeperConfig_written (w : World) (config : Option LoadedKeeperConfig) (e : LogEntry) :
    Written [.keeperConfig, .log] w ({ w with keeperConfig := config }.emit e) := by
  intro f out
  cases f <;> first | rfl | simp at out

theorem tokenConfig_written (w : World) (configs : Pubkey → Option TokenConfig) (e : LogEntry) :
    Written [.tokenConfig, .log] w ({ w with tokenConfig := configs }.emit e) := by
  intro f out
  cases f <;> first | rfl | simp at out

theorem configure_written {i : ConfigInstruction} :
    Ensures (configure P w i) (Written i.writes w) := by
  cases i with
  | initConfig ctx =>
    unfold configure initConfig
    iterate 4 refine .skip fun _ => ?_
    exact .of_pure (w.writeProtocolConfig_written _)
  | updateConfig ctx =>
    unfold configure updateConfig
    iterate 4 refine .skip fun _ => ?_
    exact .of_pure (w.writeProtocolConfig_written _)
  | pauseProtocol admin =>
    exact .skip fun _ => .skip fun _ => .of_pure (w.writeProtocolConfig_written _)
  | unpauseProtocol admin =>
    exact .skip fun _ => .skip fun _ => .of_pure (w.writeProtocolConfig_written _)
  | initKeeperConfig ctx =>
    unfold configure initKeeperConfig
    iterate 4 refine .skip fun _ => ?_
    exact .of_pure (keeperConfig_written w _ _)
  | updateKeeperConfig ctx =>
    unfold configure updateKeeperConfig
    iterate 6 refine .skip fun _ => ?_
    exact .of_pure (keeperConfig_written w _ _)
  | initTokenConfig ctx =>
    unfold configure initTokenConfig
    iterate 4 refine .skip fun _ => ?_
    exact .of_pure (tokenConfig_written w _ _)
  | updateTokenConfig ctx =>
    unfold configure updateTokenConfig
    iterate 4 refine .skip fun _ => ?_
    exact .of_pure (tokenConfig_written w _ _)
  | initWrappedMint ctx =>
    unfold configure
    refine .skip fun _ => .bind ensureVault_written fun w₁ vault => ?_
    iterate 3 refine .skip fun _ => ?_
    refine .bind createMint_written fun w₂ created => .of_pure ?_
    exact (vault.trans created).trans (w₂.writeProtocolConfig_written _)
  | initMerchantCredential ctx =>
    unfold configure
    refine .skip fun _ => .bind ensureMerchantState_written ?_
    rintro ⟨w₁, state⟩ ensured
    change Ensures _ (Written [.merchantState, .mint] w)
    refine .ite (fun _ => .skip fun _ => .of_pure (ensured.mono (by decide))) fun _ => ?_
    refine .bind createMint_written fun w₂ created => .of_pure ?_
    exact (ensured.trans created).within (w₂.writeMerchantState_written _ _) (by decide)
  | initCompDef circuit ctx => exact .skip fun _ => .of_pure (.refl _ w)

def ProtocolInstruction.writes : ProtocolInstruction → List WorldField
  | .billing i => i.writes
  | .streaming i => i.writes
  | .agent i => i.writes
  | .config i => i.writes
  | .wrap _ => [.splTokenAccount, .mint, .tokenAccount]
  | .unwrapTokens _ => [.mint, .tokenAccount, .splTokenAccount]

theorem protocol_written {i : ProtocolInstruction} :
    Ensures (executeProtocol P w i) (Written i.writes w) := by
  cases i with
  | billing i => exact billing_written
  | streaming i => exact streaming_written
  | agent i => exact agent_written
  | config i => exact configure_written
  | wrap ctx =>
    unfold executeProtocol wrap
    iterate 9 refine .skip fun _ => ?_
    exact deposit_written
  | unwrapTokens ctx =>
    unfold executeProtocol unwrapTokens
    iterate 8 refine .skip fun _ => ?_
    exact withdraw_written

/-- What other programs may write: mints and token accounts, and no account of this program. -/
def foreignFields : List WorldField := [.clock, .mint, .tokenAccount, .splMint, .splTokenAccount]

def ProtocolAction.writes : ProtocolAction → List WorldField
  | .instruction i => i.writes
  | .tick _ => [.clock]
  | .outside => foreignFields

/-- Other programs keep to their own accounts. -/
def Sealed (_ : List Pubkey) (w : World) (a : ProtocolAction) (w' : World) : Prop :=
  a = .outside → Written foreignFields w w'

def ProtocolAction.signers : ProtocolAction → List Pubkey
  | .instruction i => i.signers
  | .tick _ | .outside => []

def watchSigners : Observe World ProtocolAction (List Pubkey) := fun signed _ a _ =>
  a.signers ++ signed

abbrev SealedRun (P : Platform) : World × List Pubkey → World × List Pubkey → Prop :=
  Run (ProtocolStep P) watchSigners Sealed

theorem protocolStep_written {signed : List Pubkey} {a : ProtocolAction}
    (step : ProtocolStep P w a w') (closed : Sealed signed w a w') : Written a.writes w w' := by
  cases a with
  | instruction i => exact protocol_written w' step
  | tick clock =>
    obtain ⟨_, rfl⟩ := step
    intro f out
    cases f <;> first | rfl | simp [ProtocolAction.writes] at out
  | outside => exact closed rfl

end VelaProtocol
