import VelaProtocol.Lib.Ensures
import VelaProtocol.Program

/-! What an instruction does with a mandate does not depend on the accounts kept under the address
of another. -/
namespace VelaProtocol

open Guard

variable {P : Platform} {w : World} {k m : Pubkey}

/-- The ledger without the approval, the requests, the reports and the billing events kept under an
address. -/
def World.forget (w : World) (k : Pubkey) : World :=
  { w with
    pullApproval := fun key => if key = k then none else w.pullApproval key
    requestState := fun key => if key.2.1 = k then none else w.requestState key
    usageReport := fun key => if key.1 = k then none else w.usageReport key
    billingEvent := fun key => if key.1 = k then none else w.billingEvent key }

theorem update_hidden {α β : Type} [DecidableEq α] (hidden : α → Prop) [DecidablePred hidden]
    (key : α) (apart : ¬hidden key) (store : α → Option β) (value : Option β) :
    Function.update (fun x => if hidden x then none else store x) key value =
      fun x => if hidden x then none else Function.update store key value x := by
  funext x
  by_cases here : x = key
  · subst here
    simp only [Function.update_self, if_neg apart]
  · simp only [Function.update_of_ne here]

theorem approval_forget (apart : m ≠ k) : (w.forget k).pullApproval m = w.pullApproval m :=
  if_neg apart

theorem request_forget {key : RequestKey} (apart : key.2.1 ≠ k) :
    (w.forget k).requestState key = w.requestState key :=
  if_neg apart

theorem report_forget {start : Int64} (apart : m ≠ k) :
    (w.forget k).usageReport (m, start) = w.usageReport (m, start) :=
  if_neg apart

theorem event_forget {pulls : UInt64} (apart : m ≠ k) :
    (w.forget k).billingEvent (m, pulls) = w.billingEvent (m, pulls) :=
  if_neg apart

theorem setApproval_forget (apart : m ≠ k) (approval : Option PullApproval) :
    { w.forget k with pullApproval := Function.update (w.forget k).pullApproval m approval } =
      World.forget { w with pullApproval := Function.update w.pullApproval m approval } k := by
  have written := update_hidden (· = k) m apart w.pullApproval approval
  simp only [World.forget] at written ⊢
  rw [written]

theorem setRequest_forget {key : RequestKey} (apart : key.2.1 ≠ k)
    (request : Option ArciumRequestState) :
    { w.forget k with requestState := Function.update (w.forget k).requestState key request } =
      World.forget { w with requestState := Function.update w.requestState key request } k := by
  have written := update_hidden (fun x : RequestKey => x.2.1 = k) key apart w.requestState
    request
  simp only [World.forget] at written ⊢
  rw [written]

theorem setReport_forget {start : Int64} (apart : m ≠ k) (report : Option UsageReport) :
    { w.forget k with
      usageReport := Function.update (w.forget k).usageReport (m, start) report } =
      World.forget { w with
        usageReport := Function.update w.usageReport (m, start) report } k := by
  have written := update_hidden (fun x : Pubkey × Int64 => x.1 = k) (m, start)
    apart w.usageReport report
  simp only [World.forget] at written ⊢
  rw [written]

theorem setEvent_forget (pulls : UInt64) (apart : m ≠ k) (event : Option BillingEvent) :
    { w.forget k with
      billingEvent := Function.update (w.forget k).billingEvent (m, pulls) event } =
      World.forget { w with
        billingEvent := Function.update w.billingEvent (m, pulls) event } k := by
  have written := update_hidden (fun x : Pubkey × UInt64 => x.1 = k) (m, pulls)
    apart w.billingEvent event
  simp only [World.forget] at written ⊢
  rw [written]

theorem burn_forget {account mint authority : Pubkey} {amount : UInt64} :
    burn (w.forget k) account mint authority amount =
      (burn w account mint authority amount).map (World.forget · k) := by
  iterate 5 refine map_skip fun _ => ?_
  rfl

theorem mintTo_forget {mint account authority : Pubkey} {amount : UInt64} :
    mintTo (w.forget k) mint account authority amount =
      (mintTo w mint account authority amount).map (World.forget · k) := by
  iterate 6 refine map_skip fun _ => ?_
  rfl

theorem createIdempotent_forget {owner mint : Pubkey} :
    createIdempotent P (w.forget k) owner mint =
      (createIdempotent P w owner mint).map (World.forget · k) := by
  unfold createIdempotent
  simp only [World.forget]
  cases w.tokenAccount (associatedTokenAddress P owner mint) with
  | some account => exact map_skip fun _ => map_skip fun _ => rfl
  | none => exact map_skip fun _ => rfl

theorem executeHook_forget {mint : Mint} {accounts : TransferAccounts} {amount : UInt64}
    (apart : accounts.authority ≠ k) :
    executeHook P (w.forget k) mint accounts amount = executeHook P w mint accounts amount := by
  have approval (period : Option (Int64 × Int64)) :
      hookApproval (w.forget k) accounts.authority period amount =
        hookApproval w accounts.authority period amount := by
    rw [hookApproval, hookApproval, approval_forget apart]
    rfl
  have authority : hookAuthority (w.forget k) accounts.authority amount =
      hookAuthority w accounts.authority amount := by
    unfold hookAuthority
    simp only [approval]
    rfl
  unfold executeHook handlerTransferHook
  simp only [authority]
  rfl

theorem transferChecked_forget {accounts : TransferAccounts} {amount : UInt64} {decimals : UInt8}
    (apart : accounts.authority ≠ k) :
    transferChecked P (w.forget k) accounts amount decimals =
      (transferChecked P w accounts amount decimals).map (World.forget · k) := by
  iterate 9 refine map_skip fun _ => ?_
  refine map_ite (fun _ => rfl) fun _ => map_skip fun _ => ?_
  exact map_same (executeHook_forget apart) fun _ => rfl

theorem startRequest_forget {key : RequestKey} {offset nonce : UInt64} (apart : key.2.1 ≠ k) :
    (w.forget k).startRequest P key offset nonce =
      (w.startRequest P key offset nonce).map (World.forget · k) := by
  have read : (w.forget k).requestOrZeroed key = w.requestOrZeroed key := by
    rw [World.requestOrZeroed, World.requestOrZeroed, request_forget apart]
  refine map_same (congrArg (startArciumRequest · _) read) fun request => ?_
  exact congrArg Except.ok (setRequest_forget apart _)

theorem completeRequest_forget {key : RequestKey} {request : ArciumRequestState}
    (apart : key.2.1 ≠ k) : (w.forget k).completeRequest key request =
      (w.completeRequest key request).map (World.forget · k) := by
  refine map_skip fun completed => ?_
  exact congrArg Except.ok (setRequest_forget apart _)

theorem validateCallback_forget {config : ProtocolConfig} {accounts : CallbackAccounts}
    {key : RequestKey} (apart : key.2.1 ≠ k) :
    validateCallback P (w.forget k) config accounts key =
      validateCallback P w config accounts key := by
  rw [validateCallback, validateCallback, anchorRequestState, anchorRequestState,
    request_forget apart]

theorem approvalOrZeroed_forget (apart : m ≠ k) :
    (w.forget k).approvalOrZeroed m = w.approvalOrZeroed m := by
  rw [World.approvalOrZeroed, World.approvalOrZeroed, approval_forget apart]

theorem resetApproval_forget (apart : m ≠ k) :
    (w.forget k).resetApproval P m = (w.resetApproval P m).forget k :=
  setApproval_forget apart _

theorem closeApproval_forget (apart : m ≠ k) :
    (w.forget k).closeApproval m = (w.closeApproval m).forget k :=
  setApproval_forget apart _

theorem grantApproval_forget {period : Int64 × Int64} {approved : Bool} {amount : UInt64}
    (apart : m ≠ k) : grantApproval P (w.forget k) m period approved amount =
      (grantApproval P w m period approved amount).map (World.forget · k) := by
  refine map_skip fun validUntil => ?_
  exact congrArg Except.ok (setApproval_forget apart _)

theorem anchorUsageReport_forget {start : Int64} (apart : m ≠ k) :
    anchorUsageReport P (w.forget k) m start = anchorUsageReport P w m start := by
  rw [anchorUsageReport, anchorUsageReport, report_forget apart]

theorem markUsageReportSettled_forget {start : Int64} {info : Option Pubkey} (apart : m ≠ k) :
    (w.forget k).markUsageReportSettled m start info =
      (w.markUsageReportSettled m start info).forget k := by
  cases info with
  | none => rfl
  | some _ =>
    unfold World.markUsageReportSettled
    simp only [report_forget apart]
    exact setReport_forget apart _

def Instruction.mandates : Instruction → List Pubkey
  | .createPlan _ => []
  | .createUsagePlan _ => []
  | .updatePlan _ => []
  | .updateUsagePlan _ => []
  | .migratePlan _ => []
  | .subscribe ctx => [ctx.mandate]
  | .cancel ctx => [ctx.mandate]
  | .adminCancel ctx => [ctx.mandate]
  | .closeMandate ctx => [ctx.mandate]
  | .migrateMandate ctx => [ctx.legacyMandate, ctx.migratedMandate]
  | .updateMandate ctx => [ctx.mandate]
  | .updateMandatePlan ctx => [ctx.mandate]
  | .schedulePlanChange ctx => [ctx.mandate]
  | .cancelPlanChange ctx => [ctx.mandate]
  | .requestValidation ctx => [ctx.mandate]
  | .validateMandateCallback ctx => [ctx.mandate]
  | .submitUsageReport ctx => [ctx.mandate]
  | .requestUsageComputation ctx => [ctx.mandate]
  | .usageChargeCallback ctx => [ctx.mandate]
  | .executePull ctx => [ctx.mandate]
  | .requestBillingRecord ctx => [ctx.mandate]
  | .recordBillingEventCallback ctx => [ctx.mandate]

theorem ensureMerchantState_forget {merchant : Pubkey} {bump : UInt8} :
    ensureMerchantState (w.forget k) merchant bump =
      (ensureMerchantState w merchant bump).map fun x => (x.1.forget k, x.2) := by
  unfold ensureMerchantState
  simp only [World.forget]
  cases w.merchantState merchant with
  | none => rfl
  | some loaded => exact map_skip fun _ => rfl

theorem createPlan_forget {ctx : CreatePlan} :
    createPlan P (w.forget k) ctx = (createPlan P w ctx).map (World.forget · k) := by
  iterate 6 refine map_skip fun _ => ?_
  refine map_step ensureMerchantState_forget fun ⟨w₁, state⟩ => ?_
  iterate 5 refine map_skip fun _ => ?_
  rfl

theorem createUsagePlan_forget {ctx : CreateUsagePlan} :
    createUsagePlan P (w.forget k) ctx = (createUsagePlan P w ctx).map (World.forget · k) := by
  iterate 6 refine map_skip fun _ => ?_
  refine map_step ensureMerchantState_forget fun ⟨w₁, state⟩ => ?_
  iterate 4 refine map_skip fun _ => ?_
  rfl

theorem updatePlan_forget {ctx : UpdatePlan} :
    updatePlan P (w.forget k) ctx = (updatePlan P w ctx).map (World.forget · k) := by
  iterate 6 refine map_skip fun _ => ?_
  rfl

theorem updateUsagePlan_forget {ctx : UpdateUsagePlan} :
    updateUsagePlan P (w.forget k) ctx = (updateUsagePlan P w ctx).map (World.forget · k) := by
  iterate 9 refine map_skip fun _ => ?_
  rfl

theorem migratePlan_forget {plan : Pubkey} :
    migratePlan P (w.forget k) plan = (migratePlan P w plan).map (World.forget · k) := by
  refine map_skip fun loaded => ?_
  cases loaded with
  | flat p => exact map_skip fun _ => rfl
  | usage p => exact map_skip fun _ => rfl
  | legacyFlat p => rfl
  | legacyUsage p => rfl

theorem subscribe_forget {ctx : Subscribe} :
    subscribe P (w.forget k) ctx = (subscribe P w ctx).map (World.forget · k) := by
  iterate 12 refine map_skip fun _ => ?_
  refine map_step createIdempotent_forget fun _ => ?_
  iterate 3 refine map_skip fun _ => ?_
  refine map_step mintTo_forget fun _ => ?_
  iterate 2 refine map_skip fun _ => ?_
  rfl

theorem cancel_forget {ctx : Cancel} :
    cancel P (w.forget k) ctx = (cancel P w ctx).map (World.forget · k) := by
  iterate 5 refine map_skip fun _ => ?_
  exact map_step burn_forget fun _ => rfl

theorem adminCancel_forget {ctx : Cancel} :
    adminCancel P (w.forget k) ctx = (adminCancel P w ctx).map (World.forget · k) := by
  iterate 7 refine map_skip fun _ => ?_
  exact map_step burn_forget fun _ => rfl

theorem closeMandate_forget {ctx : CloseMandate} :
    closeMandate P (w.forget k) ctx = (closeMandate P w ctx).map (World.forget · k) := by
  iterate 4 refine map_skip fun _ => ?_
  rfl

theorem migrateMandate_forget {ctx : MigrateMandate} :
    migrateMandate P (w.forget k) ctx = (migrateMandate P w ctx).map (World.forget · k) := by
  iterate 14 refine map_skip fun _ => ?_
  rfl

theorem updateMandate_forget {ctx : UpdateMandate} :
    updateMandate P (w.forget k) ctx = (updateMandate P w ctx).map (World.forget · k) := by
  iterate 14 refine map_skip fun _ => ?_
  rfl

theorem chargeDelta_forget {ctx : UpdateMandatePlan} {s : PlanSwitch} {delta : Int}
    (apart : ctx.mandate ≠ k) : chargeDelta P (w.forget k) ctx s delta =
      (chargeDelta P w ctx s delta).map (World.forget · k) := by
  refine map_skip fun charge => map_same ?_ fun _ => ?_
  · rw [validatePullApproval, validatePullApproval, approval_forget apart]
    rfl
  · have transferred : invokeUpgradeTransfer P (w.forget k) ctx s.mandate s.tokenConfig charge =
        (invokeUpgradeTransfer P w ctx s.mandate s.tokenConfig charge).map (World.forget · k) :=
      map_skip fun _ => map_skip fun _ => transferChecked_forget apart
    exact map_step transferred fun paid => congrArg Except.ok (closeApproval_forget apart)

theorem settleProration_forget {ctx : UpdateMandatePlan} {s : PlanSwitch} {delta : Int}
    (apart : ctx.mandate ≠ k) : settleProration P (w.forget k) ctx s delta =
      (settleProration P w ctx s delta).map fun x => (x.1.forget k, x.2) := by
  refine map_ite (fun _ => ?_) fun _ => map_ite (fun _ => ?_) fun _ => rfl
  · exact map_step (chargeDelta_forget apart) fun _ => rfl
  · exact map_skip fun _ => map_skip fun _ => rfl

theorem updateMandatePlan_forget {ctx : UpdateMandatePlan} (apart : ctx.mandate ≠ k) :
    updateMandatePlan P (w.forget k) ctx =
      (updateMandatePlan P w ctx).map (World.forget · k) := by
  refine map_skip fun s => map_ite (fun _ => rfl) fun _ => ?_
  refine map_skip fun delta => map_skip fun _ => ?_
  exact map_step (settleProration_forget (w := w.emit _) apart) fun _ => rfl

theorem schedulePlanChange_forget {ctx : SchedulePlanChange} :
    schedulePlanChange P (w.forget k) ctx =
      (schedulePlanChange P w ctx).map (World.forget · k) := by
  refine map_skip fun s => map_ite (fun _ => rfl) fun _ => ?_
  exact map_ite (fun _ => rfl) fun _ => rfl

theorem cancelPlanChange_forget {ctx : CancelPlanChange} :
    cancelPlanChange P (w.forget k) ctx = (cancelPlanChange P w ctx).map (World.forget · k) := by
  iterate 7 refine map_skip fun _ => ?_
  rfl

theorem requestValidation_forget {ctx : RequestValidation} (apart : ctx.mandate ≠ k) :
    requestValidation P (w.forget k) ctx =
      (requestValidation P w ctx).map (World.forget · k) := by
  iterate 7 refine map_skip fun _ => ?_
  refine map_same ?_ fun _ => ?_
  · rw [approvalOrZeroed_forget apart]
    rfl
  refine map_step (startRequest_forget apart) fun _ => ?_
  rw [resetApproval_forget apart]
  rfl

theorem validateMandateCallback_forget {ctx : ValidateMandateCallback} (apart : ctx.mandate ≠ k) :
    validateMandateCallback P (w.forget k) ctx =
      (validateMandateCallback P w ctx).map (World.forget · k) := by
  refine map_skip fun mandate => ?_
  refine map_same (congrArg (orHost · _) (approval_forget apart)) fun _ => ?_
  refine map_skip fun config => map_skip fun _ => ?_
  refine map_same (validateCallback_forget apart) fun request => ?_
  iterate 4 refine map_skip fun _ => ?_
  refine map_step (grantApproval_forget apart) fun _ => ?_
  exact map_step (completeRequest_forget apart) fun _ => rfl

theorem submitUsageReport_forget {ctx : SubmitUsageReport} (apart : ctx.mandate ≠ k) :
    submitUsageReport P (w.forget k) ctx =
      (submitUsageReport P w ctx).map (World.forget · k) := by
  refine map_same ?_ fun _ => ?_
  · simp only [report_forget apart]
  iterate 18 refine map_skip fun _ => ?_
  exact congrArg Except.ok (setReport_forget apart _)

theorem requestUsageComputation_forget {ctx : RequestUsageComputation} (apart : ctx.mandate ≠ k) :
    requestUsageComputation P (w.forget k) ctx =
      (requestUsageComputation P w ctx).map (World.forget · k) := by
  have checked : checkUsageRequest P (w.forget k) ctx = checkUsageRequest P w ctx := by
    rw [checkUsageRequest, checkUsageRequest, anchorUsageReport_forget apart]
    rfl
  refine map_same checked fun r => ?_
  iterate 6 refine map_skip fun _ => ?_
  refine map_same ?_ fun _ => ?_
  · rw [approvalOrZeroed_forget apart]
    rfl
  refine map_step (startRequest_forget apart) fun _ => ?_
  rw [resetApproval_forget apart]
  rfl

theorem usageChargeCallback_forget {ctx : UsageComputationCallback} (apart : ctx.mandate ≠ k) :
    usageChargeCallback P (w.forget k) ctx =
      (usageChargeCallback P w ctx).map (World.forget · k) := by
  refine map_skip fun mandate => map_same (anchorUsageReport_forget apart) fun report => ?_
  refine map_same (congrArg (orHost · _) (approval_forget apart)) fun _ => ?_
  refine map_skip fun config => map_skip fun _ => ?_
  refine map_same (validateCallback_forget apart) fun request => ?_
  iterate 9 refine map_skip fun _ => ?_
  refine map_step (grantApproval_forget apart) fun _ => ?_
  exact map_step (completeRequest_forget apart) fun _ => rfl

theorem checkPullApproval_forget {ctx : ExecutePull} {period : Int64 × Int64}
    (apart : ctx.mandate ≠ k) :
    checkPullApproval P (w.forget k) ctx period = checkPullApproval P w ctx period := by
  rw [checkPullApproval, checkPullApproval, approval_forget apart]
  rfl

theorem validateUsageReportForSettlement_forget {merchant : Pubkey} {period : Int64 × Int64}
    {info : Option Pubkey} (apart : m ≠ k) :
    validateUsageReportForSettlement P (w.forget k) m merchant period info =
      validateUsageReportForSettlement P w m merchant period info := by
  cases info with
  | none => rfl
  | some info =>
    unfold validateUsageReportForSettlement
    simp only [report_forget apart]

theorem prepareSettlement_forget {ctx : ExecutePull} (apart : ctx.mandate ≠ k) :
    prepareSettlement P (w.forget k) ctx = prepareSettlement P w ctx := by
  rw [prepareSettlement, prepareSettlement]
  simp only [checkPullApproval_forget apart, validateUsageReportForSettlement_forget apart]
  rfl

theorem emitAutoApplied_forget {ctx : ExecutePull} {mint : Pubkey}
    {change : Option (Pubkey × Pubkey × Int64)} :
    (w.forget k).emitAutoApplied ctx mint change =
      (w.emitAutoApplied ctx mint change).forget k := by
  cases change <;> rfl

theorem executePull_forget {ctx : ExecutePull} (apart : ctx.mandate ≠ k) :
    executePull P (w.forget k) ctx = (executePull P w ctx).map (World.forget · k) := by
  refine map_same (prepareSettlement_forget apart) fun s => ?_
  have transferred : invokeBillingTransfer P (w.forget k) ctx s.terms.mandate
      s.pull.loaded.isLegacy s.pull.tokenConfig s.chargeAmount =
        (invokeBillingTransfer P w ctx s.terms.mandate s.pull.loaded.isLegacy s.pull.tokenConfig
          s.chargeAmount).map (World.forget · k) := by
    refine map_ite (fun _ => map_skip fun _ => map_skip fun _ => ?_) fun _ => rfl
    exact transferChecked_forget apart
  refine map_step transferred fun paid => map_skip fun mandate => ?_
  let written := paid.writeMandate ctx.mandate mandate s.pull.loaded.isLegacy
  have finished : (((written.forget k).markUsageReportSettled ctx.mandate s.pull.period.1
      s.usageReport).emitAutoApplied ctx s.pull.config.wrappedUsdcMint
        s.terms.autoAppliedChange).closeApproval ctx.mandate =
      (((written.markUsageReportSettled ctx.mandate s.pull.period.1
        s.usageReport).emitAutoApplied ctx s.pull.config.wrappedUsdcMint
          s.terms.autoAppliedChange).closeApproval ctx.mandate).forget k := by
    rw [markUsageReportSettled_forget apart, emitAutoApplied_forget, closeApproval_forget apart]
  exact congrArg Except.ok finished

theorem requestBillingRecord_forget {ctx : RequestBillingRecord} (apart : ctx.mandate ≠ k) :
    requestBillingRecord P (w.forget k) ctx =
      (requestBillingRecord P w ctx).map (World.forget · k) := by
  iterate 9 refine map_skip fun _ => ?_
  refine map_same ?_ fun _ => ?_
  · rw [World.billingEventOrZeroed, World.billingEventOrZeroed, event_forget apart]
  refine map_step (startRequest_forget apart) fun started => ?_
  have stored := setEvent_forget (w := started) ctx.pullsExecutedSeed apart
    (some (BillingEvent.reset
      (P.findProgramAddress (.billingEvent ctx.mandate ctx.pullsExecutedSeed)).2))
  rw [stored]
  rfl

theorem recordBillingEventCallback_forget {ctx : RecordBillingEventCallback}
    (apart : ctx.mandate ≠ k) : recordBillingEventCallback P (w.forget k) ctx =
      (recordBillingEventCallback P w ctx).map (World.forget · k) := by
  iterate 3 refine map_skip fun _ => ?_
  refine map_same (congrArg (orHost · _) (event_forget apart)) fun _ => ?_
  refine map_skip fun config => map_skip fun _ => ?_
  refine map_same (validateCallback_forget apart) fun request => ?_
  iterate 3 refine map_skip fun _ => ?_
  rw [setEvent_forget _ apart]
  exact map_step (completeRequest_forget (w := World.writeMandate _ _ _ _) apart) fun _ => rfl

/-- No instruction accepts, changes or is refused for anything kept under the address of a mandate
it does not name. -/
theorem execute_forget {i : Instruction} (apart : k ∉ i.mandates) :
    execute P (w.forget k) i = (execute P w i).map (World.forget · k) := by
  cases i with
  | createPlan ctx => exact createPlan_forget
  | createUsagePlan ctx => exact createUsagePlan_forget
  | updatePlan ctx => exact updatePlan_forget
  | updateUsagePlan ctx => exact updateUsagePlan_forget
  | migratePlan plan => exact migratePlan_forget
  | subscribe ctx => exact subscribe_forget
  | cancel ctx => exact cancel_forget
  | adminCancel ctx => exact adminCancel_forget
  | closeMandate ctx => exact closeMandate_forget
  | migrateMandate ctx => exact migrateMandate_forget
  | updateMandate ctx => exact updateMandate_forget
  | updateMandatePlan ctx => exact updateMandatePlan_forget (List.ne_of_not_mem_cons apart).symm
  | schedulePlanChange ctx => exact schedulePlanChange_forget
  | cancelPlanChange ctx => exact cancelPlanChange_forget
  | requestValidation ctx => exact requestValidation_forget (List.ne_of_not_mem_cons apart).symm
  | validateMandateCallback ctx =>
    exact validateMandateCallback_forget (List.ne_of_not_mem_cons apart).symm
  | submitUsageReport ctx => exact submitUsageReport_forget (List.ne_of_not_mem_cons apart).symm
  | requestUsageComputation ctx =>
    exact requestUsageComputation_forget (List.ne_of_not_mem_cons apart).symm
  | usageChargeCallback ctx =>
    exact usageChargeCallback_forget (List.ne_of_not_mem_cons apart).symm
  | executePull ctx => exact executePull_forget (List.ne_of_not_mem_cons apart).symm
  | requestBillingRecord ctx =>
    exact requestBillingRecord_forget (List.ne_of_not_mem_cons apart).symm
  | recordBillingEventCallback ctx =>
    exact recordBillingEventCallback_forget (List.ne_of_not_mem_cons apart).symm

end VelaProtocol
