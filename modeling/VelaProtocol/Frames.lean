import VelaProtocol.Instructions.Configuration
import VelaProtocol.Lib.Ensures
import VelaProtocol.Program
import VelaProtocol.Streaming

/-! What the instructions of billing and configuration leave alone: streams and agent mandates,
and wherever no tokens move the token accounts too. -/
namespace VelaProtocol

open Guard

variable {P : Platform} {w w₁ w' : World}

/-- Streams and agent mandates are as they were. -/
structure Untouched (w w' : World) : Prop where
  stream : w'.stream = w.stream
  agentMandate : w'.agentMandate = w.agentMandate

/-- So are the token accounts, and nothing was transferred. -/
structure Unmoved (w w' : World) : Prop extends Untouched w w' where
  tokenAccount : w'.tokenAccount = w.tokenAccount
  splTokenAccount : w'.splTokenAccount = w.splTokenAccount
  transfersBy : ∀ k, w'.transfersBy k = w.transfersBy k

theorem Untouched.trans (first : Untouched w w₁) (second : Untouched w₁ w') : Untouched w w' :=
  ⟨second.stream.trans first.stream, second.agentMandate.trans first.agentMandate⟩

theorem Unmoved.refl (w : World) : Unmoved w w := ⟨⟨rfl, rfl⟩, rfl, rfl, fun _ => rfl⟩

theorem Unmoved.trans (first : Unmoved w w₁) (second : Unmoved w₁ w') : Unmoved w w' where
  toUntouched := first.toUntouched.trans second.toUntouched
  tokenAccount := second.tokenAccount.trans first.tokenAccount
  splTokenAccount := second.splTokenAccount.trans first.splTokenAccount
  transfersBy k := (second.transfersBy k).trans (first.transfersBy k)

theorem TokenOnly.untouched (only : TokenOnly w w') : Untouched w w' :=
  ⟨only.stream, only.agentMandate⟩

theorem ensureMerchantState_unmoved {merchant : Pubkey} {bump : UInt8} :
    Ensures (ensureMerchantState w merchant bump) fun result => Unmoved w result.1 := by
  intro result ensured
  rw [(ensureMerchantState_eq_ok ensured).1]
  exact ⟨⟨rfl, rfl⟩, rfl, rfl, fun _ => rfl⟩

theorem createPlan_unmoved {ctx : CreatePlan} :
    Ensures (createPlan P w ctx) (Unmoved w) := by
  unfold createPlan
  iterate 6 refine .skip fun _ => ?_
  refine .bind ensureMerchantState_unmoved ?_
  rintro ⟨w₁, state⟩ same
  iterate 5 refine .skip fun _ => ?_
  exact .of_pure (same.trans ⟨⟨rfl, rfl⟩, rfl, rfl, fun _ => rfl⟩)

theorem createUsagePlan_unmoved {ctx : CreateUsagePlan} :
    Ensures (createUsagePlan P w ctx) (Unmoved w) := by
  unfold createUsagePlan
  iterate 6 refine .skip fun _ => ?_
  refine .bind ensureMerchantState_unmoved ?_
  rintro ⟨w₁, state⟩ same
  iterate 4 refine .skip fun _ => ?_
  exact .of_pure (same.trans ⟨⟨rfl, rfl⟩, rfl, rfl, fun _ => rfl⟩)

theorem updatePlan_unmoved {ctx : UpdatePlan} :
    Ensures (updatePlan P w ctx) (Unmoved w) := by
  unfold updatePlan
  iterate 6 refine .skip fun _ => ?_
  exact .of_pure ⟨⟨rfl, rfl⟩, rfl, rfl, fun _ => rfl⟩

theorem updateUsagePlan_unmoved {ctx : UpdateUsagePlan} :
    Ensures (updateUsagePlan P w ctx) (Unmoved w) := by
  unfold updateUsagePlan
  iterate 9 refine .skip fun _ => ?_
  exact .of_pure ⟨⟨rfl, rfl⟩, rfl, rfl, fun _ => rfl⟩

theorem migratePlan_unmoved {plan : Pubkey} :
    Ensures (migratePlan P w plan) (Unmoved w) := by
  refine .skip fun loaded => ?_
  cases loaded with
  | flat p => exact .skip fun _ => .of_pure (.refl w)
  | usage p => exact .skip fun _ => .of_pure (.refl w)
  | legacyFlat p => exact .of_pure ⟨⟨rfl, rfl⟩, rfl, rfl, fun _ => rfl⟩
  | legacyUsage p => exact .of_pure ⟨⟨rfl, rfl⟩, rfl, rfl, fun _ => rfl⟩

theorem subscribe_untouched {ctx : Subscribe} :
    Ensures (subscribe P w ctx) (Untouched w) := by
  unfold subscribe
  iterate 12 refine .skip fun _ => ?_
  refine .bind (fun _ opened => (createIdempotent_frame opened).1) fun w₁ credential => ?_
  iterate 3 refine .skip fun _ => ?_
  refine .bind (fun _ minted => (mintTo_frame minted).1) fun w₂ minted => ?_
  iterate 2 refine .skip fun _ => ?_
  exact .of_pure ((credential.trans minted).untouched.trans ⟨rfl, rfl⟩)

theorem cancel_untouched {ctx : Cancel} :
    Ensures (cancel P w ctx) (Untouched w) := by
  unfold cancel
  iterate 5 refine .skip fun _ => ?_
  refine .bind (fun _ burned => (burn_frame burned).1) fun w₁ burned => ?_
  exact .of_pure (burned.untouched.trans ⟨rfl, rfl⟩)

theorem adminCancel_untouched {ctx : Cancel} :
    Ensures (adminCancel P w ctx) (Untouched w) := by
  unfold adminCancel
  iterate 7 refine .skip fun _ => ?_
  refine .bind (fun _ burned => (burn_frame burned).1) fun w₁ burned => ?_
  exact .of_pure (burned.untouched.trans ⟨rfl, rfl⟩)

theorem closeMandate_unmoved {ctx : CloseMandate} :
    Ensures (closeMandate P w ctx) (Unmoved w) := by
  unfold closeMandate
  iterate 4 refine .skip fun _ => ?_
  exact .of_pure ⟨⟨rfl, rfl⟩, rfl, rfl, fun _ => rfl⟩

theorem migrateMandate_unmoved {ctx : MigrateMandate} :
    Ensures (migrateMandate P w ctx) (Unmoved w) := by
  unfold migrateMandate
  iterate 14 refine .skip fun _ => ?_
  exact .of_pure ⟨⟨rfl, rfl⟩, rfl, rfl, fun _ => rfl⟩

theorem updateMandate_unmoved {ctx : UpdateMandate} :
    Ensures (updateMandate P w ctx) (Unmoved w) := by
  unfold updateMandate
  iterate 14 refine .skip fun _ => ?_
  exact .of_pure ⟨⟨rfl, rfl⟩, rfl, rfl, fun _ => rfl⟩

theorem schedulePlanChange_unmoved {ctx : SchedulePlanChange} :
    Ensures (schedulePlanChange P w ctx) (Unmoved w) := by
  refine .skip fun s => ?_
  refine .ite (fun _ => .of_pure (.refl w)) fun _ => ?_
  refine .ite (fun _ => .of_pure (.refl w)) fun _ => ?_
  exact .of_pure ⟨⟨rfl, rfl⟩, rfl, rfl, fun _ => rfl⟩

theorem cancelPlanChange_unmoved {ctx : CancelPlanChange} :
    Ensures (cancelPlanChange P w ctx) (Unmoved w) := by
  unfold cancelPlanChange
  iterate 7 refine .skip fun _ => ?_
  exact .of_pure ⟨⟨rfl, rfl⟩, rfl, rfl, fun _ => rfl⟩

theorem startRequest_unmoved {key : RequestKey} {offset nonce : UInt64} :
    Ensures (w.startRequest P key offset nonce) (Unmoved w) :=
  .skip fun _ => .of_pure ⟨⟨rfl, rfl⟩, rfl, rfl, fun _ => rfl⟩

theorem completeRequest_unmoved {key : RequestKey} {request : ArciumRequestState} :
    Ensures (w.completeRequest key request) (Unmoved w) :=
  .skip fun _ => .of_pure ⟨⟨rfl, rfl⟩, rfl, rfl, fun _ => rfl⟩

theorem grantApproval_unmoved {mandate : Pubkey} {period : Int64 × Int64} {approved : Bool}
    {amount : UInt64} : Ensures (grantApproval P w mandate period approved amount) (Unmoved w) :=
  .skip fun _ => .of_pure ⟨⟨rfl, rfl⟩, rfl, rfl, fun _ => rfl⟩

theorem requestValidation_unmoved {ctx : RequestValidation} :
    Ensures (requestValidation P w ctx) (Unmoved w) := by
  unfold requestValidation
  iterate 8 refine .skip fun _ => ?_
  refine .bind startRequest_unmoved fun w₁ started => ?_
  exact .of_pure (started.trans ⟨⟨rfl, rfl⟩, rfl, rfl, fun _ => rfl⟩)

theorem validateMandateCallback_unmoved {ctx : ValidateMandateCallback} :
    Ensures (validateMandateCallback P w ctx) (Unmoved w) := by
  unfold validateMandateCallback
  iterate 9 refine .skip fun _ => ?_
  refine .bind grantApproval_unmoved fun w₁ granted => ?_
  refine .bind completeRequest_unmoved fun w₂ completed => ?_
  exact .of_pure (granted.trans (completed.trans ⟨⟨rfl, rfl⟩, rfl, rfl, fun _ => rfl⟩))

theorem submitUsageReport_unmoved {ctx : SubmitUsageReport} :
    Ensures (submitUsageReport P w ctx) (Unmoved w) := by
  intro w' h
  obtain ⟨report, rfl, _⟩ := submitUsageReport_eq_ok h
  exact ⟨⟨rfl, rfl⟩, rfl, rfl, fun _ => rfl⟩

theorem requestUsageComputation_unmoved {ctx : RequestUsageComputation} :
    Ensures (requestUsageComputation P w ctx) (Unmoved w) := by
  unfold requestUsageComputation
  iterate 8 refine .skip fun _ => ?_
  refine .bind startRequest_unmoved fun w₁ started => ?_
  exact .of_pure (started.trans ⟨⟨rfl, rfl⟩, rfl, rfl, fun _ => rfl⟩)

theorem usageChargeCallback_unmoved {ctx : UsageComputationCallback} :
    Ensures (usageChargeCallback P w ctx) (Unmoved w) := by
  unfold usageChargeCallback
  iterate 15 refine .skip fun _ => ?_
  refine .bind grantApproval_unmoved fun w₁ granted => ?_
  refine .bind completeRequest_unmoved fun w₂ completed => ?_
  exact .of_pure (granted.trans (completed.trans ⟨⟨rfl, rfl⟩, rfl, rfl, fun _ => rfl⟩))

theorem requestBillingRecord_unmoved {ctx : RequestBillingRecord} :
    Ensures (requestBillingRecord P w ctx) (Unmoved w) := by
  unfold requestBillingRecord
  iterate 10 refine .skip fun _ => ?_
  refine .bind startRequest_unmoved fun w₁ started => ?_
  exact .of_pure (started.trans ⟨⟨rfl, rfl⟩, rfl, rfl, fun _ => rfl⟩)

theorem recordBillingEventCallback_unmoved {ctx : RecordBillingEventCallback} :
    Ensures (recordBillingEventCallback P w ctx) (Unmoved w) := by
  unfold recordBillingEventCallback
  iterate 10 refine .skip fun _ => ?_
  refine .bind completeRequest_unmoved fun w₁ completed => ?_
  refine .of_pure (.trans ?_ (completed.trans ⟨⟨rfl, rfl⟩, rfl, rfl, fun _ => rfl⟩))
  exact ⟨⟨rfl, rfl⟩, rfl, rfl, fun _ => rfl⟩

structure Configured (w w' : World) : Prop extends Untouched w w' where
  clock : w'.clock = w.clock
  mandate : w'.mandate = w.mandate
  counter : ∀ merchant, w.mandateCounter merchant ≤ w'.mandateCounter merchant

theorem Configured.of_eq (untouched : Untouched w w') (clock : w'.clock = w.clock)
    (mandate : w'.mandate = w.mandate) (merchants : w'.merchantState = w.merchantState) :
    Configured w w' :=
  ⟨untouched, clock, mandate, mandateCounter_le_of_eq merchants⟩

theorem initConfig_unmoved {ctx : InitConfig} :
    Ensures (initConfig P w ctx) fun w' => Configured w w' ∧ Unmoved w w' := by
  unfold initConfig
  iterate 4 refine .skip fun _ => ?_
  exact .of_pure ⟨.of_eq ⟨rfl, rfl⟩ rfl rfl rfl, ⟨⟨rfl, rfl⟩, rfl, rfl, fun _ => rfl⟩⟩

theorem updateConfig_unmoved {ctx : UpdateConfig} :
    Ensures (updateConfig P w ctx) fun w' => Configured w w' ∧ Unmoved w w' := by
  unfold updateConfig
  iterate 4 refine .skip fun _ => ?_
  exact .of_pure ⟨.of_eq ⟨rfl, rfl⟩ rfl rfl rfl, ⟨⟨rfl, rfl⟩, rfl, rfl, fun _ => rfl⟩⟩

theorem pauseProtocol_unmoved {admin : Pubkey} :
    Ensures (pauseProtocol w admin) fun w' => Configured w w' ∧ Unmoved w w' := by
  unfold pauseProtocol
  iterate 2 refine .skip fun _ => ?_
  exact .of_pure ⟨.of_eq ⟨rfl, rfl⟩ rfl rfl rfl, ⟨⟨rfl, rfl⟩, rfl, rfl, fun _ => rfl⟩⟩

theorem unpauseProtocol_unmoved {admin : Pubkey} :
    Ensures (unpauseProtocol w admin) fun w' => Configured w w' ∧ Unmoved w w' := by
  unfold unpauseProtocol
  iterate 2 refine .skip fun _ => ?_
  exact .of_pure ⟨.of_eq ⟨rfl, rfl⟩ rfl rfl rfl, ⟨⟨rfl, rfl⟩, rfl, rfl, fun _ => rfl⟩⟩

theorem initKeeperConfig_unmoved {ctx : InitKeeperConfig} :
    Ensures (initKeeperConfig w ctx) fun w' => Configured w w' ∧ Unmoved w w' := by
  unfold initKeeperConfig
  iterate 4 refine .skip fun _ => ?_
  exact .of_pure ⟨.of_eq ⟨rfl, rfl⟩ rfl rfl rfl, ⟨⟨rfl, rfl⟩, rfl, rfl, fun _ => rfl⟩⟩

theorem updateKeeperConfig_unmoved {ctx : UpdateKeeperConfig} :
    Ensures (updateKeeperConfig w ctx) fun w' => Configured w w' ∧ Unmoved w w' := by
  unfold updateKeeperConfig
  iterate 6 refine .skip fun _ => ?_
  exact .of_pure ⟨.of_eq ⟨rfl, rfl⟩ rfl rfl rfl, ⟨⟨rfl, rfl⟩, rfl, rfl, fun _ => rfl⟩⟩

theorem initTokenConfig_unmoved {ctx : InitTokenConfig} :
    Ensures (initTokenConfig w ctx) fun w' => Configured w w' ∧ Unmoved w w' := by
  unfold initTokenConfig
  iterate 4 refine .skip fun _ => ?_
  exact .of_pure ⟨.of_eq ⟨rfl, rfl⟩ rfl rfl rfl, ⟨⟨rfl, rfl⟩, rfl, rfl, fun _ => rfl⟩⟩

theorem updateTokenConfig_unmoved {ctx : UpdateTokenConfig} :
    Ensures (updateTokenConfig w ctx) fun w' => Configured w w' ∧ Unmoved w w' := by
  unfold updateTokenConfig
  iterate 4 refine .skip fun _ => ?_
  exact .of_pure ⟨.of_eq ⟨rfl, rfl⟩ rfl rfl rfl, ⟨⟨rfl, rfl⟩, rfl, rfl, fun _ => rfl⟩⟩

theorem createMint_only {key : Pubkey} {mint : Mint} :
    Ensures (w.createMint key mint) fun w' => w' = { w with mint := w'.mint } :=
  .skip fun _ => .of_pure rfl

theorem initMerchantCredential_unmoved {ctx : InitMerchantCredential} :
    Ensures (initMerchantCredential P w ctx) fun w' => Configured w w' ∧ Unmoved w w' := by
  unfold initMerchantCredential
  refine .skip fun _ => ?_
  refine .bind (fun _ ensured => ensureMerchantState_eq_ok ensured) ?_
  rintro ⟨w₁, state⟩ ⟨same, counter⟩
  obtain rfl : w₁ = w.writeMerchantState ctx.merchant state := same
  have upgraded := writeMerchantState_counter counter.le
  refine .ite (fun _ => ?_) fun _ => ?_
  · refine .skip fun _ => .of_pure ⟨⟨⟨rfl, rfl⟩, rfl, rfl, upgraded⟩, ?_⟩
    exact ⟨⟨rfl, rfl⟩, rfl, rfl, fun _ => rfl⟩
  · refine .bind createMint_only fun w₂ only => ?_
    rw [only]
    refine .of_pure ⟨⟨⟨rfl, rfl⟩, rfl, rfl, fun merchant => ?_⟩,
      ⟨⟨rfl, rfl⟩, rfl, rfl, fun _ => rfl⟩⟩
    refine (upgraded merchant).trans (writeMerchantState_counter ?_ merchant)
    exact (writeMerchantState_self_counter w ctx.merchant state).le

theorem initCompDef_unmoved {ctx : InitCompDef} :
    Ensures (initCompDef P w ctx) fun w' => Configured w w' ∧ Unmoved w w' :=
  .skip fun _ => .of_pure ⟨.of_eq ⟨rfl, rfl⟩ rfl rfl rfl, .refl w⟩

end VelaProtocol
