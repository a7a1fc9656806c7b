import VelaProtocol.Addresses

/-! The index a merchant's next stream is opened under: every instruction that rewrites the record
of a merchant, in either layout, keeps it or counts it on. -/
namespace VelaProtocol

open Guard

variable {P : Platform} {w w' : World}

def World.streamCounter (w : World) (merchant : Pubkey) : Nat :=
  ((w.merchantState merchant).map fun state =>
    state.intoCurrent.streamMandateCounter.toNat).getD 0

theorem streamCounter_congr (same : w'.merchantState = w.merchantState) :
    w'.streamCounter = w.streamCounter := by
  funext merchant
  rw [World.streamCounter, World.streamCounter, same]

theorem writeMerchantState_streams {merchant : Pubkey} {state : MerchantState}
    (same : state.streamMandateCounter.toNat = w.streamCounter merchant) :
    (w.writeMerchantState merchant state).streamCounter = w.streamCounter := by
  funext other
  by_cases here : other = merchant
  · subst here
    rw [← same]
    simp only [World.streamCounter, World.writeMerchantState, Function.update_self,
      Option.map_some, Option.getD_some, LoadedMerchantState.intoCurrent]
  · simp only [World.streamCounter, World.writeMerchantState, Function.update_of_ne here]

theorem anchorMerchantState_streams {merchant : Pubkey} {state : MerchantState}
    (h : anchorMerchantState w merchant = .ok state) :
    state.streamMandateCounter.toNat = w.streamCounter merchant := by
  unfold anchorMerchantState at h
  split at h
  · cases h
  · cases h
  · rename_i found
    cases h
    rw [World.streamCounter, found]
    rfl

theorem ensureMerchantState_streams {merchant : Pubkey} {bump : UInt8}
    {result : World × MerchantState} (h : ensureMerchantState w merchant bump = .ok result) :
    result.2.streamMandateCounter.toNat = w.streamCounter merchant ∧
      result.1 = w.writeMerchantState merchant result.2 := by
  refine ⟨?_, (ensureMerchantState_eq_ok h).1⟩
  unfold ensureMerchantState at h
  split at h
  · rename_i none
    cases h
    rw [World.streamCounter, none]
    rfl
  · rename_i loaded found
    simp only [require_bind_eq_ok, pure_eq_ok] at h
    obtain ⟨_, rfl⟩ := h
    rw [World.streamCounter, found]
    rfl

theorem streamCounter_written {merchant : Pubkey} {state : MerchantState}
    (written : w'.merchantState =
      Function.update w.merchantState merchant (some (.current state)))
    (same : state.streamMandateCounter.toNat = w.streamCounter merchant) :
    w'.streamCounter = w.streamCounter := by
  have record : w'.merchantState = (w.writeMerchantState merchant state).merchantState := written
  exact (streamCounter_congr record).trans (writeMerchantState_streams same)

theorem createPlan_streams {ctx : CreatePlan} (h : createPlan P w ctx = .ok w') :
    w'.streamCounter = w.streamCounter := by
  iterate 6 obtain ⟨_, _, h⟩ := bind_eq_ok.mp h
  obtain ⟨⟨w₁, state⟩, ensured, h⟩ := bind_eq_ok.mp h
  iterate 5 obtain ⟨_, _, h⟩ := bind_eq_ok.mp h
  cases h
  obtain ⟨counted, same⟩ := ensureMerchantState_streams ensured
  obtain rfl : w₁ = w.writeMerchantState ctx.merchant state := same
  have upgraded := writeMerchantState_streams counted
  refine (streamCounter_written rfl ?_).trans upgraded
  exact counted.trans (congrFun upgraded ctx.merchant).symm

theorem createUsagePlan_streams {ctx : CreateUsagePlan} (h : createUsagePlan P w ctx = .ok w') :
    w'.streamCounter = w.streamCounter := by
  iterate 6 obtain ⟨_, _, h⟩ := bind_eq_ok.mp h
  obtain ⟨⟨w₁, state⟩, ensured, h⟩ := bind_eq_ok.mp h
  iterate 4 obtain ⟨_, _, h⟩ := bind_eq_ok.mp h
  cases h
  obtain ⟨counted, same⟩ := ensureMerchantState_streams ensured
  obtain rfl : w₁ = w.writeMerchantState ctx.merchant state := same
  exact (streamCounter_congr rfl).trans (writeMerchantState_streams counted)

theorem subscribe_streams {ctx : Subscribe} (h : subscribe P w ctx = .ok w') :
    w'.streamCounter = w.streamCounter := by
  obtain ⟨state, anchored, h⟩ := bind_eq_ok.mp h
  iterate 11 obtain ⟨_, _, h⟩ := bind_eq_ok.mp h
  obtain ⟨w₁, credential, h⟩ := bind_eq_ok.mp h
  iterate 3 obtain ⟨_, _, h⟩ := bind_eq_ok.mp h
  obtain ⟨w₂, minted, h⟩ := bind_eq_ok.mp h
  iterate 2 obtain ⟨_, _, h⟩ := bind_eq_ok.mp h
  cases h
  have only := (createIdempotent_frame credential).1.trans (mintTo_frame minted).1
  have counted := anchorMerchantState_streams anchored
  refine streamCounter_written (congrArg (Function.update · ctx.merchant _) only.merchantState) ?_
  exact counted

theorem migrateMandate_streams {ctx : MigrateMandate} (h : migrateMandate P w ctx = .ok w') :
    w'.streamCounter = w.streamCounter := by
  obtain ⟨state, anchored, h⟩ := bind_eq_ok.mp h
  iterate 13 obtain ⟨_, _, h⟩ := bind_eq_ok.mp h
  cases h
  have counted := anchorMerchantState_streams anchored
  exact streamCounter_written rfl counted

def Instruction.counts : Instruction → Bool
  | .createPlan _ => true
  | .createUsagePlan _ => true
  | .subscribe _ => true
  | .migrateMandate _ => true
  | _ => false

theorem updateMandatePlan_merchants {ctx : UpdateMandatePlan} :
    Ensures (updateMandatePlan P w ctx) fun w' => w'.merchantState = w.merchantState := by
  refine .skip fun s => .ite (fun _ => .of_pure rfl) fun _ => ?_
  refine .skip fun delta => .skip fun _ => ?_
  refine .bind (R := fun result => result.1.merchantState = w.merchantState) ?_ ?_
  · refine .ite (fun _ => ?_) fun _ => .ite (fun _ => ?_) fun _ => .of_pure rfl
    · refine .bind (R := fun paid => paid.merchantState = w.merchantState)
        ?_ fun _ paid => .of_pure paid
      refine .skip fun _ => .skip fun _ => .bind (.skip fun _ => invokeTransfer_only) ?_
      exact fun paid spec => .of_pure spec.1.merchantState
    · exact .skip fun _ => .skip fun _ => .of_pure rfl
  · exact fun result same => .of_pure same

theorem finishPull_merchants (w : World) (ctx : ExecutePull) (periodStart : Int64)
    (report : Option Pubkey) (mint : Pubkey) (change : Option (Pubkey × Pubkey × Int64)) :
    ((w.markUsageReportSettled ctx.mandate periodStart report).emitAutoApplied ctx mint
      change).merchantState = w.merchantState := by
  cases report <;> cases change <;> rfl

theorem executePull_merchants {ctx : ExecutePull} :
    Ensures (executePull P w ctx) fun w' => w'.merchantState = w.merchantState := by
  refine .skip fun s => .bind (R := fun paid => paid.merchantState = w.merchantState) ?_ ?_
  · refine .ite (fun _ => .skip fun _ => ?_) fun _ => .of_pure rfl
    exact invokeTransfer_only.mono fun _ spec => spec.1.merchantState
  · refine fun paid same => .skip fun mandate => .of_pure (Eq.trans ?_ same)
    exact finishPull_merchants (paid.writeMandate ctx.mandate mandate s.pull.loaded.isLegacy) ctx
      s.pull.period.1 s.usageReport s.pull.config.wrappedUsdcMint s.terms.autoAppliedChange

theorem billing_merchants {i : Instruction} (other : i.counts = false)
    (h : execute P w i = .ok w') : w'.merchantState = w.merchantState := by
  cases i with
  | createPlan ctx => cases other
  | createUsagePlan ctx => cases other
  | subscribe ctx => cases other
  | migrateMandate ctx => cases other
  | updatePlan ctx =>
    iterate 6 obtain ⟨_, _, h⟩ := bind_eq_ok.mp h
    cases h
    rfl
  | updateUsagePlan ctx =>
    iterate 9 obtain ⟨_, _, h⟩ := bind_eq_ok.mp h
    cases h
    rfl
  | migratePlan plan =>
    obtain ⟨loaded, _, h⟩ := bind_eq_ok.mp h
    cases loaded with
    | flat p =>
      obtain ⟨_, h⟩ := require_bind_eq_ok.mp h
      cases h
      rfl
    | usage p =>
      obtain ⟨_, h⟩ := require_bind_eq_ok.mp h
      cases h
      rfl
    | legacyFlat p =>
      cases h
      rfl
    | legacyUsage p =>
      cases h
      rfl
  | cancel ctx =>
    iterate 5 obtain ⟨_, _, h⟩ := bind_eq_ok.mp h
    obtain ⟨w₁, burned, h⟩ := bind_eq_ok.mp h
    cases h
    exact (burn_frame burned).1.merchantState
  | adminCancel ctx =>
    iterate 7 obtain ⟨_, _, h⟩ := bind_eq_ok.mp h
    obtain ⟨w₁, burned, h⟩ := bind_eq_ok.mp h
    cases h
    exact (burn_frame burned).1.merchantState
  | closeMandate ctx =>
    iterate 4 obtain ⟨_, _, h⟩ := bind_eq_ok.mp h
    cases h
    rfl
  | updateMandate ctx =>
    iterate 14 obtain ⟨_, _, h⟩ := bind_eq_ok.mp h
    cases h
    rfl
  | updateMandatePlan ctx => exact updateMandatePlan_merchants w' h
  | schedulePlanChange ctx =>
    have kept : Ensures (schedulePlanChange P w ctx)
      fun w' => w'.merchantState = w.merchantState := by
      refine .skip fun s => .ite (fun _ => .of_pure rfl) fun _ => ?_
      exact .ite (fun _ => .of_pure rfl) fun _ => .of_pure rfl
    exact kept w' h
  | cancelPlanChange ctx =>
    iterate 7 obtain ⟨_, _, h⟩ := bind_eq_ok.mp h
    cases h
    rfl
  | requestValidation ctx =>
    iterate 8 obtain ⟨_, _, h⟩ := bind_eq_ok.mp h
    obtain ⟨w₁, started, h⟩ := bind_eq_ok.mp h
    cases h
    obtain ⟨_, rfl⟩ := startRequest_eq_ok started
    rfl
  | validateMandateCallback ctx =>
    iterate 9 obtain ⟨_, _, h⟩ := bind_eq_ok.mp h
    obtain ⟨w₁, granted, h⟩ := bind_eq_ok.mp h
    obtain ⟨_, _, granted⟩ := bind_eq_ok.mp granted
    cases granted
    obtain ⟨w₂, completed, h⟩ := bind_eq_ok.mp h
    obtain ⟨_, _, completed⟩ := bind_eq_ok.mp completed
    cases completed
    cases h
    rfl
  | submitUsageReport ctx =>
    obtain ⟨_, rfl, _⟩ := submitUsageReport_eq_ok h
    rfl
  | requestUsageComputation ctx =>
    iterate 8 obtain ⟨_, _, h⟩ := bind_eq_ok.mp h
    obtain ⟨w₁, started, h⟩ := bind_eq_ok.mp h
    cases h
    obtain ⟨_, rfl⟩ := startRequest_eq_ok started
    rfl
  | usageChargeCallback ctx =>
    iterate 15 obtain ⟨_, _, h⟩ := bind_eq_ok.mp h
    obtain ⟨w₁, granted, h⟩ := bind_eq_ok.mp h
    obtain ⟨_, _, granted⟩ := bind_eq_ok.mp granted
    cases granted
    obtain ⟨w₂, completed, h⟩ := bind_eq_ok.mp h
    obtain ⟨_, _, completed⟩ := bind_eq_ok.mp completed
    cases completed
    cases h
    rfl
  | executePull ctx => exact executePull_merchants w' h
  | requestBillingRecord ctx =>
    iterate 10 obtain ⟨_, _, h⟩ := bind_eq_ok.mp h
    obtain ⟨w₁, started, h⟩ := bind_eq_ok.mp h
    cases h
    obtain ⟨_, rfl⟩ := startRequest_eq_ok started
    rfl
  | recordBillingEventCallback ctx =>
    iterate 10 obtain ⟨_, _, h⟩ := bind_eq_ok.mp h
    obtain ⟨w₁, completed, h⟩ := bind_eq_ok.mp h
    obtain ⟨_, _, completed⟩ := bind_eq_ok.mp completed
    cases completed
    cases h
    rfl

theorem billing_streams {i : Instruction} (h : execute P w i = .ok w') :
    w'.streamCounter = w.streamCounter := by
  by_cases counts : i.counts = true
  · cases i with
    | createPlan ctx => exact createPlan_streams h
    | createUsagePlan ctx => exact createUsagePlan_streams h
    | subscribe ctx => exact subscribe_streams h
    | migrateMandate ctx => exact migrateMandate_streams h
    | _ => cases counts
  · exact streamCounter_congr (billing_merchants (Bool.eq_false_iff.mpr counts) h)

theorem initMerchantCredential_streams {ctx : InitMerchantCredential} :
    Ensures (initMerchantCredential P w ctx) fun w' => w'.streamCounter = w.streamCounter := by
  refine .skip fun _ => .bind (fun _ ensured => ensureMerchantState_streams ensured) ?_
  rintro ⟨w₁, state⟩ ⟨counted, same⟩
  obtain rfl : w₁ = w.writeMerchantState ctx.merchant state := same
  have upgraded := writeMerchantState_streams counted
  refine .ite (fun _ => .skip fun _ => .of_pure upgraded) fun _ => ?_
  refine .bind createMint_only fun w₂ only => ?_
  rw [only]
  refine .of_pure ((streamCounter_written rfl ?_).trans upgraded)
  exact counted.trans (congrFun upgraded ctx.merchant).symm

theorem initWrappedMint_merchants {ctx : InitWrappedMint} :
    Ensures (initWrappedMint P w ctx) fun w' => w'.merchantState = w.merchantState := by
  refine .skip fun _ => .bind (R := fun w₁ => w₁.merchantState = w.merchantState)
    ?_ fun w₁ same => ?_
  · unfold World.ensureVault
    cases w.splTokenAccount (ctx.wrappingVault P) with
    | some account => exact .skip fun _ => .skip fun _ => .of_pure rfl
    | none => exact .of_pure rfl
  · refine .skip fun _ => .skip fun _ => .skip fun _ => .bind createMint_only fun w₂ only => ?_
    rw [only]
    exact .of_pure same

theorem configure_streams {i : ConfigInstruction} :
    Ensures (configure P w i) fun w' => w'.streamCounter = w.streamCounter := by
  cases i with
  | initConfig ctx =>
    iterate 4 refine Ensures.skip fun _ => ?_
    exact .of_pure rfl
  | updateConfig ctx =>
    iterate 4 refine Ensures.skip fun _ => ?_
    exact .of_pure rfl
  | pauseProtocol admin => exact .skip fun _ => .skip fun _ => .of_pure rfl
  | unpauseProtocol admin => exact .skip fun _ => .skip fun _ => .of_pure rfl
  | initKeeperConfig ctx =>
    iterate 4 refine Ensures.skip fun _ => ?_
    exact .of_pure rfl
  | updateKeeperConfig ctx =>
    iterate 6 refine Ensures.skip fun _ => ?_
    exact .of_pure rfl
  | initTokenConfig ctx =>
    iterate 4 refine Ensures.skip fun _ => ?_
    exact .of_pure rfl
  | updateTokenConfig ctx =>
    iterate 4 refine Ensures.skip fun _ => ?_
    exact .of_pure rfl
  | initWrappedMint ctx => exact initWrappedMint_merchants.mono fun _ => streamCounter_congr
  | initMerchantCredential ctx => exact initMerchantCredential_streams
  | initCompDef circuit ctx => exact .skip fun _ => .of_pure rfl

theorem StreamOpened.streams {ctx : CreateStreamMandate} {state : MerchantState}
    {stream : StreamMandate} (spec : StreamOpened P w ctx w' state stream) (merchant : Pubkey) :
    w.streamCounter merchant ≤ w'.streamCounter merchant := by
  obtain ⟨counter, next, written⟩ := spec.counted
  by_cases here : merchant = ctx.merchant
  · subst here
    simp only [World.streamCounter, written, spec.loaded, Function.update_self, Option.map_some,
      Option.getD_some, LoadedMerchantState.intoCurrent]
    omega
  · simp only [World.streamCounter, written, Function.update_of_ne here, le_refl]

theorem protocol_streams {a : ProtocolAction} (step : ProtocolStep P w a w') (merchant : Pubkey) :
    w.streamCounter merchant ≤ w'.streamCounter merchant := by
  have kept (same : w'.streamCounter = w.streamCounter) :
      w.streamCounter merchant ≤ w'.streamCounter merchant := (congrFun same merchant).ge
  cases a with
  | instruction i =>
    cases i with
    | billing i => exact kept (billing_streams step)
    | streaming i =>
      by_cases created : ∃ ctx, i = .createStreamMandate ctx
      · obtain ⟨ctx, rfl⟩ := created
        obtain ⟨_, _, spec⟩ := createStreamMandate_eq_ok step
        exact spec.streams merchant
      · obtain ⟨_, _, _, _, spec⟩ := call_called (fun ctx same => created ⟨ctx, same⟩) step
        obtain ⟨_, _, _, _, merchants⟩ := spec.effect
        exact kept (streamCounter_congr merchants)
    | agent i =>
      by_cases created : ∃ ctx, i = .createAgentMandate ctx
      · obtain ⟨ctx, rfl⟩ := created
        obtain ⟨_, spec⟩ := createAgentMandate_eq_ok step
        exact kept (streamCounter_congr spec.frame.merchantState)
      · obtain ⟨_, _, spec⟩ := agent_called (fun ctx same => created ⟨ctx, same⟩) step
        exact kept (streamCounter_congr spec.frame.merchantState)
    | config i => exact kept (configure_streams w' step)
    | wrap ctx => exact kept (streamCounter_congr (wrap_only step).frame.merchantState)
    | unwrapTokens ctx =>
      exact kept (streamCounter_congr (unwrapTokens_only step).frame.merchantState)
  | tick clock =>
    obtain ⟨_, rfl⟩ := step
    exact le_refl _
  | outside => exact kept (streamCounter_congr step.merchantState)

end VelaProtocol
