import VelaProtocol.Addresses

/-! What a stored mandate is for as long as its account lives: its layout and the fields its
address is derived from. Plan changes and rewrites keep all of them. -/
namespace VelaProtocol

open Guard

variable {P : Platform} {w w₁ w' : World} {k key : Pubkey}

/-- The same mandate, possibly on another plan; a legacy record's plan is part of its address. -/
structure SameIdentity (before after : LoadedMandateAccount) : Prop where
  layout : after.isLegacy = before.isLegacy
  subscriber : after.intoCurrent.subscriber = before.intoCurrent.subscriber
  merchant : after.intoCurrent.merchant = before.intoCurrent.merchant
  mandateIndex : after.intoCurrent.mandateIndex = before.intoCurrent.mandateIndex
  bump : after.intoCurrent.bump = before.intoCurrent.bump
  version : before.intoCurrent.version = currentAccountVersion →
    after.intoCurrent.version = currentAccountVersion
  plan : before.isLegacy = true → after.intoCurrent.plan = before.intoCurrent.plan

theorem SameIdentity.refl (loaded : LoadedMandateAccount) : SameIdentity loaded loaded :=
  ⟨rfl, rfl, rfl, rfl, rfl, id, fun _ => rfl⟩

theorem SameIdentity.trans {a b c : LoadedMandateAccount} (first : SameIdentity a b)
    (second : SameIdentity b c) : SameIdentity a c where
  layout := second.layout.trans first.layout
  subscriber := second.subscriber.trans first.subscriber
  merchant := second.merchant.trans first.merchant
  mandateIndex := second.mandateIndex.trans first.mandateIndex
  bump := second.bump.trans first.bump
  version := second.version ∘ first.version
  plan legacy := (second.plan (first.layout.trans legacy)).trans (first.plan legacy)

/-- The fields a handler may not touch between reading a mandate and writing it back. -/
structure VelaMandate.Rewrites (loaded : LoadedMandateAccount) (mandate : VelaMandate) : Prop where
  subscriber : mandate.subscriber = loaded.intoCurrent.subscriber
  merchant : mandate.merchant = loaded.intoCurrent.merchant
  mandateIndex : mandate.mandateIndex = loaded.intoCurrent.mandateIndex
  bump : mandate.bump = loaded.intoCurrent.bump
  version : loaded.isLegacy = false → loaded.intoCurrent.version = currentAccountVersion →
    mandate.version = currentAccountVersion
  plan : loaded.isLegacy = true → mandate.plan = loaded.intoCurrent.plan

theorem VelaMandate.Rewrites.sameIdentity {loaded : LoadedMandateAccount} {mandate : VelaMandate}
    (rewrites : mandate.Rewrites loaded) :
    SameIdentity loaded (mandateLayout mandate loaded.isLegacy) := by
  obtain ⟨subscriber, merchant, mandateIndex, bump, version, plan⟩ := rewrites
  cases loaded with
  | current m => exact ⟨rfl, subscriber, merchant, mandateIndex, bump, version rfl, nofun⟩
  | legacy old => exact ⟨rfl, subscriber, merchant, rfl, bump, fun _ => rfl, plan⟩

/-- A mandate at `k` after a step was there before, or is a new one at its own address. -/
inductive Origin (P : Platform) (w : World) (k : Pubkey) (after : LoadedMandateAccount) : Prop
  | kept (before : MandateAccount) (found : w.mandate k = some before)
      (same : SameIdentity before.contents after)
  | opened (m : VelaMandate) (vacant : w.mandate k = none) (layout : after = .current m)
      (version : m.version = currentAccountVersion)
      (address : P.findProgramAddress m.signerSeeds = (k, m.bump))

def Originates (P : Platform) (w w' : World) : Prop :=
  ∀ k account, w'.mandate k = some account → Origin P w k account.contents

theorem Originates.of_eq (same : w'.mandate = w.mandate) : Originates P w w' := by
  intro k account found
  exact .kept account (same ▸ found) (.refl _)

theorem Originates.congr (before : w₁.mandate = w.mandate) (step : Originates P w₁ w') :
    Originates P w w' := by
  intro k account found
  cases step k account found with
  | kept old stored same => exact .kept old (before ▸ stored) same
  | opened m vacant layout version address =>
    exact .opened m (before ▸ vacant) layout version address

theorem writeMandate_originates {loaded : LoadedMandateAccount} {mandate : VelaMandate}
    {account : MandateAccount} (found : w.mandate key = some account)
    (contents : account.contents = loaded) (rewrites : mandate.Rewrites loaded)
    (written : w'.mandate = (w.writeMandate key mandate loaded.isLegacy).mandate) :
    Originates P w w' := by
  intro k after present
  rw [written] at present
  by_cases same : k = key
  · subst same
    simp only [World.writeMandate, Function.update_self, found, Option.map_some,
      Option.some.injEq] at present
    subst present
    exact .kept account found (contents ▸ rewrites.sameIdentity)
  · simp only [World.writeMandate, Function.update_of_ne same] at present
    exact .kept after present (.refl _)

theorem loaded_originates {loaded : LoadedMandateAccount} {mandate : VelaMandate}
    (load : loadMandateAccount w key = .ok loaded) (rewrites : mandate.Rewrites loaded)
    (only : w₁.mandate = w.mandate)
    (written : w'.mandate = (w₁.writeMandate key mandate loaded.isLegacy).mandate) :
    Originates P w w' := by
  obtain ⟨account, found, contents, _⟩ := loadMandateAccount_eq_ok load
  have found₁ : w₁.mandate key = some account := by rw [only]; exact found
  exact .congr only (writeMandate_originates found₁ contents rewrites written)

theorem createMandate_originates {mandate : VelaMandate} (vacant : w.mandate key = none)
    (version : mandate.version = currentAccountVersion)
    (address : P.findProgramAddress mandate.signerSeeds = (key, mandate.bump))
    (written : w'.mandate = (w.createMandate key mandate).mandate) : Originates P w w' := by
  intro k account present
  rw [written] at present
  by_cases same : k = key
  · subst same
    simp only [World.createMandate, Function.update_self, Option.some.injEq] at present
    subst present
    exact .opened mandate vacant rfl version address
  · simp only [World.createMandate, Function.update_of_ne same] at present
    exact .kept account present (.refl _)

theorem Originates.closed (step : Originates P w w₁)
    (gone : w'.mandate = Function.update w₁.mandate key none) : Originates P w w' := by
  intro k account present
  rw [gone] at present
  by_cases same : k = key
  · subst same
    rw [Function.update_self] at present
    cases present
  · rw [Function.update_of_ne same] at present
    exact step k account present

theorem loadValidMandate_load {loaded : LoadedMandateAccount}
    (h : loadValidMandate P w key = .ok loaded) : loadMandateAccount w key = .ok loaded := by
  obtain ⟨found, load, h⟩ := bind_eq_ok.mp h
  obtain ⟨_, _, h⟩ := bind_eq_ok.mp h
  cases h
  exact load

theorem rewrites_of_eq {loaded : LoadedMandateAccount} {mandate : VelaMandate}
    (rest : mandate = { loaded.intoCurrent with
      pullsExecuted := mandate.pullsExecuted
      nextPaymentDue := mandate.nextPaymentDue
      lastPullAt := mandate.lastPullAt
      status := mandate.status
      creditBalance := mandate.creditBalance
      lastBillingRecordedPull := mandate.lastBillingRecordedPull
      validationRequestNonce := mandate.validationRequestNonce
      billingRequestNonce := mandate.billingRequestNonce }) : mandate.Rewrites loaded := by
  rw [rest]
  exact ⟨rfl, rfl, rfl, rfl, fun _ => id, fun _ => rfl⟩

theorem subscribe_originates {ctx : Subscribe} (h : subscribe P w ctx = .ok w') :
    Originates P w w' := by
  simp only [subscribe, check, orVela, bind_eq_ok, orError_eq_ok, require_eq_ok, pure_eq_ok,
    exists_const] at h
  obtain ⟨merchantState, _, _, _, plan, _, _, _, _, _, _, _, address, _, _,
    w₁, credential, count, _,
    vacant, _, _, w₂, minted, expiry, _, due, _, rfl⟩ := h
  have only := (createIdempotent_frame credential).1.trans (mintTo_frame minted).1
  have empty : w.mandate ctx.mandate = none := by
    rw [← (createIdempotent_frame credential).1.mandate]
    exact (dataIsEmpty_vacant vacant).mandate
  have empty₂ : w₂.mandate ctx.mandate = none := by
    rw [only.mandate]
    exact empty
  refine .congr only.mandate (createMandate_originates empty₂ rfl ?_ rfl)
  exact Prod.ext address.symm rfl

theorem cancelled_originates {ctx : Cancel} {result : LoadedMandateAccount × LoadedPlanAccount}
    (load : loadCancellable P w ctx = .ok result) (only : TokenOnly w w₁) :
    Originates P w (w₁.cancelMandate ctx.mandate result.1) := by
  obtain ⟨loaded, valid, rest⟩ := bind_eq_ok.mp load
  have same : result.1 = loaded := by
    iterate 6 obtain ⟨_, _, rest⟩ := bind_eq_ok.mp rest
    cases rest
    rfl
  subst same
  exact loaded_originates (loadValidMandate_load valid) (rewrites_of_eq rfl) only.mandate rfl

theorem cancel_originates {ctx : Cancel} (h : cancel P w ctx = .ok w') : Originates P w w' := by
  obtain ⟨⟨loaded, plan⟩, load, h⟩ := bind_eq_ok.mp h
  iterate 4 obtain ⟨_, _, h⟩ := bind_eq_ok.mp h
  obtain ⟨w₁, burned, h⟩ := bind_eq_ok.mp h
  cases h
  exact cancelled_originates load (burn_frame burned).1

theorem adminCancel_originates {ctx : Cancel} (h : adminCancel P w ctx = .ok w') :
    Originates P w w' := by
  iterate 2 obtain ⟨_, _, h⟩ := bind_eq_ok.mp h
  obtain ⟨⟨loaded, plan⟩, load, h⟩ := bind_eq_ok.mp h
  iterate 4 obtain ⟨_, _, h⟩ := bind_eq_ok.mp h
  obtain ⟨w₁, burned, h⟩ := bind_eq_ok.mp h
  cases h
  exact cancelled_originates load (burn_frame burned).1

theorem closeMandate_originates {ctx : CloseMandate} (h : closeMandate P w ctx = .ok w') :
    Originates P w w' := by
  iterate 4 obtain ⟨_, _, h⟩ := bind_eq_ok.mp h
  cases h
  exact Originates.closed (.of_eq rfl) rfl

theorem migrateMandate_originates {ctx : MigrateMandate} (h : migrateMandate P w ctx = .ok w') :
    Originates P w w' := by
  simp only [migrateMandate, check, orVela, bind_eq_ok, orError_eq_ok, require_eq_ok, pure_eq_ok,
    exists_const] at h
  obtain ⟨merchantState, _, _, _, _, loaded, _, _, _, _, _, plan, _, _, _, address,
    vacant, count, _,
    rfl⟩ := h
  have vacant := (dataIsEmpty_vacant vacant).mandate
  refine Originates.closed (createMandate_originates vacant ?_ ?_ rfl) rfl
  · rfl
  · exact Prod.ext address.symm rfl

theorem updateMandate_originates {ctx : UpdateMandate} (h : updateMandate P w ctx = .ok w') :
    Originates P w w' := by
  iterate 14 obtain ⟨_, _, h⟩ := bind_eq_ok.mp h
  cases h
  intro k after present
  by_cases same : k = ctx.mandate
  · subst same
    simp only [World.growMandate, Function.update_self, Option.map_eq_some_iff] at present
    obtain ⟨before, found, rfl⟩ := present
    exact .kept before found (.refl _)
  · simp only [World.growMandate, Function.update_of_ne same] at present
    exact .kept after present (.refl _)

theorem switchPlan_rewrites {m mandate : VelaMandate} {planKey : Pubkey} {plan : LoadedPlanAccount}
    (rest : mandate = { m with creditBalance := mandate.creditBalance }) :
    (mandate.switchPlan planKey plan).Rewrites (.current m) := by
  rw [rest]
  exact ⟨rfl, rfl, rfl, rfl, fun _ _ => rfl, nofun⟩

theorem settleProration_mandates {ctx : UpdateMandatePlan} {s : PlanSwitch} {delta : Int} :
    Ensures (settleProration P w ctx s delta) fun result => result.1.mandate = w.mandate ∧
      result.2 = { s.mandate with creditBalance := result.2.creditBalance } := by
  refine .ite (fun _ => ?_) fun _ => .ite (fun _ => ?_) fun _ => .of_pure ⟨rfl, rfl⟩
  · refine .bind (R := fun paid => paid.mandate = w.mandate) ?_ fun _ paid => .of_pure ⟨paid, rfl⟩
    refine .skip fun _ => .skip fun _ => .bind (.skip fun _ => invokeTransfer_only) ?_
    exact fun paid spec => .of_pure spec.1.mandate
  · exact .skip fun _ => .skip fun _ => .of_pure ⟨rfl, rfl⟩

theorem isLegacy_eq_false {loaded : LoadedMandateAccount} (h : loaded.isLegacy = false) :
    ∃ m, loaded = .current m := by
  cases loaded with
  | current m => exact ⟨m, rfl⟩
  | legacy _ => cases h

theorem checkPlanSwitch_current {ctx : UpdateMandatePlan} {s : PlanSwitch}
    (h : checkPlanSwitch P w ctx = .ok s) :
    loadMandateAccount w ctx.mandate = .ok (.current s.mandate) := by
  simp only [checkPlanSwitch, check, bind_eq_ok, require_eq_ok, pure_eq_ok, exists_const] at h
  obtain ⟨_, _, _, _, _, _, _, _, loaded, load, current, _, _, _, _, _, _, _, _, _, _,
    _, _, rfl⟩ := h
  obtain ⟨m, rfl⟩ := isLegacy_eq_false current
  exact load

theorem updateMandatePlan_originates {ctx : UpdateMandatePlan}
    (h : updateMandatePlan P w ctx = .ok w') : Originates P w w' := by
  obtain ⟨s, checked, h⟩ := bind_eq_ok.mp h
  split at h
  · cases h
    exact .of_eq rfl
  · obtain ⟨_, _, h⟩ := bind_eq_ok.mp h
    obtain ⟨_, _, h⟩ := bind_eq_ok.mp h
    obtain ⟨⟨paid, mandate⟩, settled, h⟩ := bind_eq_ok.mp h
    cases h
    obtain ⟨mandates, rest⟩ := settleProration_mandates _ settled
    exact loaded_originates (checkPlanSwitch_current checked) (switchPlan_rewrites rest)
      mandates rfl

theorem checkScheduling_current {ctx : SchedulePlanChange} {s : Scheduling}
    (h : checkScheduling P w ctx = .ok s) :
    loadMandateAccount w ctx.mandate = .ok (.current s.mandate) := by
  simp only [checkScheduling, check, bind_eq_ok, require_eq_ok, pure_eq_ok, exists_const] at h
  obtain ⟨_, _, _, loaded, load, current, _, _, _, _, _, _, _, _, _, rfl⟩ := h
  obtain ⟨m, rfl⟩ := isLegacy_eq_false current
  exact load

theorem schedulePlanChange_originates {ctx : SchedulePlanChange} :
    Ensures (schedulePlanChange P w ctx) (Originates P w) := by
  refine .bind (R := fun s => loadMandateAccount w ctx.mandate = .ok (.current s.mandate))
    (fun _ => checkScheduling_current) fun s load => ?_
  have rewrites (nonce : Bytes 8) : (s.mandate.schedule ctx.newPlan nonce).Rewrites
      (.current s.mandate) := ⟨rfl, rfl, rfl, rfl, fun _ _ => rfl, nofun⟩
  refine .ite (fun _ => .of_pure (.of_eq rfl)) fun _ => ?_
  refine .ite (fun _ => .of_pure (.of_eq rfl)) fun _ => .of_pure ?_
  exact loaded_originates load (rewrites _) rfl rfl

theorem cancelPlanChange_originates {ctx : CancelPlanChange}
    (h : cancelPlanChange P w ctx = .ok w') : Originates P w w' := by
  obtain ⟨_, _, h⟩ := bind_eq_ok.mp h
  obtain ⟨loaded, load, h⟩ := bind_eq_ok.mp h
  obtain ⟨current, h⟩ := require_bind_eq_ok.mp h
  iterate 4 obtain ⟨_, _, h⟩ := bind_eq_ok.mp h
  cases h
  obtain ⟨m, rfl⟩ := isLegacy_eq_false current
  have rewrites : m.dropPending.Rewrites (.current m) :=
    ⟨rfl, rfl, rfl, rfl, fun _ _ => rfl, nofun⟩
  exact loaded_originates load rewrites rfl rfl

theorem requestValidation_originates {ctx : RequestValidation}
    (h : requestValidation P w ctx = .ok w') : Originates P w w' := by
  obtain ⟨loaded, checked, h⟩ := bind_eq_ok.mp h
  iterate 7 obtain ⟨_, _, h⟩ := bind_eq_ok.mp h
  obtain ⟨w₁, started, h⟩ := bind_eq_ok.mp h
  cases h
  obtain ⟨_, rfl⟩ := startRequest_eq_ok started
  have load : loadMandateAccount w ctx.mandate = .ok loaded := by
    obtain ⟨found, load, checked⟩ := bind_eq_ok.mp checked
    iterate 11 obtain ⟨_, _, checked⟩ := bind_eq_ok.mp checked
    cases checked
    exact loadValidMandate_load load
  exact loaded_originates load (rewrites_of_eq rfl) rfl rfl

theorem requestUsageComputation_originates {ctx : RequestUsageComputation}
    (h : requestUsageComputation P w ctx = .ok w') : Originates P w w' := by
  obtain ⟨r, checked, h⟩ := bind_eq_ok.mp h
  iterate 7 obtain ⟨_, _, h⟩ := bind_eq_ok.mp h
  obtain ⟨w₁, started, h⟩ := bind_eq_ok.mp h
  cases h
  obtain ⟨_, rfl⟩ := startRequest_eq_ok started
  have load : loadMandateAccount w ctx.mandate = .ok r.loaded := by
    iterate 3 obtain ⟨_, _, checked⟩ := bind_eq_ok.mp checked
    obtain ⟨found, load, checked⟩ := bind_eq_ok.mp checked
    iterate 9 obtain ⟨_, _, checked⟩ := bind_eq_ok.mp checked
    cases checked
    exact loadValidMandate_load load
  exact loaded_originates load (rewrites_of_eq rfl) rfl rfl

theorem requestBillingRecord_originates {ctx : RequestBillingRecord}
    (h : requestBillingRecord P w ctx = .ok w') : Originates P w w' := by
  obtain ⟨_, _, h⟩ := bind_eq_ok.mp h
  obtain ⟨loaded, checked, h⟩ := bind_eq_ok.mp h
  iterate 8 obtain ⟨_, _, h⟩ := bind_eq_ok.mp h
  obtain ⟨w₁, started, h⟩ := bind_eq_ok.mp h
  cases h
  obtain ⟨_, rfl⟩ := startRequest_eq_ok started
  have load : loadMandateAccount w ctx.mandate = .ok loaded := by
    obtain ⟨found, load, checked⟩ := bind_eq_ok.mp checked
    iterate 4 obtain ⟨_, _, checked⟩ := bind_eq_ok.mp checked
    cases checked
    exact loadValidMandate_load load
  exact loaded_originates load (rewrites_of_eq rfl) rfl rfl

theorem anchorVelaMandate_contents {mandate : VelaMandate}
    (h : anchorVelaMandate w key = .ok mandate) :
    ∃ account, w.mandate key = some account ∧
      w.mandateIsLegacy key = account.contents.isLegacy ∧
      mandate = { account.contents.intoCurrent with version := mandate.version } ∧
      (account.contents.isLegacy = false → mandate = account.contents.intoCurrent) := by
  obtain ⟨account, found, layout⟩ := anchorVelaMandate_eq_ok h
  refine ⟨account, found, ?_⟩
  rcases layout with current | ⟨legacy, layout, rfl⟩
  · simp only [World.mandateIsLegacy, found, current, LoadedMandateAccount.isLegacy,
      LoadedMandateAccount.intoCurrent, true_and, implies_true]
  · simp only [World.mandateIsLegacy, found, layout, LoadedMandateAccount.isLegacy,
      LoadedMandateAccount.intoCurrent, reduceCtorEq, false_implies, and_true]

theorem recordBillingEventCallback_originates {ctx : RecordBillingEventCallback}
    (h : recordBillingEventCallback P w ctx = .ok w') : Originates P w w' := by
  obtain ⟨mandate, anchored, h⟩ := bind_eq_ok.mp h
  iterate 9 obtain ⟨_, _, h⟩ := bind_eq_ok.mp h
  obtain ⟨w₁, completed, h⟩ := bind_eq_ok.mp h
  obtain ⟨_, _, completed⟩ := bind_eq_ok.mp completed
  cases completed
  cases h
  obtain ⟨account, found, layout, rest, current⟩ := anchorVelaMandate_contents anchored
  have rewrites : VelaMandate.Rewrites account.contents
      { mandate with lastBillingRecordedPull := mandate.pullsExecuted } := by
    refine ⟨?_, ?_, ?_, ?_, fun layout version => (current layout ▸ version), fun _ => ?_⟩
    all_goals rw [rest]
  refine writeMandate_originates found rfl rewrites ?_
  rw [← layout]
  rfl

theorem TermsBilled.rewrites {loaded : LoadedMandateAccount}
    {plan : LoadedPlanAccount} {terms : BilledTerms}
    (billed : TermsBilled P w loaded.intoCurrent plan terms) :
    terms.mandate.Rewrites loaded := by
  cases billed with
  | asIs undue mandate_eq plan_eq =>
    rw [mandate_eq]
    exact ⟨rfl, rfl, rfl, rfl, fun _ => id, fun _ => rfl⟩
  | switched applied mandate_eq =>
    rw [mandate_eq]
    refine ⟨rfl, rfl, rfl, rfl, fun _ _ => rfl, fun legacy => ?_⟩
    obtain ⟨old, rfl⟩ := isLegacy_eq_true legacy
    -- a legacy record has no room for a pending change
    obtain ⟨pending, _⟩ := applied.due
    cases pending

theorem invokeBillingTransfer_mandates {ctx : ExecutePull} {mandate : VelaMandate} {legacy : Bool}
    {tokenConfig : TokenConfig} {amount : UInt64} :
    Ensures (invokeBillingTransfer P w ctx mandate legacy tokenConfig amount) fun paid =>
      paid.mandate = w.mandate := by
  refine .ite (fun _ => .skip fun _ => ?_) fun _ => .of_pure rfl
  exact invokeTransfer_only.mono fun _ spec => spec.1.mandate

theorem checkPull_load {ctx : ExecutePull} {p : Pull} (h : checkPull P w ctx = .ok p) :
    loadMandateAccount w ctx.mandate = .ok p.loaded := by
  obtain ⟨⟨config, plan, loaded, tokenConfig⟩, load, h⟩ := bind_eq_ok.mp h
  iterate 10 obtain ⟨_, _, h⟩ := bind_eq_ok.mp h
  cases h
  iterate 8 obtain ⟨_, _, load⟩ := bind_eq_ok.mp load
  obtain ⟨found, valid, load⟩ := bind_eq_ok.mp load
  iterate 6 obtain ⟨_, _, load⟩ := bind_eq_ok.mp load
  cases load
  exact loadValidMandate_load valid

theorem prepareSettlement_pull {ctx : ExecutePull} {s : Settlement}
    (h : prepareSettlement P w ctx = .ok s) :
    checkPull P w ctx = .ok s.pull ∧ TermsBilled P w s.pull.mandate s.pull.plan s.terms := by
  have terms := (prepareSettlement_eq_ok h).terms
  obtain ⟨pull, checked, h⟩ := bind_eq_ok.mp h
  iterate 5 obtain ⟨_, _, h⟩ := bind_eq_ok.mp h
  cases h
  exact ⟨checked, terms⟩

theorem executePull_originates {ctx : ExecutePull} (h : executePull P w ctx = .ok w') :
    Originates P w w' := by
  obtain ⟨s, prepared, h⟩ := bind_eq_ok.mp h
  obtain ⟨paid, transferred, h⟩ := bind_eq_ok.mp h
  obtain ⟨after, advanced, h⟩ := bind_eq_ok.mp h
  cases h
  obtain ⟨checked, terms⟩ := prepareSettlement_pull prepared
  have billed : s.terms.mandate.Rewrites s.pull.loaded := terms.rewrites
  have rewrites : after.Rewrites s.pull.loaded := by
    rw [(advance_eq_ok advanced).rest]
    exact ⟨billed.subscriber, billed.merchant, billed.mandateIndex, billed.bump, billed.version,
      billed.plan⟩
  refine loaded_originates (checkPull_load checked) rewrites
    (invokeBillingTransfer_mandates _ transferred) ?_
  exact (finishPull_frame _ ctx s.pull.period.1 s.usageReport s.pull.config.wrappedUsdcMint
    s.terms.autoAppliedChange).2.1

theorem billing_originates {i : Instruction} (h : execute P w i = .ok w') : Originates P w w' := by
  cases i with
  | createPlan ctx => exact .of_eq (createPlan_eq_ok h).mandate
  | createUsagePlan ctx => exact .of_eq (createUsagePlan_eq_ok h).mandate
  | updatePlan ctx => exact .of_eq (updatePlan_eq_ok h).mandate
  | updateUsagePlan ctx => exact .of_eq (updateUsagePlan_eq_ok h).mandate
  | migratePlan plan => exact .of_eq (migratePlan_eq_ok h).mandate
  | subscribe ctx => exact subscribe_originates h
  | cancel ctx => exact cancel_originates h
  | adminCancel ctx => exact adminCancel_originates h
  | closeMandate ctx => exact closeMandate_originates h
  | migrateMandate ctx => exact migrateMandate_originates h
  | updateMandate ctx => exact updateMandate_originates h
  | updateMandatePlan ctx => exact updateMandatePlan_originates h
  | schedulePlanChange ctx => exact schedulePlanChange_originates w' h
  | cancelPlanChange ctx => exact cancelPlanChange_originates h
  | requestValidation ctx => exact requestValidation_originates h
  | validateMandateCallback ctx =>
    obtain ⟨_, _, _, _, spec⟩ := validateMandateCallback_eq_ok h
    exact .of_eq spec.mandates
  | submitUsageReport ctx =>
    obtain ⟨_, rfl, _⟩ := submitUsageReport_eq_ok h
    exact .of_eq rfl
  | requestUsageComputation ctx => exact requestUsageComputation_originates h
  | usageChargeCallback ctx =>
    obtain ⟨_, _, _, _, _, _, _, spec⟩ := usageChargeCallback_eq_ok h
    exact .of_eq spec.mandates
  | executePull ctx => exact executePull_originates h
  | requestBillingRecord ctx => exact requestBillingRecord_originates h
  | recordBillingEventCallback ctx => exact recordBillingEventCallback_originates h

theorem protocol_mandates {i : ProtocolInstruction} (apart : ∀ b, i ≠ .billing b)
    (h : executeProtocol P w i = .ok w') : w'.mandate = w.mandate := by
  cases i with
  | billing b => exact absurd rfl (apart b)
  | streaming s =>
    by_cases created : ∃ ctx, s = .createStreamMandate ctx
    · obtain ⟨ctx, rfl⟩ := created
      obtain ⟨_, _, spec⟩ := createStreamMandate_eq_ok h
      exact spec.written.mandate
    · obtain ⟨_, _, _, _, spec⟩ := call_called (fun ctx same => created ⟨ctx, same⟩) h
      obtain ⟨_, paid, payment, written, _⟩ := spec.effect
      refine written.mandate.trans ?_
      cases payment with
      | nothing zero unchanged => rw [unchanged]
      | transfer positive unpaused done => exact done.frame.mandate
  | agent a =>
    by_cases created : ∃ ctx, a = .createAgentMandate ctx
    · obtain ⟨ctx, rfl⟩ := created
      obtain ⟨_, spec⟩ := createAgentMandate_eq_ok h
      exact spec.frame.mandate
    · obtain ⟨_, _, spec⟩ := agent_called (fun ctx same => created ⟨ctx, same⟩) h
      exact spec.frame.mandate
  | config c => exact (configure_keeps (k := Pubkey.default) w' h).1.mandate
  | wrap ctx => exact (wrap_only h).frame.mandate
  | unwrapTokens ctx => exact (unwrapTokens_only h).frame.mandate

theorem protocol_originates {a : ProtocolAction} (step : ProtocolStep P w a w') :
    Originates P w w' := by
  cases a with
  | instruction i =>
    by_cases billing : ∃ b, i = .billing b
    · obtain ⟨b, rfl⟩ := billing
      exact billing_originates step
    · exact .of_eq (protocol_mandates (fun b same => billing ⟨b, same⟩) step)
  | tick clock =>
    obtain ⟨_, rfl⟩ := step
    exact .of_eq rfl
  | outside => exact .of_eq step.mandate

end VelaProtocol
