import VelaProtocol.Deployment
import VelaProtocol.Requests

/-! When the record of a pull can be asked for and stored, whatever happens to plans meanwhile. -/
namespace VelaProtocol

open Guard

variable {P : Platform} {k : Pubkey} {w w' : World}

structure RecordReady (P : Platform) (w : World) (k : Pubkey) (loaded : LoadedMandateAccount)
    (plan : VelaPlan) (config : ProtocolConfig) : Prop where
  loads : loadValidMandate P w k = .ok loaded
  seeded : anchorSeededPlan P w loaded.intoCurrent.plan = .ok plan
  configured : loadArciumConfig P w = .ok config
  unrecorded : loaded.intoCurrent.lastBillingRecordedPull < loaded.intoCurrent.pullsExecuted
  nonce : loaded.intoCurrent.billingRequestNonce.toNat + 1 < 2 ^ 64
  frequency : plan.frequency.toNat < 2 ^ 63
  period : -2 ^ 63 ≤ loaded.intoCurrent.nextPaymentDue.toInt - plan.frequency.toNat
  empty : (w.billingEventOrZeroed (k, loaded.intoCurrent.pullsExecuted)).createdAt = 0
  free : w.requestFree (.billingRecord, k, loaded.intoCurrent.pullsExecuted.toBitVec)

/-- The pull waits for its record, which can be asked for. -/
def RecordOpen (P : Platform) (w : World) (k : Pubkey) : Prop :=
  ∃ loaded plan config, RecordReady P w k loaded plan config

theorem requestBillingRecord_ready {ctx : RequestBillingRecord}
    (h : requestBillingRecord P w ctx = .ok w') : RecordOpen P w ctx.mandate := by
  simp only [requestBillingRecord, checkBillingRecord, check, orVela, bind_eq_ok, orError_eq_ok,
    require_eq_ok, pure_eq_ok, exists_const] at h
  obtain ⟨plan, seeded, loaded, ⟨_, load, _, seed, same, unrecorded, rfl⟩,
    config, valid, nonce, next,
    _, _, _, _, frequency, fits, start, period, empty, w₁, started, _⟩ := h
  have free := (startRequest_eq_ok started).1
  rw [seed] at empty free
  rw [same] at seeded
  rw [Checked.toI64_eq_some] at fits
  rw [Checked.subI64_eq_some] at period
  have next := Checked.addU64_eq_some.mp next
  have nonce_bound := Checked.toNat_lt nonce
  have frequency_bound := Checked.toInt_bounds frequency
  have start_bound := Checked.toInt_bounds start
  refine ⟨_, plan, config, load, seeded, valid, unrecorded, ?_, ?_, ?_, empty, free⟩
  · have one : (1 : UInt64).toNat = 1 := rfl
    omega
  · omega
  · omega

def recordRequest (P : Platform) (payer k : Pubkey) (mandate : VelaMandate)
    (config : ProtocolConfig) : RequestBillingRecord where
  payer := payer
  plan := mandate.plan
  mandate := k
  accounts := canonicalQueueAccounts P config.clusterOffset.toUInt32
    (deriveBillingComputationOffset P k mandate.pullsExecuted (mandate.billingRequestNonce + 1))
    .recordBillingEvent config.effectiveMxeProgramId
  requestedComputationOffset :=
    deriveBillingComputationOffset P k mandate.pullsExecuted (mandate.billingRequestNonce + 1)
  pullsExecutedSeed := mandate.pullsExecuted

theorem RecordReady.accepted {loaded : LoadedMandateAccount} {plan : VelaPlan}
    {config : ProtocolConfig} (ready : RecordReady P w k loaded plan config) (payer : Pubkey) :
    ∃ w',
      requestBillingRecord P w (recordRequest P payer k loaded.intoCurrent config) = .ok w' := by
  obtain ⟨small, cluster⟩ := loadArciumConfig_eq_ok ready.configured
  have next : Checked.addU64 loaded.intoCurrent.billingRequestNonce 1 =
      some (loaded.intoCurrent.billingRequestNonce + 1) := if_pos ready.nonce
  obtain ⟨frequency, fits⟩ := Checked.exists_toI64 (n := plan.frequency.toNat)
    ⟨by omega, by have := ready.frequency; omega⟩
  have value := Checked.toI64_eq_some.mp fits
  obtain ⟨start, period⟩ := Checked.exists_toI64
    (n := loaded.intoCurrent.nextPaymentDue.toInt - frequency.toInt)
    ⟨by rw [value]; exact ready.period, by
      have bound := Checked.toInt_bounds loaded.intoCurrent.nextPaymentDue
      omega⟩
  have pulled : 0 < loaded.intoCurrent.pullsExecuted :=
    Checked.lt_iff.mpr (Nat.lt_of_le_of_lt (Nat.zero_le _) (Checked.lt_iff.mp ready.unrecorded))
  simp only [requestBillingRecord, checkBillingRecord, check, orVela, bind_eq_ok, orError_eq_ok,
    require_eq_ok, pure_eq_ok, exists_const, validateQueueAccounts_eq_ok]
  exact ⟨_, plan, ready.seeded, loaded, ⟨loaded, ready.loads, pulled, rfl, rfl, ready.unrecorded,
    rfl⟩, config, ready.configured, _, next, rfl, cluster.symm, ⟨small, rfl⟩,
    frequency, fits, start,
    period, ready.empty, _, startRequest_iff.mpr ⟨ready.free, rfl⟩, rfl⟩

theorem record_request_iff : (∃ ctx w', ctx.mandate = k ∧ requestBillingRecord P w ctx = .ok w') ↔
    RecordOpen P w k := by
  constructor
  · rintro ⟨ctx, w', rfl, asked⟩
    exact requestBillingRecord_ready asked
  · rintro ⟨loaded, plan, config, ready⟩
    obtain ⟨w', asked⟩ := ready.accepted Pubkey.default
    exact ⟨_, w', rfl, asked⟩

def LoadedPlanAccount.deactivate : LoadedPlanAccount → LoadedPlanAccount
  | .flat p => .flat { p with status := .inactive }
  | .usage p => .usage { p with status := .inactive }
  | .legacyFlat p => .legacyFlat { p with status := .inactive }
  | .legacyUsage p => .legacyUsage { p with status := .inactive }

/-- A plan taken off the market. No instruction does this yet. -/
def World.deactivatePlan (w : World) (key : Pubkey) : World :=
  { w with
    plan := Function.update w.plan key ((w.plan key).map fun account =>
      { account with contents := account.contents.deactivate }) }

/-- What may come before, between or after the two steps of a record. -/
inductive PlanEdit (P : Platform) (w w' : World) : Prop
  | switched (ctx : UpdateMandatePlan) (done : updateMandatePlan P w ctx = .ok w')
  | scheduled (ctx : SchedulePlanChange) (done : schedulePlanChange P w ctx = .ok w')
  | updated (ctx : UpdatePlan) (done : updatePlan P w ctx = .ok w')
  | deactivated (plan : Pubkey) (done : w' = w.deactivatePlan plan)
  | ticked (clock : Clock) (done : w' = { w with clock := clock })

abbrev PlanEdits (P : Platform) : World → World → Prop := Relation.ReflTransGen (PlanEdit P)

structure EditKeeps (w w' : World) : Prop where
  protocolConfig : w'.protocolConfig = w.protocolConfig
  requestState : w'.requestState = w.requestState
  billingEvent : w'.billingEvent = w.billingEvent
  decodes : ∀ key, (∃ plan, anchorVelaPlan w key = .ok plan) →
    ∃ plan, anchorVelaPlan w' key = .ok plan
  pulls : ∀ k after, w'.currentMandate k = some after →
    ∃ before, w.currentMandate k = some before ∧ after.pullsExecuted = before.pullsExecuted

theorem EditKeeps.refl (w : World) : EditKeeps w w :=
  ⟨rfl, rfl, rfl, fun _ => id, fun _ mandate found => ⟨mandate, found, rfl⟩⟩

theorem EditKeeps.trans {w₁ w₂ w₃ : World} (first : EditKeeps w₁ w₂) (second : EditKeeps w₂ w₃) :
    EditKeeps w₁ w₃ := by
  refine ⟨second.protocolConfig.trans first.protocolConfig,
    second.requestState.trans first.requestState, second.billingEvent.trans first.billingEvent,
    fun key => second.decodes key ∘ first.decodes key, fun k after found => ?_⟩
  obtain ⟨middle, found, same⟩ := second.pulls k after found
  obtain ⟨before, found, same'⟩ := first.pulls k middle found
  exact ⟨before, found, same.trans same'⟩

theorem anchorVelaPlan_congr (same : w'.plan = w.plan) (key : Pubkey) :
    anchorVelaPlan w' key = anchorVelaPlan w key := by
  rw [anchorVelaPlan, anchorVelaPlan, same]

theorem pulls_of_written {key : Pubkey} {before written : VelaMandate}
    (found : w.currentMandate key = some before) (stored : w'.currentMandate key = some written)
    (same : written.pullsExecuted = before.pullsExecuted)
    (others : ∀ other, other ≠ key → w'.currentMandate other = w.currentMandate other) :
    ∀ k after, w'.currentMandate k = some after →
      ∃ before, w.currentMandate k = some before ∧ after.pullsExecuted = before.pullsExecuted := by
  intro k after present
  by_cases own : k = key
  · subst own
    obtain rfl := Option.some.inj (stored.symm.trans present)
    exact ⟨before, found, same⟩
  · exact ⟨after, (others k own).symm.trans present, rfl⟩

theorem settleProration_billingEvent {ctx : UpdateMandatePlan} {s : PlanSwitch} {delta : Int}
    {result : World × VelaMandate} (h : settleProration P w ctx s delta = .ok result) :
    result.1.billingEvent = w.billingEvent := by
  unfold settleProration at h
  split at h
  · simp only [chargeDelta, invokeUpgradeTransfer, orVela, bind_eq_ok, orError_eq_ok,
      pure_eq_ok] at h
    obtain ⟨_, ⟨_, _, _, _, _, ⟨_, accounts, invoked⟩, rfl⟩, rfl⟩ := h
    exact (paid_of accounts invoked).frame.billingEvent
  · split at h
    · simp only [creditDelta, orVela, bind_eq_ok, orError_eq_ok, pure_eq_ok] at h
      obtain ⟨_, _, _, _, rfl⟩ := h
      rfl
    · rw [pure_eq_ok] at h
      subst h
      rfl

theorem updateMandatePlan_billingEvent {ctx : UpdateMandatePlan}
    (h : updateMandatePlan P w ctx = .ok w') : w'.billingEvent = w.billingEvent := by
  simp only [updateMandatePlan, bind_eq_ok] at h
  obtain ⟨s, _, h⟩ := h
  split at h
  · rw [pure_eq_ok] at h
    rw [h]
  · simp only [applyPlanSwitch, orVela, bind_eq_ok, orError_eq_ok, pure_eq_ok] at h
    obtain ⟨_, _, _, _, ⟨w₁, priced⟩, settled, rfl⟩ := h
    have kept := settleProration_billingEvent settled
    exact kept

theorem updateMandatePlan_keeps {ctx : UpdateMandatePlan}
    (h : updateMandatePlan P w ctx = .ok w') : EditKeeps w w' := by
  have events := updateMandatePlan_billingEvent h
  rcases updateMandatePlan_eq_ok h with ⟨rfl, _⟩ | ⟨s, delta, priced, spec⟩
  · exact .refl w'
  · refine ⟨spec.frame.protocolConfig, spec.requestState, events, fun key => ?_, ?_⟩
    · rw [anchorVelaPlan_congr spec.frame.plan key]
      exact id
    · refine pulls_of_written spec.checked.found spec.written ?_ spec.elsewhere.mandate
      rw [spec.settled.rest]
      rfl

theorem schedulePlanChange_billingEvent {ctx : SchedulePlanChange}
    (h : schedulePlanChange P w ctx = .ok w') : w'.billingEvent = w.billingEvent := by
  simp only [schedulePlanChange, bind_eq_ok] at h
  obtain ⟨s, _, h⟩ := h
  split at h
  · rw [pure_eq_ok] at h
    rw [h]
  · split at h
    · rw [pure_eq_ok] at h
      rw [h]
    · rw [pure_eq_ok] at h
      subst h
      rfl

theorem schedulePlanChange_keeps {ctx : SchedulePlanChange}
    (h : schedulePlanChange P w ctx = .ok w') : EditKeeps w w' := by
  have events := schedulePlanChange_billingEvent h
  obtain ⟨s, checked, frame, others, rfl | ⟨_, nonce, written⟩⟩ := schedulePlanChange_eq_ok h
  · exact .refl w'
  · refine ⟨frame.protocolConfig, frame.requestState, events, fun key => ?_, ?_⟩
    · rw [anchorVelaPlan_congr frame.plan key]
      exact id
    · exact pulls_of_written checked.found written rfl others

theorem writePlan_decodes {planKey : Pubkey} {flat : VelaPlan} (key : Pubkey)
    (decodes : ∃ plan, anchorVelaPlan w key = .ok plan) :
    ∃ plan, anchorVelaPlan (w.writePlan planKey (.flat flat)) key = .ok plan := by
  by_cases same : key = planKey
  · subst same
    simp only [anchorVelaPlan, orHost, orError_bind_eq_ok] at decodes
    obtain ⟨_, account, found, _⟩ := decodes
    refine ⟨flat, ?_⟩
    simp only [anchorVelaPlan, World.writePlan, Function.update_self,
      found, Option.map_some, orHost,
      orError_some, ok_bind]
    rfl
  · simpa only [anchorVelaPlan, World.writePlan, Function.update_of_ne same] using decodes

theorem updatePlan_keeps {ctx : UpdatePlan} (h : updatePlan P w ctx = .ok w') : EditKeeps w w' := by
  simp only [updatePlan, check, bind_eq_ok, require_eq_ok, pure_eq_ok, exists_const] at h
  obtain ⟨_, loaded, load, _, _, old, start, _, terms, rfl⟩ := h
  exact ⟨rfl, rfl, rfl, writePlan_decodes, fun _ mandate found => ⟨mandate, found, rfl⟩⟩

theorem deactivatePlan_decodes (planKey key : Pubkey)
    (decodes : ∃ plan, anchorVelaPlan w key = .ok plan) :
    ∃ plan, anchorVelaPlan (w.deactivatePlan planKey) key = .ok plan := by
  by_cases same : key = planKey
  · subst same
    simp only [anchorVelaPlan, orHost, orError_bind_eq_ok] at decodes
    obtain ⟨plan, ⟨contents, dataLen⟩, found, decoded⟩ := decodes
    simp only [anchorVelaPlan, World.deactivatePlan, Function.update_self, found, Option.map_some,
      orHost, orError_some, ok_bind]
    cases contents with
    | flat p => exact ⟨_, rfl⟩
    | legacyFlat p =>
      simp only [require_bind_eq_ok] at decoded
      exact ⟨_, require_bind_eq_ok.mpr ⟨decoded.1, rfl⟩⟩
    | usage p => cases decoded
    | legacyUsage p => cases decoded
  · simpa only [anchorVelaPlan, World.deactivatePlan, Function.update_of_ne same] using decodes

theorem PlanEdit.keeps (edit : PlanEdit P w w') : EditKeeps w w' := by
  cases edit with
  | switched ctx done => exact updateMandatePlan_keeps done
  | scheduled ctx done => exact schedulePlanChange_keeps done
  | updated ctx done => exact updatePlan_keeps done
  | deactivated plan done =>
    subst done
    exact ⟨rfl, rfl, rfl, deactivatePlan_decodes plan, fun _ mandate found => ⟨mandate, found, rfl⟩⟩
  | ticked clock done =>
    subst done
    exact ⟨rfl, rfl, rfl, fun _ => id, fun _ mandate found => ⟨mandate, found, rfl⟩⟩

theorem PlanEdits.keeps (edits : PlanEdits P w w') : EditKeeps w w' := by
  induction edits with
  | refl => exact .refl w
  | tail _ last kept => exact kept.trans last.keeps

def World.recordCleared (w : World) (k : Pubkey) : Prop :=
  ∃ mandate, w.currentMandate k = some mandate ∧
    mandate.lastBillingRecordedPull = mandate.pullsExecuted

/-- What an accepted request leaves for its callback. -/
structure AwaitsRecord (P : Platform) (ctx : RequestBillingRecord) (config : ProtocolConfig)
    (w : World) : Prop where
  configured : loadArciumConfig P w = .ok config
  pending : ∃ now nonce, w.requestState (.billingRecord, ctx.mandate,
    ctx.pullsExecutedSeed.toBitVec) = some (pendingRequest P now
      ⟨(.billingRecord, ctx.mandate, ctx.pullsExecutedSeed.toBitVec), nonce⟩) ∧
    ctx.requestedComputationOffset =
      deriveBillingComputationOffset P ctx.mandate ctx.pullsExecutedSeed nonce
  empty : ∃ event, w.billingEvent (ctx.mandate, ctx.pullsExecutedSeed) = some event ∧
    event.createdAt = 0
  decodes : ∃ plan, anchorVelaPlan w ctx.plan = .ok plan
  pulls : ∀ mandate, w.currentMandate ctx.mandate = some mandate →
    mandate.pullsExecuted = ctx.pullsExecutedSeed

theorem loadArciumConfig_congr (same : w'.protocolConfig = w.protocolConfig) :
    loadArciumConfig P w' = loadArciumConfig P w := by
  simp only [loadArciumConfig, loadProtocolConfig, same]

theorem AwaitsRecord.keeps {ctx : RequestBillingRecord} {config : ProtocolConfig}
    (awaits : AwaitsRecord P ctx config w) (kept : EditKeeps w w') :
    AwaitsRecord P ctx config w' := by
  refine ⟨(loadArciumConfig_congr kept.protocolConfig).trans awaits.configured, ?_, ?_,
    kept.decodes _ awaits.decodes, fun mandate found => ?_⟩
  · rw [kept.requestState]
    exact awaits.pending
  · rw [kept.billingEvent]
    exact awaits.empty
  · obtain ⟨before, present, same⟩ := kept.pulls _ mandate found
    exact same.trans (awaits.pulls before present)

theorem requestBillingRecord_awaits {ctx : RequestBillingRecord} {config : ProtocolConfig}
    (configured : loadArciumConfig P w = .ok config) (h : requestBillingRecord P w ctx = .ok w') :
    AwaitsRecord P ctx config w' := by
  simp only [requestBillingRecord, checkBillingRecord, anchorSeededPlan, check, orVela, bind_eq_ok,
    orError_eq_ok, require_eq_ok, pure_eq_ok, exists_const] at h
  obtain ⟨plan, ⟨_, anchored, _, rfl⟩, _, ⟨loaded, load, _, seed, _, _, rfl⟩, _, _, nonce, next,
    offset, _, _, _, _, _, _, _, _, w₁, started, rfl⟩ := h
  obtain ⟨_, rfl⟩ := startRequest_eq_ok started
  have found := loadValidMandate_currentMandate load
  have terms : loaded.intoCurrent.SameTerms
    { loaded.intoCurrent with billingRequestNonce := nonce } := ⟨rfl, id⟩
  refine ⟨configured, ⟨w.clock.unixTimestamp, nonce, ?_, ?_⟩, ⟨_, Function.update_self _ _ _, rfl⟩,
    ⟨_, anchored⟩, fun mandate present => ?_⟩
  · refine (Function.update_self _ _ _).trans ?_
    rw [seed]
    rfl
  · rw [seed]
    exact offset
  · have written := writeMandate_self (w := w) found terms.fits
    obtain rfl := Option.some.inj (written.symm.trans present)
    exact seed.symm

theorem recordBillingEventCallback_cleared {ctx : RecordBillingEventCallback}
    (h : recordBillingEventCallback P w ctx = .ok w') : w'.recordCleared ctx.mandate := by
  simp only [recordBillingEventCallback, World.completeRequest, check, orVela, orHost, bind_eq_ok,
    orError_eq_ok, require_eq_ok, pure_eq_ok, exists_const] at h
  obtain ⟨mandate, anchored, plan, _, _, _, _, _, _, _, _, request, _, _, _, _, _, w₂,
    ⟨completed, _, rfl⟩, rfl⟩ := h
  obtain ⟨loaded, found, layout, written⟩ := anchorVelaMandate_loaded anchored
  obtain ⟨stored, present, version⟩ := anchorVelaMandate_terms anchored
  refine ⟨{ loaded.intoCurrent with lastBillingRecordedPull := mandate.pullsExecuted },
    (writeMandate_layout found _ _).trans (congrArg some ?_), ?_⟩
  · rw [← written]
    exact congrArg _ (congrArg _ layout)
  · obtain rfl := Option.some.inj (found.symm.trans present)
    rw [version]

theorem AwaitsRecord.callback_iff {ctx : RequestBillingRecord} {config : ProtocolConfig}
    (awaits : AwaitsRecord P ctx config w) (mandateWritable : Bool)
    (output : Vector (Bytes 32) 10 × Bytes 16) :
    (∃ w', recordBillingEventCallback P w
        { ctx.queuedCallback P config (some output) with mandateWritable := mandateWritable } =
          .ok w' ∧ w'.recordCleared ctx.mandate) ↔
      mandateWritable = true ∧
        ∃ mandate, anchorVelaMandate w ctx.mandate = .ok mandate ∧ mandate.plan = ctx.plan := by
  constructor
  · rintro ⟨w', accepted, _⟩
    simp only [recordBillingEventCallback, check, orVela, bind_eq_ok, orError_eq_ok, require_eq_ok,
      exists_const] at accepted
    obtain ⟨mandate, anchored, _, _, writable, _, _, _, _, _, _, _, _, _, _, same, _⟩ := accepted
    exact ⟨writable, mandate, anchored, same.symm⟩
  · rintro ⟨writable, mandate, anchored, same⟩
    suffices accepted : ∃ w', recordBillingEventCallback P w
        { ctx.queuedCallback P config (some output) with mandateWritable := mandateWritable } =
          .ok w' by
      obtain ⟨w', accepted⟩ := accepted
      exact ⟨w', accepted, recordBillingEventCallback_cleared accepted⟩
    obtain ⟨now, nonce, pending, offset⟩ := awaits.pending
    obtain ⟨event, present, empty⟩ := awaits.empty
    obtain ⟨plan, decoded⟩ := awaits.decodes
    obtain ⟨stored, found, version⟩ := anchorVelaMandate_terms anchored
    have pulls : mandate.pullsExecuted = ctx.pullsExecutedSeed := by
      rw [version]
      exact awaits.pulls stored found
    have bound := validateCallback_build .recordBillingEvent config.effectiveMxeProgramId
      awaits.configured pending rfl rfl rfl rfl rfl
    have answered : ((pendingRequest P now ⟨(.billingRecord, ctx.mandate,
        ctx.pullsExecutedSeed.toBitVec), nonce⟩).computationOffset) =
          ctx.requestedComputationOffset := offset.symm
    rw [answered] at bound
    simp only [recordBillingEventCallback, World.completeRequest, check, orVela, orHost, bind_eq_ok,
      orError_eq_ok, require_eq_ok, pure_eq_ok, exists_const, completeArciumRequest_eq_ok]
    rw [← pulls] at present bound
    exact ⟨_, mandate, anchored, plan, decoded, writable, event, present, config, awaits.configured,
      (), validateStaticCallbackAccounts_build _ _ _ _ _, _, bound, output, rfl,
      same.symm, empty, _,
      ⟨_, ⟨rfl, rfl⟩, rfl⟩, rfl⟩

/-- A record can be asked for exactly when it is open. Whatever plan edits follow an accepted
request, its callback is accepted, and clears the way for the next pull, exactly when it may write
the mandate and the mandate is still on the plan of the request; as it is queued it may not. -/
theorem record_finalises_iff :
    ((∃ ctx w₁, ctx.mandate = k ∧ requestBillingRecord P w ctx = .ok w₁) ↔ RecordOpen P w k) ∧
      ∀ ctx config w₁ w₂ output, ctx.mandate = k → loadArciumConfig P w = .ok config →
        requestBillingRecord P w ctx = .ok w₁ → PlanEdits P w₁ w₂ →
          (∀ mandateWritable, (∃ w₃, recordBillingEventCallback P w₂
              { ctx.queuedCallback P config (some output) with
                  mandateWritable := mandateWritable } =
                .ok w₃ ∧ w₃.recordCleared k) ↔
            mandateWritable = true ∧
              ∃ mandate, anchorVelaMandate w₂ k = .ok mandate ∧ mandate.plan = ctx.plan) ∧
          ¬∃ w₃, recordBillingEventCallback P w₂ (ctx.queuedCallback P config (some output)) =
            .ok w₃ := by
  refine ⟨record_request_iff, ?_⟩
  rintro ctx config w₁ w₂ output rfl configured asked edits
  have awaits := (requestBillingRecord_awaits configured asked).keeps edits.keeps
  refine ⟨fun mandateWritable => awaits.callback_iff mandateWritable output, ?_⟩
  rintro ⟨w₃, accepted⟩
  have writable := (awaits.callback_iff false output).mp
    ⟨w₃, accepted, recordBillingEventCallback_cleared accepted⟩
  exact absurd writable.1 Bool.false_ne_true

open Deployment

def unrecordedPull : List Action :=
  [offerFlat 0 100 3600 0 10 mintA, offerFlat 1 50 3600 0 10 mintA,
    .instruction (.subscribe (subscription (flatPlan 0) mintA)), tick 3600,
    requestFlat (flatPlan 0) 3600 1, answerFlat 3600 1 true, pull (flatPlan 0) mintA []]

theorem unrecordedPull_switched : ∃ w₁ w₂ w₃ mandate, Reachable platform w₁ ∧
    w₁.currentMandate Deployment.mandate = some mandate ∧ mandate.status = .active ∧
      mandate.lastBillingRecordedPull < mandate.pullsExecuted ∧
      loadArciumConfig platform w₁ = .ok config ∧
      requestBillingRecord platform w₁ (recordRequest platform keeper Deployment.mandate mandate
        config) = .ok w₂ ∧
      updateMandatePlan platform w₂ (switchContext subscriber (flatPlan 1) mintA) = .ok w₃ ∧
      (∃ before, anchorVelaMandate w₂ Deployment.mandate = .ok before ∧
        before.plan = mandate.plan) ∧
      ∃ after, anchorVelaMandate w₃ Deployment.mandate = .ok after ∧ after.plan ≠ mandate.plan := by
  have played : (runScript (world 0) unrecordedPull).any (fun w₁ =>
      (w₁.currentMandate Deployment.mandate).any fun mandate =>
        mandate.status = .active && mandate.lastBillingRecordedPull < mandate.pullsExecuted &&
        (loadArciumConfig platform w₁).toOption = some config &&
        (requestBillingRecord platform w₁ (recordRequest platform keeper Deployment.mandate mandate
          config)).toOption.any fun w₂ =>
            (updateMandatePlan platform w₂ (switchContext subscriber (flatPlan 1)
              mintA)).toOption.any fun w₃ =>
                ((anchorVelaMandate w₂ Deployment.mandate).toOption.any fun before =>
                  before.plan = mandate.plan) &&
                (anchorVelaMandate w₃ Deployment.mandate).toOption.any fun after =>
                  after.plan ≠ mandate.plan) = true := by
    decide +kernel
  simp only [Option.any_eq_true, Bool.and_eq_true, decide_eq_true_eq, toOption_eq_some] at played
  obtain ⟨w₁, ran, mandate, found, ⟨⟨active, unrecorded⟩, configured⟩, w₂, asked, w₃, switched,
    before, after⟩ := played
  exact ⟨w₁, w₂, w₃, mandate, runScript_reachable ⟨_, world_fresh 0, .refl⟩ ran, found, active,
    unrecorded, configured, asked, switched, before, after⟩

theorem unswitched_record_cleared : ∃ w₁ ctx w₂ w₃, requestBillingRecord platform w₁ ctx = .ok w₂ ∧
    recordBillingEventCallback platform w₂ { ctx.queuedCallback platform config
      (some (Vector.replicate 10 0, 0)) with mandateWritable := true } = .ok w₃ ∧
    w₃.recordCleared ctx.mandate := by
  obtain ⟨w₁, w₂, _, mandate, _, _, _, _, configured, asked, _, before, _⟩ :=
    unrecordedPull_switched
  have accepted := (record_finalises_iff.2 (recordRequest platform keeper Deployment.mandate mandate
    config) config w₂ w₂ (Vector.replicate 10 0, 0) rfl configured asked .refl).1 true
  obtain ⟨w₃, stored, cleared⟩ := accepted.mpr ⟨rfl, before⟩
  exact ⟨w₁, _, w₂, w₃, asked, stored, cleared⟩

/-- Once the mandate is switched, even a callback that may write it is refused. -/
theorem switched_record_refused : ¬∀ (P : Platform) (w₁ w₂ w₃ : World)
    (ctx : RequestBillingRecord) (mandate : VelaMandate) (config : ProtocolConfig)
    (output : Vector (Bytes 32) 10 × Bytes 16), Reachable P w₁ →
      w₁.currentMandate ctx.mandate = some mandate → mandate.status = .active →
      mandate.lastBillingRecordedPull < mandate.pullsExecuted →
      loadArciumConfig P w₁ = .ok config → requestBillingRecord P w₁ ctx = .ok w₂ →
      PlanEdits P w₂ w₃ → ∃ w₄, recordBillingEventCallback P w₃
        { ctx.queuedCallback P config (some output) with mandateWritable := true } = .ok w₄ := by
  intro finalised
  obtain ⟨w₁, w₂, w₃, mandate, reachable, found, active, unrecorded, configured, asked, switched, _,
    after, stored, moved⟩ := unrecordedPull_switched
  have edits : PlanEdits platform w₂ w₃ := .single (.switched _ switched)
  have awaits := (requestBillingRecord_awaits configured asked).keeps edits.keeps
  generalize asking : recordRequest platform keeper Deployment.mandate mandate config = ctx at *
  have key : ctx.mandate = Deployment.mandate := by rw [← asking]; rfl
  have plan : ctx.plan = mandate.plan := by rw [← asking]; rfl
  obtain ⟨w₄, accepted⟩ := finalised platform w₁ w₂ w₃ ctx mandate config (Vector.replicate 10 0, 0)
    reachable (key ▸ found) active unrecorded configured asked edits
  obtain ⟨_, mandate', stored', same⟩ := (awaits.callback_iff true (Vector.replicate 10 0, 0)).mp
    ⟨w₄, accepted, recordBillingEventCallback_cleared accepted⟩
  rw [key] at stored'
  rw [plan] at same
  obtain rfl := Except.ok.inj (stored.symm.trans stored')
  exact moved same

end VelaProtocol
