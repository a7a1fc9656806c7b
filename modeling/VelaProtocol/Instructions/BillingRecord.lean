import VelaProtocol.Accounts.Mandate
import VelaProtocol.Accounts.Plan
import VelaProtocol.Arcium

/-! The encrypted record of a settled pull. The next pull waits until it is stored. -/
namespace VelaProtocol

open Guard

structure RequestBillingRecord where
  payer : Pubkey
  plan : Pubkey
  mandate : Pubkey
  accounts : QueueAccounts
  requestedComputationOffset : UInt64
  pullsExecutedSeed : UInt64

def BillingEvent.reset (bump : UInt8) : BillingEvent where
  mandate := Pubkey.default
  merchant := Pubkey.default
  subscriber := Pubkey.default
  planId := 0
  encryptedBlob := Vector.replicate 10 0
  nonce := 0
  createdAt := 0
  bump := bump

def World.billingEventOrZeroed (w : World) (key : Pubkey × UInt64) : BillingEvent :=
  (w.billingEvent key).getD (BillingEvent.reset 0)

def anchorSeededPlan (P : Platform) (w : World) (key : Pubkey) : Result VelaPlan := do
  let plan ← anchorVelaPlan w key
  require (P.createProgramAddress (.plan plan.merchant plan.planId) plan.bump = some key)
    (.host .constraintSeeds)
  return plan

def checkBillingRecord (P : Platform) (w : World) (ctx : RequestBillingRecord) :
    Result LoadedMandateAccount := do
  let loaded ← loadValidMandate P w ctx.mandate
  let mandate := loaded.intoCurrent
  check (0 < mandate.pullsExecuted) .approvalNotGranted
  check (ctx.pullsExecutedSeed = mandate.pullsExecuted) .invalidComputationOffset
  check (ctx.plan = mandate.plan) .planNotActive
  check (mandate.lastBillingRecordedPull < mandate.pullsExecuted) .billingEventAlreadyExists
  return loaded

def requestBillingRecord (P : Platform) (w : World) (ctx : RequestBillingRecord) :
    Result World := do
  let plan ← anchorSeededPlan P w ctx.plan
  let loaded ← checkBillingRecord P w ctx
  let mandate := loaded.intoCurrent
  let config ← loadArciumConfig P w
  let nextRequestNonce ← orVela (Checked.addU64 mandate.billingRequestNonce 1) .overflow
  let computationOffset := deriveBillingComputationOffset P ctx.mandate mandate.pullsExecuted
    nextRequestNonce
  check (ctx.requestedComputationOffset = computationOffset) .invalidComputationOffset
  check (ctx.accounts.clusterAccount = config.clusterPubkey) .invalidArciumAccount
  validateQueueAccounts P ctx.accounts config.clusterOffset computationOffset .recordBillingEvent
    config.effectiveMxeProgramId
  let frequency ← orVela (Checked.toI64 plan.frequency.toNat) .overflow
  let billingPeriodStart ← orVela (Checked.subI64 mandate.nextPaymentDue frequency) .overflow
  check ((w.billingEventOrZeroed (ctx.mandate, ctx.pullsExecutedSeed)).createdAt = 0)
    .billingEventAlreadyExists
  let w ← w.startRequest P (.billingRecord, ctx.mandate, ctx.pullsExecutedSeed.toBitVec)
    computationOffset nextRequestNonce
  let w := { w with
    billingEvent := Function.update w.billingEvent (ctx.mandate, ctx.pullsExecutedSeed)
      (some (BillingEvent.reset
        (P.findProgramAddress (.billingEvent ctx.mandate ctx.pullsExecutedSeed)).2)) }
  let w := w.writeMandate ctx.mandate { mandate with billingRequestNonce := nextRequestNonce }
    loaded.isLegacy
  return w.queueComputation {
    mandate := ctx.mandate
    computationOffset := computationOffset
    circuit := .recordBillingEvent
    args := .recordBillingEvent plan.amount mandate.lastPullAt mandate.pullsExecuted
      billingPeriodStart mandate.nextPaymentDue 0 }

structure RecordBillingEventCallback where
  plan : Pubkey
  mandate : Pubkey
  /-- whether the transaction passes the mandate as writable -/
  mandateWritable : Bool
  accounts : CallbackAccounts
  /-- the verified ciphertexts and nonce, if any -/
  output : Option (Vector (Bytes 32) 10 × Bytes 16)

/-- The callback `request_billing_record` queues: its mandate is passed read-only -/
def RequestBillingRecord.queuedCallback (P : Platform) (ctx : RequestBillingRecord)
    (config : ProtocolConfig) (output : Option (Vector (Bytes 32) 10 × Bytes 16)) :
    RecordBillingEventCallback where
  plan := ctx.plan
  mandate := ctx.mandate
  mandateWritable := false
  accounts := buildCallbackAccounts P config.clusterOffset.toUInt32 ctx.requestedComputationOffset
    .recordBillingEvent config.effectiveMxeProgramId
  output := output

/-- The layout an `Account<VelaMandate>` is written back in: a padded legacy record keeps its
own. -/
def World.mandateIsLegacy (w : World) (key : Pubkey) : Bool :=
  match w.mandate key with
  | some account =>
    match account.contents with
    | .legacy _ => true
    | .current _ => false
  | none => false

def recordBillingEventCallback (P : Platform) (w : World) (ctx : RecordBillingEventCallback) :
    Result World := do
  let mandate ← anchorVelaMandate w ctx.mandate
  let plan ← anchorVelaPlan w ctx.plan
  require (ctx.mandateWritable = true) (.host .constraintMut)
  let billingEvent ← orHost (w.billingEvent (ctx.mandate, mandate.pullsExecuted))
    .accountNotInitialized
  let config ← loadArciumConfig P w
  validateStaticCallbackAccounts P ctx.accounts .recordBillingEvent config.effectiveMxeProgramId
  let key : RequestKey := (.billingRecord, ctx.mandate, mandate.pullsExecuted.toBitVec)
  let request ← validateCallback P w config ctx.accounts key
  let encryptedData ← orVela ctx.output .abortedComputation
  check (ctx.plan = mandate.plan) .planNotActive
  check (billingEvent.createdAt = 0) .billingEventAlreadyExists
  let w := { w with
    billingEvent := Function.update w.billingEvent (ctx.mandate, mandate.pullsExecuted) (some {
      mandate := ctx.mandate
      merchant := mandate.merchant
      subscriber := mandate.subscriber
      planId := plan.planId
      encryptedBlob := encryptedData.1
      nonce := encryptedData.2
      createdAt := w.clock.unixTimestamp
      bump := (P.findProgramAddress (.billingEvent ctx.mandate mandate.pullsExecuted)).2 }) }
  let w := w.writeMandate ctx.mandate
    { mandate with lastBillingRecordedPull := mandate.pullsExecuted }
    (w.mandateIsLegacy ctx.mandate)
  let w ← w.completeRequest key request
  return w.emit (.billingEventCreated {
    mandate := ctx.mandate
    merchant := mandate.merchant
    subscriber := mandate.subscriber
    pullsExecuted := mandate.pullsExecuted
    timestamp := w.clock.unixTimestamp })

structure Recorded (w : World) (key : Pubkey) (w' : World) (before after : VelaMandate) :
    Prop where
  found : w.currentMandate key = some before
  written : w'.currentMandate key = some after
  terms : before.SameTerms after
  counters : before.CountsOn after
  others : ∀ other, other ≠ key → w'.currentMandate other = w.currentMandate other
  pullApproval : w'.pullApproval = w.pullApproval
  requestState : ∀ request : RequestKey, request.1 ≠ .billingRecord →
    w'.requestState request = w.requestState request
  frame : SetupFrame w w'
  usageReport : w'.usageReport = w.usageReport
  money : SameMoney w w'

theorem requestBillingRecord_eq_ok {P : Platform} {w w' : World} {ctx : RequestBillingRecord}
    (h : requestBillingRecord P w ctx = .ok w') :
    ∃ before after, Recorded w ctx.mandate w' before after := by
  simp only [requestBillingRecord, checkBillingRecord, check, orVela, bind_eq_ok, orError_eq_ok,
    require_eq_ok, pure_eq_ok, exists_const] at h
  obtain ⟨_, _, loaded, ⟨loaded, load, _, _, _, _, rfl⟩, _, _, nonce, next, _, _, _, _, _, _, _, _,
    _, w₁, started, rfl⟩ := h
  have found := loadValidMandate_currentMandate load
  obtain ⟨_, rfl⟩ := startRequest_eq_ok started
  have terms : loaded.intoCurrent.SameTerms
    { loaded.intoCurrent with billingRequestNonce := nonce } :=
    ⟨rfl, id⟩
  refine ⟨_, _, found, writeMandate_self found terms.fits, terms, ?_, ?_, rfl, ?_,
    ⟨rfl, rfl, rfl, rfl, fun _ => le_refl _⟩, rfl, SameMoney.of_entry rfl rfl⟩
  · have counted := Checked.addU64_eq_some.mp next
    intro flow
    cases flow with
    | billingRecord => exact Nat.le.intro counted.symm
    | _ => exact le_refl _
  · exact fun other different => writeMandate_of_ne different _ _
  · intro key flow
    refine Function.update_of_ne (fun same => flow ?_) _ _
    rw [same]

/-- What is fed to the record's computation: the plan's amount as it is now, and the period that
ends with the due date as it is now. -/
theorem requestBillingRecord_queued {P : Platform} {w w' : World} {ctx : RequestBillingRecord}
    (h : requestBillingRecord P w ctx = .ok w') :
    ∃ (mandate : VelaMandate) (plan : VelaPlan) (offset : UInt64) (periodStart : Int64),
      w.currentMandate ctx.mandate = some mandate ∧ ctx.pullsExecutedSeed = mandate.pullsExecuted ∧
      w'.log = .queueComputation ⟨ctx.mandate, offset, .recordBillingEvent,
        .recordBillingEvent plan.amount mandate.lastPullAt mandate.pullsExecuted periodStart
          mandate.nextPaymentDue 0⟩ :: w.log := by
  simp only [requestBillingRecord, checkBillingRecord, check, orVela, bind_eq_ok, orError_eq_ok,
    require_eq_ok, pure_eq_ok, exists_const] at h
  obtain ⟨plan, _, loaded, ⟨loaded, load, _, seed, _, _, rfl⟩, _, _, nonce, _, _, _, _, _, _, _,
    periodStart, _, _, w₁, started, rfl⟩ := h
  obtain ⟨_, rfl⟩ := startRequest_eq_ok started
  exact ⟨_, plan, _, periodStart, loadValidMandate_currentMandate load, seed, rfl⟩

theorem anchorVelaMandate_loaded {w : World} {key : Pubkey} {mandate : VelaMandate}
    (h : anchorVelaMandate w key = .ok mandate) :
    ∃ loaded : LoadedMandateAccount, w.currentMandate key = some loaded.intoCurrent ∧
      w.mandateIsLegacy key = loaded.isLegacy ∧
      ∀ recorded, (mandateLayout { mandate with lastBillingRecordedPull := recorded }
        loaded.isLegacy).intoCurrent =
          { loaded.intoCurrent with lastBillingRecordedPull := recorded } := by
  obtain ⟨account, found, layout⟩ := anchorVelaMandate_eq_ok h
  refine ⟨account.contents, currentMandate_eq_some found, ?_, ?_⟩
  · rcases layout with current | ⟨legacy, layout, rfl⟩
    · simp only [World.mandateIsLegacy, found, current, LoadedMandateAccount.isLegacy]
    · simp only [World.mandateIsLegacy, found, layout, LoadedMandateAccount.isLegacy]
  · rcases layout with current | ⟨legacy, layout, rfl⟩
    · rw [current]
      exact fun _ => rfl
    · rw [layout]
      exact fun _ => rfl

theorem writeMandate_layout {w : World} {key : Pubkey} {before : VelaMandate}
    (found : w.currentMandate key = some before) (mandate : VelaMandate) (legacyLayout : Bool) :
    (w.writeMandate key mandate legacyLayout).currentMandate key =
      some (mandateLayout mandate legacyLayout).intoCurrent := by
  simp only [World.currentMandate, Option.map_eq_some_iff] at found
  obtain ⟨account, stored, _⟩ := found
  simp only [World.currentMandate, World.writeMandate, Function.update_self, stored,
    Option.map_some]

theorem recordBillingEventCallback_eq_ok {P : Platform} {w w' : World}
    {ctx : RecordBillingEventCallback} (h : recordBillingEventCallback P w ctx = .ok w') :
    ∃ before after, Recorded w ctx.mandate w' before after := by
  simp only [recordBillingEventCallback, World.completeRequest, check, orVela, orHost, bind_eq_ok,
    orError_eq_ok, require_eq_ok, pure_eq_ok, exists_const] at h
  obtain ⟨mandate, anchored, plan, _, _, _, _, _, _, _, _, request, _, _, _, _, _, w₂,
    ⟨completed, _, rfl⟩, rfl⟩ := h
  obtain ⟨loaded, found, layout, written⟩ := anchorVelaMandate_loaded anchored
  refine ⟨loaded.intoCurrent,
    { loaded.intoCurrent with lastBillingRecordedPull := mandate.pullsExecuted }, found, ?_,
    ⟨rfl, id⟩,
    .of_eq (funext fun flow => by cases flow <;> rfl), ?_, rfl, ?_,
    ⟨rfl, rfl, rfl, rfl, fun _ => le_refl _⟩, rfl, SameMoney.of_entry rfl rfl⟩
  · refine (writeMandate_layout found _ _).trans (congrArg some ?_)
    rw [← written]
    exact congrArg _ (congrArg _ layout)
  · exact fun other different => writeMandate_of_ne different _ _
  · intro key flow
    refine Function.update_of_ne (fun same => flow ?_) _ _
    rw [same]

end VelaProtocol
