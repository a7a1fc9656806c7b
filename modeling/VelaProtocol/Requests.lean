import VelaProtocol.Program

/-! What one step does to the computation requests and to the counters behind their offsets. -/
namespace VelaProtocol

open Guard

def ArciumRequestFlow.domain : ArciumRequestFlow → OffsetDomain
  | .validation => .validateMandate
  | .usageComputation => .usage
  | .billingRecord => .recordBillingEvent

/-- What the offset of a request is derived from. -/
structure OffsetInput where
  key : RequestKey
  nonce : UInt64
  deriving DecidableEq

def OffsetInput.offset (P : Platform) (x : OffsetInput) : UInt64 :=
  deriveRequestOffset P x.key.1.domain x.key.2.1 x.key.2.2 x.nonce.toBitVec

def Action.starts : Action → Option (RequestKey × QueueAccounts)
  | .instruction (.requestValidation ctx) =>
    some ((.validation, ctx.mandate, ctx.nextPaymentDueSeed.toBitVec), ctx.accounts)
  | .instruction (.requestUsageComputation ctx) =>
    some ((.usageComputation, ctx.mandate, ctx.reportPeriodStart.toBitVec), ctx.accounts)
  | .instruction (.requestBillingRecord ctx) =>
    some ((.billingRecord, ctx.mandate, ctx.pullsExecutedSeed.toBitVec), ctx.accounts)
  | _ => none

/-- The request a callback answers and the accounts its output comes under. The due date and the
pull number are the mandate's own. -/
def Action.answers (w : World) : Action → Option (RequestKey × CallbackAccounts)
  | .instruction (.validateMandateCallback ctx) =>
    (w.currentMandate ctx.mandate).map fun mandate =>
      (validationKey ctx.mandate mandate, ctx.accounts)
  | .instruction (.usageChargeCallback ctx) =>
    some ((.usageComputation, ctx.mandate, ctx.reportPeriodStart.toBitVec), ctx.accounts)
  | .instruction (.recordBillingEventCallback ctx) =>
    (w.currentMandate ctx.mandate).map fun mandate =>
      ((.billingRecord, ctx.mandate, mandate.pullsExecuted.toBitVec), ctx.accounts)
  | _ => none

def pendingRequest (P : Platform) (now : Int64) (x : OffsetInput) : ArciumRequestState where
  mandate := x.key.2.1
  flow := x.key.1
  subject := x.key.2.2
  computationOffset := x.offset P
  requestNonce := x.nonce
  status := .pending
  createdAt := now
  completedAt := 0
  bump := (P.findProgramAddress x.key.seeds).2
  version := currentAccountVersion
  reserved := 0

def World.requestFree (w : World) (key : RequestKey) : Prop :=
  ¬((w.requestOrZeroed key).createdAt ≠ 0 ∧ (w.requestOrZeroed key).status = .pending)

/-- A successful start: a new offset is stored and the mandate's counter has passed it. -/
structure Started (P : Platform) (w : World) (x : OffsetInput) (accounts : QueueAccounts)
    (w' : World) (before after : VelaMandate) : Prop where
  found : w.currentMandate x.key.2.1 = some before
  written : w'.currentMandate x.key.2.1 = some after
  counters : before.CountsOn after
  nonce : x.nonce = after.requestNonce x.key.1
  later : (before.requestNonce x.key.1).toNat < x.nonce.toNat
  others : ∀ k, k ≠ x.key.2.1 → w'.currentMandate k = w.currentMandate k
  free : w.requestFree x.key
  stored : w'.requestState =
    Function.update w.requestState x.key (some (pendingRequest P w.clock.unixTimestamp x))
  computation : ∃ clusterId,
    accounts.computationAccount = deriveComputationPubkey P clusterId (x.offset P)

structure Answered (P : Platform) (w : World) (key : RequestKey) (accounts : CallbackAccounts)
    (w' : World) (request : ArciumRequestState) : Prop where
  pending : w.requestState key = some request
  status : request.status = .pending
  stored : ∃ completedAt, w'.requestState = Function.update w.requestState key
    (some { request with status := .completed, completedAt := completedAt })
  computation : ∃ clusterId,
    accounts.computationAccount = deriveComputationPubkey P clusterId request.computationOffset

inductive RequestStep (P : Platform) (w w' : World) :
    Option (RequestKey × QueueAccounts) → Option (RequestKey × CallbackAccounts) → Prop
  | kept (same : w'.requestState = w.requestState) : RequestStep P w w' none none
  | started (x : OffsetInput) (accounts : QueueAccounts) (before after : VelaMandate)
      (spec : Started P w x accounts w' before after) :
      RequestStep P w w' (some (x.key, accounts)) none
  | answered (key : RequestKey) (accounts : CallbackAccounts) (request : ArciumRequestState)
      (spec : Answered P w key accounts w' request) :
      RequestStep P w w' none (some (key, accounts))

variable {P : Platform} {w w' : World}

theorem startRequest_iff {key : RequestKey} {offset nonce : UInt64} :
    w.startRequest P key offset nonce = .ok w' ↔ w.requestFree key ∧
      w' = { w with requestState := Function.update w.requestState key (some
        ⟨key.2.1, key.1, key.2.2, offset, nonce, .pending, w.clock.unixTimestamp, 0,
          (P.findProgramAddress key.seeds).2, currentAccountVersion, 0⟩) } := by
  refine ⟨fun started => startRequest_eq_ok started, ?_⟩
  rintro ⟨free, rfl⟩
  simp only [World.startRequest, startArciumRequest, check, bind_eq_ok, require_eq_ok, pure_eq_ok,
    exists_const]
  exact ⟨_, ⟨free, rfl⟩, rfl⟩

theorem requestValidation_started {ctx : RequestValidation}
    (h : requestValidation P w ctx = .ok w') : ∃ nonce before after, Started P w
      ⟨(.validation, ctx.mandate, ctx.nextPaymentDueSeed.toBitVec), nonce⟩ ctx.accounts w' before
      after := by
  simp only [requestValidation, check, orVela, bind_eq_ok, orError_eq_ok, require_eq_ok,
    pure_eq_ok, exists_const] at h
  obtain ⟨loaded, checked, config, _, nonce, next, _, _, _, queue, _, _, _, w₁, started, rfl⟩ := h
  obtain ⟨plan, checked⟩ := checkValidationRequest_eq_ok checked
  obtain ⟨free, rfl⟩ := startRequest_eq_ok started
  have counted := Checked.addU64_eq_some.mp next
  have terms : loaded.intoCurrent.SameTerms
    { loaded.intoCurrent with validationRequestNonce := nonce } := ⟨rfl, id⟩
  have seed : loaded.intoCurrent.nextPaymentDue = ctx.nextPaymentDueSeed := checked.seed.symm
  rw [seed] at queue
  refine ⟨nonce, loaded.intoCurrent, _, checked.found, writeMandate_self checked.found terms.fits,
    ?_, rfl, ?_, fun k different => writeMandate_of_ne different _ _, free, ?_,
    validateQueueAccounts_computation queue⟩
  · intro flow
    cases flow with
    | billingRecord => exact le_refl _
    | _ => exact Nat.le.intro counted.symm
  · exact Nat.lt_of_succ_le counted.ge
  · rw [seed]
    rfl

theorem requestUsageComputation_started {ctx : RequestUsageComputation}
    (h : requestUsageComputation P w ctx = .ok w') : ∃ nonce before after, Started P w
      ⟨(.usageComputation, ctx.mandate, ctx.reportPeriodStart.toBitVec), nonce⟩ ctx.accounts w'
      before after := by
  simp only [requestUsageComputation, check, orVela, bind_eq_ok, orError_eq_ok, require_eq_ok,
    pure_eq_ok, exists_const] at h
  obtain ⟨r, checked, config, _, nonce, next, _, _, _, _, _, queue, _, w₁, started, rfl⟩ := h
  obtain ⟨found, _, seed⟩ := checkUsageRequest_eq_ok checked
  obtain ⟨free, rfl⟩ := startRequest_eq_ok started
  have counted := Checked.addU64_eq_some.mp next
  have terms : r.loaded.intoCurrent.SameTerms
    { r.loaded.intoCurrent with validationRequestNonce := nonce } := ⟨rfl, id⟩
  rw [seed] at queue free
  refine ⟨nonce, r.loaded.intoCurrent, _, found, writeMandate_self found terms.fits,
    ?_, rfl, ?_, fun k different => writeMandate_of_ne different _ _, free, ?_,
    validateQueueAccounts_computation queue⟩
  · intro flow
    cases flow with
    | billingRecord => exact le_refl _
    | _ => exact Nat.le.intro counted.symm
  · exact Nat.lt_of_succ_le counted.ge
  · rw [seed]
    rfl

theorem requestBillingRecord_started {ctx : RequestBillingRecord}
    (h : requestBillingRecord P w ctx = .ok w') : ∃ nonce before after, Started P w
      ⟨(.billingRecord, ctx.mandate, ctx.pullsExecutedSeed.toBitVec), nonce⟩ ctx.accounts w'
      before after := by
  simp only [requestBillingRecord, checkBillingRecord, check, orVela, bind_eq_ok, orError_eq_ok,
    require_eq_ok, pure_eq_ok, exists_const] at h
  obtain ⟨_, _, loaded, ⟨loaded, load, _, seed, _, _, rfl⟩, _, _, nonce, next, _, _, _, queue, _, _,
    _, _, _, w₁, started, rfl⟩ := h
  have found := loadValidMandate_currentMandate load
  obtain ⟨free, rfl⟩ := startRequest_eq_ok started
  have counted := Checked.addU64_eq_some.mp next
  have terms : loaded.intoCurrent.SameTerms
    { loaded.intoCurrent with billingRequestNonce := nonce } := ⟨rfl, id⟩
  rw [← seed] at queue
  refine ⟨nonce, loaded.intoCurrent, _, found, writeMandate_self found terms.fits,
    ?_, rfl, ?_, fun k different => writeMandate_of_ne different _ _, free, ?_,
    validateQueueAccounts_computation queue⟩
  · intro flow
    cases flow with
    | billingRecord => exact Nat.le.intro counted.symm
    | _ => exact le_refl _
  · exact Nat.lt_of_succ_le counted.ge
  · rw [← seed]
    rfl

theorem completeRequest_stored {key : RequestKey} {request : ArciumRequestState}
    (h : w.completeRequest key request = .ok w') :
    w' = { w with
      requestState := Function.update w.requestState key
        (some { request with status := .completed, completedAt := w.clock.unixTimestamp }) } := by
  simp only [World.completeRequest, bind_eq_ok, pure_eq_ok, completeArciumRequest_eq_ok] at h
  obtain ⟨_, ⟨_, rfl⟩, rfl⟩ := h
  rfl

theorem validateMandateCallback_answered {ctx : ValidateMandateCallback}
    (h : validateMandateCallback P w ctx = .ok w') : ∃ mandate request,
      w.currentMandate ctx.mandate = some mandate ∧
        Answered P w (validationKey ctx.mandate mandate) ctx.accounts w' request := by
  simp only [validateMandateCallback, grantApproval, check, orVela, bind_eq_ok, orError_eq_ok,
    require_eq_ok, pure_eq_ok, exists_const] at h
  obtain ⟨mandate, anchored, _, _, _, _, _, _, request, valid, _, _, _, _, _, _, _, ⟨_, _, rfl⟩, w₂,
    completed, rfl⟩ := h
  obtain ⟨stored, found, version⟩ := anchorVelaMandate_terms anchored
  have key : validationKey ctx.mandate mandate = validationKey ctx.mandate stored := by
    rw [version]
    rfl
  rw [key] at valid completed
  obtain ⟨pending, _, _, _, status⟩ := validateCallback_eq_ok valid
  obtain rfl := completeRequest_stored completed
  exact ⟨stored, request, found, pending, status, ⟨_, rfl⟩, validateCallback_computation valid⟩

theorem usageChargeCallback_answered {ctx : UsageComputationCallback}
    (h : usageChargeCallback P w ctx = .ok w') : ∃ request,
      Answered P w (.usageComputation, ctx.mandate, ctx.reportPeriodStart.toBitVec) ctx.accounts w'
        request := by
  simp only [usageChargeCallback, anchorUsageReport, grantApproval, check, orVela, orHost,
    bind_eq_ok, orError_eq_ok, require_eq_ok, pure_eq_ok, exists_const] at h
  obtain ⟨mandate, _, _, ⟨report, _, seed, _, rfl⟩, _, _, _, _, _, _, request, valid, _, _, _, _, _,
    _, _, _, _, _, _, _, ⟨_, _, rfl⟩, w₂, completed, rfl⟩ := h
  rw [seed] at valid completed
  obtain ⟨pending, _, _, _, status⟩ := validateCallback_eq_ok valid
  obtain rfl := completeRequest_stored completed
  exact ⟨request, pending, status, ⟨_, rfl⟩, validateCallback_computation valid⟩

theorem recordBillingEventCallback_answered {ctx : RecordBillingEventCallback}
    (h : recordBillingEventCallback P w ctx = .ok w') : ∃ mandate request,
      w.currentMandate ctx.mandate = some mandate ∧
        Answered P w (.billingRecord, ctx.mandate, mandate.pullsExecuted.toBitVec) ctx.accounts w'
          request := by
  simp only [recordBillingEventCallback, check, orVela, orHost, bind_eq_ok, orError_eq_ok,
    require_eq_ok, pure_eq_ok, exists_const] at h
  obtain ⟨mandate, anchored, _, _, _, _, _, _, _, _, _, request, valid, _, _, _, _, w₂, completed,
    rfl⟩ := h
  obtain ⟨stored, found, version⟩ := anchorVelaMandate_terms anchored
  rw [version] at valid completed
  obtain ⟨pending, _, _, _, status⟩ := validateCallback_eq_ok valid
  obtain rfl := completeRequest_stored completed
  exact ⟨stored, request, found, pending, status, ⟨_, rfl⟩, validateCallback_computation valid⟩

theorem instruction_requestStep {i : Instruction} (h : execute P w i = .ok w') :
    RequestStep P w w' (Action.starts (.instruction i)) (Action.answers w (.instruction i)) := by
  cases i with
  | createPlan ctx => exact .kept (createPlan_eq_ok h).requestState
  | createUsagePlan ctx => exact .kept (createUsagePlan_eq_ok h).requestState
  | updatePlan ctx => exact .kept (updatePlan_eq_ok h).requestState
  | updateUsagePlan ctx => exact .kept (updateUsagePlan_eq_ok h).requestState
  | migratePlan plan => exact .kept (migratePlan_eq_ok h).requestState
  | subscribe ctx =>
    obtain ⟨_, _, spec⟩ := subscribe_eq_ok h
    exact .kept spec.frame.requestState
  | cancel ctx => exact .kept (cancel_eq_ok h).1.requestState
  | adminCancel ctx => exact .kept (adminCancel_eq_ok h).1.requestState
  | closeMandate ctx => exact .kept (closeMandate_eq_ok h).1.requestState
  | migrateMandate ctx =>
    obtain ⟨_, _, spec⟩ := migrateMandate_eq_ok h
    exact .kept spec.frame.requestState
  | updateMandate ctx => exact .kept (updateMandate_eq_ok h).1.requestState
  | updateMandatePlan ctx =>
    rcases updateMandatePlan_eq_ok h with ⟨rfl, _⟩ | ⟨_, _, _, spec⟩
    · exact .kept rfl
    · exact .kept spec.requestState
  | schedulePlanChange ctx =>
    obtain ⟨_, _, frame, _⟩ := schedulePlanChange_eq_ok h
    exact .kept frame.requestState
  | cancelPlanChange ctx =>
    obtain ⟨_, spec⟩ := cancelPlanChange_eq_ok h
    exact .kept spec.frame.requestState
  | requestValidation ctx =>
    obtain ⟨nonce, before, after, spec⟩ := requestValidation_started h
    exact .started _ _ before after spec
  | validateMandateCallback ctx =>
    obtain ⟨mandate, request, found, spec⟩ := validateMandateCallback_answered h
    simp only [Action.answers, found, Option.map_some]
    exact .answered _ _ request spec
  | submitUsageReport ctx =>
    obtain ⟨_, rfl, _⟩ := submitUsageReport_eq_ok h
    exact .kept rfl
  | requestUsageComputation ctx =>
    obtain ⟨nonce, before, after, spec⟩ := requestUsageComputation_started h
    exact .started _ _ before after spec
  | usageChargeCallback ctx =>
    obtain ⟨request, spec⟩ := usageChargeCallback_answered h
    exact .answered _ _ request spec
  | executePull ctx =>
    obtain ⟨_, _, spec⟩ := executePull_eq_ok h
    exact .kept spec.requestState
  | requestBillingRecord ctx =>
    obtain ⟨nonce, before, after, spec⟩ := requestBillingRecord_started h
    exact .started _ _ before after spec
  | recordBillingEventCallback ctx =>
    obtain ⟨mandate, request, found, spec⟩ := recordBillingEventCallback_answered h
    simp only [Action.answers, found, Option.map_some]
    exact .answered _ _ request spec

theorem requestStep {a : Action} (h : Step P w a w') :
    RequestStep P w w' a.starts (a.answers w) := by
  cases a with
  | instruction i => exact instruction_requestStep h
  | tick clock =>
    obtain ⟨_, rfl⟩ := h
    exact .kept rfl
  | environment => exact .kept h.requestState

def Action.opens : Action → Option (Pubkey × Pubkey)
  | .instruction (.subscribe ctx) => some (ctx.subscriber, ctx.merchant)
  | .instruction (.migrateMandate ctx) => some (ctx.subscriber, ctx.merchant)
  | _ => none

/-- Where a mandate's counters come from: a new mandate counts from an address of its own. -/
inductive Counted (P : Platform) (w : World) (a : Action) (k : Pubkey) (w' : World)
    (after : VelaMandate) : Prop
  | on (before : VelaMandate) (found : w.currentMandate k = some before)
      (counters : before.CountsOn after)
  | fresh (vacant : w.mandate k = none) (subscriber merchant : Pubkey)
      (opens : a.opens = some (subscriber, merchant))
      (address : NewAddress P w subscriber merchant k w')

theorem Counted.of_eq {a : Action} {k : Pubkey} {after : VelaMandate}
    (same : w'.currentMandate k = w.currentMandate k)
    (present : w'.currentMandate k = some after) : Counted P w a k w' after :=
  .on after (same ▸ present) fun _ => le_refl _

theorem Counted.of_written {a : Action} {k key : Pubkey} {before written after : VelaMandate}
    (found : w.currentMandate key = some before) (stored : w'.currentMandate key = some written)
    (counters : before.CountsOn written)
    (others : ∀ other, other ≠ key → w'.currentMandate other = w.currentMandate other)
    (present : w'.currentMandate k = some after) : Counted P w a k w' after := by
  by_cases same : k = key
  · subst same
    obtain rfl := Option.some.inj (stored.symm.trans present)
    exact .on before found counters
  · exact .of_eq (others k same) present

theorem Counted.of_created {a : Action} {k key subscriber merchant : Pubkey} {after : VelaMandate}
    (vacant : w.mandate key = none) (opens : a.opens = some (subscriber, merchant))
    (address : NewAddress P w subscriber merchant key w')
    (others : k ≠ key → Counted P w a k w' after) : Counted P w a k w' after := by
  by_cases same : k = key
  · exact same ▸ .fresh vacant subscriber merchant opens address
  · exact others same

theorem instruction_counted {i : Instruction} {k : Pubkey} {after : VelaMandate}
    (h : execute P w i = .ok w') (present : w'.currentMandate k = some after) :
    Counted P w (.instruction i) k w' after := by
  have started {x : OffsetInput} {accounts : QueueAccounts} {before after' : VelaMandate}
      (spec : Started P w x accounts w' before after') : Counted P w (.instruction i) k w' after :=
    .of_written spec.found spec.written spec.counters spec.others present
  have kept (same : w'.mandate = w.mandate) : Counted P w (.instruction i) k w' after :=
    .of_eq (currentMandate_congr same k) present
  cases i with
  | createPlan ctx => exact kept (createPlan_eq_ok h).mandate
  | createUsagePlan ctx => exact kept (createUsagePlan_eq_ok h).mandate
  | updatePlan ctx => exact kept (updatePlan_eq_ok h).mandate
  | updateUsagePlan ctx => exact kept (updateUsagePlan_eq_ok h).mandate
  | migratePlan plan => exact kept (migratePlan_eq_ok h).mandate
  | subscribe ctx =>
    obtain ⟨_, _, spec⟩ := subscribe_eq_ok h
    exact .of_created spec.vacant rfl spec.address fun different =>
      .of_eq (spec.others k different) present
  | cancel ctx =>
    obtain ⟨_, _, _, done⟩ := cancel_eq_ok h
    exact .of_written done.found done.written (.of_eq done.counters) done.others present
  | adminCancel ctx =>
    obtain ⟨_, _, _, done⟩ := adminCancel_eq_ok h
    exact .of_written done.found done.written (.of_eq done.counters) done.others present
  | closeMandate ctx =>
    obtain ⟨_, gone, others⟩ := closeMandate_eq_ok h
    by_cases same : k = ctx.mandate
    · exact absurd ((same ▸ present).symm.trans gone) nofun
    · exact .of_eq (others k same) present
  | migrateMandate ctx =>
    obtain ⟨_, _, spec⟩ := migrateMandate_eq_ok h
    refine .of_created spec.vacant rfl spec.address fun different => ?_
    by_cases legacy : k = ctx.legacyMandate
    · exact absurd ((legacy ▸ present).symm.trans spec.removed) nofun
    · exact .of_eq (spec.others k legacy different) present
  | updateMandate ctx => exact .of_eq ((updateMandate_eq_ok h).2 k) present
  | updateMandatePlan ctx =>
    rcases updateMandatePlan_eq_ok h with ⟨rfl, _⟩ | ⟨s, _, priced, spec⟩
    · exact kept rfl
    · refine .of_written spec.checked.found spec.written (.of_eq (funext fun flow => ?_))
        spec.elsewhere.mandate present
      rw [spec.settled.rest]
      cases flow <;> rfl
  | schedulePlanChange ctx =>
    obtain ⟨s, checked, _, others, rfl | ⟨_, _, written⟩⟩ := schedulePlanChange_eq_ok h
    · exact kept rfl
    · exact .of_written checked.found written
        (.of_eq (funext fun flow => by cases flow <;> rfl)) others present
  | cancelPlanChange ctx =>
    obtain ⟨_, spec⟩ := cancelPlanChange_eq_ok h
    exact .of_written spec.found spec.written
      (.of_eq (funext fun flow => by cases flow <;> rfl)) spec.others present
  | requestValidation ctx =>
    obtain ⟨_, _, _, spec⟩ := requestValidation_started h
    exact started spec
  | validateMandateCallback ctx =>
    obtain ⟨_, _, _, _, spec⟩ := validateMandateCallback_eq_ok h
    exact kept spec.mandates
  | submitUsageReport ctx =>
    obtain ⟨_, rfl, _⟩ := submitUsageReport_eq_ok h
    exact kept rfl
  | requestUsageComputation ctx =>
    obtain ⟨_, _, _, spec⟩ := requestUsageComputation_started h
    exact started spec
  | usageChargeCallback ctx =>
    obtain ⟨_, _, _, _, _, _, _, spec⟩ := usageChargeCallback_eq_ok h
    exact kept spec.mandates
  | executePull ctx =>
    obtain ⟨s, _, spec⟩ := executePull_eq_ok h
    refine .of_written spec.checked.pull.found spec.written (.of_eq (funext fun flow => ?_))
      spec.elsewhere.mandate present
    rw [spec.advanced.rest]
    cases billed : spec.checked.terms with
    | asIs undue mandate_eq plan_eq =>
      rw [mandate_eq]
      cases flow <;> rfl
    | switched applied mandate_eq =>
      rw [mandate_eq]
      cases flow <;> rfl
  | requestBillingRecord ctx =>
    obtain ⟨_, _, _, spec⟩ := requestBillingRecord_started h
    exact started spec
  | recordBillingEventCallback ctx =>
    obtain ⟨_, _, done⟩ := recordBillingEventCallback_eq_ok h
    exact .of_written done.found done.written done.counters done.others present

theorem counted_of_step {a : Action} {k : Pubkey} {after : VelaMandate} (h : Step P w a w')
    (present : w'.currentMandate k = some after) : Counted P w a k w' after := by
  cases a with
  | instruction i => exact instruction_counted h present
  | tick clock =>
    obtain ⟨_, rfl⟩ := h
    exact .of_eq rfl present
  | environment => exact .of_eq (currentMandate_congr h.mandate k) present

theorem opens_step {subscriber merchant : Pubkey} {a : Action}
    (step : Step P w a w') (opens : a.opens = some (subscriber, merchant)) :
    ∃ key, NewAddress P w subscriber merchant key w' := by
  cases a with
  | instruction i =>
    cases i with
    | subscribe ctx =>
      cases opens
      obtain ⟨_, _, spec⟩ := subscribe_eq_ok step
      exact ⟨_, spec.address⟩
    | migrateMandate ctx =>
      cases opens
      obtain ⟨_, _, spec⟩ := migrateMandate_eq_ok step
      exact ⟨_, spec.address⟩
    | _ => cases opens
  | tick clock => cases opens
  | environment => cases opens

end VelaProtocol
