import VelaProtocol.Properties.Governance
import VelaProtocol.Properties.Settlements

/-! What is on record stays on record: a billing event once created, and a usage report once
submitted, whoever does what afterwards. -/
namespace VelaProtocol

open Guard Monitored

variable {P : Platform} {w w₁ w' : World} {signed : List Pubkey} {a : ProtocolAction}

inductive BillingEventStep (w w' : World) : Prop
  | kept (same : w'.billingEvent = w.billingEvent)
  | written (key : Pubkey × UInt64) (event : BillingEvent)
      (blank : ∀ before, w.billingEvent key = some before → before.createdAt = 0)
      (own : event.createdAt ≠ 0 → event.mandate = key.1)
      (stored : w'.billingEvent = Function.update w.billingEvent key (some event))

theorem requestBillingRecord_event {ctx : RequestBillingRecord} :
    Ensures (requestBillingRecord P w ctx) (BillingEventStep w) := by
  intro w' h
  unfold requestBillingRecord at h
  iterate 9 obtain ⟨_, _, h⟩ := bind_eq_ok.mp h
  obtain ⟨blank, h⟩ := require_bind_eq_ok.mp h
  obtain ⟨w₁, started, h⟩ := bind_eq_ok.mp h
  cases h
  obtain ⟨_, rfl⟩ := startRequest_eq_ok started
  refine .written (ctx.mandate, ctx.pullsExecutedSeed) _ (fun before found => ?_)
    (fun created => absurd rfl created) rfl
  rw [World.billingEventOrZeroed, found] at blank
  exact blank

theorem recordBillingEventCallback_event {ctx : RecordBillingEventCallback} :
    Ensures (recordBillingEventCallback P w ctx) (BillingEventStep w) := by
  intro w' h
  unfold recordBillingEventCallback at h
  obtain ⟨mandate, _, h⟩ := bind_eq_ok.mp h
  iterate 2 obtain ⟨_, _, h⟩ := bind_eq_ok.mp h
  obtain ⟨event, found, h⟩ := bind_eq_ok.mp h
  iterate 5 obtain ⟨_, _, h⟩ := bind_eq_ok.mp h
  obtain ⟨blank, h⟩ := require_bind_eq_ok.mp h
  obtain ⟨w₁, completed, h⟩ := bind_eq_ok.mp h
  cases h
  have same := completeRequest_written w₁ completed .billingEvent (by decide)
  refine .written (ctx.mandate, mandate.pullsExecuted) _ (fun before present => ?_) (fun _ => ?_)
    (Eq.trans same rfl)
  · obtain rfl := Option.some.inj ((orError_eq_ok.mp found).symm.trans present)
    exact blank
  · rfl

theorem protocolStep_event (step : ProtocolStep P w a w') (closed : Sealed signed w a w') :
    BillingEventStep w w' := by
  have written := protocolStep_written step closed
  have kept (apart : WorldField.billingEvent ∉ a.writes) : BillingEventStep w w' :=
    .kept (written .billingEvent apart)
  cases a with
  | instruction i =>
    cases i with
    | billing i =>
      cases i with
      | requestBillingRecord ctx => exact requestBillingRecord_event w' step
      | recordBillingEventCallback ctx => exact recordBillingEventCallback_event w' step
      | _ => exact kept (of_decide_eq_true rfl)
    | streaming i => cases i <;> exact kept (of_decide_eq_true rfl)
    | agent i => cases i <;> exact kept (of_decide_eq_true rfl)
    | config i => cases i <;> exact kept (of_decide_eq_true rfl)
    | wrap ctx => exact kept (of_decide_eq_true rfl)
    | unwrapTokens ctx => exact kept (of_decide_eq_true rfl)
  | tick clock => exact kept (of_decide_eq_true rfl)
  | outside => exact kept (of_decide_eq_true rfl)

theorem protocolStep_report (step : ProtocolStep P w a w') (closed : Sealed signed w a w')
    {key : Pubkey × Int64} {report : UsageReport} (found : w.usageReport key = some report) :
    ∃ settled, w'.usageReport key = some { report with settled := settled } ∧
      (report.settled = true → settled = true) := by
  have same (kept : w'.usageReport = w.usageReport) :
      ∃ settled, w'.usageReport key = some { report with settled := settled } ∧
        (report.settled = true → settled = true) :=
    ⟨report.settled, (congrFun kept key).trans found, id⟩
  have written := protocolStep_written step closed
  have apart (out : WorldField.usageReport ∉ a.writes) := same (written .usageReport out)
  cases a with
  | instruction i =>
    cases i with
    | billing i =>
      cases instruction_reportStep (P := P) step with
      | kept kept => exact same kept
      | submitted key' report' vacant unsettled stored =>
        have other : key ≠ key' := by
          rintro rfl
          cases vacant.symm.trans found
        exact ⟨report.settled, by rw [stored, Function.update_of_ne other, found], id⟩
      | settled ctx s after report' pull spec found' unsettled stored =>
        by_cases here : key = (ctx.mandate, s.pull.period.1)
        · subst here
          obtain rfl := Option.some.inj (found.symm.trans found')
          exact ⟨true, by rw [stored, Function.update_self], fun _ => rfl⟩
        · exact ⟨report.settled, by rw [stored, Function.update_of_ne here, found], id⟩
    | streaming i => cases i <;> exact apart (of_decide_eq_true rfl)
    | agent i => cases i <;> exact apart (of_decide_eq_true rfl)
    | config i => cases i <;> exact apart (of_decide_eq_true rfl)
    | wrap ctx => exact apart (of_decide_eq_true rfl)
    | unwrapTokens ctx => exact apart (of_decide_eq_true rfl)
  | tick clock => exact apart (of_decide_eq_true rfl)
  | outside => exact apart (of_decide_eq_true rfl)

/-- Nothing on record is lost or rewritten, and a new billing event names its own mandate. -/
structure Archived (w w' : World) : Prop where
  event : ∀ key e, w.billingEvent key = some e → e.createdAt ≠ 0 → w'.billingEvent key = some e
  created : ∀ key e, w'.billingEvent key = some e → e.createdAt ≠ 0 →
    w.billingEvent key = some e ∨ e.mandate = key.1
  report : ∀ key r, w.usageReport key = some r →
    ∃ settled, w'.usageReport key = some { r with settled := settled } ∧
      (r.settled = true → settled = true)

theorem Archived.refl (w : World) : Archived w w :=
  ⟨fun _ _ found _ => found, fun _ _ found _ => .inl found, fun _ r found =>
    ⟨r.settled, found, id⟩⟩

theorem Archived.trans (first : Archived w w₁) (second : Archived w₁ w') : Archived w w' where
  event key e found created := second.event key e (first.event key e found created) created
  created key e found created := by
    rcases second.created key e found created with before | own
    · exact first.created key e before created
    · exact .inr own
  report key r found := by
    obtain ⟨s, found₁, settled₁⟩ := first.report key r found
    obtain ⟨s', found', settled'⟩ := second.report key _ found₁
    exact ⟨s', found', fun settled => settled' (settled₁ settled)⟩

theorem protocolStep_archived (step : ProtocolStep P w a w') (closed : Sealed signed w a w') :
    Archived w w' := by
  refine ⟨fun key e found created => ?_, fun key e found created => ?_,
    fun key r found => protocolStep_report step closed found⟩
  · cases protocolStep_event step closed with
    | kept same => exact (congrFun same key).trans found
    | written key' event blank own stored =>
      have other : key ≠ key' := by
        rintro rfl
        exact created (blank e found)
      rw [stored, Function.update_of_ne other, found]
  · cases protocolStep_event step closed with
    | kept same => exact .inl ((congrFun same key).symm.trans found)
    | written key' event blank own stored =>
      rw [stored] at found
      by_cases here : key = key'
      · subst here
        rw [Function.update_self] at found
        obtain rfl := Option.some.inj found
        exact .inr (own created)
      · rw [Function.update_of_ne here] at found
        exact .inl found

/-- Over any run a billing event that was created stays as it is, and a usage report keeps every
field but the settled flag, which is never taken back. -/
theorem records_write_once (run : SealedRun P (w, []) (w', signed)) : Archived w w' := by
  refine run.invariant (fun v _ => Archived w v) (.refl w) ?_
  intro v keys a v' archived step closed
  exact archived.trans (protocolStep_archived step closed)

open Deployment

def requestRecord (n nonce : UInt64) : Action :=
  let offset := deriveBillingComputationOffset platform Deployment.mandate n nonce
  .instruction (.requestBillingRecord {
    payer := keeper
    plan := flatPlan 0
    mandate := Deployment.mandate
    accounts := queueAccounts .recordBillingEvent offset
    requestedComputationOffset := offset
    pullsExecutedSeed := n })

/-- The answer, in a transaction whose message makes the mandate writable: the program queues the
callback with the mandate read-only. -/
def answerRecord (n nonce : UInt64) : Action :=
  .instruction (.recordBillingEventCallback {
    plan := flatPlan 0
    mandate := Deployment.mandate
    mandateWritable := true
    accounts := callbackAccounts .recordBillingEvent
      (deriveBillingComputationOffset platform Deployment.mandate n nonce)
    output := some (Vector.replicate 10 0, 0) })

def recordedScript : List ProtocolAction :=
  [offerFlat 0 100 3600 0 10 mintA, subscribeFlat, tick 3600, requestFlat (flatPlan 0) 3600 1,
    answerFlat 3600 1 true, pull (flatPlan 0) mintA [], requestRecord 1 1,
    answerRecord 1 1].map ofBilling

def nextScript : List ProtocolAction :=
  [tick 7200, requestFlat (flatPlan 0) 7200 2, answerFlat 7200 2 true, pull (flatPlan 0) mintA [],
    requestRecord 2 2, answerRecord 2 2].map ofBilling

theorem records_write_once_recorded : ∃ w w' signed e, e.createdAt = 3600 ∧
    w.billingEvent (Deployment.mandate, 1) = some e ∧ SealedRun platform (w, []) (w', signed) ∧
      w'.billingEvent (Deployment.mandate, 1) = some e := by
  have played : (play (applyProtocol platform) watchSigners Inside (world 0, [])
      recordedScript).any (fun x =>
        (x.1.billingEvent (Deployment.mandate, 1)).any (fun e => e.createdAt = 3600) &&
        (play (applyProtocol platform) watchSigners Inside (x.1, []) nextScript).any fun y =>
          (y.1.billingEvent (Deployment.mandate, 2)).isSome) = true := by
    decide +kernel
  simp only [Option.any_eq_true, Bool.and_eq_true, decide_eq_true_eq] at played
  obtain ⟨⟨w, _⟩, _, ⟨e, found, created⟩, ⟨w', signed⟩, script, _⟩ := played
  have run := inside_script script
  have archived := records_write_once run
  exact ⟨w, w', signed, e, created, found, run,
    archived.event _ e found (by rw [created]; decide)⟩

end VelaProtocol
