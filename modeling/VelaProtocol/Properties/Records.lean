import VelaProtocol.Deployment

/-! The billing record of a pull: what it is fed, and when it can be stored. -/
namespace VelaProtocol

structure SettledPull where
  charge : Nat
  periodStart : Int64
  periodEnd : Int64
  deriving DecidableEq

def watchPull (k : Pubkey) (g : Option SettledPull) (w : World) (call : MandateCall) (_ : World) :
    Option SettledPull :=
  match call with
  | .subscribe _ => none
  | .migrateMandate _ => none
  | .executePull _ => do
    let mandate ← w.currentMandate k
    let approval ← w.pullApproval k
    if mandate.billingType = .flat then
      some ⟨w.baseCharge k, approval.periodStart, approval.periodEnd⟩
    else none
  | _ => g

/-- The charge and period of the record the newest entry queues. -/
def World.queuedRecord (w : World) : Option SettledPull :=
  match w.log with
  | .queueComputation ⟨_, _, _, .recordBillingEvent amount _ _ periodStart periodEnd _⟩ :: _ =>
    some ⟨amount.toNat, periodStart, periodEnd⟩
  | _ => none

def SettledBefore (k : Pubkey) (w : World) (g : Option SettledPull) : Prop :=
  ∀ settled ∈ g, ∀ mandate, w.currentMandate k = some mandate →
    settled.periodEnd.toInt < mandate.nextPaymentDue.toInt

variable {P : Platform} {k : Pubkey} {w w' : World} {g : Option SettledPull}

theorem SettledBefore.of_due (before : SettledBefore k w g)
    (kept : ∀ after, w'.currentMandate k = some after → ∃ mandate,
      w.currentMandate k = some mandate ∧ after.nextPaymentDue = mandate.nextPaymentDue) :
    SettledBefore k w' g := by
  intro settled seen after present
  obtain ⟨mandate, found, due⟩ := kept after present
  rw [due]
  exact before settled seen mandate found

theorem call_settledBefore {call : MandateCall} (deployed : Deployed w)
    (before : SettledBefore k w g) (step : MandateStep P k w w' (some call)) :
    SettledBefore k w' (watchPull k g w call w') := by
  have unset : call.setsDue = false → SettledBefore k w' g := fun keeps =>
    before.of_due fun after present => step.due_kept (fun _ called => by
      cases called
      exact keeps) present
  cases step with
  | subscribed ctx plan mandate key spec => exact nofun
  | migrated ctx before after key spec => exact nofun
  | pulled ctx s after key spec =>
    subst key
    intro settled seen mandate present
    obtain rfl := Option.some.inj (spec.written.symm.trans present)
    have found := spec.checked.pull.found
    have approval := spec.checked.approval
    simp only [watchPull, found, approval.found, Option.bind_eq_bind, Option.bind_some,
      Option.mem_def, Option.ite_none_right_eq_some, Option.some.injEq] at seen
    obtain ⟨_, rfl⟩ := seen
    have period := (mandateBillingPeriod_eq_ok.mp spec.checked.pull.period).2.1
    show s.approval.periodEnd.toInt < _
    rw [approval.period.2, period]
    exact spec.due_later deployed
  | _ => exact unset rfl

/-- Whatever happens in between, the record asked for after a flat pull is never fed the period of
the approval that pull consumed: the due date it ends at has moved on. -/
theorem record_never_agrees {w₀ : World} {settled : SettledPull} (ctx : RequestBillingRecord)
    (reachable : Reachable P w₀)
    (run : MandateRun P ctx.mandate (watchPull ctx.mandate) AnyCall (w₀, none) (w, some settled))
    (asked : requestBillingRecord P w ctx = .ok w') : w'.queuedRecord ≠ some settled := by
  intro agrees
  have before := (deployedRun_invariant run reachable.deployed (SettledBefore ctx.mandate) nofun
    (fun _ _ _ _ before same _ _ _ => before.of_due fun after present => by
      obtain ⟨mandate, found, alike⟩ := same.alike present
      exact ⟨mandate, found, by rw [alike.rest]⟩)
    fun _ _ _ _ deployed before step _ _ => call_settledBefore deployed before step).2
  obtain ⟨mandate, plan, offset, periodStart, found, _, queued⟩ := requestBillingRecord_queued asked
  have later := before settled rfl mandate found
  rw [World.queuedRecord, queued] at agrees
  rw [← Option.some.inj agrees] at later
  exact absurd later (lt_irrefl _)

open Deployment

def firstPull : List Action :=
  [offerFlat 0 100 3600 0 10 mintA, .instruction (.subscribe (subscription (flatPlan 0) mintA)),
    tick 3600, requestFlat (flatPlan 0) 3600 1, answerFlat 3600 1 true, pull (flatPlan 0) mintA []]

def recordContext (plan : Pubkey) (n nonce : UInt64) : RequestBillingRecord where
  payer := keeper
  plan := plan
  mandate := mandate
  accounts := queueAccounts .recordBillingEvent
    (deriveBillingComputationOffset platform mandate n nonce)
  requestedComputationOffset := deriveBillingComputationOffset platform mandate n nonce
  pullsExecutedSeed := n

theorem firstPull_record : ∃ w w', MandateRun platform mandate (watchPull mandate) AnyCall
    (world 0, none) (w, some ⟨100, 0, 3600⟩) ∧
      requestBillingRecord platform w (recordContext (flatPlan 0) 1 1) = .ok w' ∧
      w'.queuedRecord = some ⟨100, 3600, 7200⟩ := by
  have played : (Monitored.play (applyAction platform) (onCall mandate (watchPull mandate))
      (whenCall mandate AnyCall) (world 0, none) firstPull).any (fun x =>
        x.2 = some ⟨100, 0, 3600⟩ && (requestBillingRecord platform x.1
          (recordContext (flatPlan 0) 1 1)).toOption.any fun w' =>
            w'.queuedRecord = some ⟨100, 3600, 7200⟩) = true := by
    decide +kernel
  obtain ⟨⟨w, g⟩, run, ends⟩ := script_check played
  simp only [Bool.and_eq_true, decide_eq_true_eq, Option.any_eq_true, toOption_eq_some] at ends
  obtain ⟨seen, w', asked, queued⟩ := ends
  exact ⟨w, w', seen ▸ run, asked, queued⟩

theorem first_record_disagrees : ∃ w w',
    requestBillingRecord platform w (recordContext (flatPlan 0) 1 1) = .ok w' ∧
      w'.queuedRecord ≠ some ⟨100, 0, 3600⟩ := by
  obtain ⟨w, w', run, asked, _⟩ := firstPull_record
  exact ⟨w, w', asked,
    record_never_agrees (recordContext (flatPlan 0) 1 1) ⟨_, world_fresh 0, .refl⟩ run asked⟩

theorem record_of_next_period : ¬∀ (P : Platform) (w₀ w w' : World) (settled : SettledPull)
    (ctx : RequestBillingRecord), Reachable P w₀ →
      MandateRun P ctx.mandate (watchPull ctx.mandate) AnyCall (w₀, none) (w, some settled) →
      requestBillingRecord P w ctx = .ok w' → w'.queuedRecord = some settled := by
  intro agree
  obtain ⟨w, w', run, asked, queued⟩ := firstPull_record
  have agrees := agree platform (world 0) w w' ⟨100, 0, 3600⟩ (recordContext (flatPlan 0) 1 1)
    ⟨_, world_fresh 0, .refl⟩ run asked
  rw [queued] at agrees
  exact absurd agrees (by decide)

end VelaProtocol
