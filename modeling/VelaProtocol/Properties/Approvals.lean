import VelaProtocol.Deployment

/-! Which terms an approval is about. A request queues the terms of its moment; the callback reads
the mandate again, so a plan change in between is approved by a computation about other terms. -/
namespace VelaProtocol

def queuedFor (queued : List VelaMandate) (due : Int64) : Option VelaMandate :=
  queued.find? fun terms => terms.nextPaymentDue = due

/-- Each request adds the mandate as it is, newest first. -/
def queueTerms (k : Pubkey) (queued : List VelaMandate) (w : World) (call : MandateCall)
    (_ : World) : List VelaMandate :=
  match call with
  | .requestValidation _ => (w.currentMandate k).toList ++ queued
  | _ => queued

def World.validationPending (w : World) (k : Pubkey) (due : Int64) : Bool :=
  (w.requestState (.validation, k, due.toBitVec)).any fun request => request.status = .pending

/-- No plan is changed while a request for the payment due is pending, and no mandate is migrated
to an address where a request is. -/
def KeepsQueuedTerms (k : Pubkey) (queued : List VelaMandate) (w : World) (call : MandateCall)
    (_ : World) : Prop :=
  match call with
  | .updateMandatePlan ctx => ∀ mandate ∈ w.currentMandate k,
      mandate.plan ≠ ctx.newPlan → w.validationPending k mandate.nextPaymentDue = false
  | .migrateMandate _ => ∀ terms ∈ queued, w.validationPending k terms.nextPaymentDue = false
  | _ => True

instance (k : Pubkey) (queued : List VelaMandate) (w : World) (call : MandateCall) (w' : World) :
    Decidable (KeepsQueuedTerms k queued w call w') := by
  refine call.casesOn ?_ ?_ ?_ ?_ ?_ ?_ ?_ ?_ <;> intro _ <;> dsimp only [KeepsQueuedTerms] <;>
    infer_instance

structure ApprovesTerms (terms : VelaMandate) (approval : PullApproval) : Prop where
  amount : approval.approvedAmount = terms.amount
  period : mandateBillingPeriod terms = .ok (approval.periodStart, approval.periodEnd)

/-- Pending requests were queued, are for no later payment than the next, and one for the next
payment is about the mandate as it is billed now. -/
structure QueuedInForce (k : Pubkey) (w : World) (queued : List VelaMandate) : Prop where
  listed : ∀ due, w.validationPending k due = true → ∃ terms ∈ queued, terms.nextPaymentDue = due
  past : ∀ mandate, w.currentMandate k = some mandate → ∀ due, w.validationPending k due = true →
    due.toInt ≤ mandate.nextPaymentDue.toInt
  inForce : ∀ mandate, w.currentMandate k = some mandate →
    w.validationPending k mandate.nextPaymentDue = true →
      ∃ terms, queuedFor queued mandate.nextPaymentDue = some terms ∧ terms.BilledAlike mandate

variable {P : Platform} {k : Pubkey} {w w' : World} {queued : List VelaMandate}

theorem SameRequests.pending (same : SameRequests w w' k) (due : Int64) :
    w'.validationPending k due = w.validationPending k due := by
  rw [World.validationPending, World.validationPending, same]

theorem QueuedInForce.idle (idle : ∀ due, w.validationPending k due = false) :
    QueuedInForce k w queued :=
  ⟨fun due pending => absurd (pending.symm.trans (idle due)) nofun,
    fun _ _ due pending => absurd (pending.symm.trans (idle due)) nofun,
    fun _ _ pending => absurd (pending.symm.trans (idle _)) nofun⟩

theorem QueuedInForce.kept (holds : QueuedInForce k w queued) (requests : SameRequests w w' k)
    (alike : ∀ after, w'.currentMandate k = some after →
      ∃ before, w.currentMandate k = some before ∧ before.BilledAlike after) :
    QueuedInForce k w' queued := by
  refine ⟨fun due pending => ?_, fun after present due pending => ?_,
    fun after present pending => ?_⟩
  · exact holds.listed due (requests.pending due ▸ pending)
  · obtain ⟨before, found, same⟩ := alike after present
    rw [requests.pending] at pending
    rw [same.rest]
    exact holds.past before found due pending
  · obtain ⟨before, found, same⟩ := alike after present
    have due : after.nextPaymentDue = before.nextPaymentDue := by rw [same.rest]
    rw [requests.pending, due] at pending
    obtain ⟨terms, latest, billed⟩ := holds.inForce before found pending
    exact ⟨terms, due ▸ latest, billed.trans same⟩

theorem QueuedInForce.moved (holds : QueuedInForce k w queued) (requests : SameRequests w w' k)
    (later : ∀ after, w'.currentMandate k = some after → ∀ due,
      w.validationPending k due = true → due.toInt < after.nextPaymentDue.toInt) :
    QueuedInForce k w' queued := by
  refine ⟨fun due pending => ?_, fun after present due pending => ?_,
    fun after present pending => ?_⟩
  · exact holds.listed due (requests.pending due ▸ pending)
  · rw [requests.pending] at pending
    exact (later after present due pending).le
  · rw [requests.pending] at pending
    exact absurd (later after present _ pending) (lt_irrefl _)

theorem Deployed.pending_due (deployed : Deployed w) {due : Int64}
    (pending : w.validationPending k due = true) : due ≤ w.clock.unixTimestamp := by
  obtain ⟨request, found, _⟩ := (Option.any_eq_true _ _).mp pending
  exact deployed.requests k due request found

theorem pending_update {key due : Int64} {state : ArciumRequestState}
    (updated : w'.requestState =
      Function.update w.requestState (.validation, k, key.toBitVec) (some state)) :
    w'.validationPending k due =
      if due = key then decide (state.status = .pending) else w.validationPending k due := by
  unfold World.validationPending
  rw [updated]
  split
  · rename_i same
    rw [same, Function.update_self, Option.any_some]
  · rename_i different
    rw [Function.update_of_ne]
    simp only [ne_eq, Prod.mk.injEq, true_and]
    exact fun bits => different (Int64.toBitVec_inj.mp bits)

theorem requested_inForce {ctx : RequestValidation} {mandate : VelaMandate}
    {plan : LoadedPlanAccount} (holds : QueuedInForce ctx.mandate w queued)
    (spec : ValidationRequested P w ctx w' mandate plan) :
    QueuedInForce ctx.mandate w' (mandate :: queued) := by
  obtain ⟨nonce, written⟩ := spec.written
  obtain ⟨request, updated, status⟩ := spec.requestState
  have found := spec.checked.found
  refine ⟨fun due pending => ?_, fun after present due pending => ?_, fun after present _ => ?_⟩
  · rw [pending_update updated] at pending
    split at pending
    · rename_i same
      exact ⟨mandate, List.mem_cons_self, same.symm⟩
    · obtain ⟨terms, listed, same⟩ := holds.listed due pending
      exact ⟨terms, List.mem_cons_of_mem _ listed, same⟩
  · obtain rfl := Option.some.inj (written.symm.trans present)
    rw [pending_update updated] at pending
    split at pending
    · rename_i same
      exact same ▸ le_refl _
    · exact holds.past mandate found due pending
  · obtain rfl := Option.some.inj (written.symm.trans present)
    exact ⟨mandate, by simp [queuedFor], ⟨rfl, id⟩⟩

theorem answered_inForce {mandate : VelaMandate} {result : Bool}
    (holds : QueuedInForce k w queued)
    (spec : Approved w k w' (validationKey k mandate) mandate result mandate.amount) :
    QueuedInForce k w' queued := by
  obtain ⟨completed, status, updated⟩ := spec.completed
  have same := currentMandate_congr spec.mandates k
  have before : ∀ due, w'.validationPending k due = true →
      due ≠ mandate.nextPaymentDue ∧ w.validationPending k due = true := by
    intro due pending
    rw [pending_update updated] at pending
    split at pending
    · rw [status] at pending
      cases pending
    · exact ⟨by assumption, pending⟩
  refine ⟨fun due pending => holds.listed due (before due pending).2,
    fun after present due pending => ?_, fun after present pending => ?_⟩
  · exact holds.past after (same ▸ present) due (before due pending).2
  · -- the answered request was the one for the next payment
    obtain rfl := Option.some.inj (spec.found.symm.trans (same ▸ present))
    exact absurd rfl (before _ pending).1

theorem call_inForce {call : MandateCall} (deployed : Deployed w)
    (holds : QueuedInForce k w queued) (step : MandateStep P k w w' (some call))
    (keeps : KeepsQueuedTerms k queued w call w') :
    QueuedInForce k w' (queueTerms k queued w call w') := by
  have alike (keeps : ∀ c ∈ some call, c.setsTerms = false) (after : VelaMandate)
      (present : w'.currentMandate k = some after) :
      ∃ before, w.currentMandate k = some before ∧ before.BilledAlike after :=
    step.terms_kept keeps present
  cases step with
  | subscribed ctx plan mandate key spec =>
    refine holds.moved (.of_eq spec.frame.requestState) fun after present due pending => ?_
    obtain ⟨_, first, _, _, _, initial_due, initial⟩ := spec.initial
    obtain rfl := Option.some.inj (spec.created.symm.trans (key ▸ present))
    have earlier := Checked.le_iff_int.mp (deployed.pending_due pending)
    have later := LoadedPlanAccount.initialNextPaymentDue_later
      (loaded_recurring deployed spec.loaded) initial_due
    rw [initial]
    exact lt_of_le_of_lt earlier later
  | migrated ctx before after key spec =>
    refine .idle fun due => ?_
    rw [(SameRequests.of_eq (k := k) spec.frame.requestState).pending]
    by_contra pending
    rw [Bool.not_eq_false] at pending
    obtain ⟨terms, listed, rfl⟩ := holds.listed due pending
    exact absurd (pending.symm.trans (keeps terms listed)) nofun
  | samePlan ctx s key checked plan unchanged => exact unchanged ▸ holds
  | switched ctx s delta priced key spec =>
    have found : w.currentMandate k = some s.mandate := key ▸ spec.checked.found
    refine holds.moved (.of_eq spec.requestState) fun after present due pending => ?_
    have idle := keeps s.mandate found spec.changed
    have past := holds.past s.mandate found due pending
    obtain rfl := Option.some.inj (spec.written.symm.trans (key ▸ present))
    have same : priced.nextPaymentDue = s.mandate.nextPaymentDue := by rw [spec.settled.rest]
    show due.toInt < priced.nextPaymentDue.toInt
    rw [same]
    refine lt_of_le_of_ne past fun equal => ?_
    rw [Int64.toInt_inj.mp equal] at pending
    exact absurd (pending.symm.trans idle) nofun
  | pulled ctx s after key spec =>
    subst key
    refine holds.moved (.of_eq spec.requestState) fun advanced present due pending => ?_
    obtain rfl := Option.some.inj (spec.written.symm.trans present)
    have past := holds.past _ spec.checked.pull.found due pending
    exact lt_of_le_of_lt past (spec.due_later deployed)
  | requested ctx mandate plan key spec =>
    subst key
    simp only [queueTerms, spec.checked.found, Option.toList_some, List.singleton_append]
    exact requested_inForce holds spec
  | answered ctx mandate result key flat output spec => exact answered_inForce holds spec
  | alreadyScheduled ctx s key checked unchanged => exact unchanged ▸ holds
  | scheduled ctx s nonce key checked changed written frame =>
    exact holds.kept (.of_eq frame.requestState) (alike (by rintro _ ⟨⟩; rfl))
  | dropped ctx before key spec =>
    exact holds.kept (.of_eq spec.frame.requestState) (alike (by rintro _ ⟨⟩; rfl))

/-- Whatever the order of calls, while none of them replaces queued terms, each approval a
validation callback records is of the amount and period its request was queued with. -/
theorem approvals_match_queued_terms {w₀ : World} (fresh : Fresh w₀)
    (run : MandateRun P k (queueTerms k) (KeepsQueuedTerms k) (w₀, []) (w, queued)) :
    ∀ ctx w', ctx.mandate = k → validateMandateCallback P w ctx = .ok w' →
      ∃ mandate terms approval, w.currentMandate k = some mandate ∧
        queuedFor queued mandate.nextPaymentDue = some terms ∧
        w'.pullApproval k = some approval ∧ ApprovesTerms terms approval := by
  have idle : ∀ due, w₀.validationPending k due = false := fun due => by
    rw [World.validationPending, fresh.requests, Option.any_none]
  have holds : QueuedInForce k w queued :=
    (deployedRun_invariant run fresh.deployed (QueuedInForce k) (.idle idle)
      (fun _ _ _ _ holds same _ requests _ => holds.kept requests fun _ => same.alike)
      fun _ _ _ _ deployed holds step _ keeps => call_inForce deployed holds step keeps).2
  rintro ctx w' rfl answer
  obtain ⟨mandate, result, flat, output, spec⟩ := validateMandateCallback_eq_ok answer
  obtain ⟨request, present, status⟩ := spec.pending
  obtain ⟨period, validUntil, bump, window, updated⟩ := spec.granted
  have pending : w.validationPending ctx.mandate mandate.nextPaymentDue = true :=
    (Option.any_eq_true _ _).mpr ⟨request, present, decide_eq_true status⟩
  obtain ⟨terms, latest, alike⟩ := holds.inForce mandate spec.found pending
  refine ⟨mandate, terms, _, spec.found, latest, by rw [updated, Function.update_self], ?_⟩
  rw [alike.rest] at window ⊢
  exact ⟨rfl, window⟩

open Deployment

def underValidation (others : List Action) : List Action :=
  [offerFlat 0 100 3600 0 10 mintA] ++ others ++
    [.instruction (.subscribe (subscription (flatPlan 0) mintA)), tick 3600,
      requestFlat (flatPlan 0) 3600 1]

theorem approval_matches_scheduled : ∃ (w w' : World) (queued : List VelaMandate)
    (mandate terms : VelaMandate) (approval : PullApproval),
    validateMandateCallback platform w (answerContext 3600 1 true) = .ok w' ∧
      queuedFor queued mandate.nextPaymentDue = some terms ∧ mandate.pendingChangeType = 2 ∧
      w'.pullApproval Deployment.mandate = some approval ∧ ApprovesTerms terms approval := by
  have played : (Monitored.play (applyAction platform)
      (onCall Deployment.mandate (queueTerms Deployment.mandate))
      (whenCall Deployment.mandate (KeepsQueuedTerms Deployment.mandate)) (world 0, [])
      (underValidation [offerFlat 1 50 3600 0 10 mintA] ++ [schedule merchant (flatPlan 1)])).any
        (fun x => (validateMandateCallback platform x.1 (answerContext 3600 1 true)).toOption.isSome
          && (x.1.currentMandate Deployment.mandate).any fun m =>
            m.pendingChangeType = 2) = true := by
    decide +kernel
  obtain ⟨⟨w, queued⟩, run, ends⟩ := script_check played
  obtain ⟨answered, scheduled⟩ := Bool.and_eq_true_iff.mp ends
  obtain ⟨w', answered⟩ := Option.isSome_iff_exists.mp answered
  obtain ⟨m, present, pending⟩ := (Option.any_eq_true _ _).mp scheduled
  have answered := toOption_eq_some.mp answered
  obtain ⟨mandate, terms, approval, found, latest, recorded, approves⟩ :=
    approvals_match_queued_terms (world_fresh 0) run (answerContext 3600 1 true) w' rfl answered
  obtain rfl := Option.some.inj (present.symm.trans found)
  exact ⟨w, w', queued, m, terms, approval, answered, latest, of_decide_eq_true pending, recorded,
    approves⟩

/-- The subscriber moves to a plan at 1000 while the request for 100 is pending; the answer
approves 1000. -/
theorem approval_of_unqueued_terms : ¬∀ (P : Platform) (w₀ w w' : World) (k : Pubkey)
    (queued : List VelaMandate) (ctx : ValidateMandateCallback), Fresh w₀ →
      MandateRun P k (queueTerms k) AnyCall (w₀, []) (w, queued) → ctx.mandate = k →
      validateMandateCallback P w ctx = .ok w' →
      ∃ mandate terms approval, w.currentMandate k = some mandate ∧
        queuedFor queued mandate.nextPaymentDue = some terms ∧
        w'.pullApproval k = some approval ∧ ApprovesTerms terms approval := by
  intro matched
  have played : (Monitored.play (applyAction platform)
      (onCall Deployment.mandate (queueTerms Deployment.mandate))
      (whenCall Deployment.mandate AnyCall) (world 0, [])
      (underValidation [offerFlat 1 1000 3600 0 10 mintA] ++
        [switch subscriber (flatPlan 1) mintA])).any (fun x =>
          (validateMandateCallback platform x.1 (answerContext 3600 1 true)).toOption.any fun w' =>
            (x.1.currentMandate Deployment.mandate).any fun m =>
              (queuedFor x.2 m.nextPaymentDue).any fun terms =>
                (w'.pullApproval Deployment.mandate).any fun approval =>
                  approval.approvedAmount = 1000 && terms.amount = 100) = true := by
    decide +kernel
  obtain ⟨⟨w, queued⟩, run, ends⟩ := script_check played
  simp only [Option.any_eq_true, Bool.and_eq_true, decide_eq_true_eq, toOption_eq_some] at ends
  obtain ⟨w', answered, m, found, terms, latest, approval, recorded, amount, was⟩ := ends
  obtain ⟨_, _, _, found', latest', recorded', approves⟩ := matched platform (world 0) w w' _ queued
    (answerContext 3600 1 true) (world_fresh 0) run rfl answered
  obtain rfl := Option.some.inj (found.symm.trans found')
  obtain rfl := Option.some.inj (latest.symm.trans latest')
  obtain rfl := Option.some.inj (recorded.symm.trans recorded')
  have same := approves.amount
  rw [amount, was] at same
  cases same

end VelaProtocol
