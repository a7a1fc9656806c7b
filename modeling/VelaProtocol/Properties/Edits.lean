import VelaProtocol.Collection
import VelaProtocol.Deployment

/-! What edits of a plan do to the mandates that are already on it. -/
namespace VelaProtocol

open Guard

/-- The steps that collect payments at the mandates' own terms and record them. -/
def Billing (w : World) : Action → Prop
  | .tick _ => True
  | .instruction (.requestValidation _) => True
  | .instruction (.validateMandateCallback _) => True
  | .instruction (.executePull ctx) => w.undue ctx.mandate
  | .instruction (.requestBillingRecord _) => True
  | .instruction (.recordBillingEventCallback _) => True
  | _ => False

/-- A run without and with edits of the plan at `p`, otherwise the same. -/
inductive EditedRun (P : Platform) (p : Pubkey) : World → World → Prop
  | start (w : World) : EditedRun P p w w
  | edited {w w' w₁ : World} (ctx : UpdatePlan) (run : EditedRun P p w w') (own : ctx.plan = p)
      (edit : updatePlan P w' ctx = .ok w₁) : EditedRun P p w w₁
  | both {w w' w₁ w₁' : World} (a : Action) (run : EditedRun P p w w') (billing : Billing w a)
      (step : Step P w a w₁) (step' : Step P w' a w₁') : EditedRun P p w₁ w₁'

variable {P : Platform} {p k : Pubkey} {w w' w₁ w₁' : World}

theorem editableFlat_sameOffer {loaded : LoadedPlanAccount} {plan edited : VelaPlan}
    (h : editableFlat loaded = .ok plan) (rest : edited = { plan with
      amount := edited.amount
      frequency := edited.frequency
      trialPeriod := edited.trialPeriod
      maxPulls := edited.maxPulls }) : loaded.SameOffer (.flat edited) := by
  rw [rest]
  cases loaded <;> cases h
  · exact ⟨rfl, rfl, rfl, rfl, rfl, id⟩
  · exact ⟨rfl, rfl, rfl, rfl, rfl, fun _ => .inr rfl⟩

theorem updatePlan_resembles {ctx : UpdatePlan} (h : updatePlan P w ctx = .ok w') :
    Resembles w w' ∧ w'.mandate = w.mandate := by
  simp only [updatePlan, check, bind_eq_ok, require_eq_ok, pure_eq_ok, exists_const] at h
  obtain ⟨_, loaded, load, _, _, old, start, _, terms, rfl⟩ := h
  obtain ⟨account, found, rfl, _⟩ := loadPlanAccount_eq_ok load
  refine ⟨⟨rfl, fun key => ?_, (Resembles.refl w).mandates⟩, rfl⟩
  by_cases same : key = ctx.plan
  · subst same
    simp only [World.emit, World.writePlan, Function.update_self, found, Option.map_some]
    exact .some (editableFlat_sameOffer start rfl)
  · simp only [World.emit, World.writePlan, Function.update_of_ne same]
    exact (Resembles.refl w).plans key

theorem anchorVelaMandate_congr (same : w'.mandate = w.mandate) (key : Pubkey) :
    anchorVelaMandate w' key = anchorVelaMandate w key := by
  rw [anchorVelaMandate, anchorVelaMandate, same]

theorem anchorVelaPlan_planId {key : Pubkey} {plan : VelaPlan}
    (h : anchorVelaPlan w key = .ok plan) :
    ∃ account, w.plan key = some account ∧ plan.planId = account.contents.planId := by
  simp only [anchorVelaPlan, orHost, orError_bind_eq_ok] at h
  obtain ⟨⟨contents, dataLen⟩, found, h⟩ := h
  refine ⟨_, found, ?_⟩
  cases contents with
  | flat p =>
    cases h
    rfl
  | legacyFlat p =>
    simp only [require_bind_eq_ok, pure_eq_ok] at h
    rw [← h.2]
    rfl
  | usage p => cases h
  | legacyUsage p => cases h

theorem requestBillingRecord_both {ctx : RequestBillingRecord} (alike : Resembles w w')
    (mandates : w'.mandate = w.mandate) (h : requestBillingRecord P w ctx = .ok w₁)
    (h' : requestBillingRecord P w' ctx = .ok w₁') :
    Resembles w₁ w₁' ∧ w₁'.mandate = w₁.mandate := by
  simp only [requestBillingRecord, checkBillingRecord, check, orVela, bind_eq_ok, orError_eq_ok,
    require_eq_ok, pure_eq_ok, exists_const, startRequest_iff] at h h'
  obtain ⟨_, _, _, ⟨loaded, load, _, _, _, _, rfl⟩, _, _, nonce, next, _, _, _, _, _, _, _, _, _, _,
    ⟨_, rfl⟩, rfl⟩ := h
  obtain ⟨_, _, _, ⟨loaded', load', _, _, _, _, rfl⟩, _, _, nonce',
    next', _, _, _, _, _, _, _, _, _,
    _, ⟨_, rfl⟩, rfl⟩ := h'
  obtain rfl : loaded' = loaded :=
    Except.ok.inj (load'.symm.trans ((loadValidMandate_congr mandates).trans load))
  obtain rfl := Option.some.inj (next'.symm.trans next)
  have written : Resembles (w.writeMandate ctx.mandate
      { loaded'.intoCurrent with billingRequestNonce := nonce' } loaded'.isLegacy)
    (w'.writeMandate ctx.mandate { loaded'.intoCurrent with billingRequestNonce := nonce' }
      loaded'.isLegacy) := alike.writeMandate (.refl _) _
  refine ⟨?_, by simp only [World.queueComputation, World.emit, World.writeMandate, mandates]⟩
  obtain ⟨_, _, _, form⟩ := alike.form
  subst form
  exact written.congr rfl rfl rfl rfl rfl

theorem recordBillingEventCallback_both {ctx : RecordBillingEventCallback} (alike : Resembles w w')
    (mandates : w'.mandate = w.mandate) (h : recordBillingEventCallback P w ctx = .ok w₁)
    (h' : recordBillingEventCallback P w' ctx = .ok w₁') :
    Resembles w₁ w₁' ∧ w₁'.mandate = w₁.mandate := by
  simp only [recordBillingEventCallback, World.completeRequest, check, orVela, orHost, bind_eq_ok,
    orError_eq_ok, require_eq_ok, pure_eq_ok, exists_const] at h h'
  obtain ⟨mandate, anchored, plan, decoded, _, _, _, _, _, _, _, request, bound,
    output, output_eq, _, _, _,
    ⟨_, completed, rfl⟩, rfl⟩ := h
  obtain ⟨mandate', anchored', plan', decoded', _, _, _, _, _, _, _, request', bound', output',
    output_eq', _, _, _, ⟨_, completed', rfl⟩, rfl⟩ := h'
  obtain rfl : mandate' = mandate :=
    Except.ok.inj (anchored'.symm.trans ((anchorVelaMandate_congr mandates _).trans anchored))
  obtain rfl := Option.some.inj (output_eq'.symm.trans output_eq)
  have planId : plan'.planId = plan.planId := by
    obtain ⟨account, found, own⟩ := anchorVelaPlan_planId decoded
    obtain ⟨account', found', own'⟩ := anchorVelaPlan_planId decoded'
    obtain ⟨other, present, same⟩ := rel_some (alike.plans ctx.plan) found
    obtain rfl := Option.some.inj (found'.symm.trans present)
    rw [own', own, same.planId]
  have layout : w'.mandateIsLegacy ctx.mandate = w.mandateIsLegacy ctx.mandate := by
    rw [World.mandateIsLegacy, World.mandateIsLegacy, mandates]
  obtain ⟨_, _, _, form⟩ := alike.form
  obtain ⟨found, _⟩ := validateCallback_eq_ok bound
  obtain ⟨found', _⟩ := validateCallback_eq_ok bound'
  have requests : w'.requestState = w.requestState := by rw [form]
  have clock : w'.clock = w.clock := by rw [form]
  obtain rfl : request' = request := by
    rw [requests] at found'
    exact Option.some.inj (found'.symm.trans found)
  obtain ⟨_, rfl⟩ := completeArciumRequest_eq_ok.mp completed
  obtain ⟨_, rfl⟩ := completeArciumRequest_eq_ok.mp completed'
  have written : Resembles (w.writeMandate ctx.mandate
      { mandate' with lastBillingRecordedPull := mandate'.pullsExecuted }
      (w.mandateIsLegacy ctx.mandate))
    (w'.writeMandate ctx.mandate { mandate' with lastBillingRecordedPull := mandate'.pullsExecuted }
      (w'.mandateIsLegacy ctx.mandate)) := by
    rw [layout]
    exact alike.writeMandate (.refl _) _
  have stored : (w'.writeMandate ctx.mandate
      { mandate' with lastBillingRecordedPull := mandate'.pullsExecuted }
      (w'.mandateIsLegacy ctx.mandate)).mandate = (w.writeMandate ctx.mandate
        { mandate' with lastBillingRecordedPull := mandate'.pullsExecuted }
        (w.mandateIsLegacy ctx.mandate)).mandate := by
    simp only [World.writeMandate, mandates, layout]
  rw [planId]
  subst form
  exact ⟨written.congr rfl rfl rfl rfl rfl, stored⟩

theorem Billing.resembles {a : Action} (billing : Billing w a) (alike : Resembles w w')
    (mandates : w'.mandate = w.mandate) (step : Step P w a w₁) (step' : Step P w' a w₁') :
    Resembles w₁ w₁' ∧ w₁'.mandate = w₁.mandate := by
  have settle : ∀ {result : Result World}, result = .ok w₁' →
      (∃ w₂, result = .ok w₂ ∧ Resembles w₁ w₂ ∧ w₂.mandate = w₁.mandate) →
        Resembles w₁ w₁' ∧ w₁'.mandate = w₁.mandate := by
    rintro result done ⟨w₂, ended, alike, same⟩
    obtain rfl := Except.ok.inj (done.symm.trans ended)
    exact ⟨alike, same⟩
  cases a with
  | environment => exact billing.elim
  | tick clock =>
    obtain ⟨_, rfl⟩ := step
    obtain ⟨_, rfl⟩ := step'
    obtain ⟨_, _, _, form⟩ := alike.form
    subst form
    exact ⟨alike.congr rfl rfl rfl rfl rfl, mandates⟩
  | instruction i =>
    cases i with
    | requestValidation ctx =>
      obtain ⟨w₂, done, alike, same⟩ :=
        requestValidation_resembles alike step (requestValidation_priced mandates step')
      exact settle step' ⟨w₂, done, alike, same mandates⟩
    | validateMandateCallback ctx =>
      obtain ⟨w₂, done, alike, same⟩ := validateMandateCallback_resembles alike step
      exact settle step' ⟨w₂, done, alike, same mandates⟩
    | executePull ctx =>
      have clock : w'.clock = w.clock := by
        obtain ⟨_, _, _, form⟩ := alike.form
        rw [form]
      obtain ⟨w₂, done, alike, same⟩ :=
        executePull_resembles alike billing (undue_congr clock mandates billing) step
      exact settle step' ⟨w₂, done, alike, same mandates⟩
    | requestBillingRecord ctx => exact requestBillingRecord_both alike mandates step step'
    | recordBillingEventCallback ctx =>
      exact recordBillingEventCallback_both alike mandates step step'
    | _ => exact billing.elim

theorem EditedRun.resembles (run : EditedRun P p w w') :
    Resembles w w' ∧ w'.mandate = w.mandate := by
  induction run with
  | start w => exact ⟨.refl w, rfl⟩
  | edited ctx run own edit ih =>
    obtain ⟨alike, mandates⟩ := updatePlan_resembles edit
    exact ⟨ih.1.trans alike, mandates.trans ih.2⟩
  | both a run billing step step' ih => exact billing.resembles ih.1 ih.2 step step'

theorem Collectable.resembles (alike : Resembles w w') (mandates : w'.mandate = w.mandate)
    (collectable : Collectable P w k) (priced : ∀ mandate, w.currentMandate k = some mandate →
      ∃ plan, loadPlanAccount P w' mandate.plan = .ok plan ∧ plan.mandateAmount = mandate.amount) :
    Collectable P w' k := by
  obtain ⟨mandate, request, answer, pull, w₁, w₂, w₃, s, found, collects, undue, prepared, base⟩ :=
    collectable
  obtain ⟨own, answerOwn, pullOwn⟩ := collects.mandates
  obtain ⟨_, plan, present, offered, output⟩ := collects.truthful
  obtain rfl := Option.some.inj (found.symm.trans present)
  obtain ⟨plan', offered', amount⟩ := priced _ found
  have onPlan : request.plan = mandate.plan := collects.onPlan found
  have asked : mandate.amount = plan.mandateAmount :=
    requestValidation_priced rfl collects.requested mandate plan (own.symm ▸ found)
      (onPlan.symm ▸ offered)
  obtain ⟨w₁', requested, alike₁, mandates₁⟩ := requestValidation_resembles alike
    collects.requested fun mandate' plan'' found' offered'' => by
      obtain rfl := Option.some.inj (found.symm.trans (own ▸ found'))
      rw [onPlan] at offered''
      obtain rfl := Except.ok.inj (offered'.symm.trans offered'')
      exact amount.symm
  obtain ⟨w₂', answered, alike₂, mandates₂⟩ := validateMandateCallback_resembles alike₁
    collects.answered
  have mandates₂ := mandates₂ (mandates₁ mandates)
  have clock : w₂'.clock = w₂.clock := by
    obtain ⟨_, _, _, form⟩ := alike₂.form
    rw [form]
  have undue' : w₂'.undue k := undue_congr clock mandates₂ undue
  obtain ⟨w₃', pulled, _, _⟩ := executePull_resembles alike₂ (pullOwn.symm ▸ undue)
    (pullOwn.symm ▸ undue') collects.pulled
  obtain ⟨_, _, _, _, prepared'⟩ :=
    prepareSettlement_resembles alike₂ (pullOwn.symm ▸ undue) (pullOwn.symm ▸ undue') prepared
  refine ⟨mandate, request, answer, pull, w₁', w₂', w₃', _, ?_, ⟨collects.mandates, requested,
    ⟨mandate, plan', ?_, offered', ?_⟩, answered, pulled⟩, undue',
    prepared', base⟩
  · rw [currentMandate_congr mandates]
    exact found
  · rw [currentMandate_congr mandates]
    exact found
  · rw [truthfulInput_congr alike (amount.trans asked)]
    exact output

/-- After any edits of its plan, a mandate that could be collected without them can be collected
exactly when the plan asks the mandate's amount, whatever its other terms. -/
theorem edited_collectable_iff {mandate : VelaMandate} (run : EditedRun P p w w')
    (found : w.currentMandate k = some mandate) (on : mandate.plan = p)
    (collectable : Collectable P w k) : Collectable P w' k ↔
      ∃ plan, loadPlanAccount P w' p = .ok plan ∧ plan.mandateAmount = mandate.amount := by
  obtain ⟨alike, mandates⟩ := run.resembles
  constructor
  · rintro ⟨_, request, _, _, w₁, _, _, _, _, collects, _⟩
    obtain ⟨own, _, _⟩ := collects.mandates
    obtain ⟨loaded, plan, _, _, _, accepted, _⟩ := requestValidation_iff.mp collects.requested
    have found' := loadValidMandate_currentMandate accepted.loads
    rw [own, currentMandate_congr mandates] at found'
    obtain rfl := Option.some.inj (found'.symm.trans found)
    refine ⟨plan, ?_, accepted.amount.symm⟩
    rw [← on, ← accepted.planKey]
    exact accepted.offered
  · rintro ⟨plan, offered, amount⟩
    refine collectable.resembles alike mandates fun mandate' found' => ?_
    obtain rfl := Option.some.inj (found'.symm.trans found)
    exact ⟨plan, on ▸ offered, amount⟩

open Deployment

def firstPayment : List Action :=
  [offerFlat 0 100 3600 0 10 mintA, .instruction (.subscribe (subscription (flatPlan 0) mintA)),
    tick 3600]

def repriced : UpdatePlan := ⟨merchant, flatPlan 0, some 200, none, none, none⟩

def reshaped : UpdatePlan := ⟨merchant, flatPlan 0, none, some 7200, some 60, some 3⟩

theorem firstPayment_edited : ∃ w w' w'' mandate, Reachable platform w ∧
    updatePlan platform w repriced = .ok w' ∧ updatePlan platform w reshaped = .ok w'' ∧
      w.currentMandate Deployment.mandate = some mandate ∧ mandate.status = .active ∧
      mandate.billingType = .flat ∧ mandate.plan = flatPlan 0 ∧
      Collectable platform w Deployment.mandate ∧
      (∃ plan, loadPlanAccount platform w' (flatPlan 0) = .ok plan ∧ plan.status = .active ∧
        plan.mandateAmount ≠ mandate.amount) ∧
      ∃ plan, loadPlanAccount platform w'' (flatPlan 0) = .ok plan ∧
        plan.mandateAmount = mandate.amount := by
  have played : (runScript (world 0) firstPayment).any (fun w =>
      billsDue w && (w.currentMandate Deployment.mandate).any fun mandate =>
        (mandate.status = .active ∧ mandate.billingType = .flat ∧ mandate.plan = flatPlan 0) &&
        ((updatePlan platform w repriced).toOption.any fun w' =>
          (loadPlanAccount platform w' (flatPlan 0)).toOption.any fun plan =>
            plan.status = .active ∧ plan.mandateAmount ≠ mandate.amount) &&
        (updatePlan platform w reshaped).toOption.any fun w'' =>
          (loadPlanAccount platform w'' (flatPlan 0)).toOption.any fun plan =>
            plan.mandateAmount = mandate.amount) = true := by
    decide +kernel
  simp only [Option.any_eq_true, Bool.and_eq_true, decide_eq_true_eq, toOption_eq_some] at played
  obtain ⟨w, ran, bills, mandate, found, ⟨⟨active, flat, on⟩, w', edit, repricing⟩, w'', edit',
    reshaping⟩ := played
  exact ⟨w, w', w'', mandate, runScript_reachable ⟨_, world_fresh 0, .refl⟩ ran, edit, edit', found,
    active, flat, on, billsDue_collectable bills, repricing, reshaping⟩

theorem reshaped_collectable : ∃ w w'', Reachable platform w ∧
    updatePlan platform w reshaped = .ok w'' ∧ Collectable platform w'' Deployment.mandate := by
  obtain ⟨w, _, w'', mandate, reachable, _, edit, found, _, _, on, collectable, _, priced⟩ :=
    firstPayment_edited
  exact ⟨w, w'', reachable, edit,
    (edited_collectable_iff (.edited reshaped (.start w) rfl edit) found
    on collectable).mpr priced⟩

/-- Another price does. -/
theorem repriced_stranded : ¬∀ (P : Platform) (p k : Pubkey) (w w' : World) (mandate : VelaMandate)
    (plan : LoadedPlanAccount), Reachable P w → EditedRun P p w w' →
      w.currentMandate k = some mandate → mandate.status = .active → mandate.billingType = .flat →
      mandate.plan = p → loadPlanAccount P w' p = .ok plan → plan.status = .active →
      Collectable P w k → Collectable P w' k := by
  intro unharmed
  obtain ⟨w, w', _, mandate, reachable, edit, _, found, active, flat, on, collectable,
    ⟨plan, offered, planActive, amount⟩, _⟩ := firstPayment_edited
  obtain ⟨_, request, _, _, w₁, _, _, _, _, collects, _⟩ := unharmed platform (flatPlan 0)
    Deployment.mandate w w' mandate plan reachable (.edited repriced (.start w) rfl edit)
    found active
    flat on offered planActive collectable
  obtain ⟨alike, mandates⟩ := updatePlan_resembles edit
  obtain ⟨own, _, _⟩ := collects.mandates
  have found' : w'.currentMandate Deployment.mandate = some mandate := by
    rw [currentMandate_congr mandates]
    exact found
  have onPlan : request.plan = flatPlan 0 := (collects.onPlan found').trans on
  exact amount (requestValidation_priced mandates collects.requested mandate plan (own.symm ▸ found)
    (onPlan.symm ▸ offered)).symm

end VelaProtocol
