import VelaProtocol.Collection
import VelaProtocol.Deployment

/-! What the due date makes of a scheduled change. -/
namespace VelaProtocol

open Guard

variable {P : Platform} {k : Pubkey} {w w' w₁ : World}

def LoadedMandateAccount.withoutPending : LoadedMandateAccount → LoadedMandateAccount
  | .current mandate => .current mandate.clearPending
  | .legacy mandate => .legacy mandate

def World.withoutPending (w : World) (k : Pubkey) : World :=
  { w with
    mandate := Function.update w.mandate k ((w.mandate k).map fun account =>
      { account with contents := account.contents.withoutPending }) }

theorem LoadedMandateAccount.withoutPending_resembles (loaded : LoadedMandateAccount) :
    loaded.withoutPending.Resembles loaded := by
  cases loaded with
  | current mandate => exact .current mandate.clearPending mandate ⟨_, _, _, _, _, rfl⟩
  | legacy mandate => exact .legacy mandate

theorem withoutPending_resembles (w : World) (k : Pubkey) : Resembles (w.withoutPending k) w := by
  refine ⟨rfl, (Resembles.refl w).plans, fun key => ?_⟩
  by_cases same : key = k
  · subst same
    simp only [World.withoutPending, Function.update_self]
    cases w.mandate key with
    | none => exact .none
    | some account => exact .some ⟨rfl, account.contents.withoutPending_resembles⟩
  · simp only [World.withoutPending, Function.update_of_ne same]
    exact (Resembles.refl w).mandates key

theorem withoutPending_currentMandate {mandate : VelaMandate}
    (found : w.currentMandate k = some mandate) : ∃ bare,
      (w.withoutPending k).currentMandate k = some bare ∧ bare.PendingApart mandate := by
  obtain ⟨account, present, rfl⟩ := Option.map_eq_some_iff.mp found
  have stripped : (w.withoutPending k).mandate k =
      some { account with contents := account.contents.withoutPending } := by
    simp only [World.withoutPending, Function.update_self, present, Option.map_some]
  exact ⟨_, currentMandate_eq_some stripped, account.contents.withoutPending_resembles.apart⟩

/-- What all the checks on the way to the payment agree to: a flat plan in the same mint that asks
no more than the mandate does and whose next payment date exists. -/
structure Switchable (mandate : VelaMandate) (plan new : LoadedPlanAccount) : Prop where
  flat : new.billingType = .flat
  mints : plan.billingMint ≠ Pubkey.default ∧ new.billingMint ≠ Pubkey.default →
    new.billingMint = plan.billingMint
  amount : new.mandateAmount ≤ mandate.amount
  frequency : new.mandateFrequency.toNat < 2 ^ 63
  due : mandate.nextPaymentDue.toInt + new.mandateFrequency.toNat < 2 ^ 63

theorem Switchable.applies {ctx : ExecutePull} {mandate : VelaMandate}
    {plan new : LoadedPlanAccount} (fits : Switchable mandate plan new)
    (due : mandate.changeDue w.clock.unixTimestamp)
    (target : loadPlanAccount P w mandate.pendingNewPlan = .ok new)
    (merchant : new.merchant = mandate.merchant) (active : new.status = .active)
    (flat : mandate.billingType = .flat)
    (named : ctx.remainingAccounts = [mandate.pendingNewPlan]) :
    applyPending P w ctx mandate plan none =
    .ok ⟨mandate.switchPlan mandate.pendingNewPlan new, new,
      some (mandate.plan, mandate.pendingNewPlan, w.clock.unixTimestamp)⟩ := by
  rw [applyPending, if_pos due, named]
  simp only [loadPendingPlan, requirePlanBillingType, check, orVela, bind_eq_ok, orError_eq_ok,
    require_eq_ok, pure_eq_ok, exists_const]
  exact ⟨new, ⟨mandate.pendingNewPlan, rfl, rfl, new, target, merchant, active,
    fits.flat.trans flat.symm, fits.mints, rfl⟩, rfl⟩

theorem exists_advance (mandate : VelaMandate) (now : Int64)
    (pulls : mandate.pullsExecuted.toNat + 1 < 2 ^ 64)
    (frequency : mandate.frequency.toNat < 2 ^ 63)
    (due : mandate.nextPaymentDue.toInt + mandate.frequency.toNat < 2 ^ 63) :
    ∃ after, mandate.advance now = .ok after := by
  have bounds := Checked.toInt_bounds mandate.nextPaymentDue
  obtain ⟨period, value⟩ := Checked.exists_toI64 (n := mandate.frequency.toNat) (by omega)
  obtain ⟨later, sum⟩ := Checked.exists_toI64
    (n := mandate.nextPaymentDue.toInt + mandate.frequency.toNat) (by omega)
  rw [Checked.toI64_eq_some] at sum
  have counted : (mandate.pullsExecuted + 1).toNat = mandate.pullsExecuted.toNat + 1 := by
    rw [UInt64.toNat_add, UInt64.toNat_one, Nat.mod_eq_of_lt (by omega)]
  simp only [VelaMandate.advance, orVela, bind_eq_ok, orError_eq_ok, pure_eq_ok]
  refine ⟨_, period, value, mandate.pullsExecuted + 1, Checked.addU64_eq_some.mpr counted, later,
    Checked.addI64_eq_some.mpr ?_, rfl⟩
  rw [sum, Checked.toI64_eq_some.mp value]

theorem due_layout {loaded : LoadedMandateAccount} {now : Int64}
    (due : loaded.intoCurrent.changeDue now) : loaded.isLegacy = false := by
  cases loaded with
  | current mandate => rfl
  | legacy mandate =>
    have scheduled : (0 : UInt8) = 2 := due.1
    exact absurd scheduled (by decide)

theorem chargeAfterCredit_mono {base base' : UInt64} (credit : UInt64) (le : base' ≤ base) :
    chargeAfterCredit base' credit ≤ chargeAfterCredit base credit := by
  rw [UInt64.le_iff_toNat_le] at le ⊢
  rw [chargeAfterCredit_toNat, chargeAfterCredit_toNat]
  omega

theorem executePull_switched {ctx : ExecutePull} {mandate : VelaMandate}
    {plan new : LoadedPlanAccount} (alike : Resembles w w') (undue : w.undue ctx.mandate)
    (h : executePull P w ctx = .ok w₁) (found : w'.currentMandate ctx.mandate = some mandate)
    (due : mandate.changeDue w'.clock.unixTimestamp)
    (current : loadPlanAccount P w' mandate.plan = .ok plan)
    (target : loadPlanAccount P w' mandate.pendingNewPlan = .ok new)
    (merchant : new.merchant = mandate.merchant) (active : new.status = .active)
    (flat : mandate.billingType = .flat) (fits : Switchable mandate plan new) :
    ∃ w₁', executePull P w'
      { ctx with remainingAccounts := [mandate.pendingNewPlan] } = .ok w₁' := by
  simp only [executePull, prepareSettlement, bind_eq_ok, pure_eq_ok] at h
  obtain ⟨_, ⟨pull, checked, report, named, terms, applied, approval, approved, _,
    valid, base, charge,
    rfl⟩, w₂, transferred, after, advanced, rfl⟩ := h
  obtain ⟨other, checked', same⟩ := checkPull_resembles alike checked
  have read := checkPull_eq_ok checked
  have read' := checkPull_eq_ok checked'
  obtain rfl := Option.some.inj (read'.found.symm.trans found)
  rw [applyPending_undue (undue _ read.found)] at applied
  obtain rfl := Except.ok.inj applied
  have flat' : pull.mandate.billingType = .flat := by
    obtain ⟨_, _, _, _, _, form⟩ := same.loaded.apart
    rw [Pull.mandate, form] at flat
    exact flat
  have base_eq : base = pull.mandate.amount ∧ pull.mandate.amount ≤ approval.approvedAmount := by
    simp only [baseChargeAmount, read.billingType, flat', check, bind_eq_ok, require_eq_ok,
      pure_eq_ok, exists_const] at charge
    exact ⟨charge.2.symm, charge.1⟩
  obtain ⟨rfl, covered⟩ := base_eq
  obtain rfl : report = none := by
    simp only [usageReportInfo, flat', pure_eq_ok] at named
    exact named.symm
  obtain rfl : plan = other.plan :=
    Except.ok.inj (current.symm.trans (read'.planKey ▸ read'.plan))
  obtain ⟨newPlan, effectiveAt, changeType, nonceShort, reserved, form⟩ := same.loaded.apart
  change other.mandate = { pull.mandate with
    pendingNewPlan := newPlan, pendingEffectiveAt := effectiveAt, pendingChangeType := changeType,
    pendingNonceShort := nonceShort, reservedV3 := reserved } at form
  have less : new.mandateAmount ≤ pull.mandate.amount := by
    have := fits.amount
    rw [form] at this
    exact this
  have prepared : prepareSettlement P w'
      { ctx with remainingAccounts := [other.mandate.pendingNewPlan] } =
        .ok ⟨other, none, ⟨other.mandate.switchPlan other.mandate.pendingNewPlan new, new,
          some (other.mandate.plan, other.mandate.pendingNewPlan, w'.clock.unixTimestamp)⟩,
          approval,
          new.mandateAmount⟩ := by
    simp only [prepareSettlement, bind_eq_ok, pure_eq_ok]
    refine ⟨other, checked', none, ?_, _, fits.applies due target merchant active flat
      rfl, approval,
      ?_, (), rfl, new.mandateAmount, ?_, rfl⟩
    · simp only [usageReportInfo, flat, pure_eq_ok]
    · rw [same.period]
      obtain ⟨_, _, _, rfl⟩ := alike.form
      exact approved
    · simp only [baseChargeAmount, fits.flat, check, bind_eq_ok, require_eq_ok, pure_eq_ok,
        exists_const]
      exact ⟨UInt64.le_trans less covered, rfl⟩
  have layout : other.loaded.isLegacy = false := due_layout due
  obtain ⟨w₂', transferred', _⟩ := invokeBillingTransfer_resembles
    { ctx with remainingAccounts := [other.mandate.pendingNewPlan] }
    (other.mandate.switchPlan other.mandate.pendingNewPlan new) alike
    (chargeAfterCredit_mono pull.mandate.creditBalance less) rfl (by rw [form]; rfl)
    (by rw [form]; rfl) (by rw [← same.loaded.isLegacy, layout, form]; rfl) transferred
  have countable : other.mandate.pullsExecuted.toNat + 1 < 2 ^ 64 := by
    have bound := Checked.toNat_lt other.mandate.maxPulls
    have pulls := UInt64.lt_iff_toNat_lt.mp read'.pulls
    omega
  obtain ⟨after', advanced'⟩ := exists_advance
    ((other.mandate.switchPlan other.mandate.pendingNewPlan new).spendCredit
      new.mandateAmount) w₂'.clock.unixTimestamp countable fits.frequency fits.due
  simp only [executePull, bind_eq_ok, pure_eq_ok]
  refine ⟨_, _, prepared, w₂', ?_, after', advanced', rfl⟩
  have credit : other.mandate.creditBalance = pull.mandate.creditBalance := by rw [form]
  change invokeBillingTransfer P w' _ _ _ _
    (chargeAfterCredit new.mandateAmount other.mandate.creditBalance) = _
  rw [same.loaded.isLegacy, same.tokenConfig, credit]
  exact transferred'

theorem executePull_cases {ctx : ExecutePull} {mandate : VelaMandate} {approval : PullApproval}
    (h : executePull P w ctx = .ok w₁) (found : w.currentMandate ctx.mandate = some mandate)
    (flat : mandate.billingType = .flat) (approved : w.pullApproval ctx.mandate = some approval)
    (amount : approval.approvedAmount = mandate.amount) :
    ∃ after, w₁.currentMandate ctx.mandate = some after ∧
      (¬mandate.changeDue w.clock.unixTimestamp ∧ after.plan = mandate.plan ∨
        mandate.changeDue w.clock.unixTimestamp ∧ after.plan = mandate.pendingNewPlan ∧
          ∃ plan new, loadPlanAccount P w mandate.plan = .ok plan ∧
            loadPlanAccount P w mandate.pendingNewPlan = .ok new ∧
            Switchable mandate plan new) := by
  obtain ⟨s, after, pulled⟩ := executePull_eq_ok h
  have checked := pulled.checked
  obtain rfl := Option.some.inj (checked.pull.found.symm.trans found)
  have onPlan : after.plan = s.terms.mandate.plan := by rw [pulled.advanced.rest]; rfl
  refine ⟨after, pulled.written, ?_⟩
  cases checked.terms with
  | asIs undue mandate_eq plan_eq => exact .inl ⟨undue, by rw [onPlan, mandate_eq]⟩
  | switched applied mandate_eq =>
    have billingType : s.terms.plan.billingType = .flat := applied.billingType.trans flat
    have base := checked.base
    simp only [baseChargeAmount, billingType, check, bind_eq_ok, require_eq_ok, pure_eq_ok,
      exists_const] at base
    obtain ⟨covered, _⟩ := base
    obtain rfl := Option.some.inj (checked.approval.found.symm.trans approved)
    have frequency := pulled.advanced.frequency
    have later := pulled.advanced.due
    have bounds := Checked.toInt_bounds after.nextPaymentDue
    rw [mandate_eq] at onPlan covered frequency later
    refine .inr ⟨applied.due, onPlan, s.pull.plan, s.terms.plan,
      checked.pull.planKey ▸ checked.pull.plan, applied.loaded, billingType, applied.mints, ?_,
      frequency, ?_⟩
    · rw [← amount]
      exact covered
    · change after.nextPaymentDue.toInt =
        s.pull.mandate.nextPaymentDue.toInt + s.terms.plan.mandateFrequency.toNat at later
      omega

/-- The payment can be collected with the mandate ending up on the plan. -/
def Switches (P : Platform) (w : World) (k target : Pubkey) : Prop :=
  ∃ request answer pull w₁ w₂ w₃ after, Collects P w k request answer pull w₁ w₂ w₃ ∧
    w₃.currentMandate k = some after ∧ after.plan = target

theorem Collectable.approvable {mandate : VelaMandate}
    (collectable : Collectable P (w.withoutPending k) k)
    (found : w.currentMandate k = some mandate) :
    ∃ request answer pull v₂ v₃ w₁ w₂, (request.mandate = k ∧ answer.mandate = k ∧
      pull.mandate = k) ∧ requestValidation P w request = .ok w₁ ∧
      (∃ plan, loadPlanAccount P w mandate.plan = .ok plan ∧ answer.output =
        some (validateMandate (truthfulInput w mandate plan pull.subscriberWrappedAccount))) ∧
      validateMandateCallback P w₁ answer = .ok w₂ ∧ Resembles v₂ w₂ ∧ v₂.undue k ∧
      executePull P v₂ pull = .ok v₃ := by
  obtain ⟨bare, request, answer, pull, v₁, v₂, v₃, s, present, collects, undue, _, _⟩ := collectable
  obtain ⟨bare', stripped, apart⟩ := withoutPending_currentMandate found
  obtain ⟨own, answerOwn, pullOwn⟩ := collects.mandates
  obtain ⟨_, plan, there, offered, output⟩ := collects.truthful
  obtain rfl := Option.some.inj (there.symm.trans present)
  obtain rfl := Option.some.inj (there.symm.trans stripped)
  obtain ⟨w₁, requested, alike₁, _⟩ := requestValidation_resembles (withoutPending_resembles w k)
    collects.requested fun mandate plan found offered =>
      requestValidation_priced rfl collects.requested mandate plan found offered
  obtain ⟨w₂, answered, alike₂, _⟩ := validateMandateCallback_resembles alike₁ collects.answered
  obtain ⟨_, _, _, _, _, rfl⟩ := apart
  exact ⟨request, answer, pull, v₂, v₃, w₁, w₂, collects.mandates, requested,
    ⟨plan, offered, output⟩, answered, alike₂, undue, collects.pulled⟩

theorem Collects.cases {request : RequestValidation} {answer : ValidateMandateCallback}
    {pull : ExecutePull} {w₂ w₃ : World} {mandate : VelaMandate}
    (collects : Collects P w k request answer pull w₁ w₂ w₃)
    (found : w.currentMandate k = some mandate) : ∃ after, w₃.currentMandate k = some after ∧
      (¬mandate.changeDue w.clock.unixTimestamp ∧ after.plan = mandate.plan ∨
        mandate.changeDue w.clock.unixTimestamp ∧ after.plan = mandate.pendingNewPlan ∧
          ∃ plan new, loadPlanAccount P w mandate.plan = .ok plan ∧
            loadPlanAccount P w mandate.pendingNewPlan = .ok new ∧
            Switchable mandate plan new) := by
  obtain ⟨own, answerOwn, pullOwn⟩ := collects.mandates
  have open_pull := approvable_of own answerOwn collects.requested collects.answered found
  obtain ⟨nonce, present⟩ := open_pull.found
  obtain ⟨approval, approved, amount⟩ := open_pull.approval
  subst pullOwn
  obtain ⟨after, written, outcome⟩ :=
    executePull_cases collects.pulled present open_pull.flat approved amount
  rw [open_pull.clock] at outcome
  refine ⟨after, written, ?_⟩
  rcases outcome with undue | ⟨due, onPending, plan, new, current, target, fits⟩
  · exact .inl undue
  · rw [loadPlanAccount_congr open_pull.plan] at current target
    exact .inr ⟨due, onPending, plan, new, current, target, fits.flat, fits.mints, fits.amount,
      fits.frequency, fits.due⟩

theorem Collectable.collects {mandate : VelaMandate} {plan new : LoadedPlanAccount}
    (collectable : Collectable P (w.withoutPending k) k)
    (found : w.currentMandate k = some mandate)
    (outcome : mandate.changeDue w.clock.unixTimestamp →
      loadPlanAccount P w mandate.plan = .ok plan ∧
      loadPlanAccount P w mandate.pendingNewPlan = .ok new ∧ new.merchant = mandate.merchant ∧
      new.status = .active ∧ Switchable mandate plan new) :
    ∃ request answer pull w₁ w₂ w₃, Collects P w k request answer pull w₁ w₂ w₃ := by
  obtain ⟨request, answer, pull, v₂, v₃, w₁, w₂, ⟨own, answerOwn, pullOwn⟩, requested,
    ⟨old, offered, output⟩, answered, alike, undue, pulled⟩ := collectable.approvable found
  have open_pull := approvable_of own answerOwn requested answered found
  obtain ⟨nonce, present⟩ := open_pull.found
  subst pullOwn
  by_cases due : mandate.changeDue w.clock.unixTimestamp
  · obtain ⟨current, target, merchant, active, fits⟩ := outcome due
    rw [← loadPlanAccount_congr open_pull.plan] at current target
    rw [← open_pull.clock] at due
    obtain ⟨w₃, pulled'⟩ := executePull_switched alike undue pulled present due current target
      merchant active open_pull.flat ⟨fits.flat, fits.mints, fits.amount, fits.frequency, fits.due⟩
    exact ⟨request, answer, { pull with remainingAccounts := [mandate.pendingNewPlan] }, w₁, w₂, w₃,
      ⟨own, answerOwn, rfl⟩, requested, ⟨mandate, old, found, offered, output⟩, answered, pulled'⟩
  · have undue' : w₂.undue pull.mandate := by
      intro mandate' found'
      obtain rfl := Option.some.inj (present.symm.trans found')
      rw [open_pull.clock]
      exact due
    obtain ⟨w₃, pulled', _, _⟩ := executePull_resembles alike undue undue' pulled
    exact ⟨request, answer, pull, w₁, w₂, w₃, ⟨own, answerOwn, rfl⟩, requested,
      ⟨mandate, old, found, offered, output⟩, answered, pulled'⟩

theorem scheduled_target {w₀ : World} {ctx : SchedulePlanChange} {mandate : VelaMandate}
    {new : LoadedPlanAccount} (scheduled : schedulePlanChange P w₀ ctx = .ok w)
    (found : w.currentMandate ctx.mandate = some mandate)
    (target : loadPlanAccount P w ctx.newPlan = .ok new) :
    new.merchant = mandate.merchant ∧ new.status = .active := by
  obtain ⟨s, checked, frame, _, outcome⟩ := schedulePlanChange_eq_ok scheduled
  rw [loadPlanAccount_congr frame.plan] at target
  obtain rfl := Except.ok.inj (checked.newPlan.symm.trans target)
  refine ⟨?_, checked.planActive⟩
  rcases outcome with rfl | ⟨_, nonce, written⟩
  · obtain rfl := Option.some.inj (checked.found.symm.trans found)
    exact checked.merchant
  · obtain rfl := Option.some.inj (written.symm.trans found)
    exact checked.merchant

/-- A scheduled change takes effect at a due date exactly when it is due then and all the checks
on the way to the payment agree on it; while it is due and does not fit, nothing is collected. -/
theorem scheduled_applies_iff {w₀ : World} {ctx : SchedulePlanChange} {clock : Clock}
    {mandate : VelaMandate} {plan new : LoadedPlanAccount}
    (scheduled : schedulePlanChange P w₀ ctx = .ok w) (later : Step P w (.tick clock) w')
    (found : w'.currentMandate ctx.mandate = some mandate)
    (current : loadPlanAccount P w' mandate.plan = .ok plan)
    (target : loadPlanAccount P w' ctx.newPlan = .ok new)
    (collectable : Collectable P (w'.withoutPending ctx.mandate) ctx.mandate) :
    (Switches P w' ctx.mandate ctx.newPlan ↔
      ¬mandate.changeDue w'.clock.unixTimestamp ∧ mandate.plan = ctx.newPlan ∨
        mandate.changeDue w'.clock.unixTimestamp ∧ mandate.pendingNewPlan = ctx.newPlan ∧
          Switchable mandate plan new) ∧
      (mandate.changeDue w'.clock.unixTimestamp → mandate.pendingNewPlan = ctx.newPlan →
        ((∃ request answer pull w₁ w₂ w₃, Collects P w' ctx.mandate request answer pull w₁ w₂ w₃) ↔
          Switchable mandate plan new)) := by
  obtain ⟨merchant, active⟩ : new.merchant = mandate.merchant ∧ new.status = .active := by
    obtain ⟨_, rfl⟩ := later
    exact scheduled_target scheduled found target
  have collects := fun (fits : mandate.changeDue w'.clock.unixTimestamp →
      mandate.pendingNewPlan = ctx.newPlan ∧ Switchable mandate plan new) =>
    collectable.collects found fun due => by
      obtain ⟨pending, fits⟩ := fits due
      exact ⟨current, pending.symm ▸ target, merchant, active, fits⟩
  have agreed : ∀ plan' new', loadPlanAccount P w' mandate.plan = .ok plan' →
      mandate.pendingNewPlan = ctx.newPlan →
      loadPlanAccount P w' mandate.pendingNewPlan = .ok new' → Switchable mandate plan' new' →
        Switchable mandate plan new := by
    intro plan' new' current' pending target' fits
    obtain rfl := Except.ok.inj (current'.symm.trans current)
    rw [pending] at target'
    obtain rfl := Except.ok.inj (target'.symm.trans target)
    exact fits
  refine ⟨⟨?_, ?_⟩, fun due pending => ⟨?_, fun fits => collects fun _ => ⟨pending, fits⟩⟩⟩
  · rintro ⟨request, answer, pull, w₁, w₂, w₃, after, run, written, onTarget⟩
    obtain ⟨after', written', outcome⟩ := run.cases found
    obtain rfl := Option.some.inj (written'.symm.trans written)
    rcases outcome with ⟨undue, onPlan⟩ | ⟨due, onPending, plan', new', current', target', fits⟩
    · exact .inl ⟨undue, onPlan.symm.trans onTarget⟩
    · have pending := onPending.symm.trans onTarget
      exact .inr ⟨due, pending, agreed plan' new' current' pending target' fits⟩
  · intro condition
    have run := collects fun due => by
      rcases condition with ⟨undue, _⟩ | ⟨_, pending, fits⟩
      · exact absurd due undue
      · exact ⟨pending, fits⟩
    obtain ⟨request, answer, pull, w₁, w₂, w₃, run⟩ := run
    obtain ⟨after, written, outcome⟩ := run.cases found
    refine ⟨request, answer, pull, w₁, w₂, w₃, after, run, written, ?_⟩
    rcases condition with ⟨undue, onPlan⟩ | ⟨due, pending, fits⟩
    · rcases outcome with ⟨_, kept⟩ | ⟨due, _⟩
      · exact kept.trans onPlan
      · exact absurd due undue
    · rcases outcome with ⟨undue, _⟩ | ⟨_, onPending, _⟩
      · exact absurd due undue
      · exact onPending.trans pending
  · rintro ⟨request, answer, pull, w₁, w₂, w₃, run⟩
    obtain ⟨after, written, outcome⟩ := run.cases found
    rcases outcome with ⟨undue, _⟩ | ⟨_, _, plan', new', current', target', fits⟩
    · exact absurd due undue
    · exact agreed plan' new' current' pending target' fits

open Deployment

def scheduleTo (n : UInt64) : SchedulePlanChange := ⟨subscriber, flatPlan n, Deployment.mandate⟩

theorem scheduleTo_due (n : UInt64) (offered : n = 1 ∨ n = 2) : ∃ w₀ w w' mandate plan new,
    Reachable platform w₀ ∧ schedulePlanChange platform w₀ (scheduleTo n) = .ok w ∧
      Step platform w (.tick ⟨3600, 0⟩) w' ∧
      w'.currentMandate Deployment.mandate = some mandate ∧ mandate.status = .active ∧
      mandate.nextPaymentDue = w'.clock.unixTimestamp ∧
      loadPlanAccount platform w' mandate.plan = .ok plan ∧
      loadPlanAccount platform w' (flatPlan n) = .ok new ∧
      Collectable platform (w'.withoutPending Deployment.mandate) Deployment.mandate ∧
      mandate.changeDue w'.clock.unixTimestamp ∧ mandate.pendingNewPlan = flatPlan n ∧
      mandate.amount = 100 ∧ mandate.nextPaymentDue = 3600 ∧ new.billingType = .flat ∧
      plan.billingMint = new.billingMint ∧ new.mandateFrequency = 3600 ∧
      new.mandateAmount = if n = 1 then 50 else 200 := by
  have played : (runScript (world 0) threeOffers).any (fun w₀ =>
      (schedulePlanChange platform w₀ (scheduleTo n)).toOption.any fun w =>
        (applyAction platform w (.tick ⟨3600, 0⟩)).any fun w' =>
          billsDue (w'.withoutPending Deployment.mandate) &&
          (w'.currentMandate Deployment.mandate).any fun mandate =>
            (loadPlanAccount platform w' mandate.plan).toOption.any fun plan =>
              (loadPlanAccount platform w' (flatPlan n)).toOption.any fun new =>
                (mandate.status = .active ∧ mandate.nextPaymentDue = w'.clock.unixTimestamp) &&
                (mandate.changeDue w'.clock.unixTimestamp ∧ mandate.pendingNewPlan = flatPlan n ∧
                  mandate.amount = 100 ∧ mandate.nextPaymentDue = 3600 ∧ new.billingType = .flat ∧
                  plan.billingMint = new.billingMint ∧ new.mandateFrequency = 3600 ∧
                  new.mandateAmount = if n = 1 then 50 else 200)) = true := by
    rcases offered with rfl | rfl <;> decide +kernel
  simp only [Option.any_eq_true, Bool.and_eq_true, decide_eq_true_eq, toOption_eq_some] at played
  obtain ⟨w₀, ran, w, scheduled, w', ticked, bills, mandate, found, plan, current, new, target,
    ⟨active, now⟩, rest⟩ := played
  exact ⟨w₀, w, w', mandate, plan, new, runScript_reachable ⟨_, world_fresh 0, .refl⟩
    ran, scheduled,
    applyAction_step ticked, found, active, now, current, target, billsDue_collectable bills, rest⟩

theorem cheaper_applies : ∃ w₀ w w', Reachable platform w₀ ∧
    schedulePlanChange platform w₀ (scheduleTo 1) = .ok w ∧ Step platform w (.tick ⟨3600, 0⟩) w' ∧
      Switches platform w' Deployment.mandate (flatPlan 1) := by
  obtain ⟨w₀, w, w', mandate, plan, new, reachable, scheduled, later, found, active, now, current,
    target, collectable, due, pending, amount, date, flat, mints, frequency, price⟩ :=
    scheduleTo_due 1 (.inl rfl)
  refine ⟨w₀, w, w', reachable, scheduled, later,
    (scheduled_applies_iff scheduled later found current
    target collectable).1.mpr (.inr ⟨due, pending, flat, fun _ => mints.symm, ?_, ?_, ?_⟩)⟩
  · rw [price, amount]
    decide
  · rw [frequency]
    decide
  · rw [frequency, date]
    decide

/-- A change to the dearer one is accepted as well and never does. -/
theorem dearer_stuck : ¬∀ (P : Platform) (w₀ w w' : World) (ctx : SchedulePlanChange)
    (clock : Clock) (mandate : VelaMandate), Reachable P w₀ →
      schedulePlanChange P w₀ ctx = .ok w → Step P w (.tick clock) w' →
      w'.currentMandate ctx.mandate = some mandate → mandate.status = .active →
      mandate.nextPaymentDue = w'.clock.unixTimestamp →
      Collectable P (w'.withoutPending ctx.mandate) ctx.mandate →
        Switches P w' ctx.mandate ctx.newPlan := by
  intro applies
  obtain ⟨w₀, w, w', mandate, plan, new, reachable, scheduled, later, found, active, now, current,
    target, collectable, due, pending, amount, date, flat, mints, frequency, price⟩ :=
    scheduleTo_due 2 (.inr rfl)
  obtain ⟨request, answer, pull, w₁, w₂, w₃, after, run, _⟩ :=
    applies platform w₀ w w' (scheduleTo 2) ⟨3600, 0⟩ mandate reachable scheduled later found active
      now collectable
  obtain ⟨after', written, outcome⟩ := run.cases found
  rcases outcome with ⟨undue, _⟩ | ⟨_, _, plan', new', _, target', fits⟩
  · exact undue due
  · rw [pending] at target'
    obtain rfl := Except.ok.inj (target'.symm.trans target)
    have dearer := fits.amount
    rw [price, amount] at dearer
    exact absurd dearer (by decide)

end VelaProtocol
