import VelaProtocol.Steps

/-! What every reachable state satisfies, whoever acts. -/
namespace VelaProtocol

/-- The program has just been deployed. Plans and mandates may remain from an earlier version,
which asked for a positive frequency too. -/
structure Fresh (w : World) : Prop where
  plans : ∀ key account, w.plan key = some account → Recurring account.contents
  mandates : ∀ k mandate, w.currentMandate k = some mandate → 0 < mandate.frequency
  tokenConfig : w.tokenConfig Pubkey.default = none
  approvals : ∀ k, w.pullApproval k = none
  requests : ∀ key, w.requestState key = none
  reports : ∀ key, w.usageReport key = none

def Reachable (P : Platform) (w : World) : Prop :=
  ∃ w₀, Fresh w₀ ∧ Relation.ReflTransGen (fun w w' => ∃ a, Step P w a w') w₀ w

/-- Frequencies are positive, no token is registered under the default key, and whatever an
approval, a request or a report is about has fallen due. -/
structure Deployed (w : World) : Prop where
  plans : ∀ key account, w.plan key = some account → Recurring account.contents
  mandates : ∀ k mandate, w.currentMandate k = some mandate → 0 < mandate.frequency
  tokenConfig : w.tokenConfig Pubkey.default = none
  approvals : ∀ k approval, w.pullApproval k = some approval → approval.approved = true →
    approval.periodEnd ≤ w.clock.unixTimestamp
  requests : ∀ k due state, w.requestState (.validation, k, due.toBitVec) = some state →
    due ≤ w.clock.unixTimestamp
  reports : ∀ key report, w.usageReport key = some report →
    report.periodEnd ≤ w.clock.unixTimestamp

theorem Fresh.deployed {w : World} (fresh : Fresh w) : Deployed w where
  plans := fresh.plans
  mandates := fresh.mandates
  tokenConfig := fresh.tokenConfig
  approvals k _ found := absurd (found.symm.trans (fresh.approvals k)) nofun
  requests _ _ _ found := absurd (found.symm.trans (fresh.requests _)) nofun
  reports key _ found := absurd (found.symm.trans (fresh.reports key)) nofun

variable {P : Platform} {w w' : World} {k : Pubkey}

theorem PlanChange.recurring {before after : Option PlanAccount} (change : PlanChange before after)
    (kept : ∀ account, before = some account → Recurring account.contents) :
    ∀ account, after = some account → Recurring account.contents := by
  intro account found
  cases change with
  | unchanged _ => exact kept account found
  | created new recurring =>
    cases found
    exact recurring
  | edited old new recurring merchant billingMint billingType =>
    cases found
    exact recurring (kept old rfl)

theorem loaded_recurring {key : Pubkey} {plan : LoadedPlanAccount} (deployed : Deployed w)
    (load : loadPlanAccount P w key = .ok plan) : Recurring plan := by
  obtain ⟨account, found, rfl, _⟩ := loadPlanAccount_eq_ok load
  exact deployed.plans key account found

theorem billed_frequency {mandate : VelaMandate} {plan : LoadedPlanAccount} {terms : BilledTerms}
    (deployed : Deployed w) (billed : TermsBilled P w mandate plan terms)
    (positive : 0 < mandate.frequency) : 0 < terms.mandate.frequency := by
  cases billed with
  | asIs undue mandate_eq plan_eq => rwa [mandate_eq]
  | switched applied mandate_eq =>
    rw [mandate_eq]
    exact loaded_recurring deployed applied.loaded

theorem Pulled.due_later {ctx : ExecutePull} {s : Settlement} {after : VelaMandate}
    (deployed : Deployed w) (spec : Pulled P w ctx w' s after) :
    s.pull.mandate.nextPaymentDue.toInt < after.nextPaymentDue.toInt := by
  have positive := billed_frequency deployed spec.checked.terms
    (deployed.mandates _ _ spec.checked.pull.found)
  have positive : 0 < s.terms.mandate.frequency.toNat := Checked.lt_iff.mp positive
  have due : after.nextPaymentDue.toInt =
      s.terms.mandate.nextPaymentDue.toInt + s.terms.mandate.frequency.toNat := spec.advanced.due
  rw [due, spec.checked.terms.keeps.2.1]
  omega

theorem inert_frequency (deployed : Deployed w) (same : Inert w w' k) {mandate : VelaMandate}
    (present : w'.currentMandate k = some mandate) : 0 < mandate.frequency := by
  cases same with
  | gone after => exact absurd (present.symm.trans after) nofun
  | kept before after found stays terms =>
    obtain rfl := Option.some.inj (stays.symm.trans present)
    rw [terms.rest]
    exact deployed.mandates k before found

theorem step_frequency {call : Option MandateCall} (deployed : Deployed w)
    (step : MandateStep P k w w' call) {mandate : VelaMandate}
    (present : w'.currentMandate k = some mandate) : 0 < mandate.frequency := by
  cases step with
  | inert same quiet requests => exact inert_frequency deployed same present
  | subscribed ctx plan created key spec =>
    obtain ⟨_, _, _, _, _, _, initial⟩ := spec.initial
    obtain rfl := Option.some.inj (spec.created.symm.trans (key ▸ present))
    rw [initial]
    exact loaded_recurring deployed spec.loaded
  | migrated ctx before after key spec =>
    obtain ⟨_, _, moved⟩ := spec.moved
    obtain rfl := Option.some.inj (spec.created.symm.trans (key ▸ present))
    rw [moved]
    exact deployed.mandates _ before spec.found
  | samePlan ctx s key checked plan unchanged =>
    exact deployed.mandates k mandate (unchanged ▸ present)
  | switched ctx s delta priced key spec =>
    obtain rfl := Option.some.inj (spec.written.symm.trans (key ▸ present))
    exact loaded_recurring deployed spec.checked.newPlan
  | alreadyScheduled ctx s key checked unchanged =>
    exact deployed.mandates k mandate (unchanged ▸ present)
  | scheduled ctx s nonce key checked changed written frame =>
    obtain rfl := Option.some.inj (written.symm.trans present)
    exact deployed.mandates k s.mandate (key ▸ checked.found)
  | dropped ctx before key spec =>
    obtain rfl := Option.some.inj (spec.written.symm.trans (key ▸ present))
    exact deployed.mandates k before (key ▸ spec.found)
  | pulled ctx s after key spec =>
    obtain rfl := Option.some.inj (spec.written.symm.trans (key ▸ present))
    rw [spec.advanced.rest]
    exact billed_frequency deployed spec.checked.terms
      (deployed.mandates _ _ spec.checked.pull.found)
  | requested ctx before plan key spec =>
    exact inert_frequency deployed (key ▸ spec.inert) present
  | answered ctx before result key flat output spec =>
    exact inert_frequency deployed spec.inert present

theorem step_requests {call : Option MandateCall} (deployed : Deployed w)
    (step : MandateStep P k w w' call) {due : Int64} {state : ArciumRequestState}
    (found : w'.requestState (.validation, k, due.toBitVec) = some state) :
    due ≤ w.clock.unixTimestamp := by
  have kept : SameRequests w w' k → due ≤ w.clock.unixTimestamp := fun same =>
    deployed.requests k due state (by rw [← same]; exact found)
  cases step with
  | inert same quiet requests => exact kept requests
  | subscribed ctx plan created key spec => exact kept (.of_eq spec.frame.requestState)
  | migrated ctx before after key spec => exact kept (.of_eq spec.frame.requestState)
  | samePlan ctx s key checked plan unchanged => exact kept (unchanged ▸ .of_eq rfl)
  | switched ctx s delta priced key spec => exact kept (.of_eq spec.requestState)
  | alreadyScheduled ctx s key checked unchanged => exact kept (unchanged ▸ .of_eq rfl)
  | scheduled ctx s nonce key checked changed written frame =>
    exact kept (.of_eq frame.requestState)
  | dropped ctx before key spec => exact kept (.of_eq spec.frame.requestState)
  | pulled ctx s after key spec => exact kept (.of_eq spec.requestState)
  | requested ctx mandate plan key spec =>
    obtain ⟨request, updated, _⟩ := spec.requestState
    by_cases same : due = mandate.nextPaymentDue
    · exact same ▸ spec.checked.due
    · refine deployed.requests k due state ?_
      rw [updated, Function.update_of_ne] at found
      · exact found
      · simp only [validationKey, key, ne_eq, Prod.mk.injEq, true_and]
        exact fun bits => same (Int64.toBitVec_inj.mp bits)
  | answered ctx mandate result key flat output spec =>
    obtain ⟨completed, _, updated⟩ := spec.completed
    obtain ⟨before, present, _⟩ := spec.pending
    by_cases same : due = mandate.nextPaymentDue
    · exact deployed.requests k due before (same ▸ present)
    · refine deployed.requests k due state ?_
      rw [updated, Function.update_of_ne] at found
      · exact found
      · simp only [validationKey, ne_eq, Prod.mk.injEq, true_and]
        exact fun bits => same (Int64.toBitVec_inj.mp bits)

theorem step_approvals {a : Action} (deployed : Deployed w) (step : ApprovalStep w w' k a)
    {approval : PullApproval} (found : w'.pullApproval k = some approval)
    (approved : approval.approved = true) : approval.periodEnd ≤ w.clock.unixTimestamp := by
  cases step with
  | kept same => exact deployed.approvals k approval (same ▸ found) approved
  | cleared bump reset =>
    obtain rfl := Option.some.inj (reset.symm.trans found)
    cases approved
  | closed gone => exact absurd (found.symm.trans gone) nofun
  | granted recorded request mandate granted amount spec ended =>
    obtain ⟨period, _, _, window, updated⟩ := spec.granted
    rw [updated, Function.update_self, Option.some.injEq] at found
    have due : approval.periodEnd = mandate.nextPaymentDue := by
      rw [← found]
      exact (mandateBillingPeriod_eq_ok.mp window).2.1
    rw [due]
    rcases ended with flat | ⟨key, report, reported, same⟩
    · obtain ⟨state, present, _⟩ := spec.pending
      rw [flat] at present
      exact deployed.requests k mandate.nextPaymentDue state present
    · exact same ▸ deployed.reports key report reported

theorem step_deployed {a : Action} (deployed : Deployed w) (step : Step P w a w') :
    Deployed w' := by
  have setting := settingStep step
  refine ⟨fun key => (setting.plan key).recurring (deployed.plans key), fun k mandate present => ?_,
    setting.tokenConfig deployed.tokenConfig, fun k approval found approved => ?_,
    fun k due state found => ?_, fun key report found => ?_⟩
  · exact step_frequency deployed (mandateStep k step) present
  · exact Int64.le_trans (step_approvals deployed (periodStep k step).approval found approved)
      setting.clock
  · exact Int64.le_trans (step_requests deployed (mandateStep k step) found) setting.clock
  · refine Int64.le_trans ?_ setting.clock
    rcases (periodStep Pubkey.default step).reports key report found
      with ended | ⟨old, before, same⟩
    · exact ended
    · exact same ▸ deployed.reports key old before

theorem Reachable.deployed (reachable : Reachable P w) : Deployed w := by
  obtain ⟨w₀, fresh, steps⟩ := reachable
  induction steps with
  | refl => exact fresh.deployed
  | tail _ last ih =>
    obtain ⟨a, step⟩ := last
    exact step_deployed ih step

theorem deployedRun_invariant {γ : Type} {f : γ → World → MandateCall → World → γ}
    {p : γ → World → MandateCall → World → Prop} {x y : World × γ} (run : MandateRun P k f p x y)
    (deployed : Deployed x.1) (I : World → γ → Prop) (initial : I x.1 x.2)
    (inert : ∀ w w' g, Deployed w → I w g → Inert w w' k → Quiet w w' k → SameRequests w w' k →
      SettingStep w w' → I w' g)
    (calls : ∀ w w' g call, Deployed w → I w g → MandateStep P k w w' (some call) →
      SettingStep w w' → p g w call w' → I w' (f g w call w')) : Deployed y.1 ∧ I y.1 y.2 := by
  refine Monitored.Run.invariant run (fun w g => Deployed w ∧ I w g) ⟨deployed, initial⟩ ?_
  intro w g a w' holds step allowed
  obtain ⟨deployed, holds⟩ := holds
  exact ⟨step_deployed deployed step, watched_step step allowed (inert w w' g deployed holds)
    fun call => calls w w' g call deployed holds⟩

theorem Reachable.steps (reachable : Reachable P w)
    (steps : Relation.ReflTransGen (fun w w' => ∃ a, Step P w a w') w w') : Reachable P w' := by
  obtain ⟨w₀, fresh, before⟩ := reachable
  exact ⟨w₀, fresh, before.trans steps⟩

theorem Reachable.step {a : Action} (reachable : Reachable P w) (step : Step P w a w') :
    Reachable P w' := by
  obtain ⟨w₀, fresh, steps⟩ := reachable
  exact ⟨w₀, fresh, steps.tail ⟨a, step⟩⟩

theorem elapsedSeconds_over {mandate : VelaMandate} {now : Int64}
    (due : mandate.nextPaymentDue ≤ now) :
    elapsedSeconds mandate now = mandate.frequency.toNat := by
  have due := Checked.le_iff_int.mp due
  unfold elapsedSeconds
  omega

theorem switchFormula_over {mandate : VelaMandate} {plan : LoadedPlanAccount} {now : Int64}
    (positive : 0 < mandate.frequency) (due : mandate.nextPaymentDue ≤ now) :
    switchFormula mandate plan now = 0 := by
  rw [switchFormula, elapsedSeconds_over due]
  exact proratedDelta_over _ _ (Checked.lt_iff.mp positive)

theorem UpgradeApproved.due {mandate : VelaMandate} {amount : UInt64} {approval : PullApproval}
    (deployed : Deployed w) (approved : UpgradeApproved w k mandate amount approval) :
    mandate.nextPaymentDue ≤ w.clock.unixTimestamp := by
  obtain ⟨period, window, _, ends⟩ := approved.period
  have due := (mandateBillingPeriod_eq_ok.mp window).2.1
  rw [← due, ← ends]
  exact deployed.approvals k approval approved.found approved.approved

theorem Switched.not_charged {ctx : UpdateMandatePlan} {s : PlanSwitch} {delta : Int}
    {priced : VelaMandate} (deployed : Deployed w) (spec : Switched P w ctx w' s delta priced) :
    delta ≤ 0 := by
  cases spec.settled with
  | charged amount approval value positive approved transfers credits closed same =>
    rw [spec.formula, switchFormula_over spec.positive (approved.due deployed)]
  | credited amount value negative entry mint granted transfers credits kept balance rest =>
    exact negative.le
  | nothing zero transfers credits kept same => exact zero.le

end VelaProtocol
