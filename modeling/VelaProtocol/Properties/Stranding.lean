import VelaProtocol.Identity
import VelaProtocol.Leftovers
import VelaProtocol.Properties.Finalisation
import VelaProtocol.Properties.Settlements
import VelaProtocol.Requests

/-! What is kept under the address of a legacy mandate when it is migrated. Migration looks at the
mandate's counters: requests move them, a usage report moves none. -/
namespace VelaProtocol

open Guard Monitored

variable {P : Platform} {k : Pubkey} {w w' : World} {a : Action}

structure NoDependents (w : World) (k : Pubkey) : Prop where
  pullApproval : w.pullApproval k = none
  usageReport : ∀ periodStart, w.usageReport (k, periodStart) = none
  billingEvent : ∀ pullsExecuted, w.billingEvent (k, pullsExecuted) = none
  requestState : ∀ flow subject, w.requestState (flow, k, subject) = none

theorem NoDependents.forget (empty : NoDependents w k) : w.forget k = w := by
  have approvals : (w.forget k).pullApproval = w.pullApproval := by
    funext key
    by_cases here : key = k
    · subst here
      exact (if_pos rfl).trans empty.pullApproval.symm
    · exact if_neg here
  have requests : (w.forget k).requestState = w.requestState := by
    funext ⟨flow, key, subject⟩
    by_cases here : key = k
    · subst here
      exact (if_pos rfl).trans (empty.requestState flow subject).symm
    · exact if_neg here
  have reports : (w.forget k).usageReport = w.usageReport := by
    funext ⟨key, periodStart⟩
    by_cases here : key = k
    · subst here
      exact (if_pos rfl).trans (empty.usageReport periodStart).symm
    · exact if_neg here
  have events : (w.forget k).billingEvent = w.billingEvent := by
    funext ⟨key, pullsExecuted⟩
    by_cases here : key = k
    · subst here
      exact (if_pos rfl).trans (empty.billingEvent pullsExecuted).symm
    · exact if_neg here
  calc w.forget k = { w with
        pullApproval := (w.forget k).pullApproval, requestState := (w.forget k).requestState,
        usageReport := (w.forget k).usageReport, billingEvent := (w.forget k).billingEvent } := rfl
    _ = w := by rw [approvals, requests, reports, events]

theorem NoDependents.of_forget (same : w.forget k = w) : NoDependents w k where
  pullApproval := by
    rw [← same]
    exact if_pos rfl
  usageReport periodStart := by
    rw [← same]
    exact if_pos rfl
  billingEvent pullsExecuted := by
    rw [← same]
    exact if_pos rfl
  requestState flow subject := by
    rw [← same]
    exact if_pos rfl

theorem NoDependents.of_blind {i : Instruction} (empty : NoDependents w k)
    (done : execute P w i = .ok w')
    (blind : execute P (w.forget k) i = (execute P w i).map (World.forget · k)) :
    NoDependents w' k := by
  rw [empty.forget, done] at blind
  exact .of_forget (Except.ok.inj blind).symm

theorem NoDependents.congr (empty : NoDependents w k)
    (approval : w'.pullApproval k = none) (reports : w'.usageReport = w.usageReport)
    (events : w'.billingEvent = w.billingEvent) (requests : w'.requestState = w.requestState) :
    NoDependents w' k where
  pullApproval := approval
  usageReport periodStart := (congrFun reports _).trans (empty.usageReport periodStart)
  billingEvent pullsExecuted := (congrFun events _).trans (empty.billingEvent pullsExecuted)
  requestState flow subject := (congrFun requests _).trans (empty.requestState flow subject)

structure Unrequested (w : World) (k : Pubkey) (account : MandateAccount) : Prop where
  found : w.mandate k = some account
  legacy : account.contents.isLegacy = true
  nonces : ∀ flow, account.contents.intoCurrent.requestNonce flow = 0

theorem Unrequested.before {account : MandateAccount} (after : Unrequested w' k account)
    (step : Step P w a w') : ∃ old, Unrequested w k old := by
  have originates : Originates P w w' := by
    cases a with
    | instruction i => exact billing_originates step
    | tick clock =>
      obtain ⟨_, rfl⟩ := step
      exact .of_eq rfl
    | environment => exact .of_eq step.mandate
  cases originates k account after.found with
  | opened m vacant layout version address =>
    have legacy := after.legacy
    rw [layout] at legacy
    cases legacy
  | kept old found same =>
    refine ⟨old, found, same.layout.symm.trans after.legacy, fun flow => ?_⟩
    have present := currentMandate_eq_some after.found
    cases counted_of_step step present with
    | fresh vacant =>
      rw [found] at vacant
      cases vacant
    | on before here counters =>
      obtain rfl := Option.some.inj (here.symm.trans (currentMandate_eq_some found))
      have counted := counters flow
      rw [after.nonces flow] at counted
      exact UInt64.toNat_inj.mp (Nat.le_zero.mp counted)

theorem Started.requested {x : OffsetInput} {accounts : QueueAccounts} {before after : VelaMandate}
    {account : MandateAccount} (spec : Started P w x accounts w' before after)
    (key : x.key.2.1 = k) : ¬Unrequested w' k account := by
  intro untouched
  subst key
  obtain rfl := Option.some.inj
    (spec.written.symm.trans (currentMandate_eq_some untouched.found))
  have later := spec.later
  rw [spec.nonce, untouched.nonces] at later
  exact absurd later (Nat.not_lt_zero _)

theorem Answered.dependent {key : RequestKey} {accounts : CallbackAccounts}
    {request : ArciumRequestState} (spec : Answered P w key accounts w' request)
    (address : key.2.1 = k) : ¬NoDependents w k := by
  intro empty
  subst address
  exact absurd (spec.pending.symm.trans (empty.requestState _ _)) nofun

def Action.reportsOn (k : Pubkey) : Action → Bool
  | .instruction (.submitUsageReport ctx) => ctx.mandate = k
  | _ => false

theorem NoDependents.step {account : MandateAccount} (empty : NoDependents w k)
    (step : Step P w a w') (silent : a.reportsOn k = false) (after : Unrequested w' k account) :
    NoDependents w' k := by
  cases a with
  | tick clock =>
    obtain ⟨_, rfl⟩ := step
    exact empty.congr empty.pullApproval rfl rfl rfl
  | environment =>
    exact empty.congr ((congrFun step.pullApproval k).trans empty.pullApproval) step.usageReport
      step.billingEvent step.requestState
  | instruction i =>
    cases i with
    | createPlan ctx => exact empty.of_blind step createPlan_forget
    | createUsagePlan ctx => exact empty.of_blind step createUsagePlan_forget
    | updatePlan ctx => exact empty.of_blind step updatePlan_forget
    | updateUsagePlan ctx => exact empty.of_blind step updateUsagePlan_forget
    | migratePlan plan => exact empty.of_blind step migratePlan_forget
    | subscribe ctx => exact empty.of_blind step subscribe_forget
    | cancel ctx => exact empty.of_blind step cancel_forget
    | adminCancel ctx => exact empty.of_blind step adminCancel_forget
    | closeMandate ctx => exact empty.of_blind step closeMandate_forget
    | migrateMandate ctx => exact empty.of_blind step migrateMandate_forget
    | updateMandate ctx => exact empty.of_blind step updateMandate_forget
    | schedulePlanChange ctx => exact empty.of_blind step schedulePlanChange_forget
    | cancelPlanChange ctx => exact empty.of_blind step cancelPlanChange_forget
    | updateMandatePlan ctx =>
      by_cases here : ctx.mandate = k
      · have events := updateMandatePlan_billingEvent step
        rcases updateMandatePlan_eq_ok step with ⟨same, _⟩ | ⟨s, delta, priced, spec⟩
        · exact same ▸ empty
        · subst here
          refine empty.congr ?_ spec.usageReport events spec.requestState
          cases spec.settled with
          | charged amount approval value positive approved transfers credits closed same =>
            exact closed
          | credited amount value negative entry mint granted transfers credits kept balance rest =>
            exact kept.trans empty.pullApproval
          | nothing zero transfers credits kept same => exact kept.trans empty.pullApproval
      · exact empty.of_blind step (updateMandatePlan_forget here)
    | requestValidation ctx =>
      by_cases here : ctx.mandate = k
      · obtain ⟨_, _, _, spec⟩ := requestValidation_started step
        exact absurd after (spec.requested here)
      · exact empty.of_blind step (requestValidation_forget here)
    | validateMandateCallback ctx =>
      by_cases here : ctx.mandate = k
      · obtain ⟨_, _, _, spec⟩ := validateMandateCallback_answered step
        exact absurd empty (spec.dependent here)
      · exact empty.of_blind step (validateMandateCallback_forget here)
    | submitUsageReport ctx =>
      have here : ctx.mandate ≠ k := of_decide_eq_false silent
      exact empty.of_blind step (submitUsageReport_forget here)
    | requestUsageComputation ctx =>
      by_cases here : ctx.mandate = k
      · obtain ⟨_, _, _, spec⟩ := requestUsageComputation_started step
        exact absurd after (spec.requested here)
      · exact empty.of_blind step (requestUsageComputation_forget here)
    | usageChargeCallback ctx =>
      by_cases here : ctx.mandate = k
      · obtain ⟨_, spec⟩ := usageChargeCallback_answered step
        exact absurd empty (spec.dependent here)
      · exact empty.of_blind step (usageChargeCallback_forget here)
    | executePull ctx =>
      by_cases here : ctx.mandate = k
      · obtain ⟨s, _, spec⟩ := executePull_eq_ok step
        have approved := spec.checked.approval.found
        rw [here, empty.pullApproval] at approved
        cases approved
      · exact empty.of_blind step (executePull_forget here)
    | requestBillingRecord ctx =>
      by_cases here : ctx.mandate = k
      · obtain ⟨_, _, _, spec⟩ := requestBillingRecord_started step
        exact absurd after (spec.requested here)
      · exact empty.of_blind step (requestBillingRecord_forget here)
    | recordBillingEventCallback ctx =>
      by_cases here : ctx.mandate = k
      · obtain ⟨_, _, _, spec⟩ := recordBillingEventCallback_answered step
        exact absurd empty (spec.dependent here)
      · exact empty.of_blind step (recordBillingEventCallback_forget here)

theorem reported_step (step : Step P w a w')
    (reported : a.reportsOn k = true ∨ ∃ periodStart, w.usageReport (k, periodStart) ≠ none) :
    ∃ periodStart, w'.usageReport (k, periodStart) ≠ none := by
  rcases reported with submits | ⟨periodStart, present⟩
  · unfold Action.reportsOn at submits
    split at submits
    · rename_i ctx
      obtain rfl := of_decide_eq_true submits
      obtain ⟨report, rfl, _⟩ := submitUsageReport_eq_ok step
      refine ⟨ctx.periodStart, fun gone => ?_⟩
      cases (Function.update_self _ _ _).symm.trans gone
    · cases submits
  · refine ⟨periodStart, ?_⟩
    cases reportStep step with
    | kept same => exact same ▸ present
    | submitted key report vacant unsettled stored =>
      have other : (k, periodStart) ≠ key := fun same => present (same ▸ vacant)
      rw [stored, Function.update_of_ne other]
      exact present
    | settled ctx s after report pull spec found unsettled stored =>
      rw [stored]
      by_cases same : (k, periodStart) = (ctx.mandate, s.pull.period.1)
      · rw [same, Function.update_self]
        exact Option.some_ne_none _
      · rw [Function.update_of_ne same]
        exact present

/-- A legacy mandate as it was when the layouts changed: no counter has moved, and nothing is kept
under its address. -/
structure Unbilled (w : World) (k : Pubkey) : Prop where
  legacy : ∃ account, w.mandate k = some account ∧ account.contents.isLegacy = true ∧
    ¬hasStrandedNamespaces account.contents.intoCurrent
  empty : NoDependents w k

def reportsSeen (k : Pubkey) : Observe World Action Bool := fun seen _ a _ => seen || a.reportsOn k

abbrev ReportingRun (P : Platform) (k : Pubkey) : World × Bool → World × Bool → Prop :=
  Run (Step P) (reportsSeen k) Any

/-- Until a request is made, only a report puts anything under the address of a legacy mandate. -/
structure Kept (w : World) (k : Pubkey) (reported : Bool) : Prop where
  silent : ∀ account, Unrequested w k account → reported = false → NoDependents w k
  report : reported = true → ∃ periodStart, w.usageReport (k, periodStart) ≠ none

theorem Kept.step {reported : Bool} (kept : Kept w k reported) (step : Step P w a w') :
    Kept w' k (reportsSeen k reported w a w') where
  silent account after none := by
    obtain ⟨before, now⟩ := Bool.or_eq_false_iff.mp none
    obtain ⟨old, untouched⟩ := after.before step
    exact (kept.silent old untouched before).step step now after
  report some := by
    rcases (Bool.or_eq_true _ _).mp some with before | now
    · exact reported_step step (.inr (kept.report before))
    · exact reported_step step (.inl now)

theorem migrateMandate_unrequested {ctx : MigrateMandate} (h : migrateMandate P w ctx = .ok w') :
    ∃ account, Unrequested w ctx.legacyMandate account := by
  simp only [migrateMandate, check, orVela, bind_eq_ok, orError_eq_ok, require_eq_ok, pure_eq_ok,
    exists_const] at h
  obtain ⟨_, _, _, _, _, loaded, load, legacy, _, _, _, _, _, _, counters, _⟩ := h
  obtain ⟨account, found, rfl, _⟩ := loadValidMandate_eq_ok load
  simp only [hasStrandedNamespaces, not_or] at counters
  obtain ⟨validation, billing, _⟩ := counters
  have zero {n : UInt64} (none : ¬0 < n) : n = 0 := by
    rw [UInt64.lt_iff_toNat_lt] at none
    exact UInt64.toNat_inj.mp (Nat.eq_zero_of_not_pos none)
  refine ⟨account, found, legacy, fun flow => ?_⟩
  cases flow with
  | validation => exact zero validation
  | usageComputation => exact zero validation
  | billingRecord => exact zero billing

/-- When a legacy mandate is migrated, nothing is left under its address exactly when no usage
report was submitted for it. -/
theorem migration_strands_nothing_iff {w₀ : World} {reported : Bool} {ctx : MigrateMandate}
    (start : Unbilled w₀ k) (run : ReportingRun P k (w₀, false) (w, reported))
    (address : ctx.legacyMandate = k) (accepted : migrateMandate P w ctx = .ok w') :
    NoDependents w' k ↔ reported = false := by
  have kept : Kept w k reported :=
    run.invariant (fun w reported => Kept w k reported) ⟨fun _ _ _ => start.empty, nofun⟩
      fun _ _ _ _ kept step _ => kept.step step
  obtain ⟨account, untouched⟩ := migrateMandate_unrequested accepted
  have migrated : Step P w (.instruction (.migrateMandate ctx)) w' := accepted
  constructor
  · intro empty
    by_contra seen
    have reported := kept.report (Bool.eq_true_of_not_eq_false seen)
    obtain ⟨periodStart, stays⟩ := reported_step migrated (.inr reported)
    exact stays (empty.usageReport periodStart)
  · intro silent
    have empty := kept.silent account (address ▸ untouched) silent
    exact empty.of_blind migrated migrateMandate_forget

open Deployment

def legacyKey : Pubkey := (findProgramAddress (.legacyMandate subscriber (usagePlan 0))).1

def legacyUsageMandate : VelaMandateV1 where
  subscriber := subscriber
  plan := usagePlan 0
  merchant := merchant
  amount := 500
  frequency := 3600
  startDate := 0
  expiry := 0
  maxPulls := 12
  pullsExecuted := 0
  nextPaymentDue := 3600
  lastPullAt := 0
  lastBillingRecordedPull := 0
  validationRequestNonce := 0
  billingRequestNonce := 0
  status := .active
  bump := 255
  billingType := .usage

def strandingWorld : World :=
  { world 7200 with
    plan := fun key =>
      if key = usagePlan 0 then some {
        contents := .legacyUsage {
          merchant := merchant
          planId := 0
          unitName := 0
          tiers := Vector.replicate 5 ⟨0, 1, 0⟩
          tierCount := 1
          maxChargePerPeriod := 500
          settlementFrequency := 3600
          credentialMint := credentialMint
          status := .active
          bump := 255 }
        dataLen := 250 }
      else none
    mandate := fun key =>
      if key = legacyKey then some { contents := .legacy legacyUsageMandate, dataLen := 195 }
      else none }

theorem strandingWorld_unbilled : Unbilled strandingWorld legacyKey where
  legacy := by
    refine ⟨{ contents := .legacy legacyUsageMandate, dataLen := 195 }, ?_, rfl, by decide⟩
    simp only [strandingWorld, if_true]
  empty := ⟨rfl, fun _ => rfl, fun _ => rfl, fun _ _ => rfl⟩

def legacyMigration : MigrateMandate where
  admin := admin
  subscriber := subscriber
  merchant := merchant
  plan := usagePlan 0
  legacyMandate := legacyKey
  migratedMandate := Deployment.mandate

def legacyReport : Action :=
  .instruction (.submitUsageReport {
    merchant := merchant
    mandate := legacyKey
    usagePlan := usagePlan 0
    periodStart := 0
    periodEnd := 3600
    computationCiphertext := [0]
    nonce := 0
    pubKey := 0 })

theorem migration_strands_nothing_unreported : ∃ w',
    migrateMandate platform strandingWorld legacyMigration = .ok w' ∧
    NoDependents w' legacyKey := by
  have migrates :
      (migrateMandate platform strandingWorld legacyMigration).toOption.isSome = true := by
    decide +kernel
  simp only [Option.isSome_iff_exists, toOption_eq_some] at migrates
  obtain ⟨w', accepted⟩ := migrates
  have run : ReportingRun platform legacyKey (strandingWorld, false) (strandingWorld, false) :=
    Run.refl _
  have address : legacyMigration.legacyMandate = legacyKey := rfl
  have empty := migration_strands_nothing_iff strandingWorld_unbilled run address accepted
  exact ⟨w', accepted, empty.mpr rfl⟩

/-- The merchant reports the period that is over, and the mandate is migrated away from the
report. -/
theorem report_stranded : ∃ w w', Unbilled strandingWorld legacyKey ∧
    ReportingRun platform legacyKey (strandingWorld, false) (w, true) ∧
    migrateMandate platform w legacyMigration = .ok w' ∧ w'.mandate legacyKey = none ∧
    ¬NoDependents w' legacyKey := by
  have played : ((applyAction platform strandingWorld legacyReport).any fun w =>
      (migrateMandate platform w legacyMigration).toOption.any fun w' =>
        (w'.mandate legacyKey).isNone && (w'.usageReport (legacyKey, 0)).isSome) = true := by
    decide +kernel
  simp only [Option.any_eq_true, Bool.and_eq_true, toOption_eq_some,
    Option.isNone_iff_eq_none] at played
  obtain ⟨w, reported, w', accepted, gone, kept⟩ := played
  refine ⟨w, w', strandingWorld_unbilled, ?_, accepted, gone, fun empty => ?_⟩
  · exact Run.snoc (.refl _) (applyAction_step reported) trivial
  · rw [empty.usageReport 0] at kept
    cases kept

end VelaProtocol
