import VelaProtocol.Deployment

/-! The scheduled change of a mandate over its whole life: at most one is pending, it takes effect
on the due date, and the next pull bills it. -/
namespace VelaProtocol

open Guard Monitored

variable {P : Platform} {k : Pubkey} {w w' : World} {a : Action} {g : Option Pubkey}

/-- The pending fields of a mandate: all cleared, or one scheduled change for its due date. -/
inductive VelaMandate.Awaits (mandate : VelaMandate) : Option Pubkey → Prop
  | nothing (changeType : mandate.pendingChangeType = 0)
      (plan : mandate.pendingNewPlan = Pubkey.default) (time : mandate.pendingEffectiveAt = 0) :
      mandate.Awaits none
  | change (plan : Pubkey) (changeType : mandate.pendingChangeType = 2)
      (target : mandate.pendingNewPlan = plan)
      (time : mandate.pendingEffectiveAt = mandate.nextPaymentDue) : mandate.Awaits (some plan)

/-- The plan the calls on a mandate leave scheduled. A call that names the mandate's own plan does
nothing. -/
def scheduledPlan (g : Option Pubkey) (w : World) (call : MandateCall) (_ : World) :
    Option Pubkey :=
  match call with
  | .subscribe _ | .migrateMandate _ | .cancelPlanChange _ | .executePull _ => none
  | .updateMandatePlan ctx => if w.onPlan ctx.mandate ctx.newPlan then g else none
  | .schedulePlanChange ctx => if w.onPlan ctx.mandate ctx.newPlan then g else some ctx.newPlan
  | .requestValidation _ | .validateMandateCallback _ => g

namespace VelaMandate

variable {before after mandate : VelaMandate}

theorem Awaits.kept (awaits : before.Awaits g)
    (changeType : after.pendingChangeType = before.pendingChangeType)
    (plan : after.pendingNewPlan = before.pendingNewPlan)
    (time : after.pendingEffectiveAt = before.pendingEffectiveAt)
    (due : after.nextPaymentDue = before.nextPaymentDue) : after.Awaits g := by
  cases awaits with
  | nothing none noPlan noTime =>
    exact .nothing (changeType.trans none) (plan.trans noPlan) (time.trans noTime)
  | change target two named onDue =>
    exact .change target (changeType.trans two) (plan.trans named)
      ((time.trans onDue).trans due.symm)

theorem Awaits.alike (awaits : before.Awaits g) (terms : before.SameTerms after) :
    after.Awaits g := by
  rw [terms.rest]
  exact awaits.kept rfl rfl rfl rfl

theorem Awaits.due {now : Int64} (awaits : mandate.Awaits g)
    (payable : mandate.nextPaymentDue ≤ now) :
    mandate.changeDue now ↔ g = some mandate.pendingNewPlan := by
  cases awaits with
  | nothing none noPlan noTime =>
    refine ⟨fun due => ?_, nofun⟩
    have two := none.symm.trans due.1
    exact absurd two (by decide)
  | change target two named onDue =>
    exact ⟨fun _ => congrArg some named.symm, fun _ => ⟨two, onDue ▸ payable⟩⟩

end VelaMandate

/-- A pull that bills a plan and leaves the mandate on it. A flat plan is billed at its amount, a
usage plan for the approved charge, which its cap bounds. -/
structure BillsPlan (P : Platform) (w : World) (s : Settlement) (after : VelaMandate)
    (planKey : Pubkey) (plan : LoadedPlanAccount) : Prop where
  loaded : loadPlanAccount P w planKey = .ok plan
  billed : s.terms.plan = plan
  flat : plan.billingType = .flat → s.base = plan.mandateAmount
  usage : plan.billingType = .usage → s.base = s.approval.approvedAmount ∧
    s.base ≤ plan.mandateAmount
  planKey : after.plan = planKey
  amount : after.amount = plan.mandateAmount
  frequency : after.frequency = plan.mandateFrequency
  maxPulls : after.maxPulls = plan.maxPulls
  billingType : after.billingType = plan.billingType

structure KeepsTerms (before after : VelaMandate) : Prop where
  planKey : after.plan = before.plan
  amount : after.amount = before.amount
  frequency : after.frequency = before.frequency
  maxPulls : after.maxPulls = before.maxPulls
  billingType : after.billingType = before.billingType

/-- What a pull makes of the scheduled change: it is billed, or there is none. -/
inductive PullOutcome (P : Platform) (w : World) (s : Settlement) (after : VelaMandate) :
    Option Pubkey → Prop
  | asIs (same : KeepsTerms s.pull.mandate after) : PullOutcome P w s after none
  | applied (planKey : Pubkey) (plan : LoadedPlanAccount)
      (bills : BillsPlan P w s after planKey plan) : PullOutcome P w s after (some planKey)

theorem PullOutcome.bills {s : Settlement} {after : VelaMandate} {planKey : Pubkey}
    (outcome : PullOutcome P w s after (some planKey)) :
    ∃ plan, BillsPlan P w s after planKey plan := by
  cases outcome with
  | applied _ plan bills => exact ⟨plan, bills⟩

theorem baseChargeAmount_bounds {terms : BilledTerms} {approval : PullApproval} {base : UInt64}
    (h : baseChargeAmount terms approval = .ok base) :
    (terms.plan.billingType = .flat → base = terms.mandate.amount) ∧
      (terms.plan.billingType = .usage → base = approval.approvedAmount ∧
        base ≤ terms.mandate.amount) := by
  unfold baseChargeAmount at h
  cases billing : terms.plan.billingType with
  | flat =>
    simp only [billing, check, require_bind_eq_ok, pure_eq_ok] at h
    refine ⟨fun _ => h.2.symm, fun usage => ?_⟩
    cases usage
  | usage =>
    simp only [billing, check, require_bind_eq_ok, pure_eq_ok] at h
    obtain ⟨covered, rfl⟩ := h
    refine ⟨fun flat => ?_, fun _ => ⟨rfl, covered⟩⟩
    cases flat

theorem Pulled.outcome {ctx : ExecutePull} {s : Settlement} {after : VelaMandate}
    (spec : Pulled P w ctx w' s after) (awaits : s.pull.mandate.Awaits g) :
    PullOutcome P w s after g ∧ after.Awaits none := by
  have due := awaits.due spec.checked.pull.due
  have bounds := baseChargeAmount_bounds spec.checked.base
  have rest := spec.advanced.rest
  cases spec.checked.terms with
  | asIs undue mandate_eq plan_eq =>
    rw [mandate_eq] at rest
    cases awaits with
    | change target two named onDue => exact absurd (due.mpr (congrArg some named.symm)) undue
    | nothing none noPlan noTime =>
      constructor
      · refine .asIs ⟨?_, ?_, ?_, ?_, ?_⟩ <;> rw [rest] <;> rfl
      · rw [rest]
        exact .nothing none noPlan noTime
  | switched applied mandate_eq =>
    rw [mandate_eq] at rest bounds
    obtain rfl := due.mp applied.due
    constructor
    · refine .applied _ s.terms.plan ⟨applied.loaded, rfl, bounds.1, bounds.2,
        ?_, ?_, ?_, ?_, ?_⟩ <;>
        rw [rest] <;> rfl
    · rw [rest]
      exact .nothing rfl rfl rfl

theorem Action.eq_of_schedule {ctx : SchedulePlanChange}
    (h : a.call k = some (.schedulePlanChange ctx)) :
    a = .instruction (.schedulePlanChange ctx) ∧ ctx.mandate = k := by
  unfold Action.call at h
  split at h <;> simp only [Option.ite_none_right_eq_some, Option.some.injEq, reduceCtorEq,
    and_false, MandateCall.schedulePlanChange.injEq] at h
  obtain ⟨key, rfl⟩ := h
  exact ⟨rfl, key⟩

theorem onPlan_iff {mandate : VelaMandate} {plan : Pubkey}
    (found : w.currentMandate k = some mandate) : w.onPlan k plan ↔ mandate.plan = plan := by
  rw [World.onPlan, found, Option.map_some, Option.some.injEq]

theorem schedulePlanChange_awaits {ctx : SchedulePlanChange} {mandate : VelaMandate}
    (h : schedulePlanChange P w ctx = .ok w')
    (awaits : ∀ m, w.currentMandate ctx.mandate = some m → m.Awaits g)
    (present : w'.currentMandate ctx.mandate = some mandate) :
    mandate.Awaits (if w.onPlan ctx.mandate ctx.newPlan then g else some ctx.newPlan) := by
  simp only [schedulePlanChange, bind_eq_ok] at h
  obtain ⟨s, checked, h⟩ := h
  have found := (checkScheduling_eq_ok checked).found
  split at h
  · rename_i same
    cases h
    rw [if_pos ((onPlan_iff found).mpr same)]
    exact awaits mandate present
  · rename_i changed
    rw [if_neg fun same => changed ((onPlan_iff found).mp same)]
    split at h
    · rename_i repeated
      cases h
      obtain rfl := Option.some.inj (found.symm.trans present)
      obtain ⟨two, target, _⟩ := repeated
      cases awaits _ found with
      | nothing none noPlan noTime =>
        rw [none] at two
        exact absurd two (by decide)
      | change plan two named onDue => exact .change _ two target onDue
    · cases h
      have written := writeMandate_self found (fits_current
        (s.mandate.schedule ctx.newPlan (computeNonce ctx.mandate ctx.newPlan w.clock.slot)))
      obtain rfl := Option.some.inj (written.symm.trans present)
      exact .change _ rfl rfl rfl

theorem awaits_step (awaits : ∀ m, w.currentMandate k = some m → m.Awaits g) (step : Step P w a w')
    {mandate : VelaMandate} (present : w'.currentMandate k = some mandate) :
    mandate.Awaits (onCall k scheduledPlan g w a w') := by
  have scheduling : ∀ ctx, a.call k = some (.schedulePlanChange ctx) →
      mandate.Awaits (scheduledPlan g w (.schedulePlanChange ctx) w') := by
    intro ctx called
    obtain ⟨rfl, rfl⟩ := Action.eq_of_schedule called
    exact schedulePlanChange_awaits step awaits present
  have classified := mandateStep k step
  unfold onCall
  generalize a.call k = call at classified scheduling
  cases classified with
  | inert same quiet requests =>
    cases same with
    | gone after => exact absurd (present.symm.trans after) nofun
    | kept before after found stays terms =>
      obtain rfl := Option.some.inj (stays.symm.trans present)
      exact (awaits before found).alike terms
  | subscribed ctx plan created key spec =>
    obtain ⟨_, _, _, _, _, _, initial⟩ := spec.initial
    obtain rfl := Option.some.inj (spec.created.symm.trans (key ▸ present))
    rw [initial]
    exact .nothing rfl rfl rfl
  | migrated ctx before after key spec =>
    obtain ⟨_, _, moved⟩ := spec.moved
    obtain rfl := Option.some.inj (spec.created.symm.trans (key ▸ present))
    obtain ⟨noPlan, noTime⟩ := spec.unscheduled
    rw [moved]
    exact .nothing spec.untouched.2.2 noPlan noTime
  | samePlan ctx s key checked plan unchanged =>
    subst key unchanged
    have same := (onPlan_iff checked.found).mpr plan
    simp only [Option.elim, scheduledPlan, if_pos same]
    exact awaits mandate present
  | switched ctx s delta priced key spec =>
    subst key
    have other : ¬w.onPlan ctx.mandate ctx.newPlan := fun same =>
      spec.changed ((onPlan_iff spec.checked.found).mp same)
    obtain rfl := Option.some.inj (spec.written.symm.trans present)
    simp only [Option.elim, scheduledPlan, if_neg other]
    exact .nothing rfl rfl rfl
  | alreadyScheduled ctx s key checked unchanged => exact scheduling ctx rfl
  | scheduled ctx s nonce key checked changed written frame => exact scheduling ctx rfl
  | dropped ctx before key spec =>
    obtain rfl := Option.some.inj (spec.written.symm.trans (key ▸ present))
    exact .nothing rfl rfl rfl
  | pulled ctx s after key spec =>
    subst key
    obtain rfl := Option.some.inj (spec.written.symm.trans present)
    exact (spec.outcome (awaits _ spec.checked.pull.found)).2
  | requested ctx before plan key spec =>
    subst key
    obtain ⟨nonce, written⟩ := spec.written
    obtain rfl := Option.some.inj (written.symm.trans present)
    exact (awaits before spec.checked.found).kept rfl rfl rfl rfl
  | answered ctx before result key flat output spec =>
    exact awaits mandate ((currentMandate_congr spec.mandates k).symm.trans present)

abbrev SchedulingRun (P : Platform) (k : Pubkey) :
    World × Option Pubkey → World × Option Pubkey → Prop :=
  MandateRun P k scheduledPlan AnyCall

/-- In every state the mandate waits for exactly the plan its calls left scheduled, on its due date,
and the next pull bills that plan, or keeps the terms if there is none. -/
theorem pending_change_invariant {w₀ : World}
    (deployed : ∀ account, w₀.mandate k = some account → account.contents.isLegacy = true)
    (run : SchedulingRun P k (w₀, none) (w, g)) :
    (∀ mandate, w.currentMandate k = some mandate → mandate.Awaits g) ∧
      ∀ ctx w', ctx.mandate = k → executePull P w ctx = .ok w' →
        ∃ s after, Pulled P w ctx w' s after ∧ PullOutcome P w s after g ∧ after.Awaits none := by
  have awaits : ∀ mandate, w.currentMandate k = some mandate → mandate.Awaits g := by
    refine run.invariant (fun w g => ∀ m, w.currentMandate k = some m → m.Awaits g) ?_ ?_
    · intro mandate found
      obtain ⟨account, stored, rfl⟩ := Option.map_eq_some_iff.mp found
      have legacy := deployed account stored
      cases contents : account.contents with
      | current m =>
        rw [contents] at legacy
        cases legacy
      | legacy old => exact .nothing rfl rfl rfl
    · intro w g a w' awaits step _ mandate present
      exact awaits_step awaits step present
  refine ⟨awaits, fun ctx w' key pulled => ?_⟩
  subst key
  obtain ⟨s, after, spec⟩ := executePull_eq_ok pulled
  exact ⟨s, after, spec, spec.outcome (awaits _ spec.checked.pull.found)⟩

open Deployment

theorem pending_change_invariant_cheaper : ∃ w w' s after plan,
    executePull platform w (pullContext (flatPlan 0) mintA [flatPlan 1]) = .ok w' ∧
      BillsPlan platform w s after (flatPlan 1) plan ∧ after.Awaits none := by
  have played : (play (applyAction platform) (onCall Deployment.mandate scheduledPlan)
      (whenCall Deployment.mandate AnyCall) (world 0, none)
      (threeOffers ++ [schedule subscriber (flatPlan 1), tick 3600,
        requestFlat (flatPlan 0) 3600 1, answerFlat 3600 1 true])).any (fun x =>
      decide (x.2 = some (flatPlan 1)) &&
        (executePull platform x.1 (pullContext (flatPlan 0) mintA [flatPlan 1])).toOption.isSome) =
        true := by
    decide +kernel
  obtain ⟨⟨w, g⟩, run, good⟩ := script_check played
  simp only [Bool.and_eq_true, decide_eq_true_eq, Option.isSome_iff_exists,
    toOption_eq_some] at good
  obtain ⟨rfl, w', pulled⟩ := good
  have deployed : ∀ account, (world 0).mandate Deployment.mandate = some account →
      account.contents.isLegacy = true := nofun
  have key : (pullContext (flatPlan 0) mintA [flatPlan 1]).mandate = Deployment.mandate := rfl
  have invariant := pending_change_invariant deployed run
  obtain ⟨s, after, _, outcome, rested⟩ := invariant.2 _ w' key pulled
  obtain ⟨plan, bills⟩ := outcome.bills
  exact ⟨w, w', s, after, plan, pulled, bills, rested⟩

def MandateCall.isPull : MandateCall → Bool
  | .executePull _ => true
  | _ => false

/-- Whatever is called between a scheduling and the next pull, the pull moves the mandate to the
plan that was named. -/
def FirstPullSwitches (P : Platform) : Prop :=
  ∀ (w₀ w₁ w w' : World) (ctx : SchedulePlanChange) (pull : ExecutePull), Reachable P w₀ →
    schedulePlanChange P w₀ ctx = .ok w₁ →
    MandateRun P ctx.mandate (fun (g : Unit) _ _ _ => g) (fun _ _ call _ => call.isPull = false)
      (w₁, ()) (w, ()) →
    pull.mandate = ctx.mandate → executePull P w pull = .ok w' →
      (w'.currentMandate ctx.mandate).map VelaMandate.plan = some ctx.newPlan

/-- The dearer plan is scheduled, then the mandate is changed to the cheaper one at once: the
scheduled plan is forgotten. -/
theorem immediate_change_overrides : ¬FirstPullSwitches platform := by
  have played : (runScript (world 0) threeOffers).any (fun w₀ =>
      (schedulePlanChange platform w₀ ⟨subscriber, flatPlan 2, Deployment.mandate⟩).toOption.any
        fun w₁ => (play (applyAction platform)
          (onCall Deployment.mandate fun (g : Unit) _ _ _ => g)
          (whenCall Deployment.mandate fun _ _ call _ => call.isPull = false) (w₁, ())
          [switch subscriber (flatPlan 1) mintA, tick 3600, requestFlat (flatPlan 1) 3600 1,
            answerFlat 3600 1 true]).any fun x =>
          (executePull platform x.1 (pullContext (flatPlan 1) mintA [])).toOption.any fun w' =>
            decide ((w'.currentMandate Deployment.mandate).map VelaMandate.plan =
              some (flatPlan 1))) = true := by
    decide +kernel
  simp only [Option.any_eq_true, decide_eq_true_eq, toOption_eq_some] at played
  obtain ⟨w₀, offered, w₁, scheduled, ⟨w, ⟨⟩⟩, ran, w', pulled, onPlan⟩ := played
  intro switches
  have reachable : Reachable platform w₀ :=
    runScript_reachable ⟨_, world_fresh 0, .refl⟩ offered
  have run := play_run (fun _ _ _ => applyAction_step) ran
  have key : (pullContext (flatPlan 1) mintA []).mandate = Deployment.mandate := rfl
  have expected := switches w₀ w₁ w w' _ _ reachable scheduled run key pulled
  rw [onPlan] at expected
  exact absurd expected (by decide)

end VelaProtocol
