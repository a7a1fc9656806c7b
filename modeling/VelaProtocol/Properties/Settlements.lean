import VelaProtocol.Deployment

/-! Settling usage: the charge a usage pull bills is the one its callback recorded for the report
of the period, and a report is settled once. -/
namespace VelaProtocol

open Monitored

inductive ReportStep (P : Platform) (w w' : World) (a : Action) : Prop
  | kept (same : w'.usageReport = w.usageReport)
  | submitted (key : Pubkey × Int64) (report : UsageReport) (vacant : w.usageReport key = none)
      (unsettled : report.settled = false)
      (stored : w'.usageReport = Function.update w.usageReport key (some report))
  | settled (ctx : ExecutePull) (s : Settlement) (after : VelaMandate) (report : UsageReport)
      (pull : a = .instruction (.executePull ctx)) (spec : Pulled P w ctx w' s after)
      (found : w.usageReport (ctx.mandate, s.pull.period.1) = some report)
      (unsettled : report.settled = false)
      (stored : w'.usageReport = Function.update w.usageReport (ctx.mandate, s.pull.period.1)
        (some { report with settled := true }))

variable {P : Platform} {k : Pubkey} {w w' : World} {a : Action}

theorem instruction_reportStep {i : Instruction} (h : execute P w i = .ok w') :
    ReportStep P w w' (.instruction i) := by
  cases i with
  | createPlan ctx => exact .kept (createPlan_eq_ok h).usageReport
  | createUsagePlan ctx => exact .kept (createUsagePlan_eq_ok h).usageReport
  | updatePlan ctx => exact .kept (updatePlan_eq_ok h).usageReport
  | updateUsagePlan ctx => exact .kept (updateUsagePlan_eq_ok h).usageReport
  | migratePlan plan => exact .kept (migratePlan_eq_ok h).usageReport
  | subscribe ctx =>
    obtain ⟨_, _, spec⟩ := subscribe_eq_ok h
    exact .kept spec.frame.usageReport
  | cancel ctx => exact .kept (cancel_eq_ok h).1.usageReport
  | adminCancel ctx => exact .kept (adminCancel_eq_ok h).1.usageReport
  | closeMandate ctx => exact .kept (closeMandate_eq_ok h).1.usageReport
  | migrateMandate ctx =>
    obtain ⟨_, _, spec⟩ := migrateMandate_eq_ok h
    exact .kept spec.frame.usageReport
  | updateMandate ctx => exact .kept (updateMandate_eq_ok h).1.usageReport
  | updateMandatePlan ctx =>
    rcases updateMandatePlan_eq_ok h with ⟨rfl, _⟩ | ⟨_, _, _, spec⟩
    · exact .kept rfl
    · exact .kept spec.usageReport
  | schedulePlanChange ctx =>
    obtain ⟨_, _, frame, _⟩ := schedulePlanChange_eq_ok h
    exact .kept frame.usageReport
  | cancelPlanChange ctx =>
    obtain ⟨_, spec⟩ := cancelPlanChange_eq_ok h
    exact .kept spec.frame.usageReport
  | requestValidation ctx =>
    obtain ⟨_, _, spec⟩ := requestValidation_eq_ok h
    exact .kept spec.usageReport
  | validateMandateCallback ctx =>
    obtain ⟨_, _, _, _, spec⟩ := validateMandateCallback_eq_ok h
    exact .kept spec.usageReport
  | submitUsageReport ctx =>
    obtain ⟨report, rfl, vacant, unsettled, _⟩ := submitUsageReport_eq_ok h
    exact .submitted _ report vacant unsettled rfl
  | requestUsageComputation ctx =>
    obtain ⟨_, spec⟩ := requestUsageComputation_eq_ok h
    exact .kept spec.usageReport
  | usageChargeCallback ctx =>
    obtain ⟨_, _, _, _, _, _, _, spec⟩ := usageChargeCallback_eq_ok h
    exact .kept spec.usageReport
  | executePull ctx =>
    obtain ⟨s, after, spec⟩ := executePull_eq_ok h
    have settles := spec.settles
    generalize s.pull.mandate.billingType = type at settles
    cases settles with
    | flat same => exact .kept same
    | usage report found unsettled written =>
      exact .settled ctx s after report rfl spec found unsettled written
  | requestBillingRecord ctx =>
    obtain ⟨_, _, done⟩ := requestBillingRecord_eq_ok h
    exact .kept done.usageReport
  | recordBillingEventCallback ctx =>
    obtain ⟨_, _, done⟩ := recordBillingEventCallback_eq_ok h
    exact .kept done.usageReport

theorem reportStep (h : Step P w a w') : ReportStep P w w' a := by
  cases a with
  | instruction i => exact instruction_reportStep h
  | tick clock =>
    obtain ⟨_, rfl⟩ := h
    exact .kept rfl
  | environment => exact .kept h.usageReport

def World.planType (w : World) (key : Pubkey) : Option BillingType :=
  (w.plan key).map fun account => account.contents.billingType

theorem planType_of_load {key : Pubkey} {plan : LoadedPlanAccount}
    (load : loadPlanAccount P w key = .ok plan) : w.planType key = some plan.billingType := by
  obtain ⟨account, found, rfl, _⟩ := loadPlanAccount_eq_ok load
  rw [World.planType, found, Option.map_some]

def MandateCall.toUsage (k : Pubkey) (w : World) : MandateCall → Prop
  | .subscribe ctx => w.planType ctx.plan = some .usage
  | .migrateMandate ctx =>
    (w.currentMandate ctx.legacyMandate).map VelaMandate.billingType = some .usage
  | .updateMandatePlan ctx =>
    (w.currentMandate k).map VelaMandate.billingType = some .flat ∧
      w.planType ctx.newPlan = some .usage
  | _ => False

instance (k : Pubkey) (w : World) (call : MandateCall) : Decidable (call.toUsage k w) := by
  refine call.casesOn ?_ ?_ ?_ ?_ ?_ ?_ ?_ ?_ <;> intro _ <;> dsimp only [MandateCall.toUsage] <;>
    infer_instance

theorem usage_before {call : Option MandateCall} {after : VelaMandate}
    (step : MandateStep P k w w' call) (present : w'.currentMandate k = some after)
    (usage : after.billingType = .usage) :
    (∃ before, w.currentMandate k = some before ∧ before.billingType = .usage) ∨
      ∃ c, call = some c ∧ c.toUsage k w := by
  have kept : (∀ c ∈ call, c.setsTerms = false) →
      (∃ before, w.currentMandate k = some before ∧ before.billingType = .usage) ∨
        ∃ c, call = some c ∧ c.toUsage k w := fun keeps => by
    obtain ⟨before, found, alike⟩ := step.terms_kept keeps present
    rw [alike.rest] at usage
    exact .inl ⟨before, found, usage⟩
  cases step with
  | subscribed ctx plan mandate key spec =>
    obtain ⟨_, _, _, _, _, _, initial⟩ := spec.initial
    obtain rfl := Option.some.inj (spec.created.symm.trans (key ▸ present))
    rw [initial] at usage
    exact .inr ⟨_, rfl, (planType_of_load spec.loaded).trans (congrArg some usage)⟩
  | migrated ctx before after key spec =>
    obtain ⟨_, _, moved⟩ := spec.moved
    obtain rfl := Option.some.inj (spec.created.symm.trans (key ▸ present))
    rw [moved] at usage
    refine .inr ⟨_, rfl, ?_⟩
    simp only [MandateCall.toUsage, spec.found, Option.map_some]
    exact congrArg some usage
  | samePlan ctx s key checked plan unchanged => exact .inl ⟨after, unchanged ▸ present, usage⟩
  | switched ctx s delta priced key spec =>
    subst key
    obtain rfl := Option.some.inj (spec.written.symm.trans present)
    have found := spec.checked.found
    cases type : s.mandate.billingType with
    | usage => exact .inl ⟨s.mandate, found, type⟩
    | flat =>
      refine .inr ⟨_, rfl, ?_, (planType_of_load spec.checked.newPlan).trans (congrArg some usage)⟩
      rw [found, Option.map_some, type]
  | pulled ctx s after key spec =>
    subst key
    obtain rfl := Option.some.inj (spec.written.symm.trans present)
    refine .inl ⟨s.pull.mandate, spec.checked.pull.found, ?_⟩
    rw [spec.advanced.rest] at usage
    cases spec.checked.terms with
    | asIs undue mandate_eq plan_eq => exact mandate_eq ▸ usage
    | switched applied mandate_eq =>
      rw [mandate_eq] at usage
      exact applied.billingType.symm.trans usage
  | _ => exact kept fun c called => by cases called <;> rfl

def World.approved (w : World) (k : Pubkey) : Bool :=
  (w.pullApproval k).any fun approval => approval.approved

/-- What a usage pull settled: the start of its period, its base charge, the charge recorded last
by a usage callback with the period of its report, and the amount of the mandate. -/
structure UsagePull where
  periodStart : Int64
  base : Nat
  recorded : Option (Int64 × Nat)
  limit : Nat
  deriving DecidableEq

structure UsageLedger where
  recorded : Option (Int64 × Nat)
  pulls : List UsagePull

def usagePull (k : Pubkey) (g : UsageLedger) (w w' : World) : Option UsagePull :=
  (w.currentMandate k).bind fun mandate =>
    if mandate.billingType = .usage then
      (mandateBillingPeriod mandate).toOption.bind fun period =>
        (w'.currentMandate k).map fun after =>
          ⟨period.1, w.baseCharge k, g.recorded, after.amount.toNat⟩
    else none

def watchUsage (k : Pubkey) : Observe World Action UsageLedger := fun g w a w' =>
  match a with
  | .instruction (.usageChargeCallback ctx) =>
    if ctx.mandate = k then
      { g with recorded := ctx.output.map fun charge => (ctx.reportPeriodStart, charge.toNat) }
    else g
  | .instruction (.validateMandateCallback ctx) =>
    if ctx.mandate = k then { g with recorded := none } else g
  | .instruction (.executePull ctx) =>
    if ctx.mandate = k then { g with pulls := (usagePull k g w w').toList ++ g.pulls } else g
  | _ => g

def ApprovalRecorded (k : Pubkey) (w : World) (g : UsageLedger) : Prop :=
  ∀ approval, w.pullApproval k = some approval → approval.approved = true →
    g.recorded = some (approval.periodStart, approval.approvedAmount.toNat) ∨
      ∀ mandate, w.currentMandate k = some mandate → mandate.billingType = .flat

def ReportsSettled (k : Pubkey) (w : World) (g : UsageLedger) : Prop :=
  ∀ periodStart, periodStart ∈ g.pulls.map UsagePull.periodStart ↔
    ∃ report, w.usageReport (k, periodStart) = some report ∧ report.settled = true

/-- No mandate is made a usage mandate while an approval of it is outstanding. -/
def ApprovedAsUsage (k : Pubkey) : UsageLedger → World → MandateCall → World → Prop :=
  fun _ w call _ => call.toUsage k w → w.approved k = false

instance (k : Pubkey) (g : UsageLedger) (w : World) (call : MandateCall) (w' : World) :
    Decidable (ApprovedAsUsage k g w call w') :=
  inferInstanceAs (Decidable (_ → _))

abbrev UsageRun (P : Platform) (k : Pubkey) : World × UsageLedger → World × UsageLedger → Prop :=
  Run (Step P) (watchUsage k) (whenCall k (ApprovedAsUsage k))

variable {g : UsageLedger}

theorem watchUsage_recorded (other : ¬a.recordsApproval k) :
    (watchUsage k g w a w').recorded = g.recorded := by
  unfold watchUsage
  split
  · exact congrArg UsageLedger.recorded (if_neg other)
  · exact congrArg UsageLedger.recorded (if_neg other)
  · split <;> rfl
  · rfl

theorem ApprovalRecorded.kept (recorded : ApprovalRecorded k w g) (step : Step P w a w')
    (allowed : whenCall k (ApprovedAsUsage k) g w a w') (other : ¬a.recordsApproval k) :
    ApprovalRecorded k w' (watchUsage k g w a w') := by
  intro approval found approved
  rw [watchUsage_recorded other]
  cases (periodStep k step).approval with
  | kept same =>
    rw [same] at found
    rcases recorded approval found approved with charge | flat
    · exact .inl charge
    · refine .inr fun after present => ?_
      cases type : after.billingType with
      | flat => rfl
      | usage =>
        rcases usage_before (mandateStep k step) present type with ⟨before, old, usage⟩ | made
        · rw [flat before old] at usage
          cases usage
        · obtain ⟨call, called, toUsage⟩ := made
          have unapproved : w.approved k = false := allowed call called toUsage
          rw [World.approved, found, Option.any_some, approved] at unapproved
          cases unapproved
  | cleared bump reset =>
    obtain rfl := Option.some.inj (reset.symm.trans found)
    cases approved
  | closed gone => exact absurd (found.symm.trans gone) nofun
  | granted records request mandate _ amount spec ended => exact absurd records other

theorem approvalRecorded_step (recorded : ApprovalRecorded k w g) (step : Step P w a w')
    (allowed : whenCall k (ApprovedAsUsage k) g w a w') :
    ApprovalRecorded k w' (watchUsage k g w a w') := by
  by_cases records : a.recordsApproval k
  · unfold Action.recordsApproval at records
    split at records
    · rename_i ctx
      subst records
      obtain ⟨mandate, _, flat, _, spec⟩ := validateMandateCallback_eq_ok step
      refine fun approval found approved => .inr fun after present => ?_
      rw [currentMandate_congr spec.mandates] at present
      obtain rfl := Option.some.inj (spec.found.symm.trans present)
      exact flat
    · rename_i ctx
      subst records
      obtain ⟨charge, stored, output, present, period, amount⟩ := usageChargeCallback_approval step
      refine fun approval found approved => .inl ?_
      obtain rfl := Option.some.inj (present.symm.trans found)
      simp only [watchUsage, if_true, output, Option.map_some, period, amount]
    · exact records.elim
  · exact recorded.kept step allowed records

theorem usagePull_of_usage {ctx : ExecutePull} {s : Settlement} {after : VelaMandate}
    (spec : Pulled P w ctx w' s after) (usage : s.pull.mandate.billingType = .usage) :
    usagePull ctx.mandate g w w' =
      some ⟨s.pull.period.1, w.baseCharge ctx.mandate, g.recorded, after.amount.toNat⟩ := by
  have period : (mandateBillingPeriod s.pull.mandate).toOption = some s.pull.period :=
    toOption_eq_some.mpr spec.checked.pull.period
  rw [usagePull, spec.checked.pull.found, Option.bind_some, if_pos usage, period,
    Option.bind_some, spec.written, Option.map_some]

theorem usagePull_of_flat {ctx : ExecutePull} {s : Settlement} {after : VelaMandate}
    (spec : Pulled P w ctx w' s after) (flat : s.pull.mandate.billingType = .flat) :
    usagePull ctx.mandate g w w' = none := by
  rw [usagePull, spec.checked.pull.found, Option.bind_some, if_neg]
  rw [flat]
  nofun

theorem usage_base {ctx : ExecutePull} {s : Settlement} {after : VelaMandate}
    (spec : Pulled P w ctx w' s after) (usage : s.pull.mandate.billingType = .usage) :
    w.baseCharge ctx.mandate = s.approval.approvedAmount.toNat ∧
      w.baseCharge ctx.mandate ≤ after.amount.toNat := by
  constructor
  · simp only [World.baseCharge, spec.checked.pull.found, usage, spec.checked.approval.found,
      Option.map_some, Option.getD_some]
  · rw [← spec.base_eq, spec.advanced.rest]
    exact Checked.le_iff.mp (baseChargeAmount_eq_ok spec.checked.base).1

theorem ReportsSettled.of_stored {key : Pubkey × Int64} {report : UsageReport}
    (settled : ReportsSettled k w g) (pulls : (watchUsage k g w a w').pulls = g.pulls)
    (stored : w'.usageReport = Function.update w.usageReport key (some report))
    (same : key.1 = k → report.settled = false ∧ w.usageReport key = none) :
    ReportsSettled k w' (watchUsage k g w a w') := by
  intro periodStart
  rw [pulls, settled periodStart, stored]
  by_cases own : (k, periodStart) = key
  · subst own
    obtain ⟨unsettled, vacant⟩ := same rfl
    rw [Function.update_self, vacant]
    constructor
    · rintro ⟨_, found, _⟩
      cases found
    · rintro ⟨_, found, done⟩
      rw [← Option.some.inj found, unsettled] at done
      cases done
  · rw [Function.update_of_ne own]

theorem watchUsage_pulls (other : ∀ ctx, a = .instruction (.executePull ctx) → ctx.mandate ≠ k) :
    (watchUsage k g w a w').pulls = g.pulls := by
  unfold watchUsage
  split
  · split <;> rfl
  · split <;> rfl
  · rename_i ctx
    exact congrArg UsageLedger.pulls (if_neg (other ctx rfl))
  · rfl

/-- What holds between a usage mandate, its reports and its pulls. -/
structure UsageKept (k : Pubkey) (w : World) (g : UsageLedger) : Prop where
  approval : ApprovalRecorded k w g
  charges : ∀ pull ∈ g.pulls, pull.recorded = some (pull.periodStart, pull.base) ∧
    pull.base ≤ pull.limit
  once : (g.pulls.map UsagePull.periodStart).Nodup
  reports : ReportsSettled k w g

theorem UsageKept.pulled {ctx : ExecutePull} (kept : UsageKept ctx.mandate w g)
    (step : executePull P w ctx = .ok w')
    (approval : ApprovalRecorded ctx.mandate w'
      (watchUsage ctx.mandate g w (.instruction (.executePull ctx)) w')) :
    UsageKept ctx.mandate w'
      (watchUsage ctx.mandate g w (.instruction (.executePull ctx)) w') := by
  obtain ⟨s, after, spec⟩ := executePull_eq_ok step
  have settles := spec.settles
  have pulls : (watchUsage ctx.mandate g w (.instruction (.executePull ctx)) w').pulls =
      (usagePull ctx.mandate g w w').toList ++ g.pulls := by
    simp only [watchUsage, if_true]
  cases type : s.pull.mandate.billingType with
  | flat =>
    rw [type] at settles
    rw [usagePull_of_flat spec type, Option.toList_none, List.nil_append] at pulls
    cases settles with
    | flat same =>
      refine ⟨approval, pulls ▸ kept.charges, pulls ▸ kept.once, fun periodStart => ?_⟩
      rw [pulls, same]
      exact kept.reports periodStart
  | usage =>
    rw [type] at settles
    rw [usagePull_of_usage spec type, Option.toList_some, List.singleton_append] at pulls
    obtain ⟨base, bounded⟩ := usage_base spec type
    have found := spec.checked.approval
    have charge : g.recorded = some (s.pull.period.1, w.baseCharge ctx.mandate) := by
      rw [base, ← found.period.1]
      rcases kept.approval s.approval found.found found.approved with charge | flat
      · exact charge
      · have contra := flat s.pull.mandate spec.checked.pull.found
        rw [type] at contra
        cases contra
    cases settles with
    | usage report present unsettled written =>
      have unseen : s.pull.period.1 ∉ g.pulls.map UsagePull.periodStart := by
        intro seen
        obtain ⟨other, same, done⟩ := (kept.reports _).mp seen
        obtain rfl := Option.some.inj (present.symm.trans same)
        rw [unsettled] at done
        cases done
      refine ⟨approval, ?_, ?_, fun periodStart => ?_⟩
      · rw [pulls]
        exact List.forall_mem_cons.mpr ⟨⟨charge, bounded⟩, kept.charges⟩
      · rw [pulls, List.map_cons]
        exact List.nodup_cons.mpr ⟨unseen, kept.once⟩
      · rw [pulls, List.map_cons, List.mem_cons, kept.reports periodStart, written]
        by_cases same : periodStart = s.pull.period.1
        · subst same
          simp only [true_or, Function.update_self, Option.some.injEq, exists_eq_left']
        · rw [Function.update_of_ne fun key => same (congrArg Prod.snd key)]
          simp only [same, false_or]

theorem usageKept_step (kept : UsageKept k w g) (step : Step P w a w')
    (allowed : whenCall k (ApprovedAsUsage k) g w a w') :
    UsageKept k w' (watchUsage k g w a w') := by
  have approval := approvalRecorded_step kept.approval step allowed
  by_cases own : ∃ ctx, a = .instruction (.executePull ctx) ∧ ctx.mandate = k
  · obtain ⟨ctx, rfl, rfl⟩ := own
    exact kept.pulled step approval
  · have pulls : (watchUsage k g w a w').pulls = g.pulls :=
      watchUsage_pulls fun ctx pull key => own ⟨ctx, pull, key⟩
    refine ⟨approval, pulls ▸ kept.charges, pulls ▸ kept.once, ?_⟩
    cases reportStep step with
    | kept same =>
      intro periodStart
      rw [pulls, same]
      exact kept.reports periodStart
    | submitted key report vacant unsettled stored =>
      exact kept.reports.of_stored pulls stored fun _ => ⟨unsettled, vacant⟩
    | settled ctx s after report pull spec found unsettled stored =>
      exact kept.reports.of_stored pulls stored fun key => absurd ⟨ctx, pull, key⟩ own

theorem report_step {periodStart : Int64} {report : UsageReport} (step : Step P w a w')
    (found : w.usageReport (k, periodStart) = some report) :
    w'.usageReport (k, periodStart) = some report ∨
      ∃ ctx, a = .instruction (.executePull ctx) ∧ ctx.mandate = k ∧ report.settled = false ∧
        w'.usageReport (k, periodStart) = some { report with settled := true } := by
  cases reportStep step with
  | kept same => exact .inl (same ▸ found)
  | submitted key other vacant unsettled stored =>
    refine .inl ?_
    rw [stored, Function.update_of_ne]
    · exact found
    · rintro rfl
      exact absurd (found.symm.trans vacant) nofun
  | settled ctx s after other pull spec present unsettled stored =>
    by_cases same : (k, periodStart) = (ctx.mandate, s.pull.period.1)
    · rw [same] at found
      obtain rfl := Option.some.inj (present.symm.trans found)
      refine .inr ⟨ctx, pull, (congrArg Prod.fst same).symm, unsettled, ?_⟩
      rw [stored, same, Function.update_self]
    · exact .inl (by rw [stored, Function.update_of_ne same]; exact found)

theorem Fresh.usageKept (fresh : Fresh w) : UsageKept k w ⟨none, []⟩ := by
  refine ⟨fun approval found => ?_, nofun, .nil, fun periodStart => ?_⟩
  · exact absurd (found.symm.trans (fresh.approvals k)) nofun
  · simp only [List.map_nil, List.not_mem_nil, fresh.reports, reduceCtorEq, false_and,
      exists_false]

/-- In every run from a fresh deployment in which no mandate is made a usage mandate over an
outstanding approval: each usage pull bills what the callback recorded for its own period, within
the mandate's amount; each report is settled by one pull; and nothing but a successful pull of the
mandate touches a report. -/
theorem usage_pulls_settle_reports {w₀ : World} (fresh : Fresh w₀)
    (run : UsageRun P k (w₀, ⟨none, []⟩) (w, g)) :
    (∀ pull ∈ g.pulls, pull.recorded = some (pull.periodStart, pull.base) ∧
      pull.base ≤ pull.limit) ∧
    (g.pulls.map UsagePull.periodStart).Nodup ∧
    (∀ periodStart, periodStart ∈ g.pulls.map UsagePull.periodStart ↔
      ∃ report, w.usageReport (k, periodStart) = some report ∧ report.settled = true) ∧
    (∀ a w' periodStart report, Step P w a w' → w.usageReport (k, periodStart) = some report →
      w'.usageReport (k, periodStart) = some report ∨
        ∃ ctx, a = .instruction (.executePull ctx) ∧ ctx.mandate = k ∧ report.settled = false ∧
          w'.usageReport (k, periodStart) = some { report with settled := true }) ∧
    ∀ ctx e, executePull P w ctx = .error e → transact P w (.executePull ctx) = w := by
  have kept := run.invariant (UsageKept k) fresh.usageKept
    fun _ _ _ _ kept step allowed => usageKept_step kept step allowed
  refine ⟨kept.charges, kept.once, kept.reports, fun _ _ _ _ => report_step, fun ctx e failed => ?_⟩
  rw [transact, show execute P w (.executePull ctx) = .error e from failed]
  rfl

open Deployment

def meteredPeriod : List Action :=
  [offerUsage 0 100 3600 mintA, .instruction (.subscribe (subscription (usagePlan 0) mintA)),
    tick 3600, report (usagePlan 0) 0 3600, requestUsage (usagePlan 0) 0 1, answerUsage 0 1 40,
    pull (usagePlan 0) mintA [reportAccount 0]]

theorem metered_period_settles : ∃ (w : World) (g : UsageLedger),
    g.pulls = [⟨0, 40, some (0, 40), 100⟩] ∧
    (g.pulls.map UsagePull.periodStart).Nodup ∧
      ∃ report, w.usageReport (mandate, 0) = some report ∧ report.settled = true := by
  have played : (play (applyAction platform) (watchUsage mandate)
      (whenCall mandate (ApprovedAsUsage mandate)) (world 0, ⟨none, []⟩) meteredPeriod).any
        (fun x => x.2.pulls = [⟨0, 40, some (0, 40), 100⟩]) = true := by
    decide +kernel
  rw [Option.any_eq_true] at played
  obtain ⟨⟨w, g⟩, played, ok⟩ := played
  have pulls := of_decide_eq_true ok
  have run : UsageRun platform mandate (world 0, ⟨none, []⟩) (w, g) :=
    play_run (fun _ _ _ => applyAction_step) played
  obtain ⟨_, once, settled, _⟩ := usage_pulls_settle_reports (world_fresh 0) run
  exact ⟨w, g, pulls, once, (settled 0).mp (by rw [pulls]; exact List.mem_cons_self)⟩

def UsageBilling (_ : UsageLedger) (_ : World) (a : Action) (_ : World) : Prop :=
  match a with
  | .instruction (.submitUsageReport _) => True
  | .instruction (.requestUsageComputation _) => True
  | .instruction (.usageChargeCallback _) => True
  | .instruction (.updateUsagePlan _) => True
  | .instruction (.requestValidation _) => True
  | .instruction (.executePull _) => True
  | .tick _ => True
  | _ => False

instance (g : UsageLedger) (w : World) (a : Action) (w' : World) :
    Decidable (UsageBilling g w a w') := by
  cases a with
  | instruction i => cases i <;> dsimp only [UsageBilling] <;> infer_instance
  | _ => dsimp only [UsageBilling]; infer_instance

def flatApproval : List Action :=
  [offerFlat 0 100 3600 0 10 mintA, offerUsage 0 100 3600 mintA,
    .instruction (.subscribe (subscription (flatPlan 0) mintA)), tick 3600,
    requestFlat (flatPlan 0) 3600 1, answerFlat 3600 1 true,
    switch merchant (usagePlan 0) mintA]

def unpricedPull : List Action :=
  [report (usagePlan 0) 0 3600, pull (usagePlan 0) mintA [reportAccount 0]]

/-- The pull bills 100 although no usage callback recorded anything. -/
theorem flat_approval_bills_usage : ¬∀ (P : Platform) (k : Pubkey) (w₀ w₁ w : World)
    (g₁ g : UsageLedger) (mandate : VelaMandate), Fresh w₀ →
      Run (Step P) (watchUsage k) Any (w₀, ⟨none, []⟩) (w₁, g₁) →
      w₁.currentMandate k = some mandate → mandate.billingType = .usage →
      Run (Step P) (watchUsage k) UsageBilling (w₁, g₁) (w, g) →
      ∀ pull ∈ g.pulls, pull.recorded = some (pull.periodStart, pull.base) := by
  intro recorded
  have played : ((play (applyAction platform) (watchUsage mandate) Any (world 0, ⟨none, []⟩)
      flatApproval).any fun x =>
      (x.1.currentMandate mandate).any (fun m => m.billingType = .usage) &&
        (play (applyAction platform) (watchUsage mandate) UsageBilling x unpricedPull).any
          fun y => y.2.pulls = [⟨0, 100, none, 100⟩]) = true := by
    decide +kernel
  simp only [Option.any_eq_true, Bool.and_eq_true, decide_eq_true_eq] at played
  obtain ⟨⟨w₁, g₁⟩, setup, ⟨m, present, usage⟩, ⟨w, g⟩, played, pulls⟩ := played
  have sound (s : World) (a : Action) (s' : World) : applyAction platform s a = some s' →
      Step platform s a s' := applyAction_step
  have charge := recorded platform mandate (world 0) w₁ w g₁ g m (world_fresh 0)
    (play_run sound setup) present usage (play_run sound played) ⟨0, 100, none, 100⟩
    (by rw [pulls]; exact List.mem_cons_self)
  cases charge

end VelaProtocol
