import VelaProtocol.Program

/-! What one step of the program can do to one mandate, to its approval, to its requests and to
the plans. Every invariant is derived from these case distinctions. -/
namespace VelaProtocol

/-- The calls on one mandate that can change its terms, its money or its flat approval. -/
inductive MandateCall where
  | subscribe (ctx : Subscribe)
  | migrateMandate (ctx : MigrateMandate)
  | updateMandatePlan (ctx : UpdateMandatePlan)
  | schedulePlanChange (ctx : SchedulePlanChange)
  | cancelPlanChange (ctx : CancelPlanChange)
  | executePull (ctx : ExecutePull)
  | requestValidation (ctx : RequestValidation)
  | validateMandateCallback (ctx : ValidateMandateCallback)

def Action.call (k : Pubkey) : Action → Option MandateCall
  | .instruction (.subscribe ctx) => if ctx.mandate = k then some (.subscribe ctx) else none
  | .instruction (.migrateMandate ctx) =>
    if ctx.migratedMandate = k then some (.migrateMandate ctx) else none
  | .instruction (.updateMandatePlan ctx) =>
    if ctx.mandate = k then some (.updateMandatePlan ctx) else none
  | .instruction (.schedulePlanChange ctx) =>
    if ctx.mandate = k then some (.schedulePlanChange ctx) else none
  | .instruction (.cancelPlanChange ctx) =>
    if ctx.mandate = k then some (.cancelPlanChange ctx) else none
  | .instruction (.executePull ctx) => if ctx.mandate = k then some (.executePull ctx) else none
  | .instruction (.requestValidation ctx) =>
    if ctx.mandate = k then some (.requestValidation ctx) else none
  | .instruction (.validateMandateCallback ctx) =>
    if ctx.mandate = k then some (.validateMandateCallback ctx) else none
  | _ => none

structure Quiet (w w' : World) (k : Pubkey) : Prop where
  transfersBy : w'.transfersBy k = w.transfersBy k
  creditsTo : w'.creditsTo k = w.creditsTo k

theorem SameMoney.quiet {w w' : World} (same : SameMoney w w') (k : Pubkey) : Quiet w w' k :=
  ⟨same.transfersBy k, same.creditsTo k⟩

def SameRequests (w w' : World) (k : Pubkey) : Prop :=
  ∀ due, w'.requestState (.validation, k, due) = w.requestState (.validation, k, due)

theorem SameRequests.of_eq {w w' : World} {k : Pubkey} (same : w'.requestState = w.requestState) :
    SameRequests w w' k := fun due => congrFun same (.validation, k, due)

theorem SameRequests.of_update {w w' : World} {k : Pubkey} {key : RequestKey}
    {state : Option ArciumRequestState} (other : key.1 ≠ .validation ∨ key.2.1 ≠ k)
    (updated : w'.requestState = Function.update w.requestState key state) :
    SameRequests w w' k := by
  intro due
  rw [updated]
  refine Function.update_of_ne (fun same => ?_) _ _
  subst same
  rcases other with flow | mandate
  · exact flow rfl
  · exact mandate rfl

/-- A mandate at `k` either goes away or keeps its terms, and none appears. -/
inductive Inert (w w' : World) (k : Pubkey) : Prop
  | gone (after : w'.currentMandate k = none)
  | kept (before after : VelaMandate) (found : w.currentMandate k = some before)
      (stays : w'.currentMandate k = some after) (terms : before.SameTerms after)

theorem Inert.of_eq {w w' : World} {k : Pubkey} (same : w'.currentMandate k = w.currentMandate k) :
    Inert w w' k := by
  cases before : w.currentMandate k with
  | none => exact .gone (same.trans before)
  | some mandate => exact .kept mandate mandate before (same.trans before) ⟨rfl, id⟩

inductive MandateStep (P : Platform) (k : Pubkey) (w w' : World) : Option MandateCall → Prop
  | inert (same : Inert w w' k) (quiet : Quiet w w' k) (requests : SameRequests w w' k) :
      MandateStep P k w w' none
  | subscribed (ctx : Subscribe) (plan : LoadedPlanAccount) (mandate : VelaMandate)
      (key : ctx.mandate = k) (spec : Subscribed P w ctx w' plan mandate) :
      MandateStep P k w w' (some (.subscribe ctx))
  | migrated (ctx : MigrateMandate) (before after : VelaMandate) (key : ctx.migratedMandate = k)
      (spec : Migrated P w ctx w' before after) : MandateStep P k w w' (some (.migrateMandate ctx))
  | samePlan (ctx : UpdateMandatePlan) (s : PlanSwitch) (key : ctx.mandate = k)
      (checked : SwitchChecked P w ctx s) (plan : s.mandate.plan = ctx.newPlan)
      (unchanged : w' = w) : MandateStep P k w w' (some (.updateMandatePlan ctx))
  | switched (ctx : UpdateMandatePlan) (s : PlanSwitch) (delta : Int) (priced : VelaMandate)
      (key : ctx.mandate = k) (spec : Switched P w ctx w' s delta priced) :
      MandateStep P k w w' (some (.updateMandatePlan ctx))
  | alreadyScheduled (ctx : SchedulePlanChange) (s : Scheduling) (key : ctx.mandate = k)
      (checked : SchedulingChecked P w ctx s) (unchanged : w' = w) :
      MandateStep P k w w' (some (.schedulePlanChange ctx))
  | scheduled (ctx : SchedulePlanChange) (s : Scheduling) (nonce : Bytes 8)
      (key : ctx.mandate = k) (checked : SchedulingChecked P w ctx s)
      (changed : s.mandate.plan ≠ ctx.newPlan)
      (written : w'.currentMandate k = some (s.mandate.schedule ctx.newPlan nonce))
      (frame : MandateFrame w w') : MandateStep P k w w' (some (.schedulePlanChange ctx))
  | dropped (ctx : CancelPlanChange) (mandate : VelaMandate) (key : ctx.mandate = k)
      (spec : Dropped w ctx w' mandate) : MandateStep P k w w' (some (.cancelPlanChange ctx))
  | pulled (ctx : ExecutePull) (s : Settlement) (after : VelaMandate) (key : ctx.mandate = k)
      (spec : Pulled P w ctx w' s after) : MandateStep P k w w' (some (.executePull ctx))
  | requested (ctx : RequestValidation) (mandate : VelaMandate) (plan : LoadedPlanAccount)
      (key : ctx.mandate = k) (spec : ValidationRequested P w ctx w' mandate plan) :
      MandateStep P k w w' (some (.requestValidation ctx))
  | answered (ctx : ValidateMandateCallback) (mandate : VelaMandate) (result : Bool)
      (key : ctx.mandate = k) (flat : mandate.billingType = .flat)
      (output : ctx.output = some result)
      (spec : Approved w k w' (validationKey k mandate) mandate result mandate.amount) :
      MandateStep P k w w' (some (.validateMandateCallback ctx))

theorem ValidationRequested.inert {P : Platform} {w w' : World} {ctx : RequestValidation}
    {mandate : VelaMandate} {plan : LoadedPlanAccount}
    (spec : ValidationRequested P w ctx w' mandate plan) : Inert w w' ctx.mandate := by
  obtain ⟨nonce, written⟩ := spec.written
  exact .kept mandate _ spec.checked.found written ⟨rfl, id⟩

theorem Approved.inert {w w' : World} {k : Pubkey} {request : RequestKey} {mandate : VelaMandate}
    {approved : Bool} {amount : UInt64}
    (spec : Approved w k w' request mandate approved amount) : Inert w w' k :=
  .of_eq (currentMandate_congr spec.mandates k)

theorem Administered.inert {w w' : World} {key k : Pubkey} {before after : VelaMandate}
    (done : Administered w key w' before after) : Inert w w' k := by
  by_cases same : k = key
  · exact same ▸ .kept before after done.found done.written done.terms
  · exact .of_eq (done.others k same)

theorem Recorded.inert {w w' : World} {key k : Pubkey} {before after : VelaMandate}
    (done : Recorded w key w' before after) : Inert w w' k := by
  by_cases same : k = key
  · exact same ▸ .kept before after done.found done.written done.terms
  · exact .of_eq (done.others k same)

theorem Elsewhere.quiet {w w' : World} {key k : Pubkey} (elsewhere : Elsewhere w w' key)
    (different : k ≠ key) : Quiet w w' k :=
  ⟨elsewhere.transfersBy k different, elsewhere.creditsTo k different⟩

theorem instruction_mandateStep {P : Platform} {w w' : World} {i : Instruction} (k : Pubkey)
    (h : execute P w i = .ok w') : MandateStep P k w w' (Action.call k (.instruction i)) := by
  cases i with
  | createPlan ctx =>
    have only := createPlan_eq_ok h
    exact .inert (.of_eq (currentMandate_congr only.mandate k)) (only.money.quiet k)
      (.of_eq only.requestState)
  | createUsagePlan ctx =>
    have only := createUsagePlan_eq_ok h
    exact .inert (.of_eq (currentMandate_congr only.mandate k)) (only.money.quiet k)
      (.of_eq only.requestState)
  | updatePlan ctx =>
    have only := updatePlan_eq_ok h
    exact .inert (.of_eq (currentMandate_congr only.mandate k)) (only.money.quiet k)
      (.of_eq only.requestState)
  | updateUsagePlan ctx =>
    have only := updateUsagePlan_eq_ok h
    exact .inert (.of_eq (currentMandate_congr only.mandate k)) (only.money.quiet k)
      (.of_eq only.requestState)
  | migratePlan plan =>
    have only := migratePlan_eq_ok h
    exact .inert (.of_eq (currentMandate_congr only.mandate k)) (only.money.quiet k)
      (.of_eq only.requestState)
  | subscribe ctx =>
    obtain ⟨plan, mandate, spec⟩ := subscribe_eq_ok h
    by_cases key : ctx.mandate = k
    · simp only [Action.call, if_pos key]
      exact .subscribed ctx plan mandate key spec
    · simp only [Action.call, if_neg key]
      exact .inert (.of_eq (spec.others k (Ne.symm key))) (spec.frame.money.quiet k)
        (.of_eq spec.frame.requestState)
  | cancel ctx =>
    obtain ⟨frame, before, after, done⟩ := cancel_eq_ok h
    exact .inert done.inert (frame.money.quiet k) (.of_eq frame.requestState)
  | adminCancel ctx =>
    obtain ⟨frame, before, after, done⟩ := adminCancel_eq_ok h
    exact .inert done.inert (frame.money.quiet k) (.of_eq frame.requestState)
  | closeMandate ctx =>
    obtain ⟨frame, gone, others⟩ := closeMandate_eq_ok h
    refine .inert ?_ (frame.money.quiet k) (.of_eq frame.requestState)
    by_cases same : k = ctx.mandate
    · exact same ▸ .gone gone
    · exact .of_eq (others k same)
  | migrateMandate ctx =>
    obtain ⟨before, after, spec⟩ := migrateMandate_eq_ok h
    by_cases key : ctx.migratedMandate = k
    · simp only [Action.call, if_pos key]
      exact .migrated ctx before after key spec
    · simp only [Action.call, if_neg key]
      refine .inert ?_ (spec.frame.money.quiet k) (.of_eq spec.frame.requestState)
      by_cases legacy : k = ctx.legacyMandate
      · exact legacy ▸ .gone spec.removed
      · exact .of_eq (spec.others k legacy (Ne.symm key))
  | updateMandate ctx =>
    obtain ⟨frame, same⟩ := updateMandate_eq_ok h
    exact .inert (.of_eq (same k)) (frame.money.quiet k) (.of_eq frame.requestState)
  | updateMandatePlan ctx =>
    by_cases key : ctx.mandate = k
    · simp only [Action.call, if_pos key]
      rcases updateMandatePlan_eq_ok h with ⟨same, s, checked, plan⟩ | ⟨s, delta, priced, spec⟩
      · exact .samePlan ctx s key checked plan same
      · exact .switched ctx s delta priced key spec
    · simp only [Action.call, if_neg key]
      rcases updateMandatePlan_eq_ok h with ⟨same, _⟩ | ⟨s, delta, priced, spec⟩
      · rw [same]
        exact .inert (.of_eq rfl) ⟨rfl, rfl⟩ (.of_eq rfl)
      · exact .inert (.of_eq (spec.elsewhere.mandate k (Ne.symm key)))
          (spec.elsewhere.quiet (Ne.symm key)) (.of_eq spec.requestState)
  | schedulePlanChange ctx =>
    obtain ⟨s, checked, frame, others, outcome⟩ := schedulePlanChange_eq_ok h
    by_cases key : ctx.mandate = k
    · simp only [Action.call, if_pos key]
      rcases outcome with same | ⟨changed, nonce, written⟩
      · exact .alreadyScheduled ctx s key checked same
      · exact .scheduled ctx s nonce key checked changed (key ▸ written) frame
    · simp only [Action.call, if_neg key]
      exact .inert (.of_eq (others k (Ne.symm key))) (frame.money.quiet k)
        (.of_eq frame.requestState)
  | cancelPlanChange ctx =>
    obtain ⟨mandate, spec⟩ := cancelPlanChange_eq_ok h
    by_cases key : ctx.mandate = k
    · simp only [Action.call, if_pos key]
      exact .dropped ctx mandate key spec
    · simp only [Action.call, if_neg key]
      exact .inert (.of_eq (spec.others k (Ne.symm key))) (spec.frame.money.quiet k)
        (.of_eq spec.frame.requestState)
  | requestValidation ctx =>
    obtain ⟨mandate, plan, spec⟩ := requestValidation_eq_ok h
    by_cases key : ctx.mandate = k
    · simp only [Action.call, if_pos key]
      exact .requested ctx mandate plan key spec
    · simp only [Action.call, if_neg key]
      obtain ⟨request, updated, _⟩ := spec.requestState
      exact .inert (.of_eq (spec.others k (Ne.symm key))) (spec.money.quiet k)
        (.of_update (.inr key) updated)
  | validateMandateCallback ctx =>
    obtain ⟨mandate, result, flat, output, spec⟩ := validateMandateCallback_eq_ok h
    by_cases key : ctx.mandate = k
    · simp only [Action.call, if_pos key]
      exact .answered ctx mandate result key flat output (key ▸ spec)
    · simp only [Action.call, if_neg key]
      obtain ⟨state, _, updated⟩ := spec.completed
      exact .inert (.of_eq (currentMandate_congr spec.mandates k)) (spec.money.quiet k)
        (.of_update (.inr key) updated)
  | submitUsageReport ctx =>
    obtain ⟨report, rfl, _⟩ := submitUsageReport_eq_ok h
    exact .inert (.of_eq rfl) ⟨rfl, rfl⟩ (.of_eq rfl)
  | requestUsageComputation ctx =>
    obtain ⟨mandate, spec⟩ := requestUsageComputation_eq_ok h
    refine .inert ?_ (spec.money.quiet k) fun due => spec.requestState _ nofun
    by_cases same : k = ctx.mandate
    · obtain ⟨nonce, written⟩ := spec.written
      exact same ▸ .kept mandate _ spec.found written ⟨rfl, id⟩
    · exact .of_eq (spec.others k same)
  | usageChargeCallback ctx =>
    obtain ⟨mandate, charge, subject, _, _, _, _, spec⟩ := usageChargeCallback_eq_ok h
    obtain ⟨state, _, updated⟩ := spec.completed
    exact .inert (.of_eq (currentMandate_congr spec.mandates k)) (spec.money.quiet k)
      (.of_update (.inl (by rintro ⟨⟩)) updated)
  | executePull ctx =>
    obtain ⟨s, after, spec⟩ := executePull_eq_ok h
    by_cases key : ctx.mandate = k
    · simp only [Action.call, if_pos key]
      exact .pulled ctx s after key spec
    · simp only [Action.call, if_neg key]
      exact .inert (.of_eq (spec.elsewhere.mandate k (Ne.symm key)))
        (spec.elsewhere.quiet (Ne.symm key)) (.of_eq spec.requestState)
  | requestBillingRecord ctx =>
    obtain ⟨before, after, done⟩ := requestBillingRecord_eq_ok h
    exact .inert done.inert (done.money.quiet k) fun due => done.requestState _ nofun
  | recordBillingEventCallback ctx =>
    obtain ⟨before, after, done⟩ := recordBillingEventCallback_eq_ok h
    exact .inert done.inert (done.money.quiet k) fun due => done.requestState _ nofun

theorem mandateStep {P : Platform} {w w' : World} {a : Action} (k : Pubkey) (h : Step P w a w') :
    MandateStep P k w w' (a.call k) := by
  cases a with
  | instruction i => exact instruction_mandateStep k h
  | tick clock =>
    obtain ⟨_, rfl⟩ := h
    exact .inert (.of_eq rfl) ⟨rfl, rfl⟩ (.of_eq rfl)
  | environment =>
    exact .inert (.of_eq (currentMandate_congr h.mandate k)) ((SameMoney.of_log h.log).quiet k)
      (.of_eq h.requestState)

def MandateCall.setsTerms : MandateCall → Bool
  | .subscribe _ => true
  | .migrateMandate _ => true
  | .updateMandatePlan _ => true
  | .executePull _ => true
  | _ => false

def MandateCall.setsDue : MandateCall → Bool
  | .updateMandatePlan _ => false
  | call => call.setsTerms

section Kept

variable {P : Platform} {k : Pubkey} {w w' : World} {call : Option MandateCall}
  {after : VelaMandate}

theorem Inert.alike (same : Inert w w' k) (present : w'.currentMandate k = some after) :
    ∃ before, w.currentMandate k = some before ∧ before.BilledAlike after := by
  cases same with
  | gone lost => exact absurd (present.symm.trans lost) nofun
  | kept before _ found stays terms =>
    obtain rfl := Option.some.inj (stays.symm.trans present)
    exact ⟨before, found, terms.alike⟩

theorem MandateStep.terms_kept (step : MandateStep P k w w' call)
    (keeps : ∀ c ∈ call, c.setsTerms = false) (present : w'.currentMandate k = some after) :
    ∃ before, w.currentMandate k = some before ∧ before.BilledAlike after := by
  cases step with
  | inert same quiet requests => exact same.alike present
  | alreadyScheduled ctx s key checked unchanged => exact ⟨after, unchanged ▸ present, .refl after⟩
  | scheduled ctx s nonce key checked changed written frame =>
    obtain rfl := Option.some.inj (written.symm.trans present)
    exact ⟨s.mandate, key ▸ checked.found, ⟨rfl, id⟩⟩
  | dropped ctx before key spec =>
    obtain rfl := Option.some.inj (spec.written.symm.trans (key ▸ present))
    exact ⟨before, key ▸ spec.found, ⟨rfl, id⟩⟩
  | requested ctx before plan key spec => exact Inert.alike (key ▸ spec.inert) present
  | answered ctx before result key flat output spec => exact spec.inert.alike present
  | _ => exact absurd (keeps _ rfl) nofun

theorem MandateStep.due_kept (step : MandateStep P k w w' call)
    (keeps : ∀ c ∈ call, c.setsDue = false) (present : w'.currentMandate k = some after) :
    ∃ before, w.currentMandate k = some before ∧ after.nextPaymentDue = before.nextPaymentDue := by
  have kept : (∀ c ∈ call, c.setsTerms = false) → ∃ before, w.currentMandate k = some before ∧
      after.nextPaymentDue = before.nextPaymentDue := fun keeps => by
    obtain ⟨before, found, alike⟩ := step.terms_kept keeps present
    exact ⟨before, found, by rw [alike.rest]⟩
  cases step with
  | samePlan ctx s key checked plan unchanged => exact ⟨after, unchanged ▸ present, rfl⟩
  | switched ctx s delta priced key spec =>
    obtain rfl := Option.some.inj (spec.written.symm.trans (key ▸ present))
    refine ⟨s.mandate, key ▸ spec.checked.found, ?_⟩
    show priced.nextPaymentDue = s.mandate.nextPaymentDue
    rw [spec.settled.rest]
  | _ => exact kept fun c called => by cases called <;> exact keeps _ rfl

end Kept

structure SettingStep (w w' : World) : Prop where
  clock : w.clock.unixTimestamp ≤ w'.clock.unixTimestamp
  wrappedMint : ∀ mint, w.wrappedMint = some mint → w'.wrappedMint = some mint
  tokenConfig : w.tokenConfig Pubkey.default = none → w'.tokenConfig Pubkey.default = none
  plan : ∀ key, PlanChange (w.plan key) (w'.plan key)
  counter : ∀ merchant, w.mandateCounter merchant ≤ w'.mandateCounter merchant

theorem SettingStep.of_equal {w w' : World} (clock : w'.clock = w.clock)
    (config : w'.protocolConfig = w.protocolConfig) (token : w'.tokenConfig = w.tokenConfig)
    (plan : ∀ key, PlanChange (w.plan key) (w'.plan key))
    (counter : ∀ merchant, w.mandateCounter merchant ≤ w'.mandateCounter merchant) :
    SettingStep w w' := by
  refine ⟨clock ▸ Int64.le_refl _, fun mint h => ?_, fun h => token ▸ h, plan, counter⟩
  rw [World.wrappedMint, config]
  exact h

theorem SetupFrame.setting {w w' : World} (frame : SetupFrame w w') : SettingStep w w' :=
  .of_equal frame.clock frame.protocolConfig frame.tokenConfig
    (fun _ => frame.plan ▸ .unchanged _) frame.counter

theorem PlansOnly.setting {w w' : World} (only : PlansOnly w w') : SettingStep w w' :=
  .of_equal only.clock only.protocolConfig only.tokenConfig only.plan only.counter

theorem SettingStep.refl (w : World) : SettingStep w w :=
  .of_equal rfl rfl rfl (fun _ => .unchanged _) fun _ => le_refl _

theorem settingStep {P : Platform} {w w' : World} {a : Action} (h : Step P w a w') :
    SettingStep w w' := by
  cases a with
  | tick clock =>
    obtain ⟨later, rfl⟩ := h
    exact ⟨later, fun _ h => h, fun h => h, fun _ => .unchanged _, fun _ => le_refl _⟩
  | environment =>
    exact ⟨h.clock, h.wrappedMint, h.tokenConfig, fun _ => h.plan ▸ .unchanged _, h.counter⟩
  | instruction i =>
    cases i with
    | createPlan ctx => exact (createPlan_eq_ok h).setting
    | createUsagePlan ctx => exact (createUsagePlan_eq_ok h).setting
    | updatePlan ctx => exact (updatePlan_eq_ok h).setting
    | updateUsagePlan ctx => exact (updateUsagePlan_eq_ok h).setting
    | migratePlan plan => exact (migratePlan_eq_ok h).setting
    | subscribe ctx =>
      obtain ⟨_, _, spec⟩ := subscribe_eq_ok h
      exact spec.frame.toSetupFrame.setting
    | cancel ctx => exact (cancel_eq_ok h).1.toSetupFrame.setting
    | adminCancel ctx => exact (adminCancel_eq_ok h).1.toSetupFrame.setting
    | closeMandate ctx => exact (closeMandate_eq_ok h).1.toSetupFrame.setting
    | migrateMandate ctx =>
      obtain ⟨_, _, spec⟩ := migrateMandate_eq_ok h
      exact spec.frame.toSetupFrame.setting
    | updateMandate ctx => exact (updateMandate_eq_ok h).1.toSetupFrame.setting
    | updateMandatePlan ctx =>
      rcases updateMandatePlan_eq_ok h with ⟨rfl, _⟩ | ⟨_, _, _, spec⟩
      · exact SettingStep.refl _
      · exact spec.frame.setting
    | schedulePlanChange ctx =>
      obtain ⟨_, _, frame, _⟩ := schedulePlanChange_eq_ok h
      exact frame.toSetupFrame.setting
    | cancelPlanChange ctx =>
      obtain ⟨_, spec⟩ := cancelPlanChange_eq_ok h
      exact spec.frame.toSetupFrame.setting
    | requestValidation ctx =>
      obtain ⟨_, _, spec⟩ := requestValidation_eq_ok h
      exact spec.frame.setting
    | validateMandateCallback ctx =>
      obtain ⟨_, _, _, _, spec⟩ := validateMandateCallback_eq_ok h
      exact spec.frame.setting
    | submitUsageReport ctx =>
      obtain ⟨_, rfl, _⟩ := submitUsageReport_eq_ok h
      exact .of_equal rfl rfl rfl (fun _ => .unchanged _) fun _ => le_refl _
    | requestUsageComputation ctx =>
      obtain ⟨_, spec⟩ := requestUsageComputation_eq_ok h
      exact spec.frame.setting
    | usageChargeCallback ctx =>
      obtain ⟨_, _, _, _, _, _, _, spec⟩ := usageChargeCallback_eq_ok h
      exact spec.frame.setting
    | executePull ctx =>
      obtain ⟨_, _, spec⟩ := executePull_eq_ok h
      exact spec.frame.setting
    | requestBillingRecord ctx =>
      obtain ⟨_, _, done⟩ := requestBillingRecord_eq_ok h
      exact done.frame.setting
    | recordBillingEventCallback ctx =>
      obtain ⟨_, _, done⟩ := recordBillingEventCallback_eq_ok h
      exact done.frame.setting

def Action.recordsApproval (k : Pubkey) : Action → Prop
  | .instruction (.validateMandateCallback ctx) => ctx.mandate = k
  | .instruction (.usageChargeCallback ctx) => ctx.mandate = k
  | _ => False

instance (k : Pubkey) (a : Action) : Decidable (a.recordsApproval k) := by
  unfold Action.recordsApproval
  split <;> infer_instance

inductive ApprovalStep (w w' : World) (k : Pubkey) (a : Action) : Prop
  | kept (same : w'.pullApproval k = w.pullApproval k)
  | cleared (bump : UInt8) (reset : w'.pullApproval k = some (PullApproval.reset bump))
  | closed (gone : w'.pullApproval k = none)
  | granted (recorded : a.recordsApproval k) (request : RequestKey) (mandate : VelaMandate)
      (approved : Bool) (amount : UInt64)
      (spec : Approved w k w' request mandate approved amount)
      (ended : request = validationKey k mandate ∨ ∃ key report,
        w.usageReport key = some report ∧ report.periodEnd = mandate.nextPaymentDue)

structure PeriodStep (w w' : World) (k : Pubkey) (a : Action) : Prop where
  approval : ApprovalStep w w' k a
  reports : ∀ key report, w'.usageReport key = some report →
    report.periodEnd ≤ w.clock.unixTimestamp ∨
      ∃ old, w.usageReport key = some old ∧ report.periodEnd = old.periodEnd

theorem PeriodStep.of_same {w w' : World} {k : Pubkey} {a : Action}
    (approval : ApprovalStep w w' k a) (reports : SameReports w w') : PeriodStep w w' k a :=
  ⟨approval, fun key report found => .inr (reports key report found)⟩

theorem PeriodStep.of_eq {w w' : World} {k : Pubkey} {a : Action}
    (approval : w'.pullApproval = w.pullApproval) (reports : w'.usageReport = w.usageReport) :
    PeriodStep w w' k a := .of_same (.kept (congrFun approval k)) (.of_eq reports)

theorem ApprovalStep.of_reset {w w' : World} {key k : Pubkey} {a : Action} {bump : UInt8}
    (updated : w'.pullApproval =
      Function.update w.pullApproval key (some (PullApproval.reset bump))) :
    ApprovalStep w w' k a := by
  by_cases same : k = key
  · exact .cleared bump (by rw [updated, same, Function.update_self])
  · exact .kept (by rw [updated, Function.update_of_ne same])

theorem Approved.approvalStep {w w' : World} {key k : Pubkey} {a : Action}
    {request : RequestKey} {mandate : VelaMandate} {approved : Bool} {amount : UInt64}
    (recorded : a.recordsApproval key) (spec : Approved w key w' request mandate approved amount)
    (ended : request = validationKey key mandate ∨ ∃ key report,
      w.usageReport key = some report ∧ report.periodEnd = mandate.nextPaymentDue) :
    ApprovalStep w w' k a := by
  by_cases same : k = key
  · subst same
    exact .granted recorded request mandate approved amount spec ended
  · obtain ⟨_, _, _, _, updated⟩ := spec.granted
    exact .kept (by rw [updated, Function.update_of_ne same])

theorem instruction_periodStep {P : Platform} {w w' : World} {i : Instruction} (k : Pubkey)
    (h : execute P w i = .ok w') : PeriodStep w w' k (.instruction i) := by
  cases i with
  | createPlan ctx =>
    have only := createPlan_eq_ok h
    exact .of_eq only.pullApproval only.usageReport
  | createUsagePlan ctx =>
    have only := createUsagePlan_eq_ok h
    exact .of_eq only.pullApproval only.usageReport
  | updatePlan ctx =>
    have only := updatePlan_eq_ok h
    exact .of_eq only.pullApproval only.usageReport
  | updateUsagePlan ctx =>
    have only := updateUsagePlan_eq_ok h
    exact .of_eq only.pullApproval only.usageReport
  | migratePlan plan =>
    have only := migratePlan_eq_ok h
    exact .of_eq only.pullApproval only.usageReport
  | subscribe ctx =>
    obtain ⟨_, _, spec⟩ := subscribe_eq_ok h
    exact .of_eq spec.frame.pullApproval spec.frame.usageReport
  | cancel ctx =>
    have frame := (cancel_eq_ok h).1
    exact .of_eq frame.pullApproval frame.usageReport
  | adminCancel ctx =>
    have frame := (adminCancel_eq_ok h).1
    exact .of_eq frame.pullApproval frame.usageReport
  | closeMandate ctx =>
    have frame := (closeMandate_eq_ok h).1
    exact .of_eq frame.pullApproval frame.usageReport
  | migrateMandate ctx =>
    obtain ⟨_, _, spec⟩ := migrateMandate_eq_ok h
    exact .of_eq spec.frame.pullApproval spec.frame.usageReport
  | updateMandate ctx =>
    have frame := (updateMandate_eq_ok h).1
    exact .of_eq frame.pullApproval frame.usageReport
  | updateMandatePlan ctx =>
    rcases updateMandatePlan_eq_ok h with ⟨rfl, _⟩ | ⟨s, delta, priced, spec⟩
    · exact .of_eq rfl rfl
    · refine .of_same ?_ (.of_eq spec.usageReport)
      by_cases key : k = ctx.mandate
      · subst key
        cases spec.settled with
        | charged amount approval value positive approved transfers credits closed same =>
          exact .closed closed
        | credited amount value negative entry mint granted transfers credits kept balance rest =>
          exact .kept kept
        | nothing zero transfers credits kept same => exact .kept kept
      · exact .kept (spec.elsewhere.pullApproval k key)
  | schedulePlanChange ctx =>
    obtain ⟨_, _, frame, _⟩ := schedulePlanChange_eq_ok h
    exact .of_eq frame.pullApproval frame.usageReport
  | cancelPlanChange ctx =>
    obtain ⟨_, spec⟩ := cancelPlanChange_eq_ok h
    exact .of_eq spec.frame.pullApproval spec.frame.usageReport
  | requestValidation ctx =>
    obtain ⟨_, _, spec⟩ := requestValidation_eq_ok h
    exact .of_same (.of_reset spec.pullApproval) (.of_eq spec.usageReport)
  | validateMandateCallback ctx =>
    obtain ⟨_, _, _, _, spec⟩ := validateMandateCallback_eq_ok h
    exact .of_same (Approved.approvalStep rfl spec (.inl rfl)) (.of_eq spec.usageReport)
  | submitUsageReport ctx =>
    obtain ⟨report, rfl, _, _, ended⟩ := submitUsageReport_eq_ok h
    refine ⟨.kept rfl, fun other found present => ?_⟩
    by_cases same : other = (ctx.mandate, ctx.periodStart)
    · simp only [same, Function.update_self, Option.some.injEq] at present
      exact .inl (present ▸ ended)
    · simp only [Function.update_of_ne same] at present
      exact .inr ⟨found, present, rfl⟩
  | requestUsageComputation ctx =>
    obtain ⟨_, spec⟩ := requestUsageComputation_eq_ok h
    exact .of_same (.of_reset spec.pullApproval) (.of_eq spec.usageReport)
  | usageChargeCallback ctx =>
    obtain ⟨_, _, _, _, _, _, reported, spec⟩ := usageChargeCallback_eq_ok h
    exact .of_same (Approved.approvalStep rfl spec (.inr reported)) (.of_eq spec.usageReport)
  | executePull ctx =>
    obtain ⟨_, _, spec⟩ := executePull_eq_ok h
    refine .of_same ?_ spec.reports
    by_cases key : k = ctx.mandate
    · exact .closed (key ▸ spec.closed)
    · exact .kept (spec.elsewhere.pullApproval k key)
  | requestBillingRecord ctx =>
    obtain ⟨_, _, done⟩ := requestBillingRecord_eq_ok h
    exact .of_eq done.pullApproval done.usageReport
  | recordBillingEventCallback ctx =>
    obtain ⟨_, _, done⟩ := recordBillingEventCallback_eq_ok h
    exact .of_eq done.pullApproval done.usageReport

theorem periodStep {P : Platform} {w w' : World} {a : Action} (k : Pubkey) (h : Step P w a w') :
    PeriodStep w w' k a := by
  cases a with
  | instruction i => exact instruction_periodStep k h
  | tick clock =>
    obtain ⟨_, rfl⟩ := h
    exact .of_eq rfl rfl
  | environment => exact .of_eq h.pullApproval h.usageReport

section Runs

universe u

variable {γ : Type u}

def onCall (k : Pubkey) (f : γ → World → MandateCall → World → γ) :
    Monitored.Observe World Action γ :=
  fun g w a w' => (a.call k).elim g fun call => f g w call w'

/-- A restriction on the calls on the mandate at `k`; every other step is allowed. -/
def whenCall (k : Pubkey) (p : γ → World → MandateCall → World → Prop) :
    γ → World → Action → World → Prop :=
  fun g w a w' => ∀ call ∈ a.call k, p g w call w'

def AnyCall : γ → World → MandateCall → World → Prop := fun _ _ _ _ => True

instance (k : Pubkey) (p : γ → World → MandateCall → World → Prop)
    [∀ g w c w', Decidable (p g w c w')] (g : γ) (w : World) (a : Action) (w' : World) :
    Decidable (whenCall k p g w a w') :=
  inferInstanceAs (Decidable (∀ call ∈ a.call k, p g w call w'))

instance (g : γ) (w : World) (c : MandateCall) (w' : World) :
    Decidable ((AnyCall : γ → World → MandateCall → World → Prop) g w c w') := isTrue trivial

/-- Runs of the program watched at one mandate. -/
abbrev MandateRun (P : Platform) (k : Pubkey) (f : γ → World → MandateCall → World → γ)
    (p : γ → World → MandateCall → World → Prop) : World × γ → World × γ → Prop :=
  Monitored.Run (Step P) (onCall k f) (whenCall k p)

variable {P : Platform} {k : Pubkey} {f : γ → World → MandateCall → World → γ}
  {p : γ → World → MandateCall → World → Prop}

theorem watched_step {w w' : World} {g : γ} {a : Action} {Q : World → γ → Prop}
    (step : Step P w a w') (allowed : whenCall k p g w a w')
    (inert : Inert w w' k → Quiet w w' k → SameRequests w w' k → SettingStep w w' → Q w' g)
    (calls : ∀ call, MandateStep P k w w' (some call) → SettingStep w w' → p g w call w' →
      Q w' (f g w call w')) : Q w' (onCall k f g w a w') := by
  have classified := mandateStep k step
  have setting := settingStep step
  unfold onCall
  unfold whenCall at allowed
  generalize a.call k = call at classified allowed
  cases call with
  | none =>
    cases classified with
    | inert same quiet requests => exact inert same quiet requests setting
  | some call => exact calls call classified setting (allowed call rfl)

theorem mandateRun_invariant {x y : World × γ} (run : MandateRun P k f p x y)
    (I : World → γ → Prop) (initial : I x.1 x.2)
    (inert : ∀ w w' g, I w g → Inert w w' k → Quiet w w' k → SameRequests w w' k →
      SettingStep w w' → I w' g)
    (calls : ∀ w w' g call, I w g → MandateStep P k w w' (some call) → SettingStep w w' →
      p g w call w' → I w' (f g w call w')) : I y.1 y.2 :=
  Monitored.Run.invariant run I initial fun w g _ w' holds step allowed =>
    watched_step step allowed (inert w w' g holds) fun call => calls w w' g call holds

end Runs

def Action.target : Action → Option (Pubkey × MandateCall)
  | .instruction (.subscribe ctx) => some (ctx.mandate, .subscribe ctx)
  | .instruction (.migrateMandate ctx) => some (ctx.migratedMandate, .migrateMandate ctx)
  | .instruction (.updateMandatePlan ctx) => some (ctx.mandate, .updateMandatePlan ctx)
  | .instruction (.schedulePlanChange ctx) => some (ctx.mandate, .schedulePlanChange ctx)
  | .instruction (.cancelPlanChange ctx) => some (ctx.mandate, .cancelPlanChange ctx)
  | .instruction (.executePull ctx) => some (ctx.mandate, .executePull ctx)
  | .instruction (.requestValidation ctx) => some (ctx.mandate, .requestValidation ctx)
  | .instruction (.validateMandateCallback ctx) =>
    some (ctx.mandate, .validateMandateCallback ctx)
  | _ => none

theorem Action.call_target {k : Pubkey} {a : Action} {call : MandateCall}
    (h : a.call k = some call) : a.target = some (k, call) := by
  cases a with
  | instruction i =>
    cases i <;> simp only [Action.call, Action.target, Option.ite_none_right_eq_some,
      Option.some.injEq, reduceCtorEq] at h ⊢ <;> obtain ⟨rfl, rfl⟩ := h <;> rfl
  | _ => cases h

def OnEveryMandate (p : World → Pubkey → MandateCall → Prop) (w : World) (a : Action) : Prop :=
  ∀ x ∈ a.target, p w x.1 x.2

instance (p : World → Pubkey → MandateCall → Prop) [∀ w k c, Decidable (p w k c)] (w : World)
    (a : Action) : Decidable (OnEveryMandate p w a) :=
  inferInstanceAs (Decidable (∀ x ∈ a.target, p w x.1 x.2))

abbrev ProgramRun (P : Platform) (p : World → Pubkey → MandateCall → Prop) (w w' : World) : Prop :=
  Monitored.Run (Step P) (fun g _ _ _ => g) (fun _ w a _ => OnEveryMandate p w a) (w, ()) (w', ())

theorem mandates_kept {P : Platform} {w w' : World} {a : Action} {J : VelaMandate → Prop}
    {p : World → Pubkey → MandateCall → Prop} (step : Step P w a w')
    (allowed : OnEveryMandate p w a)
    (holds : ∀ k mandate, w.currentMandate k = some mandate → J mandate)
    (alike : ∀ before after, before.BilledAlike after → J before → J after)
    (subscribed : ∀ ctx plan mandate, Subscribed P w ctx w' plan mandate → J mandate)
    (migrated : ∀ ctx before after, Migrated P w ctx w' before after → J before → J after)
    (switched : ∀ ctx s delta priced, Switched P w ctx w' s delta priced →
      p w ctx.mandate (.updateMandatePlan ctx) → J (priced.switchPlan ctx.newPlan s.newPlan))
    (pulled : ∀ ctx s after, Pulled P w ctx w' s after → p w ctx.mandate (.executePull ctx) →
      J s.pull.mandate → J after) :
    ∀ k mandate, w'.currentMandate k = some mandate → J mandate := by
  intro k mandate present
  have target : ∀ call, a.call k = some call → a.target = some (k, call) :=
    fun _ => Action.call_target
  have allowed : ∀ call, a.call k = some call → p w k call := fun call called =>
    allowed (k, call) (target call called)
  have classified := mandateStep k step
  have kept : (∀ c ∈ a.call k, c.setsTerms = false) → J mandate := fun keeps => by
    obtain ⟨before, found, same⟩ := classified.terms_kept keeps present
    exact alike before mandate same (holds k before found)
  generalize a.call k = call at classified allowed kept
  cases classified with
  | subscribed ctx plan created key spec =>
    obtain rfl := Option.some.inj (spec.created.symm.trans (key ▸ present))
    exact subscribed ctx plan _ spec
  | migrated ctx before after key spec =>
    obtain rfl := Option.some.inj (spec.created.symm.trans (key ▸ present))
    exact migrated ctx before _ spec (holds _ before spec.found)
  | samePlan ctx s key checked plan unchanged => exact holds k mandate (unchanged ▸ present)
  | switched ctx s delta priced key spec =>
    subst key
    obtain rfl := Option.some.inj (spec.written.symm.trans present)
    exact switched ctx s delta priced spec (allowed _ rfl)
  | pulled ctx s after key spec =>
    subst key
    obtain rfl := Option.some.inj (spec.written.symm.trans present)
    exact pulled ctx s _ spec (allowed _ rfl) (holds _ _ spec.checked.pull.found)
  | _ => exact kept fun c called => by cases called <;> rfl

def World.signedBySubscriber (w : World) (k authority : Pubkey) : Prop :=
  (w.currentMandate k).map VelaMandate.subscriber = some authority

def World.onPlan (w : World) (k plan : Pubkey) : Prop :=
  (w.currentMandate k).map VelaMandate.plan = some plan

instance (w : World) (k authority : Pubkey) : Decidable (w.signedBySubscriber k authority) :=
  inferInstanceAs (Decidable (_ = _))

instance (w : World) (k plan : Pubkey) : Decidable (w.onPlan k plan) :=
  inferInstanceAs (Decidable (_ = _))

def World.planAmount (w : World) (key : Pubkey) : Nat :=
  ((w.plan key).map fun account => account.contents.mandateAmount.toNat).getD 0

theorem planAmount_of_load {P : Platform} {w : World} {key : Pubkey} {plan : LoadedPlanAccount}
    (load : loadPlanAccount P w key = .ok plan) : w.planAmount key = plan.mandateAmount.toNat := by
  obtain ⟨account, found, rfl, _⟩ := loadPlanAccount_eq_ok load
  simp only [World.planAmount, found, Option.map_some, Option.getD_some]

def World.planFrequency (w : World) (key : Pubkey) : Nat :=
  ((w.plan key).map fun account => account.contents.mandateFrequency.toNat).getD 0

def World.planMaxPulls (w : World) (key : Pubkey) : Nat :=
  ((w.plan key).map fun account => account.contents.maxPulls.toNat).getD 0

theorem planFrequency_of_load {P : Platform} {w : World} {key : Pubkey} {plan : LoadedPlanAccount}
    (load : loadPlanAccount P w key = .ok plan) :
    w.planFrequency key = plan.mandateFrequency.toNat := by
  obtain ⟨account, found, rfl, _⟩ := loadPlanAccount_eq_ok load
  simp only [World.planFrequency, found, Option.map_some, Option.getD_some]

theorem planMaxPulls_of_load {P : Platform} {w : World} {key : Pubkey} {plan : LoadedPlanAccount}
    (load : loadPlanAccount P w key = .ok plan) : w.planMaxPulls key = plan.maxPulls.toNat := by
  obtain ⟨account, found, rfl, _⟩ := loadPlanAccount_eq_ok load
  simp only [World.planMaxPulls, found, Option.map_some, Option.getD_some]

/-- What a pull of this mandate bills now: the amount of its plan, a due change applied, or the
charge approved for its usage. -/
def World.baseCharge (w : World) (k : Pubkey) : Nat :=
  ((w.currentMandate k).map fun mandate =>
    match mandate.billingType with
    | .flat =>
      if mandate.changeDue w.clock.unixTimestamp then w.planAmount mandate.pendingNewPlan
      else mandate.amount.toNat
    | .usage => ((w.pullApproval k).map fun approval => approval.approvedAmount.toNat).getD
        0).getD 0

def World.creditOf (w : World) (k : Pubkey) : Nat :=
  ((w.currentMandate k).map fun mandate => mandate.creditBalance.toNat).getD 0

theorem creditOf_eq {w : World} {k : Pubkey} {mandate : VelaMandate}
    (found : w.currentMandate k = some mandate) :
    w.creditOf k = mandate.creditBalance.toNat := by
  rw [World.creditOf, found, Option.map_some, Option.getD_some]

theorem creditOf_none {w : World} {k : Pubkey} (gone : w.currentMandate k = none) :
    w.creditOf k = 0 := by
  rw [World.creditOf, gone]
  rfl

theorem transferred_cons {w w' : World} {k : Pubkey} {t : TokenTransfer}
    (transfers : w'.transfersBy k = t :: w.transfersBy k) :
    w'.transferred k = w.transferred k + t.amount.toNat := by
  simp only [World.transferred, transfers, List.map_cons, List.sum_cons]
  omega

theorem Quiet.transferred {w w' : World} {k : Pubkey} (quiet : Quiet w w' k) :
    w'.transferred k = w.transferred k := by
  rw [World.transferred, World.transferred, quiet.transfersBy]

theorem Quiet.credited {w w' : World} {k : Pubkey} (quiet : Quiet w w' k) :
    w'.credited k = w.credited k := by
  rw [World.credited, World.credited, quiet.creditsTo]

theorem Pulled.transfers {P : Platform} {w w' : World} {ctx : ExecutePull} {s : Settlement}
    {after : VelaMandate} (spec : Pulled P w ctx w' s after) :
    w'.transfersBy ctx.mandate = w.transfersBy ctx.mandate ∧
        (s.chargeAmount = 0 ∨ ctx.subscriberWrappedAccount = ctx.merchantWrappedAccount) ∨
      w'.transfersBy ctx.mandate = ⟨ctx.wrappedUsdcMint, ctx.subscriberWrappedAccount,
        ctx.merchantWrappedAccount, ctx.mandate, s.chargeAmount⟩ :: w.transfersBy ctx.mandate := by
  obtain ⟨paid, outcome, _, money⟩ := spec.paid
  rw [money.transfersBy]
  cases outcome with
  | covered zero unchanged => exact .inl ⟨by rw [unchanged], .inl zero⟩
  | paid positive transferred =>
    rcases transferred.moved.transfersBy_self with ⟨same, self⟩ | ⟨grown, _⟩
    · exact .inl ⟨same, .inr self⟩
    · exact .inr grown

theorem Pulled.transferred_le {P : Platform} {w w' : World} {ctx : ExecutePull} {s : Settlement}
    {after : VelaMandate} (spec : Pulled P w ctx w' s after) :
    w'.transferred ctx.mandate ≤ w.transferred ctx.mandate + s.chargeAmount.toNat := by
  rcases spec.transfers with ⟨same, _⟩ | grown
  · simp only [World.transferred, same]
    omega
  · exact (transferred_cons grown).le

theorem Pulled.credits {P : Platform} {w w' : World} {ctx : ExecutePull} {s : Settlement}
    {after : VelaMandate} (spec : Pulled P w ctx w' s after) (k : Pubkey) :
    w'.creditsTo k = w.creditsTo k := by
  obtain ⟨paid, outcome, _, money⟩ := spec.paid
  rw [money.creditsTo, outcome.creditsTo]

theorem Settlement.chargeAmount_toNat (s : Settlement) :
    s.chargeAmount.toNat = s.base.toNat - s.terms.mandate.creditBalance.toNat :=
  chargeAfterCredit_toNat _ _

theorem Settlement.chargeAmount_le (s : Settlement) : s.chargeAmount.toNat ≤ s.base.toNat := by
  rw [s.chargeAmount_toNat]
  omega

theorem MandateStep.money {P : Platform} {k : Pubkey} {w w' : World} {call : Option MandateCall}
    (step : MandateStep P k w w' call) :
    w.transferred k ≤ w'.transferred k ∧
      (w'.credited k = w.credited k ∨ ∃ ctx s delta priced, call = some (.updateMandatePlan ctx) ∧
        ctx.mandate = k ∧ Switched P w ctx w' s delta priced) := by
  have unmoved : Quiet w w' k → w.transferred k ≤ w'.transferred k ∧
      (w'.credited k = w.credited k ∨ ∃ ctx s delta priced,
        call = some (.updateMandatePlan ctx) ∧ ctx.mandate = k ∧
          Switched P w ctx w' s delta priced) :=
    fun quiet => ⟨quiet.transferred.ge, .inl quiet.credited⟩
  cases step with
  | inert same quiet requests => exact unmoved quiet
  | subscribed ctx plan mandate key spec => exact unmoved (spec.frame.money.quiet k)
  | migrated ctx before after key spec => exact unmoved (spec.frame.money.quiet k)
  | samePlan ctx s key checked plan unchanged => exact unmoved (unchanged ▸ ⟨rfl, rfl⟩)
  | switched ctx s delta priced key spec =>
    refine ⟨?_, .inr ⟨ctx, s, delta, priced, rfl, key, spec⟩⟩
    subst key
    cases spec.settled with
    | charged amount approval value positive approved transfers credits closed same =>
      rcases transfers with ⟨same, _⟩ | grown
      · simp only [World.transferred, same, le_refl]
      · rw [transferred_cons grown]
        omega
    | credited amount value negative entry mint granted transfers credits kept balance rest =>
      simp only [World.transferred, transfers, le_refl]
    | nothing zero transfers credits kept same => simp only [World.transferred, transfers, le_refl]
  | alreadyScheduled ctx s key checked unchanged => exact unmoved (unchanged ▸ ⟨rfl, rfl⟩)
  | scheduled ctx s nonce key checked changed written frame => exact unmoved (frame.money.quiet k)
  | dropped ctx before key spec => exact unmoved (spec.frame.money.quiet k)
  | pulled ctx s after key spec =>
    subst key
    refine ⟨?_, .inl ?_⟩
    · rcases spec.transfers with ⟨same, _⟩ | grown
      · simp only [World.transferred, same, le_refl]
      · rw [transferred_cons grown]
        omega
    · simp only [World.credited, spec.credits]
  | requested ctx before plan key spec => exact unmoved (spec.money.quiet k)
  | answered ctx before result key flat output spec => exact unmoved (spec.money.quiet k)

theorem Switched.credited {P : Platform} {w w' : World} {ctx : UpdateMandatePlan} {s : PlanSwitch}
    {delta : Int}
    {priced : VelaMandate} (spec : Switched P w ctx w' s delta priced) :
    (w'.credited ctx.mandate : Int) = w.credited ctx.mandate + max 0 (-delta) := by
  cases spec.settled with
  | charged amount approval value positive approved transfers credits closed same =>
    rw [World.credited, credits, ← World.credited]
    omega
  | credited amount value negative entry mint granted transfers credits kept balance rest =>
    have grown : w'.credited ctx.mandate = amount.toNat + w.credited ctx.mandate := by
      simp only [World.credited, credits, List.map_cons, List.sum_cons, granted]
    omega
  | nothing zero transfers credits kept same =>
    rw [World.credited, credits, ← World.credited]
    omega

theorem Pulled.base_eq {P : Platform} {w w' : World} {ctx : ExecutePull} {s : Settlement}
    {after : VelaMandate}
    (spec : Pulled P w ctx w' s after) : s.base.toNat = w.baseCharge ctx.mandate := by
  have base := spec.checked.base
  have billed := spec.checked.terms
  have billingType : s.terms.plan.billingType = s.pull.mandate.billingType := by
    cases billed with
    | asIs undue mandate_eq plan_eq => rw [plan_eq, spec.checked.pull.billingType]
    | switched applied mandate_eq => exact applied.billingType
  unfold World.baseCharge
  rw [spec.checked.pull.found, Option.map_some, Option.getD_some]
  unfold baseChargeAmount at base
  rw [billingType] at base
  cases type : s.pull.mandate.billingType with
  | flat =>
    simp only [type, check, Guard.require_bind_eq_ok, Guard.pure_eq_ok] at base
    rw [← base.2]
    cases billed with
    | asIs undue mandate_eq plan_eq => rw [if_neg undue, mandate_eq]
    | switched applied mandate_eq =>
      rw [if_pos applied.due, planAmount_of_load applied.loaded, mandate_eq]
      rfl
  | usage =>
    simp only [type, check, Guard.require_bind_eq_ok, Guard.pure_eq_ok] at base
    rw [← base.2, spec.checked.approval.found, Option.map_some, Option.getD_some]

end VelaProtocol
