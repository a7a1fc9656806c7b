import VelaProtocol.Entries
import VelaProtocol.Properties.Plans
import VelaProtocol.Properties.Settlements
import VelaProtocol.Properties.Tiers
import VelaProtocol.Requests

/-! Metered billing from end to end. A merchant reports encrypted units, the cluster prices them on
terms the report commits to, a pull bills the price: nothing else gets from one to the other. -/
namespace VelaProtocol

open Guard Checked Monitored

/-- How the cluster reads the ciphertext of a number of units, and its arithmetic. -/
structure Cluster where
  decrypt : Bytes 32 → Bytes 16 → Bytes 32 → Option UInt64
  arithmetic : Arithmetic Option

def ComputationArgs.reported : ComputationArgs → Option (Bytes 32 × Bytes 16 × Bytes 32)
  | .usageCharge pubKey nonce units _ _ => some (pubKey, nonce, units)
  | .tieredPricing pubKey nonce units _ _ _ _ => some (pubKey, nonce, units)
  | .validateMandate .. | .recordBillingEvent .. => none

def Cluster.evaluate (cluster : Cluster) (args : ComputationArgs) : Option UInt64 :=
  args.reported.bind fun (pubKey, nonce, ciphertext) =>
    (cluster.decrypt pubKey nonce ciphertext).bind fun units =>
      computedCharge cluster.arithmetic units args

theorem ciphertexts_pos : 0 < maxUsageComputationCiphertexts := by decide

def Cluster.units (cluster : Cluster) (report : UsageReport) : Option UInt64 :=
  cluster.decrypt report.pubKey report.nonce
    (report.computationCiphertext.get ⟨0, ciphertexts_pos⟩)

/-- The price of a number of units. A single tier has one rate, whatever its bound. -/
def UsagePlan.price (plan : UsagePlan) (units : Nat) : Nat :=
  if plan.tierCount = 1 then
    min (units * plan.firstTier.ratePerUnit.toNat) plan.maxChargePerPeriod.toNat
  else plan.charge units

variable {P : Platform} {cluster : Cluster} {k : Pubkey} {w w' : World} {a : Action}
  {g : UsageLedger} {plan : UsagePlan} {report : UsageReport} {periodStart : Int64}

theorem capped_le (total cap : UInt64) : (if cap < total then cap else total) ≤ cap := by
  split
  · exact UInt64.le_refl cap
  · rename_i within
    exact UInt64.not_lt.mp within

theorem usageCharge_le {A : Arithmetic Option} {units rate cap charge : UInt64}
    (h : usageCharge A units rate cap = some charge) : charge ≤ cap := by
  obtain ⟨total, _, capped⟩ := Option.bind_eq_some_iff.mp h
  exact Option.some.inj capped ▸ capped_le total cap

theorem tieredPricing_le {A : Arithmetic Option} {units cap charge : UInt64}
    {boundaries rates : Vector UInt64 5} {tierCount : UInt8}
    (h : tieredPricing A units boundaries rates tierCount cap = some charge) : charge ≤ cap := by
  rw [tieredPricing_loop] at h
  obtain ⟨total, _, capped⟩ := Option.bind_eq_some_iff.mp h
  exact Option.some.inj capped ▸ capped_le total cap

theorem Priced.single_rate (priced : Priced plan) (single : plan.tierCount = 1) :
    plan.firstTier.ratePerUnit ≤ maxSafeUsageRatePerUnit := by
  have bounds := priced.bounds
  simp only [validateUsagePricingBounds, check, require_bind_eq_ok, require_eq_ok] at bounds
  rw [activeTiers_single single] at bounds
  exact (bounds.2 _ (List.mem_singleton_self _)).1

theorem evaluate_single (single : plan.tierCount = 1) :
    cluster.evaluate (usageArgs plan report) = (cluster.units report).bind fun units =>
      usageCharge cluster.arithmetic units plan.firstTier.ratePerUnit plan.maxChargePerPeriod := by
  rw [usageArgs, if_pos single]
  rfl

theorem evaluate_tiers (several : plan.tierCount ≠ 1) :
    cluster.evaluate (usageArgs plan report) =
      (cluster.units report).bind fun units => plan.circuitCharge cluster.arithmetic units := by
  rw [usageArgs, if_neg several]
  rfl

theorem evaluate_usageArgs {charge : UInt64} (priced : Priced plan)
    (h : cluster.evaluate (usageArgs plan report) = some charge) :
    charge ≤ plan.maxChargePerPeriod ∧ ∃ units, cluster.units report = some units ∧
      (units ≤ maxSafeUsageUnits → charge.toNat = plan.price units.toNat) := by
  unfold UsagePlan.price
  by_cases single : plan.tierCount = 1
  · rw [evaluate_single single] at h
    obtain ⟨units, decrypted, charged⟩ := Option.bind_eq_some_iff.mp h
    refine ⟨usageCharge_le charged, units, decrypted, fun few => ?_⟩
    obtain ⟨exact, computed, value⟩ := usageCharge_eq cluster.arithmetic few
      (priced.single_rate single) plan.maxChargePerPeriod
    obtain rfl := Option.some.inj (charged.symm.trans computed)
    rw [if_pos single, value]
  · rw [evaluate_tiers single] at h
    obtain ⟨units, decrypted, charged⟩ := Option.bind_eq_some_iff.mp h
    refine ⟨tieredPricing_le charged, units, decrypted, fun few => ?_⟩
    obtain ⟨exact, value, computed⟩ := priced.charges cluster.arithmetic few
    obtain rfl := Option.some.inj (charged.symm.trans (computed _ _ plan.fills_self).1)
    rw [if_neg single, value]

def LogEntry.queued : LogEntry → Option QueuedComputation
  | .queueComputation q => some q
  | _ => none

def World.queued (w : World) : List QueuedComputation := w.log.filterMap LogEntry.queued

theorem queued_stays (step : Step P w a w') {q : QueuedComputation} (queued : q ∈ w.queued) :
    q ∈ w'.queued := by
  have grows : ∃ new, w'.log = new ++ w.log := by
    cases a with
    | instruction i =>
      obtain ⟨new, log, _⟩ := billing_logs w' step
      exact ⟨new, log⟩
    | tick clock =>
      obtain ⟨_, rfl⟩ := step
      exact ⟨[], rfl⟩
    | environment => exact ⟨[], step.log⟩
  obtain ⟨new, log⟩ := grows
  rw [World.queued, log, List.filterMap_append]
  exact List.mem_append_right _ queued

/-- An output that comes under an account is the one of what is queued there. -/
def Computes (P : Platform) (cluster : Cluster) (w : World) (a : Action) : Prop :=
  ∀ ctx charge, a = .instruction (.usageChargeCallback ctx) → ctx.output = some charge →
    ∀ q ∈ w.queued, ∀ clusterId,
      ctx.accounts.computationAccount = deriveComputationPubkey P clusterId q.computationOffset →
        cluster.evaluate q.args = some charge

/-- Runs with a cluster that computes what it is queued, in which no mandate is made a usage
mandate over an outstanding approval. -/
abbrev MeteredRun (P : Platform) (cluster : Cluster) (k : Pubkey) :
    World × UsageLedger → World × UsageLedger → Prop :=
  Run (Step P) (watchUsage k) fun g w a w' =>
    whenCall k (ApprovedAsUsage k) g w a w' ∧ Computes P cluster w a

/-- The report of a period and terms it commits to, which the validators of plans accept. -/
structure Quoted (P : Platform) (w : World) (k : Pubkey) (periodStart : Int64)
    (report : UsageReport) (plan : UsagePlan) : Prop where
  stored : w.usageReport (k, periodStart) = some report
  sound : plan.Sound
  committed : ∃ key, report.computationCiphertext[1] = usagePlanTermsHashFromParts P key
    plan.merchant plan.planId plan.tiers plan.tierCount plan.maxChargePerPeriod
    plan.settlementFrequency

def Charged (P : Platform) (cluster : Cluster) (w : World) (k : Pubkey) (periodStart : Int64)
    (charge : Nat) : Prop :=
  ∃ report plan amount, Quoted P w k periodStart report plan ∧
    cluster.evaluate (usageArgs plan report) = some amount ∧ amount.toNat = charge

theorem Quoted.step (quoted : Quoted P w k periodStart report plan) (step : Step P w a w') :
    ∃ report', Quoted P w' k periodStart report' plan ∧
      usageArgs plan report' = usageArgs plan report := by
  obtain ⟨stored, sound, committed⟩ := quoted
  rcases report_step step stored with same | ⟨_, _, _, _, settled⟩
  · exact ⟨report, ⟨same, sound, committed⟩, rfl⟩
  · exact ⟨{ report with settled := true }, ⟨settled, sound, committed⟩, rfl⟩

theorem Charged.step {charge : Nat} (charged : Charged P cluster w k periodStart charge)
    (step : Step P w a w') : Charged P cluster w' k periodStart charge := by
  obtain ⟨report, plan, amount, quoted, computed, value⟩ := charged
  obtain ⟨report', quoted', same⟩ := quoted.step step
  exact ⟨report', plan, amount, quoted', same ▸ computed, value⟩

def World.plansSound (w : World) : Prop :=
  ∀ key account, w.plan key = some account → account.contents.Sound

theorem plansSound_step (sound : w.plansSound) (step : Step P w a w') : w'.plansSound := by
  cases a with
  | instruction i =>
    have catalogued := (protocol_catalogue (i := .billing i) w' step).catalogued
    intro key account found
    cases before : w.plan key with
    | none => exact (catalogued.added key account before found).sound
    | some old =>
      obtain ⟨after, present, kept⟩ := catalogued.kept key old before
      obtain rfl := Option.some.inj (present.symm.trans found)
      exact kept.sound (sound key old before)
  | tick clock =>
    obtain ⟨_, rfl⟩ := step
    exact sound
  | environment =>
    intro key account found
    exact sound key account (step.plan ▸ found)

theorem anchorUsagePlan_sound {key : Pubkey} (sound : w.plansSound)
    (h : anchorUsagePlan w key = .ok plan) : plan.Sound := by
  obtain ⟨account, found, h⟩ := orError_bind_eq_ok.mp h
  have terms := sound key account found
  cases contents : account.contents with
  | usage p =>
    rw [contents] at h terms
    cases h
    exact terms
  | legacyUsage p =>
    rw [contents] at h terms
    obtain ⟨_, h⟩ := require_bind_eq_ok.mp h
    cases h
    exact ⟨⟨terms.priced.count, terms.priced.boundaries, terms.priced.bounds⟩, terms.cap,
      terms.frequency⟩
  | flat p =>
    rw [contents] at h
    cases h
  | legacyFlat p =>
    rw [contents] at h
    cases h

/-- Behind every pending request there is a computation on the report of its period. -/
def RequestsQuoted (P : Platform) (w : World) (k : Pubkey) : Prop :=
  ∀ periodStart : Int64, ∀ request,
    w.requestState (.usageComputation, k, periodStart.toBitVec) = some request →
      request.status = .pending → ∃ q ∈ w.queued, ∃ report plan,
        q.computationOffset = request.computationOffset ∧ q.args = usageArgs plan report ∧
          Quoted P w k periodStart report plan

theorem checkUsageRequest_report {ctx : RequestUsageComputation} {r : UsageRequest}
    (h : checkUsageRequest P w ctx = .ok r) :
    anchorUsagePlan w ctx.usagePlan = .ok r.usagePlan ∧
      w.usageReport (ctx.mandate, ctx.reportPeriodStart) = some r.report ∧
      r.report.periodStart = ctx.reportPeriodStart := by
  simp only [checkUsageRequest, anchorUsageReport, check, orHost, bind_eq_ok, orError_eq_ok,
    require_eq_ok, pure_eq_ok, exists_const] at h
  obtain ⟨plan, anchored, _, report, ⟨_, stored, seed, _, rfl⟩, _, _, _, _, _, _, _, _, _, _, _, _,
    rfl⟩ := h
  exact ⟨anchored, stored, seed⟩

theorem checkUsageTerms_committed {ctx : RequestUsageComputation} {u : Unit}
    (h : checkUsageTerms P ctx plan report = .ok u) : ∃ key,
      report.computationCiphertext[1] = usagePlanTermsHashFromParts P key plan.merchant plan.planId
        plan.tiers plan.tierCount plan.maxChargePerPeriod plan.settlementFrequency := by
  simp only [checkUsageTerms, check, bind_eq_ok, require_eq_ok, exists_const] at h
  obtain ⟨_, _, _, _, committed⟩ := h
  exact ⟨ctx.usagePlan, committed⟩

theorem requestUsageComputation_quoted {ctx : RequestUsageComputation} (sound : w.plansSound)
    (h : requestUsageComputation P w ctx = .ok w') : ∃ q report plan request,
      q ∈ w'.queued ∧ q.computationOffset = request.computationOffset ∧
        q.args = usageArgs plan report ∧
        Quoted P w' ctx.mandate ctx.reportPeriodStart report plan ∧
        w'.requestState = Function.update w.requestState
          (.usageComputation, ctx.mandate, ctx.reportPeriodStart.toBitVec) (some request) := by
  simp only [requestUsageComputation, check, orVela, bind_eq_ok, orError_eq_ok, require_eq_ok,
    pure_eq_ok, exists_const] at h
  obtain ⟨r, checked, _, _, nonce, _, _, _, _, terms, _, _, _, w₁, started, rfl⟩ := h
  obtain ⟨anchored, stored, seed⟩ := checkUsageRequest_report checked
  obtain ⟨_, rfl⟩ := startRequest_eq_ok started
  refine ⟨_, r.report, r.usagePlan, ?request, List.mem_cons_self, ?offset, rfl,
    ⟨stored, anchorUsagePlan_sound sound anchored, checkUsageTerms_committed terms⟩, ?state⟩
  case state =>
    rw [← seed]
    rfl
  case offset => rfl

theorem starts_usage {a : Action} {subject : Bytes 8} {accounts : QueueAccounts}
    (h : a.starts = some ((.usageComputation, k, subject), accounts)) :
    ∃ ctx, a = .instruction (.requestUsageComputation ctx) := by
  cases a with
  | instruction i =>
    cases i with
    | requestUsageComputation ctx => exact ⟨ctx, rfl⟩
    | requestValidation ctx => simp [Action.starts] at h
    | requestBillingRecord ctx => simp [Action.starts] at h
    | _ => cases h
  | tick clock => cases h
  | environment => cases h

theorem pending_before {subject : Bytes 8} {request : ArciumRequestState} (step : Step P w a w')
    (other : ¬∃ ctx, a = .instruction (.requestUsageComputation ctx))
    (found : w'.requestState (.usageComputation, k, subject) = some request)
    (pending : request.status = .pending) :
    w.requestState (.usageComputation, k, subject) = some request := by
  have classified := requestStep step
  generalize starts : a.starts = started at classified
  generalize a.answers w = answered at classified
  cases classified with
  | kept same => exact same ▸ found
  | started x accounts before after spec =>
    have apart : (ArciumRequestFlow.usageComputation, k, subject) ≠ x.key := by
      intro same
      rw [← same] at starts
      exact other (starts_usage starts)
    rwa [spec.stored, Function.update_of_ne apart] at found
  | answered key accounts request' spec =>
    obtain ⟨completedAt, stored⟩ := spec.stored
    by_cases same : (ArciumRequestFlow.usageComputation, k, subject) = key
    · rw [stored, same, Function.update_self, Option.some.injEq] at found
      rw [← found] at pending
      cases pending
    · rwa [stored, Function.update_of_ne same] at found

theorem RequestsQuoted.step (quoted : RequestsQuoted P w k) (sound : w.plansSound)
    (step : Step P w a w') : RequestsQuoted P w' k := by
  intro periodStart request found pending
  -- a computation that was there before still is, on the same report
  have known (before : w.requestState (.usageComputation, k, periodStart.toBitVec) =
      some request) : ∃ q ∈ w'.queued, ∃ report plan,
        q.computationOffset = request.computationOffset ∧ q.args = usageArgs plan report ∧
          Quoted P w' k periodStart report plan := by
    obtain ⟨q, queued, report, plan, offset, args, quote⟩ :=
      quoted periodStart request before pending
    obtain ⟨report', quote', same⟩ := quote.step step
    exact ⟨q, queued_stays step queued, report', plan, offset, args.trans same.symm, quote'⟩
  by_cases usage : ∃ ctx, a = .instruction (.requestUsageComputation ctx)
  · obtain ⟨ctx, rfl⟩ := usage
    obtain ⟨q, report, plan, request', queued, offset, args, quote, stored⟩ :=
      requestUsageComputation_quoted sound step
    rw [stored] at found
    by_cases same : (ArciumRequestFlow.usageComputation, k, periodStart.toBitVec) =
        (.usageComputation, ctx.mandate, ctx.reportPeriodStart.toBitVec)
    · rw [same, Function.update_self, Option.some.injEq] at found
      simp only [Prod.mk.injEq, Int64.toBitVec_inj, true_and] at same
      obtain ⟨rfl, rfl⟩ := same
      exact ⟨q, queued, report, plan, found ▸ offset, args, quote⟩
    · rw [Function.update_of_ne same] at found
      exact known found
  · exact known (pending_before step usage found pending)

theorem callback_charged {ctx : UsageComputationCallback} {charge : UInt64}
    (quoted : RequestsQuoted P w ctx.mandate) (step : usageChargeCallback P w ctx = .ok w')
    (computes : Computes P cluster w (.instruction (.usageChargeCallback ctx)))
    (output : ctx.output = some charge) :
    Charged P cluster w ctx.mandate ctx.reportPeriodStart charge.toNat := by
  obtain ⟨request, spec⟩ := usageChargeCallback_answered step
  obtain ⟨clusterId, computation⟩ := spec.computation
  obtain ⟨q, queued, report, plan, offset, args, quote⟩ :=
    quoted ctx.reportPeriodStart request spec.pending spec.status
  have evaluated := computes ctx charge rfl output q queued clusterId (offset ▸ computation)
  exact ⟨report, plan, charge, quote, args ▸ evaluated, rfl⟩

/-- What holds of a usage mandate between reports and pulls, while the cluster computes. -/
structure MeterKept (P : Platform) (cluster : Cluster) (k : Pubkey) (w : World) (g : UsageLedger) :
    Prop where
  kept : UsageKept k w g
  plans : w.plansSound
  requests : RequestsQuoted P w k
  recorded : ∀ periodStart charge, g.recorded = some (periodStart, charge) →
    Charged P cluster w k periodStart charge
  pulls : ∀ pull ∈ g.pulls, Charged P cluster w k pull.periodStart pull.base

theorem MeterKept.recorded_step (metered : MeterKept P cluster k w g) (step : Step P w a w')
    (computes : Computes P cluster w a) {charge : Nat}
    (records : (watchUsage k g w a w').recorded = some (periodStart, charge)) :
    Charged P cluster w' k periodStart charge := by
  refine Charged.step ?_ step
  by_cases recording : a.recordsApproval k
  · unfold Action.recordsApproval at recording
    split at recording
    · rename_i ctx
      simp only [watchUsage, if_pos recording] at records
      cases records
    · rename_i ctx
      subst recording
      simp only [watchUsage, if_true, Option.map_eq_some_iff, Prod.mk.injEq] at records
      obtain ⟨output, given, rfl, rfl⟩ := records
      exact callback_charged metered.requests step computes given
    · exact recording.elim
  · rw [watchUsage_recorded recording] at records
    exact metered.recorded periodStart charge records

theorem watchUsage_pull {pull : UsagePull} (member : pull ∈ (watchUsage k g w a w').pulls) :
    pull ∈ g.pulls ∨ pull.recorded = g.recorded := by
  by_cases own : ∃ ctx, a = .instruction (.executePull ctx) ∧ ctx.mandate = k
  · obtain ⟨ctx, rfl, rfl⟩ := own
    simp only [watchUsage, if_true, List.mem_append, Option.mem_toList] at member
    rcases member with new | old
    · refine .inr ?_
      unfold usagePull at new
      obtain ⟨mandate, _, new⟩ := Option.bind_eq_some_iff.mp new
      split at new
      · obtain ⟨period, _, new⟩ := Option.bind_eq_some_iff.mp new
        obtain ⟨after, _, rfl⟩ := Option.map_eq_some_iff.mp new
        rfl
      · cases new
    · exact .inl old
  · rw [watchUsage_pulls fun ctx pull key => own ⟨ctx, pull, key⟩] at member
    exact .inl member

theorem MeterKept.step (metered : MeterKept P cluster k w g) (step : Step P w a w')
    (allowed : whenCall k (ApprovedAsUsage k) g w a w') (computes : Computes P cluster w a) :
    MeterKept P cluster k w' (watchUsage k g w a w') := by
  have kept := usageKept_step metered.kept step allowed
  refine ⟨kept, plansSound_step metered.plans step, metered.requests.step metered.plans step,
    fun _ _ records => metered.recorded_step step computes records, fun pull member => ?_⟩
  rcases watchUsage_pull member with old | new
  · exact (metered.pulls pull old).step step
  · have recorded := (kept.charges pull member).1
    exact (metered.recorded _ _ (new ▸ recorded)).step step

/-- What a usage pull bills is the price of the units reported for its period, on terms the report
commits to, and never more than their cap. -/
theorem usage_pulls_priced {w₀ : World} (fresh : Fresh w₀) (sound : w₀.plansSound)
    (run : MeteredRun P cluster k (w₀, ⟨none, []⟩) (w, g)) {pull : UsagePull}
    (settled : pull ∈ g.pulls) : ∃ report plan units,
      Quoted P w k pull.periodStart report plan ∧ report.settled = true ∧
        cluster.units report = some units ∧
        pull.base ≤ plan.maxChargePerPeriod.toNat ∧
        (units ≤ maxSafeUsageUnits → pull.base = plan.price units.toNat) := by
  have start : MeterKept P cluster k w₀ ⟨none, []⟩ := by
    refine ⟨fresh.usageKept, sound, fun periodStart request found => ?_, fun _ _ none => ?_, ?_⟩
    · exact absurd (found.symm.trans (fresh.requests _)) (Option.some_ne_none request)
    · cases none
    · exact fun pull none => absurd none List.not_mem_nil
  have metered := run.invariant (MeterKept P cluster k) start
    fun _ _ _ _ metered step allowed => metered.step step allowed.1 allowed.2
  obtain ⟨report, plan, amount, quoted, evaluated, value⟩ := metered.pulls pull settled
  obtain ⟨within, units, reported, priced⟩ := evaluate_usageArgs quoted.sound.priced evaluated
  obtain ⟨report', stored, done⟩ :=
    (metered.kept.reports pull.periodStart).mp (List.mem_map_of_mem settled)
  obtain rfl := Option.some.inj (quoted.stored.symm.trans stored)
  refine ⟨report, plan, units, quoted, done, reported, value ▸ le_iff.mp within, fun few => ?_⟩
  exact value.symm.trans (priced few)

open Deployment

def plainCluster : Cluster where
  decrypt _ _ units := some (.ofBitVec (units.setWidth 64))
  arithmetic := .checked

def Action.usageOutput : Action → Option (Option UInt64)
  | .instruction (.usageChargeCallback ctx) => some ctx.output
  | _ => none

def ComputesQueued (g : UsageLedger) (w : World) (a : Action) (w' : World) : Prop :=
  whenCall Deployment.mandate (ApprovedAsUsage Deployment.mandate) g w a w' ∧
    ∀ output ∈ a.usageOutput, ∀ q ∈ w.queued, plainCluster.evaluate q.args = output

instance (g : UsageLedger) (w : World) (a : Action) (w' : World) :
    Decidable (ComputesQueued g w a w') :=
  inferInstanceAs (Decidable
    (whenCall Deployment.mandate (ApprovedAsUsage Deployment.mandate) g w a w' ∧
      ∀ output ∈ a.usageOutput, ∀ q ∈ w.queued, plainCluster.evaluate q.args = output))

theorem ComputesQueued.computes (computes : ComputesQueued g w a w') :
    whenCall Deployment.mandate (ApprovedAsUsage Deployment.mandate) g w a w' ∧
      Computes platform plainCluster w a := by
  refine ⟨computes.1, ?_⟩
  rintro ctx charge rfl output q queued _ _
  exact (computes.2 _ rfl q queued).trans output

def usageOf120 : SubmitUsageReport where
  merchant := merchant
  mandate := Deployment.mandate
  usagePlan := usagePlan 0
  periodStart := 0
  periodEnd := 3600
  computationCiphertext := [120]
  nonce := 0
  pubKey := 0

def pricedPeriod : List Action :=
  [.instruction (.createUsagePlan (metered [⟨100, 3, 0⟩, ⟨0, 2, 0⟩])),
    .instruction (.subscribe (subscription (usagePlan 0) mintA)), tick 3600,
    .instruction (.submitUsageReport usageOf120),
    .instruction (.requestUsageComputation {
      payer := keeper
      usagePlan := usagePlan 0
      mandate := Deployment.mandate
      reportPeriodStart := 0
      accounts := queueAccounts .tieredPricing
        (deriveUsageComputationOffset platform Deployment.mandate 0 1)
      requestedComputationOffset :=
        deriveUsageComputationOffset platform Deployment.mandate 0 1 }),
    answerUsage 0 1 340, pull (usagePlan 0) mintA [reportAccount 0]]

theorem usage_pulls_priced_tiers : ∃ w g report plan units,
    g.pulls = [⟨0, 340, some (0, 340), 1000⟩] ∧
      MeteredRun platform plainCluster Deployment.mandate (world 0, ⟨none, []⟩) (w, g) ∧
      Quoted platform w Deployment.mandate 0 report plan ∧
      plainCluster.units report = some units ∧
      (units ≤ maxSafeUsageUnits → 340 = plan.price units.toNat) := by
  have played : (play (applyAction platform) (watchUsage Deployment.mandate) ComputesQueued
      (world 0, ⟨none, []⟩) pricedPeriod).any
        (fun x => x.2.pulls = [⟨0, 340, some (0, 340), 1000⟩]) = true := by
    decide +kernel
  rw [Option.any_eq_true] at played
  obtain ⟨⟨w, g⟩, played, ok⟩ := played
  have pulls : g.pulls = [⟨0, 340, some (0, 340), 1000⟩] := of_decide_eq_true ok
  have run : MeteredRun platform plainCluster Deployment.mandate (world 0, ⟨none, []⟩) (w, g) :=
    (play_run (fun _ _ _ => applyAction_step) played).weaken fun _ _ _ _ => ComputesQueued.computes
  have sound : (world 0).plansSound := fun key account found => by cases found
  have settled : ⟨0, 340, some (0, 340), 1000⟩ ∈ g.pulls := by
    rw [pulls]
    exact List.mem_cons_self
  obtain ⟨report, plan, units, quoted, _, reported, _, priced⟩ :=
    usage_pulls_priced (world_fresh 0) sound run settled
  exact ⟨w, g, report, plan, units, pulls, run, quoted, reported, priced⟩

end VelaProtocol
