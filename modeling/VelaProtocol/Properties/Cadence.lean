import VelaProtocol.Deployment
import VelaProtocol.Lib.Schedule

/-! How many pulls the terms the subscriber signed allow by a given time. Consent is decided from
the amount alone, while frequency and pull limit come with every plan. -/
namespace VelaProtocol

/-- The terms last signed, as of their signing, and the pulls collected since. -/
structure Allowance where
  due : Int
  pulls : Nat
  frequency : Nat
  maxPulls : Nat
  expiry : Int
  collected : Nat

def Allowance.of (mandate : VelaMandate) : Allowance where
  due := mandate.nextPaymentDue.toInt
  pulls := mandate.pullsExecuted.toNat
  frequency := mandate.frequency.toNat
  maxPulls := mandate.maxPulls.toNat
  expiry := mandate.expiry.toInt
  collected := 0

def Allowance.none : Allowance := ⟨0, 0, 0, 0, 0, 0⟩

def World.signedTerms (w : World) (k : Pubkey) (old : Allowance) : Allowance :=
  ((w.currentMandate k).map Allowance.of).getD old

def Allowance.horizon (a : Allowance) (t : Int) : Int :=
  if 0 < a.expiry then min t (a.expiry - 1) else t

/-- The pulls the signed terms allow by `t`. -/
def Allowance.capacity (a : Allowance) (t : Int) : Nat :=
  min (a.maxPulls - a.pulls) (Schedule.countBy a.due a.frequency (a.horizon t))

/-- A schedule the subscriber signs allows the faster cadence and the higher limit of the two. -/
def watchTerms (k : Pubkey) (a : Allowance) (w : World) (call : MandateCall) (w' : World) :
    Allowance :=
  match call with
  | .subscribe _ => w'.signedTerms k a
  | .migrateMandate _ => w'.signedTerms k a
  | .updateMandatePlan ctx =>
    if w.signedBySubscriber k ctx.authority ∧ ¬w.onPlan k ctx.newPlan then w'.signedTerms k a else a
  | .schedulePlanChange ctx =>
    if w.signedBySubscriber k ctx.authority then
      { a with
        frequency := min a.frequency (w.planFrequency ctx.newPlan)
        maxPulls := max a.maxPulls (w.planMaxPulls ctx.newPlan) }
    else a
  | .executePull _ => { a with collected := a.collected + 1 }
  | _ => a

def World.planWithin (w : World) (a : Allowance) (key : Pubkey) : Prop :=
  a.frequency ≤ w.planFrequency key ∧ w.planMaxPulls key ≤ a.maxPulls

instance (w : World) (a : Allowance) (key : Pubkey) : Decidable (w.planWithin a key) :=
  inferInstanceAs (Decidable (_ ∧ _))

/-- A plan the subscriber does not sign for at that moment stays within the signed terms. -/
def KeepsCadence (k : Pubkey) (a : Allowance) (w : World) (call : MandateCall) (_ : World) :
    Prop :=
  match call with
  | .updateMandatePlan ctx => w.onPlan k ctx.newPlan ∨ w.signedBySubscriber k ctx.authority ∨
      w.planWithin a ctx.newPlan
  | .executePull _ => ∀ mandate ∈ w.currentMandate k,
      mandate.changeDue w.clock.unixTimestamp → w.planWithin a mandate.pendingNewPlan
  | _ => True

instance (k : Pubkey) (a : Allowance) (w : World) (call : MandateCall) (w' : World) :
    Decidable (KeepsCadence k a w call w') := by
  refine call.casesOn ?_ ?_ ?_ ?_ ?_ ?_ ?_ ?_ <;> intro _ <;> dsimp only [KeepsCadence] <;>
    infer_instance

structure OnCadence (mandate : VelaMandate) (a : Allowance) : Prop where
  positive : 0 < a.frequency
  frequency : a.frequency ≤ mandate.frequency.toNat
  maxPulls : mandate.maxPulls.toNat ≤ a.maxPulls
  pulls : mandate.pullsExecuted.toNat = a.pulls + a.collected
  due : a.due + a.collected * a.frequency ≤ mandate.nextPaymentDue.toInt
  expiry : a.expiry = mandate.expiry.toInt

/-- What was collected is within the capacity by now. -/
structure CadenceKept (k : Pubkey) (w : World) (a : Allowance) : Prop where
  positive : 0 < a.collected → 0 < a.frequency
  mandate : ∀ mandate, w.currentMandate k = some mandate → OnCadence mandate a
  collected : a.collected ≤ a.capacity w.clock.unixTimestamp.toInt

variable {P : Platform} {k : Pubkey} {w w' : World} {a : Allowance}

theorem Allowance.capacity_mono {t t' : Int} (positive : 0 < a.frequency) (le : t ≤ t') :
    a.capacity t ≤ a.capacity t' := by
  have horizon : a.horizon t ≤ a.horizon t' := by
    unfold Allowance.horizon
    split <;> omega
  have counted := Schedule.countBy_mono a.due positive horizon
  unfold Allowance.capacity
  omega

theorem OnCadence.of {mandate : VelaMandate} (positive : 0 < mandate.frequency) :
    OnCadence mandate (.of mandate) := by
  refine ⟨Checked.lt_iff.mp positive, le_refl _, le_refl _, rfl, ?_, rfl⟩
  simp [Allowance.of]

theorem CadenceKept.signed {mandate : VelaMandate} {old : Allowance}
    (present : w.currentMandate k = some mandate) (positive : 0 < mandate.frequency) :
    CadenceKept k w (w.signedTerms k old) := by
  have terms : w.signedTerms k old = .of mandate := by
    rw [World.signedTerms, present, Option.map_some, Option.getD_some]
  rw [terms]
  refine ⟨fun some => absurd some (lt_irrefl _), fun found same => ?_, Nat.zero_le _⟩
  obtain rfl := Option.some.inj (present.symm.trans same)
  exact OnCadence.of positive

theorem CadenceKept.vacant (gone : w.currentMandate k = none) :
    CadenceKept k w (w.signedTerms k .none) := by
  have terms : w.signedTerms k .none = .none := by
    rw [World.signedTerms, gone]
    rfl
  rw [terms]
  exact ⟨fun some => absurd some (lt_irrefl _), fun _ same => absurd (same.symm.trans gone) nofun,
    Nat.zero_le _⟩

theorem CadenceKept.collected_by (kept : CadenceKept k w a) {t : Int}
    (later : w.clock.unixTimestamp.toInt ≤ t) : a.collected ≤ a.capacity t := by
  by_cases some : 0 < a.collected
  · exact le_trans kept.collected (Allowance.capacity_mono (kept.positive some) later)
  · omega

theorem CadenceKept.moved (kept : CadenceKept k w a) (setting : SettingStep w w')
    (cadence : ∀ after, w'.currentMandate k = some after → OnCadence after a) :
    CadenceKept k w' a := by
  exact ⟨kept.positive, cadence, kept.collected_by (Checked.le_iff_int.mp setting.clock)⟩

theorem OnCadence.alike {before after : VelaMandate} (cadence : OnCadence before a)
    (same : before.BilledAlike after) : OnCadence after a := by
  rw [same.rest]
  exact ⟨cadence.positive, cadence.frequency, cadence.maxPulls, cadence.pulls, cadence.due,
    cadence.expiry⟩

theorem CadenceKept.alike (kept : CadenceKept k w a) (setting : SettingStep w w')
    (alike : ∀ after, w'.currentMandate k = some after →
      ∃ before, w.currentMandate k = some before ∧ before.BilledAlike after) :
    CadenceKept k w' a := by
  refine kept.moved setting fun after present => ?_
  obtain ⟨before, found, same⟩ := alike after present
  exact (kept.mandate before found).alike same

theorem CadenceKept.widen {frequency maxPulls : Nat} (kept : CadenceKept k w a)
    (positive : 0 < frequency) : CadenceKept k w
      { a with frequency := min a.frequency frequency, maxPulls := max a.maxPulls maxPulls } := by
  have counted (faster : 0 < a.frequency) : a.collected ≤
      ({ a with frequency := min a.frequency frequency, maxPulls := max a.maxPulls maxPulls } :
        Allowance).capacity w.clock.unixTimestamp.toInt := by
    have collected := kept.collected
    have more := Schedule.countBy_anti a.due (a.horizon w.clock.unixTimestamp.toInt)
      (lt_min faster positive) (Nat.min_le_left _ _)
    unfold Allowance.capacity at collected ⊢
    simp only [Allowance.horizon] at collected more ⊢
    omega
  refine ⟨fun some => lt_min (kept.positive some) positive, fun mandate found => ?_, ?_⟩
  · have cadence := kept.mandate mandate found
    have due := cadence.due
    have slower : (a.collected : Int) * (min a.frequency frequency : Nat) ≤
        a.collected * a.frequency := by
      exact_mod_cast Nat.mul_le_mul_left a.collected (Nat.min_le_left _ _)
    refine ⟨lt_min cadence.positive positive, le_trans (Nat.min_le_left _ _) cadence.frequency,
      le_trans cadence.maxPulls (Nat.le_max_left _ _), cadence.pulls, ?_, cadence.expiry⟩
    show a.due + a.collected * (min a.frequency frequency : Nat) ≤ _
    omega
  · show a.collected ≤ _
    by_cases some : 0 < a.collected
    · exact counted (kept.positive some)
    · omega

theorem inert_cadence (kept : CadenceKept k w a) (same : Inert w w' k)
    (setting : SettingStep w w') : CadenceKept k w' a :=
  kept.alike setting fun _ => same.alike

theorem billed_cadence {mandate : VelaMandate} {plan : LoadedPlanAccount} {terms : BilledTerms}
    (billed : TermsBilled P w mandate plan terms) (cadence : OnCadence mandate a)
    (within : mandate.changeDue w.clock.unixTimestamp → w.planWithin a mandate.pendingNewPlan) :
    OnCadence terms.mandate a := by
  cases billed with
  | asIs undue mandate_eq plan_eq => rwa [mandate_eq]
  | switched applied mandate_eq =>
    obtain ⟨slower, fewer⟩ := within applied.due
    rw [planFrequency_of_load applied.loaded] at slower
    rw [planMaxPulls_of_load applied.loaded] at fewer
    rw [mandate_eq]
    exact ⟨cadence.positive, slower, fewer, cadence.pulls, cadence.due, cadence.expiry⟩

theorem pull_cadence {ctx : ExecutePull} {s : Settlement} {after : VelaMandate}
    (kept : CadenceKept ctx.mandate w a) (spec : Pulled P w ctx w' s after)
    (keeps : KeepsCadence ctx.mandate a w (.executePull ctx) w') :
    CadenceKept ctx.mandate w' { a with collected := a.collected + 1 } := by
  have found := spec.checked.pull.found
  have cadence := kept.mandate _ found
  have billed := billed_cadence spec.checked.terms cadence (keeps _ found)
  have clock : w'.clock = w.clock := spec.frame.clock
  have due : after.nextPaymentDue.toInt =
      s.terms.mandate.nextPaymentDue.toInt + s.terms.mandate.frequency.toNat := spec.advanced.due
  have pulls : after.pullsExecuted.toNat = s.terms.mandate.pullsExecuted.toNat + 1 :=
    spec.advanced.pulls
  refine ⟨fun _ => cadence.positive, fun mandate present => ?_, ?_⟩
  · obtain rfl := Option.some.inj (spec.written.symm.trans present)
    have moved := billed.due
    have step := billed.frequency
    have counted := billed.pulls
    have longer : (a.collected + 1 : Int) * a.frequency = a.collected * a.frequency + a.frequency :=
      by ring
    refine ⟨cadence.positive, ?_, ?_, ?_, ?_, ?_⟩
    · rw [spec.advanced.rest]
      exact billed.frequency
    · rw [spec.advanced.rest]
      exact billed.maxPulls
    · rw [pulls, counted]
      rfl
    · push_cast
      rw [due, longer]
      omega
    · rw [spec.advanced.rest]
      exact billed.expiry
  · -- the due date has come, the limit is not reached and the mandate is not expired
    have now := Checked.le_iff_int.mp spec.checked.pull.due
    have limit := Checked.lt_iff.mp spec.checked.pull.pulls
    have unexpired := spec.checked.pull.unexpired
    rw [Checked.lt_iff_int, Checked.lt_iff_int, Int64.toInt_zero, ← cadence.expiry] at unexpired
    have dates : a.collected < Schedule.countBy a.due a.frequency
        (a.horizon w.clock.unixTimestamp.toInt) := by
      rw [Schedule.lt_countBy_iff cadence.positive]
      have due := cadence.due
      unfold Allowance.horizon
      split
      · rename_i expires
        have := unexpired expires
        omega
      · omega
    have allowed := cadence.maxPulls
    have counted := cadence.pulls
    rw [clock]
    show a.collected + 1 ≤ min (a.maxPulls - a.pulls) _
    refine le_min ?_ dates
    omega

theorem call_cadence {call : MandateCall} (deployed : Deployed w) (kept : CadenceKept k w a)
    (step : MandateStep P k w w' (some call)) (setting : SettingStep w w')
    (keeps : KeepsCadence k a w call w') : CadenceKept k w' (watchTerms k a w call w') := by
  have alike (keeps : ∀ c ∈ some call, c.setsTerms = false) : CadenceKept k w' a :=
    kept.alike setting fun _ => step.terms_kept keeps
  have frequency {mandate : VelaMandate} (present : w'.currentMandate k = some mandate) :
      0 < mandate.frequency := step_frequency deployed step present
  cases step with
  | subscribed ctx plan mandate key spec =>
    have present : w'.currentMandate k = some mandate := key ▸ spec.created
    exact .signed present (frequency present)
  | migrated ctx before after key spec =>
    have present : w'.currentMandate k = some after := key ▸ spec.created
    exact .signed present (frequency present)
  | samePlan ctx s key checked plan unchanged =>
    have same : w.onPlan k ctx.newPlan := by
      rw [World.onPlan, ← key, checked.found, Option.map_some, plan]
    simp only [watchTerms, same, not_true_eq_false, and_false, if_false]
    exact unchanged ▸ kept
  | switched ctx s delta priced key spec =>
    have found : w.currentMandate k = some s.mandate := key ▸ spec.checked.found
    have present : w'.currentMandate k = some (priced.switchPlan ctx.newPlan s.newPlan) :=
      key ▸ spec.written
    have changed : ¬w.onPlan k ctx.newPlan := by
      rw [World.onPlan, found, Option.map_some, Option.some.injEq]
      exact spec.changed
    simp only [watchTerms]
    split_ifs with signed
    · exact .signed present (frequency present)
    · have within := (keeps.resolve_left changed).resolve_left fun h => signed ⟨h, changed⟩
      obtain ⟨slower, fewer⟩ := within
      rw [planFrequency_of_load spec.checked.newPlan] at slower
      rw [planMaxPulls_of_load spec.checked.newPlan] at fewer
      refine kept.moved setting fun mandate same => ?_
      obtain rfl := Option.some.inj (present.symm.trans same)
      have cadence := kept.mandate _ found
      rw [spec.settled.rest]
      exact ⟨cadence.positive, slower, fewer, cadence.pulls, cadence.due, cadence.expiry⟩
  | alreadyScheduled ctx s key checked unchanged =>
    have positive : 0 < w.planFrequency ctx.newPlan := by
      rw [planFrequency_of_load checked.newPlan]
      exact Checked.lt_iff.mp (loaded_recurring deployed checked.newPlan)
    simp only [watchTerms]
    split_ifs
    · exact unchanged ▸ kept.widen positive
    · exact unchanged ▸ kept
  | scheduled ctx s nonce key checked changed written frame =>
    have positive : 0 < w.planFrequency ctx.newPlan := by
      rw [planFrequency_of_load checked.newPlan]
      exact Checked.lt_iff.mp (loaded_recurring deployed checked.newPlan)
    have kept' : CadenceKept k w' a := alike (by rintro _ ⟨⟩; rfl)
    simp only [watchTerms]
    split_ifs
    · exact kept'.widen positive
    · exact kept'
  | dropped ctx before key spec => exact alike (by rintro _ ⟨⟩; rfl)
  | pulled ctx s after key spec =>
    subst key
    exact pull_cadence kept spec keeps
  | requested ctx before plan key spec => exact alike (by rintro _ ⟨⟩; rfl)
  | answered ctx before result key flat output spec => exact alike (by rintro _ ⟨⟩; rfl)

/-- In every run from a fresh deployment, while plans the subscriber does not sign for stay within
the signed cadence and limit, no more pulls are collected by any time than the signed terms
allow. -/
theorem collected_within_capacity {w₀ : World} (fresh : Fresh w₀)
    (run : MandateRun P k (watchTerms k) (KeepsCadence k) (w₀, w₀.signedTerms k .none) (w', a)) :
    ∀ t, w'.clock.unixTimestamp.toInt ≤ t → a.collected ≤ a.capacity t := by
  have initial : CadenceKept k w₀ (w₀.signedTerms k .none) := by
    cases present : w₀.currentMandate k with
    | none => exact .vacant present
    | some mandate => exact .signed present (fresh.mandates k mandate present)
  obtain ⟨_, kept⟩ := deployedRun_invariant run fresh.deployed (CadenceKept k) initial
    (fun _ _ _ _ kept same _ _ setting => inert_cadence kept same setting)
    fun _ _ _ _ deployed kept step setting keeps =>
      call_cadence deployed kept step setting keeps
  exact fun t later => kept.collected_by later

open Deployment

def moveAndPay (frequency : UInt64) (start : Int64) : List Action :=
  [offerUsage 0 100 7200 mintA, offerUsage 1 100 frequency mintA,
    .instruction (.subscribe (subscription (usagePlan 0) mintA)),
    switch merchant (usagePlan 1) mintA, tick 7200] ++
  payUsage (usagePlan 1) start 7200 1 40

theorem collected_within_signed : ∃ (w' : World) (a : Allowance),
    w'.onPlan mandate (usagePlan 1) ∧ a.collected = 1 ∧ a.capacity 7200 = 1 ∧
      ∀ t, 7200 ≤ t → a.collected ≤ a.capacity t := by
  have played : (Monitored.play (applyAction platform) (onCall mandate (watchTerms mandate))
      (whenCall mandate (KeepsCadence mandate)) (world 0, (world 0).signedTerms mandate .none)
      (moveAndPay 7200 0)).any (fun x =>
        decide (x.1.clock.unixTimestamp.toInt = 7200 ∧ x.1.onPlan mandate (usagePlan 1) ∧
          x.2.collected = 1 ∧ x.2.capacity 7200 = 1)) = true := by
    decide +kernel
  obtain ⟨⟨w', a⟩, run, ends⟩ := script_check played
  obtain ⟨clock, plan, collected, capacity⟩ := of_decide_eq_true ends
  refine ⟨w', a, plan, collected, capacity, fun t later => ?_⟩
  exact collected_within_capacity (world_fresh 0) run t (clock ▸ later)

/-- A move to a plan with half the period, and two pulls are collected where one was signed. -/
theorem collected_beyond_capacity : ¬∀ (P : Platform) (w₀ w' : World) (k : Pubkey) (a : Allowance),
    Fresh w₀ → MandateRun P k (watchTerms k) AnyCall (w₀, w₀.signedTerms k .none) (w', a) →
      ∀ t, w'.clock.unixTimestamp.toInt ≤ t → a.collected ≤ a.capacity t := by
  intro within
  have played : (Monitored.play (applyAction platform) (onCall mandate (watchTerms mandate))
      (whenCall mandate AnyCall) (world 0, (world 0).signedTerms mandate .none)
      (moveAndPay 3600 3600 ++ [tick 10800] ++ payUsage (usagePlan 1) 7200 10800 2 60)).any
        (fun x => decide (x.2.capacity x.1.clock.unixTimestamp.toInt < x.2.collected)) = true := by
    decide +kernel
  obtain ⟨⟨w', a⟩, run, ends⟩ := script_check played
  exact absurd (of_decide_eq_true ends)
    (Nat.not_lt.mpr (within platform (world 0) w' mandate a (world_fresh 0) run _ (le_refl _)))

end VelaProtocol
