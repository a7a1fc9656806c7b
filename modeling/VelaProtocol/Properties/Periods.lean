import VelaProtocol.Deployment

/-! The billing periods one mandate's pulls settle. A period is reckoned back from the due date by
the frequency of the moment, so a longer frequency reaches into time already billed. -/
namespace VelaProtocol

structure SettledPeriods where
  /-- newest first -/
  periods : List (Int64 × Int64)
  /-- the mandate's frequency right after the latest pull -/
  frequency : Option UInt64

def SettledPeriods.none : SettledPeriods := ⟨[], .none⟩

def World.billingPeriod (w : World) (k : Pubkey) : Option (Int64 × Int64) :=
  (w.currentMandate k).bind fun mandate => (mandateBillingPeriod mandate).toOption

/-- Each pull adds the period it settles; a new mandate starts from none. -/
def settlePeriod (k : Pubkey) (g : SettledPeriods) (w : World) (call : MandateCall) (w' : World) :
    SettledPeriods :=
  match call with
  | .subscribe _ => .none
  | .migrateMandate _ => .none
  | .executePull _ =>
    ⟨(w.billingPeriod k).toList ++ g.periods, (w'.currentMandate k).map VelaMandate.frequency⟩
  | _ => g

/-- A pull finds the mandate's frequency no longer than it was right after the pull before. -/
def FrequencyNotLonger (k : Pubkey) (g : SettledPeriods) (w : World) (call : MandateCall)
    (_ : World) : Prop :=
  match call with
  | .executePull _ =>
    ∀ mandate ∈ w.currentMandate k, ∀ frequency ∈ g.frequency, mandate.frequency ≤ frequency
  | _ => True

instance (k : Pubkey) (g : SettledPeriods) (w : World) (call : MandateCall) (w' : World) :
    Decidable (FrequencyNotLonger k g w call w') := by
  refine call.casesOn ?_ ?_ ?_ ?_ ?_ ?_ ?_ ?_ <;> intro _ <;> dsimp only [FrequencyNotLonger] <;>
    infer_instance

def InPeriod (period : Int64 × Int64) (t : Int) : Prop :=
  period.1.toInt ≤ t ∧ t < period.2.toInt

def DisjointPeriods (p q : Int64 × Int64) : Prop := ∀ t, ¬(InPeriod p t ∧ InPeriod q t)

/-- Settled periods follow each other, and the next one starts after them all. -/
structure PeriodsOrdered (k : Pubkey) (w : World) (g : SettledPeriods) : Prop where
  apart : g.periods.Pairwise fun later earlier => earlier.2.toInt ≤ later.1.toInt
  before : ∀ mandate, w.currentMandate k = some mandate → ∀ period ∈ g.periods,
    ∃ frequency, g.frequency = some frequency ∧
      period.2.toInt + frequency.toNat ≤ mandate.nextPaymentDue.toInt

theorem disjoint_of_le {p q : Int64 × Int64} (le : q.2.toInt ≤ p.1.toInt) :
    DisjointPeriods p q := by
  rintro t ⟨⟨start, _⟩, _, stop⟩
  omega

variable {P : Platform} {k : Pubkey} {w w' : World} {g : SettledPeriods}

theorem PeriodsOrdered.none : PeriodsOrdered k w .none :=
  ⟨List.Pairwise.nil, fun _ _ _ found => absurd found List.not_mem_nil⟩

theorem PeriodsOrdered.of_due {call : Option MandateCall} (ordered : PeriodsOrdered k w g)
    (step : MandateStep P k w w' call) (keeps : ∀ c ∈ call, c.setsDue = false) :
    PeriodsOrdered k w' g := by
  refine ⟨ordered.apart, fun after present period settled => ?_⟩
  obtain ⟨before, found, due⟩ := step.due_kept keeps present
  rw [due]
  exact ordered.before before found period settled

theorem pull_ordered {ctx : ExecutePull} {s : Settlement} {after : VelaMandate}
    (ordered : PeriodsOrdered ctx.mandate w g) (spec : Pulled P w ctx w' s after)
    (notLonger : FrequencyNotLonger ctx.mandate g w (.executePull ctx) w') :
    PeriodsOrdered ctx.mandate w' (settlePeriod ctx.mandate g w (.executePull ctx) w') := by
  have found := spec.checked.pull.found
  have window := spec.checked.pull.period
  obtain ⟨_, ends, starts⟩ := mandateBillingPeriod_eq_ok.mp window
  have settled : w.billingPeriod ctx.mandate = some s.pull.period := by
    rw [World.billingPeriod, found, Option.bind_some, toOption_eq_some]
    exact window
  -- an applied change keeps the due date
  have due : after.nextPaymentDue.toInt =
      s.terms.mandate.nextPaymentDue.toInt + s.terms.mandate.frequency.toNat := spec.advanced.due
  rw [spec.checked.terms.keeps.2.1] at due
  have frequency : after.frequency = s.terms.mandate.frequency := by
    rw [spec.advanced.rest]
    rfl
  have earlier : ∀ period ∈ g.periods, period.2.toInt ≤ s.pull.period.1.toInt := by
    intro period member
    obtain ⟨last, last_eq, bound⟩ := ordered.before _ found period member
    have le := Checked.le_iff.mp (notLonger _ found last last_eq)
    omega
  simp only [settlePeriod, settled, spec.written, Option.map_some, Option.toList_some,
    List.singleton_append]
  refine ⟨List.pairwise_cons.mpr ⟨earlier, ordered.apart⟩, fun mandate present period member => ?_⟩
  obtain rfl := Option.some.inj (spec.written.symm.trans present)
  refine ⟨after.frequency, rfl, ?_⟩
  rw [due, frequency]
  rcases List.mem_cons.mp member with rfl | old
  · rw [ends]
  · have bound := earlier period old
    omega

theorem call_ordered {call : MandateCall} (ordered : PeriodsOrdered k w g)
    (step : MandateStep P k w w' (some call)) (notLonger : FrequencyNotLonger k g w call w') :
    PeriodsOrdered k w' (settlePeriod k g w call w') := by
  cases sets : call.setsDue with
  | false =>
    have kept := ordered.of_due step fun c same => Option.some.inj same ▸ sets
    cases call <;> first | exact kept | cases sets
  | true =>
    cases step with
    | subscribed ctx plan created key spec => exact .none
    | migrated ctx before after key spec => exact .none
    | pulled ctx s after key spec =>
      subst key
      exact pull_ordered ordered spec notLonger
    | _ => cases sets

/-- In every run, while no pull finds a longer frequency than the pull before left, no second is
billed twice. -/
theorem settled_periods_disjoint {w₀ : World}
    (run : MandateRun P k (settlePeriod k) (FrequencyNotLonger k) (w₀, .none) (w', g)) :
    g.periods.Pairwise DisjointPeriods := by
  have ordered : PeriodsOrdered k w' g :=
    mandateRun_invariant run (PeriodsOrdered k) .none
      (fun _ _ _ holds same quiet requests _ =>
        PeriodsOrdered.of_due (P := P) holds (.inert same quiet requests) nofun)
      fun _ _ _ _ holds step _ notLonger => call_ordered holds step notLonger
  exact ordered.apart.imp disjoint_of_le

open Deployment

def payMovePay (frequency : UInt64) (start : Int64) : List Action :=
  [offerUsage 0 100 3600 mintA, offerUsage 1 100 frequency mintA,
    .instruction (.subscribe (subscription (usagePlan 0) mintA)), tick 3600] ++
  payUsage (usagePlan 0) 0 3600 1 40 ++
  [switch subscriber (usagePlan 1) mintA, tick 7200] ++
  payUsage (usagePlan 1) start 7200 2 60

theorem settled_periods_disjoint_same_frequency : ∃ (w' : World) (g : SettledPeriods),
    g.periods = [(3600, 7200), (0, 3600)] ∧ g.periods.Pairwise DisjointPeriods ∧
      w'.transferred mandate = 100 := by
  have played : (Monitored.play (applyAction platform) (onCall mandate (settlePeriod mandate))
      (whenCall mandate (FrequencyNotLonger mandate)) (world 0, .none) (payMovePay 3600 3600)).any
        (fun x => decide (x.2.periods = [(3600, 7200), (0, 3600)] ∧
          x.1.transferred mandate = 100)) = true := by
    decide +kernel
  obtain ⟨⟨w', g⟩, run, ends⟩ := script_check played
  obtain ⟨periods, paid⟩ := of_decide_eq_true ends
  exact ⟨w', g, periods, settled_periods_disjoint run, paid⟩

/-- With a longer frequency the second pull bills half of the first period again. -/
theorem settled_periods_overlap : ¬∀ (P : Platform) (w₀ w' : World) (k : Pubkey)
    (g : SettledPeriods), Fresh w₀ →
      MandateRun P k (settlePeriod k) AnyCall (w₀, .none) (w', g) →
      g.periods.Pairwise DisjointPeriods := by
  intro disjoint
  have played : (Monitored.play (applyAction platform) (onCall mandate (settlePeriod mandate))
      (whenCall mandate AnyCall) (world 0, .none) (payMovePay 5400 1800)).any
        (fun x => decide (x.2.periods = [(1800, 7200), (0, 3600)])) = true := by
    decide +kernel
  obtain ⟨⟨w', g⟩, run, ends⟩ := script_check played
  have apart := disjoint platform (world 0) w' mandate g (world_fresh 0) run
  rw [of_decide_eq_true ends] at apart
  have clash := (List.pairwise_cons.mp apart).1 (0, 3600) (List.mem_singleton_self _) 1800
  exact clash ⟨⟨by decide, by decide⟩, by decide, by decide⟩

end VelaProtocol
