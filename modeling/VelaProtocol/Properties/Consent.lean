import VelaProtocol.Deployment

/-! What the subscriber agreed to pay for one period, and what the mandate and its pulls take.
The agreement is a monitor: it sees what the subscriber signs and never stops a step. -/
namespace VelaProtocol

def World.mandateAmount (w : World) (k : Pubkey) : Nat :=
  ((w.currentMandate k).map fun mandate => mandate.amount.toNat).getD 0

/-- The amount per period the subscriber has agreed to: the plan's at `subscribe` and at each plan
change the subscriber signs, raised to it at each schedule the subscriber signs. Plans are read
as they are when the subscriber signs. -/
def agreedAmount (k : Pubkey) (agreed : Nat) (w : World) (call : MandateCall) (_ : World) : Nat :=
  match call with
  | .subscribe ctx => w.planAmount ctx.plan
  | .migrateMandate ctx => w.mandateAmount ctx.legacyMandate
  | .updateMandatePlan ctx =>
    if w.signedBySubscriber k ctx.authority ∧ ¬w.onPlan k ctx.newPlan then w.planAmount ctx.newPlan
    else agreed
  | .schedulePlanChange ctx =>
    if w.signedBySubscriber k ctx.authority then max agreed (w.planAmount ctx.newPlan) else agreed
  | _ => agreed

/-- A pull that applies a scheduled change finds its plan, as it is now, within the agreement. -/
def AppliesWithinAgreement (k : Pubkey) (agreed : Nat) (w : World) (call : MandateCall)
    (_ : World) : Prop :=
  match call with
  | .executePull _ => ∀ mandate ∈ w.currentMandate k,
      mandate.changeDue w.clock.unixTimestamp → w.planAmount mandate.pendingNewPlan ≤ agreed
  | _ => True

instance (k : Pubkey) (agreed : Nat) (w : World) (call : MandateCall) (w' : World) :
    Decidable (AppliesWithinAgreement k agreed w call w') := by
  refine call.casesOn ?_ ?_ ?_ ?_ ?_ ?_ ?_ ?_ <;> intro _ <;>
    dsimp only [AppliesWithinAgreement] <;> infer_instance

def WithinAgreement (k : Pubkey) (w : World) (agreed : Nat) : Prop :=
  ∀ mandate, w.currentMandate k = some mandate → mandate.amount.toNat ≤ agreed

variable {P : Platform} {k : Pubkey}

theorem billed_within {w : World} {mandate : VelaMandate} {plan : LoadedPlanAccount}
    {terms : BilledTerms} {agreed : Nat} (billed : TermsBilled P w mandate plan terms)
    (within : mandate.amount.toNat ≤ agreed)
    (applies : mandate.changeDue w.clock.unixTimestamp →
      w.planAmount mandate.pendingNewPlan ≤ agreed) :
    terms.mandate.amount.toNat ≤ agreed := by
  cases billed with
  | asIs undue mandate_eq plan_eq => rwa [mandate_eq]
  | switched applied mandate_eq =>
    rw [mandate_eq]
    have amount := planAmount_of_load applied.loaded
    exact amount ▸ applies applied.due

theorem mandateAmount_eq {w : World} {mandate : VelaMandate}
    (found : w.currentMandate k = some mandate) : w.mandateAmount k = mandate.amount.toNat := by
  simp only [World.mandateAmount, found, Option.map_some, Option.getD_some]

theorem inert_within {w w' : World} {agreed : Nat} (within : WithinAgreement k w agreed)
    (same : Inert w w' k) : WithinAgreement k w' agreed := by
  intro mandate present
  cases same with
  | gone after => exact absurd (present.symm.trans after) nofun
  | kept before after found stays terms =>
    obtain rfl := Option.some.inj (stays.symm.trans present)
    rw [terms.rest]
    exact within before found

theorem call_within {w w' : World} {agreed : Nat} {call : MandateCall}
    (within : WithinAgreement k w agreed) (step : MandateStep P k w w' (some call))
    (applies : AppliesWithinAgreement k agreed w call w') :
    WithinAgreement k w' (agreedAmount k agreed w call w') := by
  intro mandate present
  cases step with
  | subscribed ctx plan created key spec =>
    obtain ⟨_, _, _, _, _, _, initial⟩ := spec.initial
    obtain rfl := Option.some.inj (spec.created.symm.trans (key ▸ present))
    rw [initial]
    exact (planAmount_of_load spec.loaded).ge
  | migrated ctx before after key spec =>
    obtain ⟨_, _, moved⟩ := spec.moved
    obtain rfl := Option.some.inj (spec.created.symm.trans (key ▸ present))
    rw [moved]
    exact (mandateAmount_eq spec.found).ge
  | samePlan ctx s key checked plan unchanged =>
    have already : w.onPlan k ctx.newPlan := by
      rw [World.onPlan, ← key, checked.found, Option.map_some, plan]
    simp only [agreedAmount, already, not_true_eq_false, and_false, if_false]
    exact within mandate (unchanged ▸ present)
  | switched ctx s delta priced key spec =>
    obtain rfl := Option.some.inj (spec.written.symm.trans (key ▸ present))
    have amount := planAmount_of_load spec.checked.newPlan
    have found := spec.checked.found
    rw [key] at found
    show s.newPlan.mandateAmount.toNat ≤ agreedAmount k agreed w (.updateMandatePlan ctx) w'
    simp only [agreedAmount]
    split_ifs with signed
    · exact amount.ge
    · have fresh : ¬w.onPlan k ctx.newPlan := by
        rw [World.onPlan, found, Option.map_some, Option.some.injEq]
        exact spec.changed
      -- without the subscriber's signature the new amount is no larger
      have lower : ¬s.mandate.amount < s.newPlan.mandateAmount := by
        intro raised
        refine signed ⟨?_, fresh⟩
        rw [World.signedBySubscriber, found, Option.map_some, spec.checked.raise raised]
      rw [Checked.lt_iff] at lower
      exact le_trans (Nat.le_of_not_lt lower) (within _ found)
  | alreadyScheduled ctx s key checked unchanged =>
    have kept := within mandate (unchanged ▸ present)
    simp only [agreedAmount]
    split_ifs
    · exact le_max_of_le_left kept
    · exact kept
  | scheduled ctx s nonce key checked changed written frame =>
    obtain rfl := Option.some.inj (written.symm.trans present)
    have kept := within s.mandate (key ▸ checked.found)
    show s.mandate.amount.toNat ≤ agreedAmount k agreed w (.schedulePlanChange ctx) w'
    simp only [agreedAmount]
    split_ifs
    · exact le_max_of_le_left kept
    · exact kept
  | dropped ctx before key spec =>
    obtain rfl := Option.some.inj (spec.written.symm.trans (key ▸ present))
    exact within before (key ▸ spec.found)
  | pulled ctx s after key spec =>
    obtain rfl := Option.some.inj (spec.written.symm.trans (key ▸ present))
    have found := spec.checked.pull.found
    rw [key] at found
    rw [spec.advanced.rest]
    exact billed_within spec.checked.terms (within _ found) (applies _ found)
  | requested ctx before plan key spec => exact inert_within within (key ▸ spec.inert) _ present
  | answered ctx before result key flat output spec =>
    exact inert_within within spec.inert _ present

theorem pull_within {w w' : World} {agreed : Nat} {ctx : ExecutePull}
    (within : WithinAgreement ctx.mandate w agreed) (pull : executePull P w ctx = .ok w')
    (applies : AppliesWithinAgreement ctx.mandate agreed w (.executePull ctx) w') :
    w'.transferred ctx.mandate ≤ w.transferred ctx.mandate + agreed := by
  obtain ⟨s, after, spec⟩ := executePull_eq_ok pull
  have found := spec.checked.pull.found
  have terms := billed_within spec.checked.terms (within _ found) (applies _ found)
  have base := Checked.le_iff.mp (baseChargeAmount_eq_ok spec.checked.base).1
  have charge := s.chargeAmount_le
  have moved := spec.transferred_le
  omega

/-- Whatever mandate a run starts with or creates: while every scheduled change is applied within
the agreement, the mandate's amount stays within it and each pull takes at most the agreed
amount. -/
theorem agreement_caps_mandate {w₀ w' : World} {agreed : Nat}
    (run : MandateRun P k (agreedAmount k) (AppliesWithinAgreement k) (w₀, w₀.mandateAmount k)
      (w', agreed)) :
    WithinAgreement k w' agreed ∧
      ∀ pull w'', pull.mandate = k → executePull P w' pull = .ok w'' →
        AppliesWithinAgreement k agreed w' (.executePull pull) w'' →
          w''.transferred k ≤ w'.transferred k + agreed := by
  have within : WithinAgreement k w' agreed :=
    mandateRun_invariant run (WithinAgreement k)
      (fun _ found => (mandateAmount_eq found).ge)
      (fun _ _ _ holds same _ _ _ => inert_within holds same)
      fun _ _ _ _ holds step _ applies => call_within holds step applies
  refine ⟨within, fun pull w'' key pulled applies => ?_⟩
  rw [← key] at within applies ⊢
  exact pull_within within pulled applies

open Deployment

def scheduledPull (edit : List Action) (charge : UInt64) : List Action :=
  [offerUsage 0 10 3600 mintA, offerUsage 1 5 3600 mintA,
    .instruction (.subscribe (subscription (usagePlan 0) mintA)),
    schedule merchant (usagePlan 1)] ++
    edit ++
    [tick 3600, report (usagePlan 0) 0 3600, requestUsage (usagePlan 0) 0 1,
      answerUsage 0 1 charge, pull (usagePlan 0) mintA [reportAccount 0, usagePlan 1]]

theorem agreement_caps_scheduled_pull : ∃ (w' : World) (agreed : Nat),
    WithinAgreement mandate w' agreed ∧ agreed = 10 ∧ w'.transferred mandate = 4 ∧
      w'.mandateAmount mandate = 5 := by
  have played : (Monitored.play (applyAction platform) (onCall mandate (agreedAmount mandate))
      (whenCall mandate (AppliesWithinAgreement mandate)) (world 0, 0) (scheduledPull [] 4)).any
        (fun x => decide (x.2 = 10 ∧ x.1.transferred mandate = 4 ∧
          x.1.mandateAmount mandate = 5)) = true := by
    decide +kernel
  obtain ⟨⟨w', agreed⟩, run, ends⟩ := script_check played
  exact ⟨w', agreed, (agreement_caps_mandate run).1, of_decide_eq_true ends⟩

/-- The merchant raises the cap of the scheduled plan to 1000 before the pull applies it. -/
theorem agreement_exceeded : ¬∀ (P : Platform) (w₀ w' : World) (k : Pubkey) (agreed : Nat),
    MandateRun P k (agreedAmount k) AnyCall (w₀, w₀.mandateAmount k) (w', agreed) →
      WithinAgreement k w' agreed := by
  intro capped
  have played : (Monitored.play (applyAction platform) (onCall mandate (agreedAmount mandate))
      (whenCall mandate AnyCall) (world 0, 0) (scheduledPull [.instruction (.updateUsagePlan
        ⟨merchant, usagePlan 1, none, some 1000, none⟩)] 10)).any (fun x =>
          (x.1.currentMandate mandate).any fun m => decide (x.2 < m.amount.toNat)) = true := by
    decide +kernel
  obtain ⟨⟨w', agreed⟩, run, ends⟩ := script_check played
  obtain ⟨m, present, exceeds⟩ := (Option.any_eq_true _ _).mp ends
  have within := capped platform (world 0) w' mandate agreed run m present
  exact absurd (of_decide_eq_true exceeds) (Nat.not_lt.mpr within)

end VelaProtocol
