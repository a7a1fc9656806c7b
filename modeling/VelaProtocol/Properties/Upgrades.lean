import VelaProtocol.Deployment

/-! A plan change that charges a prorated amount. It asks for an approval of the running period,
and approvals are only recorded once that period is over. -/
namespace VelaProtocol

structure ChargedUpgrade (P : Platform) (w : World) (ctx : UpdateMandatePlan) (w' : World) :
    Prop where
  done : updateMandatePlan P w ctx = .ok w'
  charges : ∃ mandate plan, w.currentMandate ctx.mandate = some mandate ∧
    loadPlanAccount P w ctx.newPlan = .ok plan ∧ mandate.plan ≠ ctx.newPlan ∧
    0 < switchFormula mandate plan w.clock.unixTimestamp

/-- Some steps lead to a charged change of the mandate at `k` to `newPlan` before `deadline`. -/
def UpgradeAchievable (P : Platform) (w : World) (k newPlan : Pubkey) (deadline : Int64) : Prop :=
  ∃ w₁ w₂ ctx, Relation.ReflTransGen (fun w w' => ∃ a, Step P w a w') w w₁ ∧
    ctx.mandate = k ∧ ctx.newPlan = newPlan ∧ w₁.clock.unixTimestamp < deadline ∧
      ChargedUpgrade P w₁ ctx w₂

/-- A live flat mandate in mid-period, a dearer plan of the same merchant, mint and billing type
with an amount to charge, and the tokens to pay it. -/
structure MidPeriodUpgrade (P : Platform) (w : World) (k newPlan : Pubkey) (mandate : VelaMandate)
    (plan : LoadedPlanAccount) : Prop where
  found : w.currentMandate k = some mandate
  active : mandate.status = .active
  flat : mandate.billingType = .flat
  running : w.clock.unixTimestamp < mandate.nextPaymentDue
  loaded : loadPlanAccount P w newPlan = .ok plan
  offered : plan.status = .active
  merchant : plan.merchant = mandate.merchant
  billingType : plan.billingType = .flat
  mint : ∃ current, loadPlanAccount P w mandate.plan = .ok current ∧
    plan.billingMint = current.billingMint
  dearer : mandate.amount < plan.mandateAmount
  charge : 0 < switchFormula mandate plan w.clock.unixTimestamp
  funded : ∃ address account, w.tokenAccount address = some account ∧ account.owner = k ∧
    account.mint = plan.billingMint ∧
    switchFormula mandate plan w.clock.unixTimestamp ≤ account.amount.toNat

variable {P : Platform} {w w' : World} {k newPlan : Pubkey}

theorem not_chargedUpgrade {ctx : UpdateMandatePlan} (deployed : Deployed w) :
    ¬ChargedUpgrade P w ctx w' := by
  rintro ⟨done, mandate, plan, found, loaded, changed, charge⟩
  rcases updateMandatePlan_eq_ok done with ⟨_, s, checked, same⟩ | ⟨s, delta, priced, spec⟩
  · obtain rfl := Option.some.inj (checked.found.symm.trans found)
    exact changed same
  · obtain rfl := Option.some.inj (spec.checked.found.symm.trans found)
    obtain rfl := Except.ok.inj (spec.checked.newPlan.symm.trans loaded)
    have none := spec.not_charged deployed
    rw [spec.formula] at none
    omega

/-- In no reachable state is an upgrade with a positive prorated charge achievable, whatever the
mandate, the plan and the deadline. -/
theorem charged_upgrade_never_achievable (P : Platform) (w : World) (k newPlan : Pubkey)
    (deadline : Int64) (reachable : Reachable P w) :
    ¬UpgradeAchievable P w k newPlan deadline := by
  rintro ⟨w₁, w₂, ctx, steps, _, _, _, upgrade⟩
  exact not_chargedUpgrade (reachable.steps steps).deployed upgrade

open Deployment

def halfPeriod : List Action :=
  [offerFlat 0 100 3600 0 10 mintA, offerFlat 1 200 3600 0 10 mintA,
    .instruction (.subscribe (subscription (flatPlan 0) mintA)), tick 1800]

theorem halfPeriod_upgrade : ∃ w mandate plan, Reachable platform w ∧
    MidPeriodUpgrade platform w Deployment.mandate (flatPlan 1) mandate plan := by
  have ran : (runScript (world 0) halfPeriod).any (fun w =>
      (w.currentMandate Deployment.mandate).any fun m =>
        (loadPlanAccount platform w (flatPlan 1)).toOption.any fun plan =>
          (loadPlanAccount platform w m.plan).toOption.any fun current =>
            (w.tokenAccount (payer mintA)).any fun account =>
              decide ((m.status = .active ∧ m.billingType = .flat ∧
                  w.clock.unixTimestamp < m.nextPaymentDue) ∧
                (plan.status = .active ∧ plan.merchant = m.merchant ∧ plan.billingType = .flat) ∧
                plan.billingMint = current.billingMint ∧ m.amount < plan.mandateAmount ∧
                0 < switchFormula m plan w.clock.unixTimestamp ∧
                account.owner = Deployment.mandate ∧ account.mint = plan.billingMint ∧
                switchFormula m plan w.clock.unixTimestamp ≤ account.amount.toNat)) = true := by
    decide +kernel
  simp only [Option.any_eq_true, decide_eq_true_eq, toOption_eq_some] at ran
  obtain ⟨w, ran, m, found, plan, loaded, current, load, account, present,
    ⟨active, flat, running⟩, ⟨offered, merchant, billingType⟩, mint, dearer, charge, owner, token,
    funds⟩ := ran
  exact ⟨w, m, plan, runScript_reachable ⟨_, world_fresh 0, .refl⟩ ran, found, active, flat,
    running, loaded, offered, merchant, billingType, ⟨current, load, mint⟩, dearer, charge,
    ⟨_, account, present, owner, token, funds⟩⟩

theorem half_period_upgrade_unachievable : ∃ w mandate plan,
    MidPeriodUpgrade platform w Deployment.mandate (flatPlan 1) mandate plan ∧
      ¬UpgradeAchievable platform w Deployment.mandate (flatPlan 1) mandate.nextPaymentDue := by
  obtain ⟨w, mandate, plan, reachable, upgrade⟩ := halfPeriod_upgrade
  exact ⟨w, mandate, plan, upgrade, charged_upgrade_never_achievable platform w _ _ _ reachable⟩

theorem mid_period_upgrade_refused : ¬∀ (P : Platform) (w : World) (k newPlan : Pubkey)
    (mandate : VelaMandate) (plan : LoadedPlanAccount), Reachable P w →
      MidPeriodUpgrade P w k newPlan mandate plan →
      UpgradeAchievable P w k newPlan mandate.nextPaymentDue := by
  intro achievable
  obtain ⟨w, mandate, plan, reachable, upgrade⟩ := halfPeriod_upgrade
  obtain ⟨w₁, w₂, ctx, steps, _, _, _, charged⟩ :=
    achievable platform w _ _ mandate plan reachable upgrade
  exact not_chargedUpgrade (reachable.steps steps).deployed charged

end VelaProtocol
