import VelaProtocol.Deployment

/-! What plan changes credit, against what has been paid: over whole runs, and over cycles of
plans switched through at one moment. -/
namespace VelaProtocol

def remainingSeconds (mandate : VelaMandate) (now : Int64) : Nat :=
  mandate.frequency.toNat - elapsedSeconds mandate now

section Proration

variable {mandate : VelaMandate} {plan : LoadedPlanAccount} {now : Int64}

def exactCredit (mandate : VelaMandate) (plan : LoadedPlanAccount) (now : Int64) : Int :=
  ((mandate.amount.toNat : Int) - plan.mandateAmount.toNat) * remainingSeconds mandate now *
    Precise.one

theorem switchFormula_credit (positive : 0 < mandate.frequency)
    (negative : switchFormula mandate plan now < 0) :
    (mandate.frequency.toNat : Int) * (-switchFormula mandate plan now * Precise.one) <
      exactCredit mandate plan now + mandate.frequency.toNat * 2 := by
  have total_pos : 0 < mandate.frequency.toNat := Checked.lt_iff.mp positive
  have scaled := (@scaledDelta_bounds mandate.amount.toNat plan.mandateAmount.toNat _ _ total_pos
    (elapsedSeconds_le mandate now)).2
  have cut := (truncatedDifference_bounds
    (unusedScaled mandate.amount.toNat (elapsedSeconds mandate now) mandate.frequency.toNat)
    (remainingScaled plan.mandateAmount.toNat (remainingSeconds mandate now)
      mandate.frequency.toNat)).2.2 negative
  rw [← remainingSeconds] at scaled
  have whole := Int.mul_le_mul_of_nonneg_left cut (Int.natCast_nonneg mandate.frequency.toNat)
  change _ ≤ (mandate.frequency.toNat : Int) * (switchFormula mandate plan now * Precise.one)
    at whole
  unfold exactCredit
  linarith

theorem switchFormula_free (positive : 0 < mandate.frequency)
    (free : switchFormula mandate plan now = 0) :
    0 < exactCredit mandate plan now + mandate.frequency.toNat * (Precise.one + 1) := by
  have total_pos : 0 < mandate.frequency.toNat := Checked.lt_iff.mp positive
  have scaled := (@scaledDelta_bounds mandate.amount.toNat plan.mandateAmount.toNat _ _ total_pos
    (elapsedSeconds_le mandate now)).2
  have cut := (truncatedDifference_bounds
    (unusedScaled mandate.amount.toNat (elapsedSeconds mandate now) mandate.frequency.toNat)
    (remainingScaled plan.mandateAmount.toNat (remainingSeconds mandate now)
      mandate.frequency.toNat)).2.1
  change _ < switchFormula mandate plan now * (Precise.one : Int) + Precise.one at cut
  rw [← remainingSeconds] at scaled
  rw [free, Int.zero_mul, Int.zero_add] at cut
  have cut := Int.le_sub_one_of_lt cut
  have whole := Int.mul_le_mul_of_nonneg_left cut (Int.natCast_nonneg mandate.frequency.toNat)
  unfold exactCredit
  linarith

theorem switchFormula_negative_iff : switchFormula mandate plan now < 0 ↔
    remainingScaled plan.mandateAmount.toNat (remainingSeconds mandate now)
        mandate.frequency.toNat + Precise.one ≤
      unusedScaled mandate.amount.toNat (elapsedSeconds mandate now) mandate.frequency.toNat := by
  unfold switchFormula proratedDelta remainingSeconds
  generalize unusedScaled mandate.amount.toNat (elapsedSeconds mandate now)
    mandate.frequency.toNat = old
  generalize remainingScaled plan.mandateAmount.toNat _ mandate.frequency.toNat = new
  have scale := Precise.one_pos
  unfold truncatedDifference
  by_cases charge : old ≤ new
  · rw [if_pos charge]
    exact iff_of_false (Int.not_lt.mpr (Int.natCast_nonneg _)) (by omega)
  · rw [if_neg charge, Int.neg_lt_zero_iff, Int.natCast_pos, Nat.div_pos_iff]
    omega

end Proration

structure Payment where
  periodEnd : Int64
  amount : Nat
  deriving DecidableEq

structure PlanCredit where
  credit : Nat
  prepaid : Nat
  unused : Bool
  deriving DecidableEq

structure PrepaidLedger where
  payments : List Payment
  changes : List PlanCredit
  deriving DecidableEq

def PrepaidLedger.prepaid (g : PrepaidLedger) (now : Int64) : Nat :=
  ((g.payments.filter fun p => now < p.periodEnd).map Payment.amount).sum

def World.paymentDue (w : World) (k : Pubkey) : Int64 :=
  ((w.currentMandate k).map VelaMandate.nextPaymentDue).getD 0

/-- The amount of the mandate is worth a whole unit more, over the seconds left in the running
period, than the amount of another plan. Worth is reckoned in parts of `10 ^ 12`, the mandate's
rounded up and the other plan's down. -/
def World.unitUnused (w : World) (k plan : Pubkey) : Bool :=
  (w.currentMandate k).any fun mandate =>
    let now := w.clock.unixTimestamp
    decide (mandate.plan ≠ plan ∧
      remainingScaled (w.planAmount plan) (remainingSeconds mandate now) mandate.frequency.toNat +
          Precise.one ≤
        unusedScaled mandate.amount.toNat (elapsedSeconds mandate now) mandate.frequency.toNat)

/-- A pull pays for the billing period it settles, a charged plan change for the running one. -/
def watchPrepaid (k : Pubkey) (g : PrepaidLedger) (w : World) (call : MandateCall) (w' : World) :
    PrepaidLedger :=
  let paid : Payment := ⟨w.paymentDue k, w'.transferred k - w.transferred k⟩
  match call with
  | .executePull _ => { g with payments := paid :: g.payments }
  | .updateMandatePlan ctx =>
    { payments := paid :: g.payments
      changes := ⟨w'.credited k - w.credited k, g.prepaid w.clock.unixTimestamp,
        w.unitUnused k ctx.newPlan⟩ :: g.changes }
  | _ => g

/-- Since `start` no more was credited than transferred, and no change credited more than had been
prepaid for the period it found running. -/
structure CreditBacked (start : World) (k : Pubkey) (w : World) (g : PrepaidLedger) : Prop where
  total : w.credited k + start.transferred k ≤ w.transferred k + start.credited k
  prepaid : ∀ change ∈ g.changes, change.credit ≤ change.prepaid

/-- Whatever was paid is for a period that is over, so that no change finds anything prepaid. -/
structure InArrears (start : World) (k : Pubkey) (w : World) (g : PrepaidLedger) : Prop where
  past : ∀ payment ∈ g.payments, payment.amount = 0 ∨ payment.periodEnd ≤ w.clock.unixTimestamp
  prepaid : ∀ change ∈ g.changes, change.prepaid = 0
  credit : ∀ change ∈ g.changes, 0 < change.credit ↔ change.unused = true
  total : w.credited k = start.credited k + (g.changes.map PlanCredit.credit).sum
  paid : start.transferred k ≤ w.transferred k

variable {P : Platform} {k : Pubkey} {start w w' : World} {g : PrepaidLedger}

theorem InArrears.nothing_prepaid (arrears : InArrears start k w g) :
    g.prepaid w.clock.unixTimestamp = 0 := by
  unfold PrepaidLedger.prepaid
  rw [List.sum_eq_zero_iff_forall_eq_nat]
  intro amount member
  obtain ⟨payment, running, rfl⟩ := List.mem_map.mp member
  obtain ⟨member, running⟩ := List.mem_filter.mp running
  rcases arrears.past payment member with nothing | past
  · exact nothing
  · exact absurd (of_decide_eq_true running) (Int64.not_lt.mpr past)

theorem InArrears.kept (arrears : InArrears start k w g)
    (later : w.clock.unixTimestamp ≤ w'.clock.unixTimestamp)
    (paid : w.transferred k ≤ w'.transferred k) (credited : w'.credited k = w.credited k) :
    InArrears start k w' g where
  past payment member := (arrears.past payment member).imp_right fun past =>
    Int64.le_trans past later
  prepaid := arrears.prepaid
  credit := arrears.credit
  total := credited.trans arrears.total
  paid := arrears.paid.trans paid

theorem paymentDue_eq {mandate : VelaMandate} (found : w.currentMandate k = some mandate) :
    w.paymentDue k = mandate.nextPaymentDue := by
  rw [World.paymentDue, found, Option.map_some, Option.getD_some]

theorem InArrears.pays (arrears : InArrears start k w g) {payment : Payment}
    (past : payment.amount = 0 ∨ payment.periodEnd ≤ w.clock.unixTimestamp) :
    InArrears start k w { g with payments := payment :: g.payments } where
  past other member := by
    rcases List.mem_cons.mp member with rfl | member
    · exact past
    · exact arrears.past other member
  prepaid := arrears.prepaid
  credit := arrears.credit
  total := arrears.total
  paid := arrears.paid

theorem unitUnused_eq {mandate : VelaMandate} {plan : LoadedPlanAccount} {key : Pubkey}
    (found : w.currentMandate k = some mandate) (load : loadPlanAccount P w key = .ok plan) :
    w.unitUnused k key = true ↔
      mandate.plan ≠ key ∧ switchFormula mandate plan w.clock.unixTimestamp < 0 := by
  rw [switchFormula_negative_iff, World.unitUnused, found, Option.any_some, decide_eq_true_eq,
    planAmount_of_load load]

theorem Switched.credits_iff {ctx : UpdateMandatePlan} {s : PlanSwitch} {delta : Int}
    {priced : VelaMandate} (deployed : Deployed w) (spec : Switched P w ctx w' s delta priced) :
    w'.transferred ctx.mandate = w.transferred ctx.mandate ∧
      (0 < w'.credited ctx.mandate - w.credited ctx.mandate ↔
        w.unitUnused ctx.mandate ctx.newPlan = true) := by
  have uncharged := spec.not_charged deployed
  constructor
  · cases spec.settled with
    | charged amount approval value positive approved transfers credits closed same =>
      exact absurd positive (Int.not_lt.mpr uncharged)
    | credited amount value negative entry mint granted transfers credits kept balance rest =>
      simp only [World.transferred, transfers]
    | nothing zero transfers credits kept same => simp only [World.transferred, transfers]
  · have grown := spec.credited
    rw [unitUnused_eq spec.checked.found spec.checked.newPlan, ← spec.formula]
    constructor
    · intro some_credit
      exact ⟨spec.changed, by omega⟩
    · intro negative
      omega

theorem InArrears.changed (arrears : InArrears start k w g) {change : PlanCredit}
    (later : w.clock.unixTimestamp ≤ w'.clock.unixTimestamp)
    (uncharged : w'.transferred k = w.transferred k) (nothing : change.prepaid = 0)
    (credits : 0 < change.credit ↔ change.unused = true)
    (credited : w'.credited k = w.credited k + change.credit) :
    InArrears start k w' { g with changes := change :: g.changes } where
  past payment member := (arrears.past payment member).imp_right fun past =>
    Int64.le_trans past later
  prepaid other member := by
    rcases List.mem_cons.mp member with rfl | member
    · exact nothing
    · exact arrears.prepaid other member
  credit other member := by
    rcases List.mem_cons.mp member with rfl | member
    · exact credits
    · exact arrears.credit other member
  total := by
    have total := arrears.total
    rw [List.map_cons, List.sum_cons]
    omega
  paid := uncharged ▸ arrears.paid

theorem call_arrears {call : MandateCall} (deployed : Deployed w)
    (arrears : InArrears start k w g) (step : MandateStep P k w w' (some call))
    (later : w.clock.unixTimestamp ≤ w'.clock.unixTimestamp) :
    InArrears start k w' (watchPrepaid k g w call w') := by
  obtain ⟨paid, credits⟩ := step.money
  have unchanged : (∀ ctx, call ≠ .updateMandatePlan ctx) → w'.credited k = w.credited k := by
    intro other
    rcases credits with same | ⟨ctx, s, delta, priced, called, _⟩
    · exact same
    · exact absurd (Option.some.inj called) (other ctx)
  cases step with
  | pulled ctx s after key spec =>
    subst key
    refine (arrears.pays (.inr ?_)).kept later paid (unchanged fun _ => MandateCall.noConfusion)
    rw [paymentDue_eq spec.checked.pull.found]
    exact spec.checked.pull.due
  | samePlan ctx s key checked plan same =>
    subst key
    subst same
    refine (arrears.pays (.inl (Nat.sub_self _))).changed later rfl arrears.nothing_prepaid ?_ ?_
    · rw [unitUnused_eq checked.found checked.newPlan, Nat.sub_self]
      exact ⟨fun credit => absurd credit (lt_irrefl 0), fun unused => absurd plan unused.1⟩
    · rw [Nat.sub_self, Nat.add_zero]
  | switched ctx s delta priced key spec =>
    subst key
    obtain ⟨uncharged, credit⟩ := spec.credits_iff deployed
    have grown := spec.credited
    have free : w'.transferred ctx.mandate - w.transferred ctx.mandate = 0 := by
      rw [uncharged, Nat.sub_self]
    exact (arrears.pays (.inl free)).changed later uncharged arrears.nothing_prepaid credit
      (by dsimp only; omega)
  | subscribed => exact arrears.kept later paid (unchanged fun _ => MandateCall.noConfusion)
  | migrated => exact arrears.kept later paid (unchanged fun _ => MandateCall.noConfusion)
  | alreadyScheduled => exact arrears.kept later paid (unchanged fun _ => MandateCall.noConfusion)
  | scheduled => exact arrears.kept later paid (unchanged fun _ => MandateCall.noConfusion)
  | dropped => exact arrears.kept later paid (unchanged fun _ => MandateCall.noConfusion)
  | requested => exact arrears.kept later paid (unchanged fun _ => MandateCall.noConfusion)
  | answered => exact arrears.kept later paid (unchanged fun _ => MandateCall.noConfusion)

/-- In a run from `subscribe` credit is backed, in all and at every change, if and only if no change
found a whole unit of the old plan unused: what is paid is paid for periods that are over. -/
theorem credit_backed_iff {ctx : Subscribe} {w₀ : World} (reachable : Reachable P w)
    (start : subscribe P w ctx = .ok w₀)
    (run : MandateRun P ctx.mandate (watchPrepaid ctx.mandate) AnyCall (w₀, ⟨[], []⟩) (w', g)) :
    CreditBacked w₀ ctx.mandate w' g ↔ ∀ change ∈ g.changes, change.unused = false := by
  have step : Step P w (.instruction (.subscribe ctx)) w₀ := start
  have opened : InArrears w₀ ctx.mandate w₀ ⟨[], []⟩ := by
    refine ⟨?_, ?_, ?_, rfl, le_refl _⟩ <;> simp
  have arrears : InArrears w₀ ctx.mandate w' g := (deployedRun_invariant run
    (reachable.step step).deployed (InArrears w₀ ctx.mandate) opened
    (fun w w' g _ arrears _ quiet _ setting =>
      arrears.kept setting.clock quiet.transferred.ge quiet.credited)
    (fun w w' g call deployed arrears step setting _ =>
      call_arrears deployed arrears step setting.clock)).2
  constructor
  · intro backed change member
    have covered := backed.prepaid change member
    rw [arrears.prepaid change member] at covered
    rw [← Bool.not_eq_true, ← arrears.credit change member]
    omega
  · intro used
    have nothing : ∀ change ∈ g.changes, change.credit = 0 := by
      intro change member
      have credit := arrears.credit change member
      rw [used change member] at credit
      simpa using credit
    have total := arrears.total
    have paid := arrears.paid
    rw [List.sum_eq_zero_iff_forall_eq_nat.mpr (by simpa using nothing)] at total
    exact ⟨by omega, fun change member => (nothing change member).le.trans (Nat.zero_le _)⟩

open Deployment

theorem credit_backed_at_due_date : ∃ (w w₀ w' : World) (ctx : Subscribe) (g : PrepaidLedger),
    Reachable platform w ∧ subscribe platform w ctx = .ok w₀ ∧
      MandateRun platform ctx.mandate (watchPrepaid ctx.mandate) AnyCall (w₀, ⟨[], []⟩) (w', g) ∧
      g = ⟨[⟨7200, 0⟩, ⟨3600, 100⟩], [⟨0, 0, false⟩]⟩ ∧ CreditBacked w₀ ctx.mandate w' g := by
  have played : ((runScript (world 0) [offerFlat 0 100 3600 0 10 mintA,
      offerFlat 1 50 3600 0 10 mintA]).any fun w =>
        (subscribe platform w (subscription (flatPlan 0) mintA)).toOption.any fun w₀ =>
          (Monitored.play (applyAction platform) (onCall mandate (watchPrepaid mandate))
            (whenCall mandate AnyCall) (w₀, ⟨[], []⟩) [tick 3600, requestFlat (flatPlan 0) 3600 1,
              answerFlat 3600 1 true, pull (flatPlan 0) mintA [], tick 7200,
              switch merchant (flatPlan 1) mintA]).any
            fun x => x.2 = ⟨[⟨7200, 0⟩, ⟨3600, 100⟩], [⟨0, 0, false⟩]⟩) = true := by
    decide +kernel
  obtain ⟨w, w₀, ⟨w', g⟩, reachable, start, run, ends⟩ := scenario_check_from played
  have ends : g = ⟨[⟨7200, 0⟩, ⟨3600, 100⟩], [⟨0, 0, false⟩]⟩ := of_decide_eq_true ends
  refine ⟨w, w₀, w', _, g, reachable, start, run, ends, ?_⟩
  refine (credit_backed_iff reachable start run).mpr ?_
  rw [ends]
  simp

theorem first_period_credit_unbacked : ¬∀ (P : Platform) (w w₀ w' : World) (ctx : Subscribe)
    (g : PrepaidLedger), Reachable P w → subscribe P w ctx = .ok w₀ →
      MandateRun P ctx.mandate (watchPrepaid ctx.mandate) AnyCall (w₀, ⟨[], []⟩) (w', g) →
      w'.credited ctx.mandate + w₀.transferred ctx.mandate ≤
        w'.transferred ctx.mandate + w₀.credited ctx.mandate := by
  intro backed
  have played : ((runScript (world 0) [offerFlat 0 100 3600 0 10 mintA,
      offerFlat 1 50 3600 0 10 mintA]).any fun w =>
        (subscribe platform w (subscription (flatPlan 0) mintA)).toOption.any fun w₀ =>
          (Monitored.play (applyAction platform) (onCall mandate (watchPrepaid mandate))
            (whenCall mandate AnyCall) (w₀, ⟨[], []⟩)
            [tick 1800, switch merchant (flatPlan 1) mintA]).any
            fun x => x.1.transferred mandate + w₀.credited mandate = 0 ∧
              x.1.credited mandate = 25) = true := by
    decide +kernel
  obtain ⟨w, w₀, ⟨w', g⟩, reachable, start, run, ends⟩ := scenario_check_from played
  have ends : w'.transferred mandate + w₀.credited mandate = 0 ∧ w'.credited mandate = 25 :=
    of_decide_eq_true ends
  have bound : w'.credited mandate + w₀.transferred mandate ≤
      w'.transferred mandate + w₀.credited mandate :=
    backed platform w w₀ w' (subscription (flatPlan 0) mintA) g reachable start run
  omega

def changePlans (P : Platform) (w : World) : List UpdateMandatePlan → Result World
  | [] => .ok w
  | ctx :: rest => do
    let w' ← updateMandatePlan P w ctx
    changePlans P w' rest

/-- The change prorates the fraction `part / whole` of the running period when it lowers the amount
at most, and at least that fraction when it raises it. -/
def SplitsAt (part whole : Nat) (w : World) (ctx : UpdateMandatePlan) : Prop :=
  ∀ mandate ∈ w.currentMandate ctx.mandate,
    (w.planAmount ctx.newPlan < mandate.amount.toNat →
      remainingSeconds mandate w.clock.unixTimestamp * whole ≤
        part * mandate.frequency.toNat) ∧
    (mandate.amount.toNat < w.planAmount ctx.newPlan →
      part * mandate.frequency.toNat ≤
        remainingSeconds mandate w.clock.unixTimestamp * whole)

instance (part whole : Nat) (w : World) (ctx : UpdateMandatePlan) :
    Decidable (SplitsAt part whole w ctx) :=
  inferInstanceAs (Decidable (∀ mandate ∈ w.currentMandate ctx.mandate, _))

def AllSplitAt (P : Platform) (part whole : Nat) (w : World) : List UpdateMandatePlan → Prop
  | [] => True
  | ctx :: rest => SplitsAt part whole w ctx ∧
      ∀ w' ∈ (updateMandatePlan P w ctx).toOption, AllSplitAt P part whole w' rest

instance allSplitAtDecidable (P : Platform) (part whole : Nat) (w : World) :
    (switches : List UpdateMandatePlan) → Decidable (AllSplitAt P part whole w switches)
  | [] => isTrue trivial
  | ctx :: rest =>
    have (w' : World) : Decidable (AllSplitAt P part whole w' rest) :=
      allSplitAtDecidable P part whole w' rest
    inferInstanceAs (Decidable (SplitsAt part whole w ctx ∧
      ∀ w' ∈ (updateMandatePlan P w ctx).toOption, AllSplitAt P part whole w' rest))

theorem Switched.credit_split {ctx : UpdateMandatePlan} {s : PlanSwitch} {delta : Int}
    {priced : VelaMandate} {part whole : Nat} (deployed : Deployed w)
    (spec : Switched P w ctx w' s delta priced) (split : SplitsAt part whole w ctx) :
    (whole : Int) * (w'.credited ctx.mandate * Precise.one) ≤
      whole * (w.credited ctx.mandate * Precise.one) +
        ((s.mandate.amount.toNat : Int) - s.newPlan.mandateAmount.toNat) * part * Precise.one +
        whole * (Precise.one + 1) := by
  have delta_le := spec.not_charged deployed
  have credited : (w'.credited ctx.mandate : Int) = w.credited ctx.mandate - delta := by
    have grown := spec.credited
    omega
  have total : (0 : Int) < s.mandate.frequency.toNat := by
    exact_mod_cast Checked.lt_iff.mp spec.positive
  -- the credit against the exact one over the remaining seconds
  have scaled : (s.mandate.frequency.toNat : Int) * (-delta * Precise.one) ≤
      exactCredit s.mandate s.newPlan w.clock.unixTimestamp +
        s.mandate.frequency.toNat * (Precise.one + 1) := by
    rcases delta_le.lt_or_eq with negative | zero
    · have credit := switchFormula_credit spec.positive (spec.formula ▸ negative)
      have scale : (1 : Int) ≤ Precise.one := by exact_mod_cast Precise.one_pos
      have room := Int.mul_le_mul_of_nonneg_left (by omega : (2 : Int) ≤ Precise.one + 1) total.le
      rw [spec.formula]
      linarith
    · have free := switchFormula_free spec.positive (spec.formula ▸ zero)
      rw [zero]
      linarith
  -- the remaining seconds against the common fraction
  have fraction : ((s.mandate.amount.toNat : Int) - s.newPlan.mandateAmount.toNat) *
      (remainingSeconds s.mandate w.clock.unixTimestamp * whole) ≤
        ((s.mandate.amount.toNat : Int) - s.newPlan.mandateAmount.toNat) *
          (part * s.mandate.frequency.toNat) := by
    obtain ⟨lower, raise⟩ := split s.mandate spec.checked.found
    rw [planAmount_of_load spec.checked.newPlan] at lower raise
    rcases Nat.lt_trichotomy s.newPlan.mandateAmount.toNat s.mandate.amount.toNat with
      lowers | same | raises
    · refine Int.mul_le_mul_of_nonneg_left ?_ (by omega)
      exact_mod_cast lower lowers
    · rw [same]
      simp
    · refine Int.mul_le_mul_of_nonpos_left (by omega) ?_
      exact_mod_cast raise raises
  have scaled := Int.mul_le_mul_of_nonneg_left scaled (Int.natCast_nonneg whole)
  have fraction := Int.mul_le_mul_of_nonneg_right fraction (Int.natCast_nonneg Precise.one)
  unfold exactCredit at scaled
  refine le_of_mul_le_mul_left ?_ total
  rw [credited]
  linarith

def World.onOwnAmount (w : World) (k : Pubkey) : Prop :=
  ∀ mandate ∈ w.currentMandate k, mandate.amount.toNat = w.planAmount mandate.plan

theorem changePlans_credit {switches : List UpdateMandatePlan} {part whole : Nat}
    {mandate : VelaMandate} (reachable : Reachable P w) (found : w.currentMandate k = some mandate)
    (ours : ∀ ctx ∈ switches, ctx.mandate = k) (split : AllSplitAt P part whole w switches)
    (ran : changePlans P w switches = .ok w') :
    w.transferred k ≤ w'.transferred k ∧ ∃ after, w'.currentMandate k = some after ∧
      (after = mandate ∨ after.amount.toNat = w.planAmount after.plan) ∧
      (whole : Int) * (w'.credited k * Precise.one) ≤
        whole * (w.credited k * Precise.one) +
          ((mandate.amount.toNat : Int) - after.amount.toNat) * part * Precise.one +
          switches.length * (whole * (Precise.one + 1)) := by
  induction switches generalizing w mandate with
  | nil =>
    cases ran
    refine ⟨le_refl _, mandate, found, .inl rfl, ?_⟩
    simp
  | cons ctx rest ih =>
    simp only [changePlans, Guard.bind_eq_ok] at ran
    obtain ⟨w₁, first, ran⟩ := ran
    have step : Step P w (.instruction (.updateMandatePlan ctx)) w₁ := first
    have key := ours ctx (List.mem_cons_self)
    subst key
    have rest_split := split.2 w₁ (toOption_eq_some.mpr first)
    have rest_ours := fun c member => ours c (List.mem_cons_of_mem _ member)
    rcases updateMandatePlan_eq_ok first with ⟨rfl, _⟩ | ⟨s, delta, priced, spec⟩
    · obtain ⟨paid, after, present, amount, credit⟩ := ih reachable found rest_ours rest_split ran
      refine ⟨paid, after, present, amount, credit.trans ?_⟩
      rw [List.length_cons]
      have room : (0 : Int) ≤ whole * (Precise.one + 1) := by positivity
      push_cast
      linarith
    · obtain rfl := Option.some.inj (spec.checked.found.symm.trans found)
      have plans : ∀ key, w₁.planAmount key = w.planAmount key := fun key => by
        rw [World.planAmount, spec.frame.plan, ← World.planAmount]
      have once := spec.credit_split reachable.deployed split.1
      obtain ⟨paid, after, present, amount, credit⟩ :=
        ih (reachable.step step) spec.written rest_ours rest_split ran
      have paid_once := (mandateStep ctx.mandate step).money.1
      refine ⟨paid_once.trans paid, after, present, .inr ?_, ?_⟩
      · rcases amount with rfl | amount
        · exact (planAmount_of_load spec.checked.newPlan).symm
        · exact amount.trans (plans _)
      · have between : (priced.switchPlan ctx.newPlan s.newPlan).amount =
            s.newPlan.mandateAmount := rfl
        rw [between] at credit
        rw [List.length_cons]
        push_cast
        linarith

/-- A cycle of fewer than `10 ^ 12` immediate changes, back to the plan it started from, of an
amount at most that plan's, credits at most what it charges and one unit for each change, if no
change to a smaller amount prorates a larger fraction of the period than one to a larger amount. -/
theorem cycle_credit_bounded {switches : List UpdateMandatePlan} {part whole : Nat}
    {mandate : VelaMandate} (reachable : Reachable P w) (found : w.currentMandate k = some mandate)
    (own : mandate.amount.toNat ≤ w.planAmount mandate.plan)
    (ours : ∀ ctx ∈ switches, ctx.mandate = k) (short : switches.length < 10 ^ 12)
    (proper : 0 < whole) (split : AllSplitAt P part whole w switches)
    (ran : changePlans P w switches = .ok w') (back : w'.onPlan k mandate.plan) :
    w'.credited k + w.transferred k ≤ w'.transferred k + w.credited k + switches.length := by
  obtain ⟨paid, after, present, amount, credit⟩ :=
    changePlans_credit reachable found ours split ran
  have same_plan : after.plan = mandate.plan := by
    rw [World.onPlan, present, Option.map_some, Option.some.injEq] at back
    exact back
  have not_less : (mandate.amount.toNat : Int) - after.amount.toNat ≤ 0 := by
    rcases amount with rfl | amount
    · omega
    · rw [amount, same_plan]
      omega
  have telescoped : ((mandate.amount.toNat : Int) - after.amount.toNat) * part * Precise.one ≤ 0 :=
    Int.mul_nonpos_of_nonpos_of_nonneg
      (Int.mul_nonpos_of_nonpos_of_nonneg not_less (Int.natCast_nonneg part))
      (Int.natCast_nonneg Precise.one)
  have proper : (0 : Int) < whole := by exact_mod_cast proper
  have scaled : (w'.credited k : Int) * Precise.one ≤
      w.credited k * Precise.one + switches.length * (Precise.one + 1) := by
    refine le_of_mul_le_mul_left ?_ proper
    linarith
  have scale : Precise.one = 10 ^ 12 := by simp [Precise.one]
  rw [scale] at scaled
  omega

def halfPeriodOf (offers : List Action) : List Action :=
  offerFlat 0 100 3600 0 10 mintA :: offers ++
    [.instruction (.subscribe (subscription (flatPlan 0) mintA)), tick 1800]

theorem steps_back_credit_bounded : ∃ (w w' : World) (k : Pubkey)
    (switches : List UpdateMandatePlan), switches.length = 3 ∧ Reachable platform w ∧
      changePlans platform w switches = .ok w' ∧ w'.credited k = 1 ∧
      w'.credited k + w.transferred k ≤ w'.transferred k + w.credited k + 3 := by
  have ran : (runScript (world 0) (halfPeriodOf [offerFlat 1 98 3600 0 10 mintA,
      offerFlat 2 99 3600 0 10 mintA])).any (fun w =>
        (w.currentMandate mandate).any fun m =>
          (changePlans platform w [switchContext merchant (flatPlan 1) mintA,
            switchContext subscriber (flatPlan 2) mintA,
            switchContext subscriber (flatPlan 0) mintA]).toOption.any fun w' =>
              decide ((m.amount.toNat = w.planAmount m.plan ∧ w'.onPlan mandate m.plan ∧
                w'.credited mandate = 1) ∧ AllSplitAt platform 1 2 w
                  [switchContext merchant (flatPlan 1) mintA,
                    switchContext subscriber (flatPlan 2) mintA,
                    switchContext subscriber (flatPlan 0) mintA])) = true := by
    decide +kernel
  simp only [Option.any_eq_true, decide_eq_true_eq, toOption_eq_some] at ran
  obtain ⟨w, ran, m, found, w', changed, ⟨own, back, credited⟩, split⟩ := ran
  have reachable := runScript_reachable ⟨_, world_fresh 0, .refl⟩ ran
  refine ⟨w, w', mandate, _, rfl, reachable, changed, credited, ?_⟩
  exact cycle_credit_bounded reachable found own.le (by simp [switchContext]) (by norm_num)
    (by norm_num) split changed back

/-- A plan of amount 1 with an immense frequency makes the running period look almost over: half
of the amount is credited on the way there and nothing is charged on the way back. -/
theorem cycle_pumps_credit : ¬∀ (P : Platform) (w w' : World) (k : Pubkey) (mandate : VelaMandate)
    (switches : List UpdateMandatePlan), Reachable P w → w.currentMandate k = some mandate →
      mandate.status = .active → mandate.billingType = .flat → w.onOwnAmount k →
      (∀ ctx ∈ switches, ctx.mandate = k) →
      (∀ ctx ∈ switches, ∀ other ∈ switches, ctx.wrappedUsdcMint = other.wrappedUsdcMint) →
      changePlans P w switches = .ok w' → w'.onPlan k mandate.plan →
      w'.credited k + w.transferred k ≤ w'.transferred k + w.credited k + switches.length := by
  intro bounded
  have ran : (runScript (world 0) (halfPeriodOf [offerFlat 1 1 1000000 0 10 mintA])).any (fun w =>
        (w.currentMandate mandate).any fun m =>
          (changePlans platform w [switchContext merchant (flatPlan 1) mintA,
            switchContext subscriber (flatPlan 0) mintA]).toOption.any fun w' =>
              decide ((m.status = .active ∧ m.billingType = .flat ∧
                m.amount.toNat = w.planAmount m.plan) ∧ w'.onPlan mandate m.plan ∧
                w'.credited mandate = 49 ∧ w'.transferred mandate = 0 ∧
                  w.credited mandate = 0)) = true := by
    decide +kernel
  simp only [Option.any_eq_true, decide_eq_true_eq, toOption_eq_some] at ran
  obtain ⟨w, ran, m, found, w', changed, ⟨active, flat, own⟩, back, credited, paid, before⟩ := ran
  have reachable := runScript_reachable ⟨_, world_fresh 0, .refl⟩ ran
  have own : w.onOwnAmount mandate := fun other present =>
    Option.some.inj (found.symm.trans present) ▸ own
  have bound := bounded platform w w' mandate m _ reachable found active flat own
    (by simp [switchContext]) (by simp [switchContext]) changed back
  rw [credited, paid, before] at bound
  simp only [List.length_cons, List.length_nil] at bound
  omega

end VelaProtocol
