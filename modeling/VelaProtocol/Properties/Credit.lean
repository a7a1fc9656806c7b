import VelaProtocol.Deployment

/-! The credit of a mandate as a ledger: what pulls bill, what of it is transferred and what is
taken from the credit, and what plan changes add to it. -/
namespace VelaProtocol

structure CreditLedger where
  billed : Nat
  moved : Nat
  used : Nat
  granted : Nat
  deriving DecidableEq

def CreditLedger.opened : CreditLedger := ⟨0, 0, 0, 0⟩

/-- The tokens a pull transfers, by the log. A transfer from an account to itself succeeds without
an entry and counts by what it was asked to move. -/
def tokensMoved (w : World) (ctx : ExecutePull) (w' : World) : Nat :=
  if ctx.subscriberWrappedAccount = ctx.merchantWrappedAccount then
    w.baseCharge ctx.mandate - w.creditOf ctx.mandate
  else w'.transferred ctx.mandate - w.transferred ctx.mandate

/-- Pulls enter what they bill, transfer and take off the credit, plan changes what they grant. -/
def watchCredit (k : Pubkey) (g : CreditLedger) (w : World) (call : MandateCall) (w' : World) :
    CreditLedger :=
  match call with
  | .subscribe _ => .opened
  | .migrateMandate _ => .opened
  | .updateMandatePlan _ => { g with granted := g.granted + (w'.credited k - w.credited k) }
  | .executePull ctx =>
    { g with
      billed := g.billed + w.baseCharge k
      moved := g.moved + tokensMoved w ctx w'
      used := g.used + (w.creditOf k - w'.creditOf k) }
  | _ => g

/-- What is billed is transferred or taken from the credit, and the credit is what was granted
and not yet taken. -/
structure Balanced (k : Pubkey) (w : World) (g : CreditLedger) : Prop where
  charges : g.billed = g.moved + g.used
  covered : g.used ≤ g.granted
  credit : ∀ mandate, w.currentMandate k = some mandate →
    mandate.creditBalance.toNat + g.used = g.granted

variable {P : Platform} {k : Pubkey} {w w' : World} {g : CreditLedger}

theorem Balanced.opened {mandate : VelaMandate} (present : w.currentMandate k = some mandate)
    (empty : mandate.creditBalance = 0) : Balanced k w .opened := by
  refine ⟨rfl, le_refl 0, fun other found => ?_⟩
  obtain rfl := Option.some.inj (present.symm.trans found)
  rw [empty]
  rfl

theorem Balanced.of_kept (balanced : Balanced k w g)
    (kept : ∀ after, w'.currentMandate k = some after → ∃ before,
      w.currentMandate k = some before ∧ after.creditBalance = before.creditBalance) :
    Balanced k w' g := by
  refine ⟨balanced.charges, balanced.covered, fun after present => ?_⟩
  obtain ⟨before, found, same⟩ := kept after present
  rw [same]
  exact balanced.credit before found

theorem Pulled.credit_left {ctx : ExecutePull} {s : Settlement} {after : VelaMandate}
    (spec : Pulled P w ctx w' s after) :
    after.creditBalance.toNat = s.pull.mandate.creditBalance.toNat - s.base.toNat := by
  rw [spec.advanced.rest]
  show (s.terms.mandate.spendCredit s.base).creditBalance.toNat = _
  rw [spendCredit_toNat, spec.checked.terms.keeps.2.2.2]

theorem Pulled.tokensMoved_eq {ctx : ExecutePull} {s : Settlement} {after : VelaMandate}
    (spec : Pulled P w ctx w' s after) : tokensMoved w ctx w' =
      w.baseCharge ctx.mandate - w.creditOf ctx.mandate := by
  unfold tokensMoved
  split_ifs with self
  · rfl
  · have charge := s.chargeAmount_toNat
    rw [spec.checked.terms.keeps.2.2.2, ← creditOf_eq spec.checked.pull.found, spec.base_eq]
      at charge
    rcases spec.transfers with ⟨same, zero | self'⟩ | grown
    · rw [World.transferred, same, ← World.transferred, Nat.sub_self, ← charge, zero]
      rfl
    · exact absurd self' self
    · rw [transferred_cons grown, ← charge]
      exact Nat.add_sub_cancel_left _ _

theorem call_balanced {call : MandateCall} (balanced : Balanced k w g)
    (step : MandateStep P k w w' (some call)) : Balanced k w' (watchCredit k g w call w') := by
  have terms_kept : call.setsTerms = false → Balanced k w' g := fun keeps =>
    balanced.of_kept fun after present => by
      obtain ⟨before, found, alike⟩ := step.terms_kept (fun _ same => by
        cases same
        exact keeps) present
      exact ⟨before, found, by rw [alike.rest]⟩
  cases step with
  | subscribed ctx plan mandate key spec =>
    obtain ⟨_, _, _, _, _, _, initial⟩ := spec.initial
    exact .opened (key ▸ spec.created) (by rw [initial]; rfl)
  | migrated ctx before after key spec =>
    obtain ⟨_, _, moved⟩ := spec.moved
    refine .opened (key ▸ spec.created) ?_
    rw [moved]
    exact spec.untouched.2.1
  | samePlan ctx s key checked plan unchanged =>
    rw [unchanged]
    simpa only [watchCredit, Nat.sub_self, Nat.add_zero] using balanced
  | switched ctx s delta priced key spec =>
    subst key
    refine ⟨balanced.charges, balanced.covered.trans (Nat.le_add_right _ _),
      fun after present => ?_⟩
    obtain rfl := Option.some.inj (spec.written.symm.trans present)
    have before := balanced.credit s.mandate spec.checked.found
    have granted := spec.credited
    have balance : (priced.creditBalance.toNat : Int) =
        s.mandate.creditBalance.toNat + max 0 (-delta) := by
      cases spec.settled with
      | charged amount approval value positive approved transfers credits closed same =>
        rw [same]
        omega
      | credited amount value negative entry mint granted transfers credits kept balance rest =>
        omega
      | nothing zero transfers credits kept same =>
        rw [same]
        omega
    show priced.creditBalance.toNat + g.used =
      g.granted + (w'.credited ctx.mandate - w.credited ctx.mandate)
    omega
  | pulled ctx s after key spec =>
    subst key
    have found := spec.checked.pull.found
    have before := balanced.credit s.pull.mandate found
    have left := spec.credit_left
    rw [spec.base_eq] at left
    have moved := spec.tokensMoved_eq
    have credit_before := creditOf_eq found
    have credit_after := creditOf_eq spec.written
    refine ⟨?_, ?_, fun mandate present => ?_⟩
    · have charges := balanced.charges
      simp only [watchCredit]
      omega
    · simp only [watchCredit]
      omega
    · obtain rfl := Option.some.inj (spec.written.symm.trans present)
      simp only [watchCredit]
      omega
  | _ => exact terms_kept rfl

/-- The mandate has just been opened, by a subscription or by a migration. -/
def OpenedAt (P : Platform) (k : Pubkey) (w₀ : World) : Prop :=
  (∃ w ctx, ctx.mandate = k ∧ subscribe P w ctx = .ok w₀) ∨
    ∃ w ctx, ctx.migratedMandate = k ∧ migrateMandate P w ctx = .ok w₀

theorem OpenedAt.balanced {w₀ : World} (opened : OpenedAt P k w₀) :
    Balanced k w₀ .opened := by
  rcases opened with ⟨w, ctx, rfl, start⟩ | ⟨w, ctx, rfl, start⟩
  · obtain ⟨plan, mandate, spec⟩ := subscribe_eq_ok start
    obtain ⟨_, _, _, _, _, _, initial⟩ := spec.initial
    exact .opened spec.created (by rw [initial]; rfl)
  · obtain ⟨before, after, spec⟩ := migrateMandate_eq_ok start
    obtain ⟨_, _, moved⟩ := spec.moved
    refine .opened spec.created ?_
    rw [moved]
    exact spec.untouched.2.1

/-- In every run from an opening, charges and credit balance at every moment; and from there only
the calls that open a mandate, change its plan at once or pull change its credit. -/
theorem credit_ledger_balances {w₀ : World} (opened : OpenedAt P k w₀)
    (run : MandateRun P k (watchCredit k) AnyCall (w₀, .opened) (w', g)) :
    (g.billed = g.moved + g.used ∧ g.used ≤ g.granted ∧
      ∀ mandate, w'.currentMandate k = some mandate →
        mandate.creditBalance.toNat = g.granted - g.used) ∧
    (∀ a w'' mandate, Step P w' a w'' → (∀ call ∈ a.call k, call.setsTerms = false) →
      w''.currentMandate k = some mandate → ∃ before, w'.currentMandate k = some before ∧
        mandate.creditBalance = before.creditBalance) ∧
    ∀ i e, execute P w' i = .error e → transact P w' i = w' := by
  have balanced : Balanced k w' g := by
    refine mandateRun_invariant run (Balanced k) opened.balanced ?_ ?_
    · intro w w' g balanced same quiet requests setting
      refine balanced.of_kept fun after present => ?_
      obtain ⟨before, found, alike⟩ := same.alike present
      exact ⟨before, found, by rw [alike.rest]⟩
    · exact fun w w' g call balanced step setting _ => call_balanced balanced step
  refine ⟨⟨balanced.charges, balanced.covered, fun mandate present => ?_⟩, ?_, ?_⟩
  · have credit := balanced.credit mandate present
    omega
  · intro a w'' mandate step keeps present
    obtain ⟨before, found, alike⟩ := (mandateStep k step).terms_kept keeps present
    exact ⟨before, found, by rw [alike.rest]⟩
  · intro i e failed
    rw [transact, failed]
    rfl

open Deployment

theorem second_pull_uses_credit : ∃ (w₀ w' : World) (g : CreditLedger),
    MandateRun platform mandate (watchCredit mandate) AnyCall (w₀, .opened) (w', g) ∧
      g = ⟨150, 125, 25, 25⟩ ∧ g.billed = g.moved + g.used := by
  have played : ((runScript (world 0) [offerUsage 0 100 3600 mintA,
      offerUsage 1 50 3600 mintA]).any fun w =>
        (subscribe platform w (subscription (usagePlan 0) mintA)).toOption.any fun w₀ =>
          (Monitored.play (applyAction platform) (onCall mandate (watchCredit mandate))
            (whenCall mandate AnyCall) (w₀, .opened) (tick 3600 ::
              payUsage (usagePlan 0) 0 3600 1 100 ++
              [tick 5400, switch merchant (usagePlan 1) mintA, tick 7200] ++
              payUsage (usagePlan 1) 3600 7200 2 50)).any
            fun x => x.2 = ⟨150, 125, 25, 25⟩) = true := by
    decide +kernel
  obtain ⟨w, w₀, ⟨w', g⟩, reachable, start, run, ends⟩ := scenario_check_from played
  have ends : g = ⟨150, 125, 25, 25⟩ := of_decide_eq_true ends
  have opened : OpenedAt platform mandate w₀ :=
    .inl ⟨w, subscription (usagePlan 0) mintA, rfl, start⟩
  exact ⟨w₀, w', g, run, ends, (credit_ledger_balances opened run).1.1⟩

end VelaProtocol
