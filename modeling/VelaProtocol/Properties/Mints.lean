import VelaProtocol.Deployment

/-! The mint a mandate is billed in. It is not stored but read off the plan each time, so a plan
change can move charges and credit into another mint. -/
namespace VelaProtocol

def World.planMint (w : World) (key : Pubkey) : Option Pubkey :=
  (w.plan key).bind fun account =>
    if account.contents.billingMint = Pubkey.default then w.wrappedMint
    else some account.contents.billingMint

def World.billedMint (w : World) (k : Pubkey) : Option Pubkey :=
  (w.currentMandate k).bind fun mandate => w.planMint mandate.plan

structure MintHistory where
  /-- none after a subscription or a change of mint the subscriber asked for -/
  seen : Option Pubkey
  asked : List Pubkey

def MintHistory.none : MintHistory := ⟨.none, []⟩

def World.changesMint (w : World) (k : Pubkey) : Prop :=
  (w.currentMandate k).any (fun mandate => mandate.changeDue w.clock.unixTimestamp &&
    w.planMint mandate.pendingNewPlan ≠ w.planMint mandate.plan) = true

instance (w : World) (k : Pubkey) : Decidable (w.changesMint k) :=
  inferInstanceAs (Decidable (_ = _))

/-- Pulls and plan changes bill in the mint they are given; a schedule the subscriber signs while
no credit is held asks for its plan. -/
def watchMint (k : Pubkey) (g : MintHistory) (w : World) (call : MandateCall) (_ : World) :
    MintHistory :=
  match call with
  | .subscribe _ => .none
  | .migrateMandate _ => .none
  | .updateMandatePlan ctx =>
    if w.onPlan k ctx.newPlan then g else ⟨some ctx.wrappedUsdcMint, g.asked⟩
  | .schedulePlanChange ctx =>
    if w.signedBySubscriber k ctx.authority ∧ w.creditOf k = 0 then ⟨g.seen, ctx.newPlan :: g.asked⟩
    else g
  | .executePull ctx =>
    ⟨if w.changesMint k then .none else some ctx.wrappedUsdcMint, g.asked⟩
  | _ => g

/-- A plan is changed at once within one mint only, which is the mint charged; a scheduled change
to another mint is applied when the subscriber asked for it and no credit is held. -/
def KeepsMint (k : Pubkey) (g : MintHistory) (w : World) (call : MandateCall) (_ : World) : Prop :=
  match call with
  | .updateMandatePlan ctx => w.onPlan k ctx.newPlan ∨
      w.billedMint k = some ctx.wrappedUsdcMint ∧
        w.planMint ctx.newPlan = some ctx.wrappedUsdcMint
  | .executePull _ => w.changesMint k → w.creditOf k = 0 ∧
      ∀ mandate ∈ w.currentMandate k, mandate.pendingNewPlan ∈ g.asked
  | _ => True

instance (k : Pubkey) (g : MintHistory) (w : World) (call : MandateCall) (w' : World) :
    Decidable (KeepsMint k g w call w') := by
  refine call.casesOn ?_ ?_ ?_ ?_ ?_ ?_ ?_ ?_ <;> intro _ <;> dsimp only [KeepsMint] <;>
    infer_instance

/-- A call that bills in `mint` bills in the mandate's own mint, the one billed before and the one
any credit is held in, and whatever it moves or grants is in that mint. -/
structure BillsIn (k : Pubkey) (g : MintHistory) (w : World) (mint : Pubkey) (w' : World) :
    Prop where
  billed : w.billedMint k = some mint
  seen : ∀ before ∈ g.seen, before = mint
  credit : 0 < w.creditOf k → g.seen = some mint
  transfers : w'.transfersBy k = w.transfersBy k ∨
    ∃ t, t.mint = mint ∧ w'.transfersBy k = t :: w.transfersBy k
  credits : w'.creditsTo k = w.creditsTo k ∨
    ∃ e, e.mint = mint ∧ w'.creditsTo k = e :: w.creditsTo k

structure MintKept (k : Pubkey) (w : World) (g : MintHistory) : Prop where
  seen : ∀ mandate, w.currentMandate k = some mandate → ∀ mint ∈ g.seen,
    w.planMint mandate.plan = some mint
  credit : 0 < w.creditOf k → g.seen.isSome = true

variable {P : Platform} {k : Pubkey} {w w' : World} {g : MintHistory}

theorem billedMint_eq {mandate : VelaMandate} (found : w.currentMandate k = some mandate) :
    w.billedMint k = w.planMint mandate.plan := by
  rw [World.billedMint, found, Option.bind_some]

theorem SettingStep.planMint (step : SettingStep w w') {key mint : Pubkey}
    (h : w.planMint key = some mint) : w'.planMint key = some mint := by
  have change := step.plan key
  unfold World.planMint at h ⊢
  generalize w.plan key = before at change h
  generalize w'.plan key = after at change ⊢
  have kept : ∀ {old new : PlanAccount}, new.contents.billingMint = old.contents.billingMint →
      (if old.contents.billingMint = Pubkey.default then w.wrappedMint
        else some old.contents.billingMint) = some mint →
      (if new.contents.billingMint = Pubkey.default then w'.wrappedMint
        else some new.contents.billingMint) = some mint := by
    intro old new same h
    rw [same]
    split at h
    · rename_i wrapped
      rw [if_pos wrapped]
      exact step.wrappedMint mint h
    · rename_i own
      rw [if_neg own]
      exact h
  cases change with
  | unchanged =>
    obtain ⟨account, found, h⟩ := Option.bind_eq_some_iff.mp h
    rw [found, Option.bind_some]
    exact kept rfl h
  | created account recurring => cases h
  | edited old new recurring merchant billingMint billingType =>
    rw [Option.bind_some] at h ⊢
    exact kept billingMint h

theorem PullChecked.billed {ctx : ExecutePull} {p : Pull} (deployed : Deployed w)
    (checked : PullChecked P w ctx p) : w.planMint p.mandate.plan = some ctx.wrappedUsdcMint := by
  obtain ⟨account, found, contents, _⟩ := loadPlanAccount_eq_ok checked.plan
  have mint := checked.mint
  have registered := checked.tokenConfig
  rw [← checked.planKey, World.planMint, found, Option.bind_some, contents]
  unfold effectiveMint at mint
  split at mint
  · rename_i wrapped
    have proper : p.config.wrappedUsdcMint ≠ Pubkey.default := by
      intro same
      rw [mint, same, deployed.tokenConfig] at registered
      cases registered
    rw [if_pos wrapped, World.wrappedMint, checked.config, Option.map_some, Option.filter_some,
      if_pos (decide_eq_true proper), ← mint]
  · rename_i own
    rw [if_neg own, ← mint]

theorem MintKept.none {mandate : VelaMandate} (present : w.currentMandate k = some mandate)
    (empty : mandate.creditBalance = 0) : MintKept k w .none := by
  refine ⟨fun _ _ mint seen => (nomatch seen), fun held => ?_⟩
  rw [creditOf_eq present, empty] at held
  exact absurd held (lt_irrefl _)

theorem MintKept.of_plan {seen : Option Pubkey} {asked : List Pubkey} (kept : MintKept k w g)
    (setting : SettingStep w w') (same : g.seen = seen)
    (alike : ∀ after, w'.currentMandate k = some after → ∃ before,
      w.currentMandate k = some before ∧ after.plan = before.plan ∧
        after.creditBalance = before.creditBalance) : MintKept k w' ⟨seen, asked⟩ := by
  subst same
  constructor
  · intro after present mint seen
    obtain ⟨before, found, plan, _⟩ := alike after present
    rw [plan]
    exact setting.planMint (kept.seen before found mint seen)
  · intro held
    cases present : w'.currentMandate k with
    | none => exact absurd held (by rw [creditOf_none present]; exact lt_irrefl _)
    | some after =>
      obtain ⟨before, found, _, credit⟩ := alike after present
      rw [creditOf_eq present, credit, ← creditOf_eq found] at held
      exact kept.credit held

theorem MintKept.of_billed {mint : Pubkey} {asked : List Pubkey} {after : VelaMandate}
    (setting : SettingStep w w') (present : w'.currentMandate k = some after)
    (billed : w.planMint after.plan = some mint) : MintKept k w' ⟨some mint, asked⟩ := by
  refine ⟨fun mandate found seen same => ?_, fun _ => rfl⟩
  obtain rfl := Option.some.inj (present.symm.trans found)
  obtain rfl := Option.some.inj same
  exact setting.planMint billed

theorem inert_mintKept (kept : MintKept k w g) (same : Inert w w' k) (setting : SettingStep w w') :
    MintKept k w' g := by
  refine kept.of_plan setting rfl fun after present => ?_
  obtain ⟨before, found, alike⟩ := same.alike present
  exact ⟨before, found, by rw [alike.rest], by rw [alike.rest]⟩

theorem changesMint_iff {mandate : VelaMandate} (found : w.currentMandate k = some mandate) :
    w.changesMint k ↔ mandate.changeDue w.clock.unixTimestamp ∧
      w.planMint mandate.pendingNewPlan ≠ w.planMint mandate.plan := by
  rw [World.changesMint, found, Option.any_some, Bool.and_eq_true, decide_eq_true_iff,
    decide_eq_true_iff]

theorem pull_mintKept {ctx : ExecutePull} {s : Settlement} {after : VelaMandate}
    (deployed : Deployed w) (setting : SettingStep w w') (spec : Pulled P w ctx w' s after)
    (keeps : KeepsMint ctx.mandate g w (.executePull ctx) w') :
    MintKept ctx.mandate w' (watchMint ctx.mandate g w (.executePull ctx) w') := by
  have found := spec.checked.pull.found
  have billed := spec.checked.pull.billed deployed
  have plan : after.plan = s.terms.mandate.plan := by
    rw [spec.advanced.rest]
    rfl
  simp only [watchMint]
  by_cases changes : w.changesMint ctx.mandate
  · -- the subscriber asked for the new mint, and no credit is left in the old one
    have empty := (keeps changes).1
    rw [creditOf_eq found, ← spec.checked.terms.keeps.2.2.2] at empty
    rw [if_pos changes]
    refine ⟨fun _ _ mint seen => (nomatch seen), fun held => ?_⟩
    have spent : after.creditBalance.toNat = 0 := by
      rw [spec.advanced.rest]
      show (s.terms.mandate.spendCredit s.base).creditBalance.toNat = 0
      rw [spendCredit_toNat, empty, Nat.zero_sub]
    rw [creditOf_eq spec.written, spent] at held
    exact absurd held (lt_irrefl _)
  · rw [if_neg changes]
    refine .of_billed setting spec.written ?_
    rw [plan]
    cases spec.checked.terms with
    | asIs undue mandate_eq plan_eq => rw [mandate_eq, billed]
    | switched applied mandate_eq =>
      rw [mandate_eq]
      show w.planMint s.pull.mandate.pendingNewPlan = some ctx.wrappedUsdcMint
      by_contra other
      rw [← billed] at other
      exact changes ((changesMint_iff found).mpr ⟨applied.due, other⟩)

theorem call_mintKept {call : MandateCall} (deployed : Deployed w) (kept : MintKept k w g)
    (step : MandateStep P k w w' (some call)) (setting : SettingStep w w')
    (keeps : KeepsMint k g w call w') : MintKept k w' (watchMint k g w call w') := by
  cases step with
  | subscribed ctx plan mandate key spec =>
    obtain ⟨_, _, _, _, _, _, initial⟩ := spec.initial
    exact .none (key ▸ spec.created) (by rw [initial]; rfl)
  | migrated ctx before after key spec =>
    obtain ⟨_, _, moved⟩ := spec.moved
    refine .none (key ▸ spec.created) ?_
    rw [moved]
    exact spec.untouched.2.1
  | samePlan ctx s key checked plan unchanged =>
    have same : w.onPlan k ctx.newPlan := by
      rw [World.onPlan, ← key, checked.found, Option.map_some, plan]
    simp only [watchMint, if_pos same]
    exact unchanged ▸ kept
  | switched ctx s delta priced key spec =>
    have changed : ¬w.onPlan k ctx.newPlan := by
      rw [World.onPlan, ← key, spec.checked.found, Option.map_some, Option.some.injEq]
      exact spec.changed
    have mints := keeps.resolve_left changed
    simp only [watchMint, if_neg changed]
    exact .of_billed setting (key ▸ spec.written) mints.2
  | alreadyScheduled ctx s key checked unchanged =>
    simp only [watchMint]
    have alike : ∀ after, w'.currentMandate k = some after → ∃ before,
        w.currentMandate k = some before ∧ after.plan = before.plan ∧
          after.creditBalance = before.creditBalance :=
      fun after present => ⟨after, unchanged ▸ present, rfl, rfl⟩
    split_ifs
    · exact kept.of_plan setting rfl alike
    · exact kept.of_plan setting rfl alike
  | scheduled ctx s nonce key checked changed written frame =>
    simp only [watchMint]
    have alike : ∀ after, w'.currentMandate k = some after → ∃ before,
        w.currentMandate k = some before ∧ after.plan = before.plan ∧
          after.creditBalance = before.creditBalance := by
      intro after present
      obtain rfl := Option.some.inj (written.symm.trans present)
      exact ⟨s.mandate, key ▸ checked.found, rfl, rfl⟩
    split_ifs
    · exact kept.of_plan setting rfl alike
    · exact kept.of_plan setting rfl alike
  | dropped ctx before key spec =>
    refine kept.of_plan setting rfl fun after present => ?_
    obtain rfl := Option.some.inj (spec.written.symm.trans (key ▸ present))
    exact ⟨before, key ▸ spec.found, rfl, rfl⟩
  | pulled ctx s after key spec =>
    subst key
    exact pull_mintKept deployed setting spec keeps
  | requested ctx before plan key spec => exact inert_mintKept kept (key ▸ spec.inert) setting
  | answered ctx before result key flat output spec =>
    exact inert_mintKept kept spec.inert setting

theorem MintKept.billsIn {mint : Pubkey} {mandate : VelaMandate} (kept : MintKept k w g)
    (found : w.currentMandate k = some mandate) (billed : w.planMint mandate.plan = some mint)
    (transfers : w'.transfersBy k = w.transfersBy k ∨
      ∃ t, t.mint = mint ∧ w'.transfersBy k = t :: w.transfersBy k)
    (credits : w'.creditsTo k = w.creditsTo k ∨
      ∃ e, e.mint = mint ∧ w'.creditsTo k = e :: w.creditsTo k) : BillsIn k g w mint w' := by
  have seen : ∀ before ∈ g.seen, before = mint := fun before same =>
    Option.some.inj ((kept.seen mandate found before same).symm.trans billed)
  refine ⟨(billedMint_eq found).trans billed, seen, fun held => ?_, transfers, credits⟩
  obtain ⟨before, same⟩ := Option.isSome_iff_exists.mp (kept.credit held)
  rw [same, seen before same]

theorem Pulled.billsIn {ctx : ExecutePull} {s : Settlement} {after : VelaMandate}
    (deployed : Deployed w) (kept : MintKept ctx.mandate w g) (spec : Pulled P w ctx w' s after) :
    BillsIn ctx.mandate g w ctx.wrappedUsdcMint w' := by
  refine kept.billsIn spec.checked.pull.found (spec.checked.pull.billed deployed) ?_
    (.inl (spec.credits _))
  rcases spec.transfers with ⟨same, _⟩ | grown
  · exact .inl same
  · exact .inr ⟨_, rfl, grown⟩

theorem Switched.billsIn {ctx : UpdateMandatePlan} {s : PlanSwitch} {delta : Int}
    {priced : VelaMandate} (kept : MintKept ctx.mandate w g)
    (spec : Switched P w ctx w' s delta priced)
    (billed : w.billedMint ctx.mandate = some ctx.wrappedUsdcMint) :
    BillsIn ctx.mandate g w ctx.wrappedUsdcMint w' := by
  have found := spec.checked.found
  rw [billedMint_eq found] at billed
  cases spec.settled with
  | charged amount approval value positive approved transfers credits closed same =>
    refine kept.billsIn found billed ?_ (.inl credits)
    rcases transfers with ⟨same, _⟩ | grown
    · exact .inl same
    · exact .inr ⟨_, rfl, grown⟩
  | credited amount value negative entry mint granted transfers credits unused balance rest =>
    exact kept.billsIn found billed (.inl transfers) (.inr ⟨entry, mint, credits⟩)
  | nothing zero transfers credits unused same =>
    exact kept.billsIn found billed (.inl transfers) (.inl credits)

/-- From `subscribe` on, while plans change within one mint or at the subscriber's wish without
credit, every pull and every plan change bills in the mint billed before, the one credit is in. -/
theorem billing_stays_in_mint {w₀ : World} {ctx : Subscribe} (reachable : Reachable P w)
    (start : subscribe P w ctx = .ok w₀)
    (run : MandateRun P ctx.mandate (watchMint ctx.mandate) (KeepsMint ctx.mandate) (w₀, .none)
      (w', g)) :
    (∀ pull w'', pull.mandate = ctx.mandate → executePull P w' pull = .ok w'' →
      BillsIn ctx.mandate g w' pull.wrappedUsdcMint w'') ∧
    ∀ change w'', change.mandate = ctx.mandate → updateMandatePlan P w' change = .ok w'' →
      ¬w'.onPlan ctx.mandate change.newPlan →
      KeepsMint ctx.mandate g w' (.updateMandatePlan change) w'' →
        w'.planMint change.newPlan = some change.wrappedUsdcMint ∧
          BillsIn ctx.mandate g w' change.wrappedUsdcMint w'' := by
  have subscribed : Step P w (.instruction (.subscribe ctx)) w₀ := start
  obtain ⟨plan, mandate, spec⟩ := subscribe_eq_ok start
  obtain ⟨_, _, _, _, _, _, initial⟩ := spec.initial
  obtain ⟨deployed, kept⟩ := deployedRun_invariant run (reachable.step subscribed).deployed
    (MintKept ctx.mandate) (.none spec.created (by rw [initial]; rfl))
    (fun _ _ _ _ kept same _ _ setting => inert_mintKept kept same setting)
    fun _ _ _ _ deployed kept step setting keeps =>
      call_mintKept deployed kept step setting keeps
  refine ⟨fun pull w'' key done => ?_, fun change w'' key done changes keeps => ?_⟩
  · obtain ⟨s, after, spec⟩ := executePull_eq_ok done
    rw [← key] at kept ⊢
    exact spec.billsIn deployed kept
  · rcases updateMandatePlan_eq_ok done with ⟨_, s, checked, same⟩ | ⟨s, delta, priced, spec⟩
    · refine absurd ?_ changes
      rw [World.onPlan, ← key, checked.found, Option.map_some, same]
    · obtain ⟨billed, mint⟩ := keeps.resolve_left changes
      rw [← key] at kept billed ⊢
      exact ⟨mint, spec.billsIn kept billed⟩

open Deployment

def payAndOffer (mint : Pubkey) : List Action × List Action :=
  ([offerFlat 0 100 3600 0 10 mintA, offerFlat 1 50 3600 0 10 mint],
    [tick 3600, requestFlat (flatPlan 0) 3600 1, answerFlat 3600 1 true,
    pull (flatPlan 0) mintA []])

theorem downgrade_bills_in_mint : ∃ (w w' w'' : World) (g : MintHistory),
    Reachable platform w ∧ g.seen = some mintA ∧
      updateMandatePlan platform w' (switchContext merchant (flatPlan 1) mintA) = .ok w'' ∧
      w''.credited mandate = 50 ∧ BillsIn mandate g w' mintA w'' := by
  have played : (scenario (watchMint mandate) (KeepsMint mandate) (fun _ => .none)
      (payAndOffer mintA).1 (flatPlan 0) (payAndOffer mintA).2).any (fun x =>
        x.2.seen = some mintA && (updateMandatePlan platform x.1
          (switchContext merchant (flatPlan 1) mintA)).toOption.any fun w'' =>
            ¬x.1.onPlan mandate (flatPlan 1) ∧ w''.credited mandate = 50 ∧
              x.1.billedMint mandate = some mintA ∧
                x.1.planMint (flatPlan 1) = some mintA) = true := by
    decide +kernel
  obtain ⟨w, w₀, ⟨w', g⟩, reachable, start, run, ends⟩ := scenario_check played
  simp only [Option.any_eq_true, Bool.and_eq_true, decide_eq_true_eq, toOption_eq_some] at ends
  obtain ⟨seen, w'', done, changes, credited, billed, mint⟩ := ends
  have bills := (billing_stays_in_mint reachable start run).2
    (switchContext merchant (flatPlan 1) mintA) w'' rfl done changes (.inr ⟨billed, mint⟩)
  exact ⟨w, w', w'', g, reachable, seen, done, credited, bills.2⟩

/-- The merchant alone moves the mandate to a cheaper plan in another mint: the credit is counted
in that mint, though the payment it comes from was made in the first. -/
theorem downgrade_changes_mint : ¬∀ (P : Platform) (w w₀ w' w'' : World) (ctx : Subscribe)
    (g : MintHistory) (change : UpdateMandatePlan), Reachable P w → subscribe P w ctx = .ok w₀ →
      MandateRun P ctx.mandate (watchMint ctx.mandate) AnyCall (w₀, .none) (w', g) →
      change.mandate = ctx.mandate → ¬w'.signedBySubscriber ctx.mandate change.authority →
      updateMandatePlan P w' change = .ok w'' → ¬w'.onPlan ctx.mandate change.newPlan →
      BillsIn ctx.mandate g w' change.wrappedUsdcMint w'' := by
  intro bills
  have played : (scenario (watchMint mandate) AnyCall (fun _ => .none) (payAndOffer mintB).1
      (flatPlan 0) (payAndOffer mintB).2).any (fun x =>
        x.2.seen = some mintA && (updateMandatePlan platform x.1
          (switchContext merchant (flatPlan 1) mintB)).toOption.any fun w'' =>
            ¬x.1.signedBySubscriber mandate merchant ∧ ¬x.1.onPlan mandate (flatPlan 1) ∧
              w''.credited mandate = 50) = true := by
    decide +kernel
  obtain ⟨w, w₀, ⟨w', g⟩, reachable, start, run, ends⟩ := scenario_check played
  simp only [Option.any_eq_true, Bool.and_eq_true, decide_eq_true_eq, toOption_eq_some] at ends
  obtain ⟨seen, w'', done, unsigned, changes, _⟩ := ends
  have clash := (bills platform w w₀ w' w'' _ g (switchContext merchant (flatPlan 1) mintB)
    reachable start run rfl unsigned done changes).seen mintA seen
  exact absurd clash (by decide)

end VelaProtocol
