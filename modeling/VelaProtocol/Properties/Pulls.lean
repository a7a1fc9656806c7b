import VelaProtocol.Deployment

/-! Each pull settles one due date with one approval. Pulls are listed with the due date they
settle and the number of the callback that recorded the approval they consume. -/
namespace VelaProtocol

structure PullRecord where
  due : Int64
  /-- number of the callback that recorded the consumed approval -/
  approval : Nat
  deriving DecidableEq

structure PullHistory where
  /-- newest first -/
  pulls : List PullRecord
  recorded : Nat
  deriving DecidableEq

def PullHistory.none : PullHistory := ⟨[], 0⟩

def recordPull (k : Pubkey) : Monitored.Observe World Action PullHistory := fun h w a _ =>
  if a.recordsApproval k then { h with recorded := h.recorded + 1 }
  else match a.call k with
    | some (.executePull _) =>
      ⟨(w.currentMandate k).toList.map (fun mandate => ⟨mandate.nextPaymentDue, h.recorded⟩) ++
        h.pulls, h.recorded⟩
    | some (.subscribe _) => ⟨[], h.recorded⟩
    | some (.migrateMandate _) => ⟨[], h.recorded⟩
    | _ => h

/-- A later pull settles a later due date with a later approval. -/
def SettledAfter (later earlier : PullRecord) : Prop :=
  earlier.due.toInt < later.due.toInt ∧ earlier.approval < later.approval

inductive ChargeMoved (w : World) (ctx : ExecutePull) (charge : UInt64) (w' : World) : Prop
  | nothing (none : charge = 0 ∨ ctx.subscriberWrappedAccount = ctx.merchantWrappedAccount)
      (same : w'.tokenAccount = w.tokenAccount)
  | tokens
      (paid : w'.balance ctx.subscriberWrappedAccount + charge.toNat =
        w.balance ctx.subscriberWrappedAccount)
      (received : w'.balance ctx.merchantWrappedAccount =
        w.balance ctx.merchantWrappedAccount + charge.toNat)
      (others : ∀ address, address ≠ ctx.subscriberWrappedAccount →
        address ≠ ctx.merchantWrappedAccount → w'.tokenAccount address = w.tokenAccount address)

/-- What one successful pull asks for, moves and leaves behind. -/
structure SettledOnce (P : Platform) (w : World) (ctx : ExecutePull) (w' : World)
    (s : Settlement) (after : VelaMandate) : Prop where
  found : w.currentMandate ctx.mandate = some s.pull.mandate
  /-- approved for this mandate and its running period, and not expired -/
  approval : ApprovalChecked w ctx.mandate s.pull.period s.approval
  period : mandateBillingPeriod s.pull.mandate = .ok s.pull.period
  /-- the base charge of the terms billed -/
  terms : TermsBilled P w s.pull.mandate s.pull.plan s.terms
  base : baseChargeAmount s.terms s.approval = .ok s.base
  within_approval : s.chargeAmount ≤ s.approval.approvedAmount
  within_base : s.chargeAmount ≤ s.base
  moved : ChargeMoved w ctx s.chargeAmount w'
  receiver : 0 < s.chargeAmount → ∃ account,
    w.tokenAccount ctx.merchantWrappedAccount = some account ∧
      account.owner = s.pull.mandate.merchant ∧
      account.mint = effectiveMint s.pull.config.wrappedUsdcMint s.pull.plan
  closed : w'.pullApproval ctx.mandate = none
  written : w'.currentMandate ctx.mandate = some after
  due : s.pull.mandate.nextPaymentDue.toInt < after.nextPaymentDue.toInt
  pulls : after.pullsExecuted.toNat = s.pull.mandate.pullsExecuted.toNat + 1

variable {P : Platform} {k : Pubkey} {w w' : World}

theorem balance_congr (same : w'.tokenAccount = w.tokenAccount) (address : Pubkey) :
    w'.balance address = w.balance address := by
  rw [World.balance, World.balance, same]

theorem Pulled.moved {ctx : ExecutePull} {s : Settlement} {after : VelaMandate}
    (spec : Pulled P w ctx w' s after) : ChargeMoved w ctx s.chargeAmount w' := by
  obtain ⟨paid, outcome, tokens, _⟩ := spec.paid
  cases outcome with
  | covered zero unchanged => exact .nothing (.inl zero) (tokens.trans (by rw [unchanged]))
  | paid positive transfer =>
    cases transfer.moved with
    | nothing same unchanged => exact .nothing (.inr same) (tokens.trans (by rw [unchanged]))
    | tokens different log left received others =>
      refine .tokens ?_ ?_ fun address source destination => ?_
      · rw [balance_congr tokens]
        exact left
      · rw [balance_congr tokens]
        exact received
      · rw [tokens]
        exact others address source destination

theorem Pulled.receiver {ctx : ExecutePull} {s : Settlement} {after : VelaMandate}
    (spec : Pulled P w ctx w' s after) (positive : 0 < s.chargeAmount) :
    ∃ account, w.tokenAccount ctx.merchantWrappedAccount = some account ∧
      account.owner = s.pull.mandate.merchant ∧
      account.mint = effectiveMint s.pull.config.wrappedUsdcMint s.pull.plan := by
  obtain ⟨paid, outcome, _⟩ := spec.paid
  cases outcome with
  | covered zero unchanged => exact absurd zero (UInt64.ne_of_lt positive).symm
  | paid _ transfer =>
    obtain ⟨account, present, mint, owner⟩ := transfer.destination
    exact ⟨account, present, owner.trans spec.checked.terms.keeps.1,
      mint.trans spec.checked.pull.mint⟩

theorem Pulled.settledOnce {ctx : ExecutePull} {s : Settlement} {after : VelaMandate}
    (deployed : Deployed w) (spec : Pulled P w ctx w' s after) :
    SettledOnce P w ctx w' s after := by
  have pulls : after.pullsExecuted.toNat = s.terms.mandate.pullsExecuted.toNat + 1 :=
    spec.advanced.pulls
  rw [spec.checked.terms.keeps.2.2.1] at pulls
  have within_base : s.chargeAmount ≤ s.base := Checked.le_iff.mpr s.chargeAmount_le
  exact ⟨spec.checked.pull.found, spec.checked.approval, spec.checked.pull.period,
    spec.checked.terms, spec.checked.base,
    UInt64.le_trans within_base (baseChargeAmount_eq_ok spec.checked.base).2, within_base,
    spec.moved, spec.receiver, spec.closed, spec.written, spec.due_later deployed, pulls⟩

structure OnceEach (k : Pubkey) (w : World) (h : PullHistory) : Prop where
  ordered : h.pulls.Pairwise SettledAfter
  due : ∀ mandate, w.currentMandate k = some mandate →
    ∀ r ∈ h.pulls, r.due.toInt < mandate.nextPaymentDue.toInt
  counted : ∀ r ∈ h.pulls, r.approval ≤ h.recorded
  unspent : ∀ approval, w.pullApproval k = some approval → approval.approved = true →
    ∀ r ∈ h.pulls, r.approval < h.recorded

theorem OnceEach.none (k : Pubkey) (w : World) (recorded : Nat) : OnceEach k w ⟨[], recorded⟩ :=
  ⟨List.Pairwise.nil, fun _ _ _ found => absurd found List.not_mem_nil,
    fun _ found => absurd found List.not_mem_nil,
    fun _ _ _ _ found => absurd found List.not_mem_nil⟩

theorem OnceEach.unspent_kept {h : PullHistory} {a : Action} (once : OnceEach k w h)
    (step : ApprovalStep w w' k a) (other : ¬a.recordsApproval k) {approval : PullApproval}
    (present : w'.pullApproval k = some approval) (approved : approval.approved = true) :
    ∀ r ∈ h.pulls, r.approval < h.recorded := by
  cases step with
  | kept same => exact once.unspent approval (same ▸ present) approved
  | cleared bump reset =>
    obtain rfl := Option.some.inj (reset.symm.trans present)
    cases approved
  | closed gone => exact absurd (present.symm.trans gone) nofun
  | granted recorded request mandate granted amount spec ended => exact absurd recorded other

theorem OnceEach.due_kept {h : PullHistory} {call : Option MandateCall} (once : OnceEach k w h)
    (step : MandateStep P k w w' call) (keeps : ∀ c ∈ call, c.setsDue = false)
    {mandate : VelaMandate} (present : w'.currentMandate k = some mandate) :
    ∀ r ∈ h.pulls, r.due.toInt < mandate.nextPaymentDue.toInt := by
  intro r listed
  obtain ⟨before, found, same⟩ := step.due_kept keeps present
  rw [same]
  exact once.due before found r listed

theorem pull_once {ctx : ExecutePull} {s : Settlement} {after : VelaMandate} {h : PullHistory}
    (once : OnceEach ctx.mandate w h) (settled : SettledOnce P w ctx w' s after) :
    OnceEach ctx.mandate w'
      { h with pulls := ⟨s.pull.mandate.nextPaymentDue, h.recorded⟩ :: h.pulls } := by
  have approval := settled.approval
  have earlier := once.due _ settled.found
  refine ⟨List.pairwise_cons.mpr ⟨fun r listed => ⟨earlier r listed, ?_⟩, once.ordered⟩,
    fun mandate present r listed => ?_, fun r listed => ?_, fun _ present => ?_⟩
  · exact once.unspent _ approval.found approval.approved r listed
  · obtain rfl := Option.some.inj (settled.written.symm.trans present)
    have due := settled.due
    rcases List.mem_cons.mp listed with rfl | old
    · exact due
    · exact lt_trans (earlier r old) due
  · rcases List.mem_cons.mp listed with rfl | old
    · exact le_refl _
    · exact once.counted r old
  · exact absurd (present.symm.trans settled.closed) nofun

theorem step_once {h : PullHistory} {a : Action} (deployed : Deployed w) (once : OnceEach k w h)
    (step : Step P w a w') : OnceEach k w' (recordPull k h w a w') := by
  have classified := mandateStep k step
  have approval := (periodStep k step).approval
  by_cases records : a.recordsApproval k
  · -- a callback leaves the due date alone and gets the next number
    have keeps : ∀ c ∈ a.call k, c.setsDue = false := by
      intro c called
      unfold Action.recordsApproval at records
      split at records
      · simp only [Action.call, records, if_true, Option.mem_def, Option.some.injEq] at called
        exact called ▸ rfl
      · cases called
      · exact records.elim
    rw [recordPull, if_pos records]
    refine ⟨once.ordered, fun mandate present => once.due_kept classified keeps present,
      fun r listed => ?_, fun _ _ _ r listed => ?_⟩
    · exact Nat.le_succ_of_le (once.counted r listed)
    · exact Nat.lt_succ_of_le (once.counted r listed)
  · rw [recordPull, if_neg records]
    have kept : (∀ c ∈ a.call k, c.setsDue = false) → OnceEach k w' h := fun keeps =>
      ⟨once.ordered, fun mandate present => once.due_kept classified keeps present, once.counted,
        fun _ present approved => once.unspent_kept approval records present approved⟩
    generalize a.call k = call at classified kept
    cases classified with
    | subscribed ctx plan created key spec => exact .none k w' h.recorded
    | migrated ctx before after key spec => exact .none k w' h.recorded
    | pulled ctx s after key spec =>
      subst key
      have settled := spec.settledOnce deployed
      simp only [settled.found, Option.toList_some, List.map_cons, List.map_nil,
        List.singleton_append]
      exact pull_once once settled
    | _ => exact kept (by rintro c ⟨⟩ <;> rfl)

theorem run_once {w₀ : World} {h : PullHistory} (fresh : Fresh w₀)
    (run : Monitored.Run (Step P) (recordPull k) Monitored.Any (w₀, .none) (w, h)) :
    Deployed w ∧ OnceEach k w h :=
  run.invariant (fun w h => Deployed w ∧ OnceEach k w h) ⟨fresh.deployed, .none k w₀ 0⟩
    fun _ _ _ _ holds step _ => ⟨step_deployed holds.1 step, step_once holds.1 holds.2 step⟩

/-- In every run, each pull settles a later due date with a later approval than the pulls before
it, and moves at most what that approval and the base charge allow. -/
theorem pulls_settle_once {w₀ : World} {h : PullHistory} (fresh : Fresh w₀)
    (run : Monitored.Run (Step P) (recordPull k) Monitored.Any (w₀, .none) (w, h)) :
    h.pulls.Pairwise SettledAfter ∧
      ∀ ctx w', ctx.mandate = k → executePull P w ctx = .ok w' →
        ∃ s after, SettledOnce P w ctx w' s after := by
  obtain ⟨deployed, once⟩ := run_once fresh run
  refine ⟨once.ordered, fun ctx w' _ pull => ?_⟩
  obtain ⟨s, after, spec⟩ := executePull_eq_ok pull
  exact ⟨s, after, spec.settledOnce deployed⟩

open Deployment

def payAndApprove : List Action :=
  [offerUsage 0 100 3600 mintA, .instruction (.subscribe (subscription (usagePlan 0) mintA)),
    tick 3600] ++ payUsage (usagePlan 0) 0 3600 1 40 ++
  [tick 7200, report (usagePlan 0) 3600 7200, requestUsage (usagePlan 0) 3600 2,
    answerUsage 3600 2 60]

def secondPull : ExecutePull := pullContext (usagePlan 0) mintA [reportAccount 3600]

theorem second_pull_settles_once : ∃ (w w' : World) (h : PullHistory) (s : Settlement)
    (after : VelaMandate),
    h.pulls = [⟨3600, 1⟩] ∧ h.pulls.Pairwise SettledAfter ∧
      executePull platform w secondPull = .ok w' ∧
      SettledOnce platform w secondPull w' s after := by
  have played : (Monitored.play (applyAction platform) (recordPull mandate) Monitored.Any
      (world 0, .none) payAndApprove).any (fun x => decide (x.2.pulls = [⟨3600, 1⟩]) &&
        (executePull platform x.1 secondPull).toOption.isSome) = true := by
    decide +kernel
  obtain ⟨⟨w, h⟩, played, ends⟩ := (Option.any_eq_true _ _).mp played
  obtain ⟨pulls, pulled⟩ := Bool.and_eq_true_iff.mp ends
  obtain ⟨w', pulled⟩ := Option.isSome_iff_exists.mp pulled
  have pulled := toOption_eq_some.mp pulled
  obtain ⟨ordered, settles⟩ := pulls_settle_once (world_fresh 0)
    (Monitored.play_run (fun _ _ _ => applyAction_step) played)
  obtain ⟨s, after, settled⟩ := settles secondPull w' rfl pulled
  exact ⟨w, w', h, s, after, of_decide_eq_true pulls, ordered, pulled, settled⟩

end VelaProtocol
