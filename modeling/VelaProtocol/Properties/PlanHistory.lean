import VelaProtocol.Entries
import VelaProtocol.Lib.Replay
import VelaProtocol.Properties.Identities

/-! Which plan a mandate is on and which one it waits for can be told from the upgrade events: what
was scheduled, finalised and cancelled since, replayed over what is known of the mandate. -/
namespace VelaProtocol

open Guard Monitored Replay

variable {P : Platform} {w w₁ w' : World} {k : Pubkey} {m m' : VelaMandate}

structure PlanView where
  plan : Pubkey
  pendingNewPlan : Pubkey
  pendingEffectiveAt : Int64
  pendingChangeType : UInt8
  deriving DecidableEq

def VelaMandate.planView (m : VelaMandate) : PlanView where
  plan := m.plan
  pendingNewPlan := m.pendingNewPlan
  pendingEffectiveAt := m.pendingEffectiveAt
  pendingChangeType := m.pendingChangeType

inductive UpgradeEvent where
  | initiated (e : MandateUpgradeInitiated)
  | finalized (e : MandateUpgradeFinalized)
  | cancelled (e : MandateUpgradeCancelled)

def UpgradeEvent.mandate : UpgradeEvent → Pubkey
  | .initiated e => e.mandate
  | .finalized e => e.mandate
  | .cancelled e => e.mandate

def UpgradeEvent.entry : UpgradeEvent → LogEntry
  | .initiated e => .mandateUpgradeInitiated e
  | .finalized e => .mandateUpgradeFinalized e
  | .cancelled e => .mandateUpgradeCancelled e

/-- How an indexer follows the events. An immediate change is initiated and finalised at once, so
only a scheduled one (type 2) waits. -/
def PlanView.follow (v : PlanView) : UpgradeEvent → PlanView
  | .initiated e =>
    if e.changeType = 2 then
      { v with
        pendingNewPlan := e.newPlan
        pendingEffectiveAt := e.appliedAt
        pendingChangeType := 2 }
    else v
  | .finalized e => ⟨e.newPlan, Pubkey.default, 0, 0⟩
  | .cancelled _ =>
    { v with
      pendingNewPlan := Pubkey.default
      pendingEffectiveAt := 0
      pendingChangeType := 0 }

def LogEntry.upgrade : LogEntry → Option UpgradeEvent
  | .mandateUpgradeInitiated e => some (.initiated e)
  | .mandateUpgradeFinalized e => some (.finalized e)
  | .mandateUpgradeCancelled e => some (.cancelled e)
  | _ => none

def LogEntry.upgradeOf (k : Pubkey) (entry : LogEntry) : Option UpgradeEvent :=
  entry.upgrade.filter fun e => e.mandate = k

def World.planView (w : World) (k : Pubkey) : Option PlanView :=
  (w.currentMandate k).map VelaMandate.planView

def planJournal (k : Pubkey) : Journal World UpgradeEvent (Option PlanView) :=
  .select World.log (LogEntry.upgradeOf k) (fun w => w.planView k)
    fun v e => v.map fun known => known.follow e

theorem upgradeOf_blind {e : LogEntry} (other : e.kind ≠ .change) : e.upgradeOf k = none := by
  cases e with
  | mandateUpgradeInitiated e => exact absurd rfl other
  | mandateUpgradeFinalized e => exact absurd rfl other
  | mandateUpgradeCancelled e => exact absurd rfl other
  | _ => rfl

theorem upgradeOf_entry (e : UpgradeEvent) :
    e.entry.upgradeOf k = if e.mandate = k then some e else none := by
  have read : e.entry.upgrade = some e := by cases e <;> rfl
  rw [LogEntry.upgradeOf, read, Option.filter_some]
  simp only [decide_eq_true_eq]

theorem Logs.plan_quiet {kinds : List LogKind} (logs : Logs kinds w w')
    (silent : LogKind.change ∉ kinds) (same : w'.planView k = w.planView k) :
    (planJournal k).Records w w' := by
  obtain ⟨new, log, known⟩ := logs
  refine .untold log (fun e member => upgradeOf_blind fun kind => ?_) same
  exact silent (kind ▸ known e member)

theorem planJournal_told (key : Pubkey) {e : UpgradeEvent} {before after : VelaMandate}
    (about : e.mandate = key) (log : w'.log = e.entry :: w.log)
    (found : w.currentMandate key = some before) (written : w'.currentMandate key = some after)
    (tells : after.planView = before.planView.follow e)
    (others : ∀ other, other ≠ key → w'.currentMandate other = w.currentMandate other) :
    (planJournal k).Records w w' := by
  subst about
  by_cases same : e.mandate = k
  · subst same
    refine .told log (by rw [upgradeOf_entry, if_pos rfl]) ?_
    rw [World.planView, World.planView, found, written, Option.map_some, Option.map_some,
      Option.map_some, tells]
  · refine .untold (show w'.log = [e.entry] ++ w.log from log) (fun l member => ?_) ?_
    · rw [List.mem_singleton.mp member, upgradeOf_entry, if_neg same]
    · rw [World.planView, World.planView, others k (Ne.symm same)]

theorem updateMandatePlan_told {ctx : UpdateMandatePlan} :
    Ensures (updateMandatePlan P w ctx) ((planJournal k).Records w) := by
  intro w' h
  obtain ⟨s, checked, h⟩ := bind_eq_ok.mp h
  have found := (checkPlanSwitch_eq_ok checked).found
  split at h
  · cases h
    exact .refl w
  · obtain ⟨delta, _, h⟩ := bind_eq_ok.mp h
    obtain ⟨amount, _, h⟩ := bind_eq_ok.mp h
    obtain ⟨⟨w₁, priced⟩, settled, h⟩ := bind_eq_ok.mp h
    cases h
    have tokens := settleProration_logs _ settled
    have frame := (settleProration_eq_ok settled).2
    have mandates := currentMandate_congr frame.mandate
    refine .trans ?announced (.trans (tokens.plan_quiet (by decide) ?_) ?_)
    case announced =>
      exact planJournal_told ctx.mandate (e := .initiated _) rfl rfl found found rfl fun _ _ => rfl
    · rw [World.planView, World.planView, mandates]
    · have found₁ := (mandates ctx.mandate).trans found
      refine planJournal_told ctx.mandate (e := .finalized _) rfl rfl found₁
        (writeMandate_self found₁ (fits_current _)) ?_ ?_
      · cases (settleProration_eq_ok settled).1 <;> rfl
      · exact fun other different => writeMandate_of_ne different _ _

theorem schedulePlanChange_told {ctx : SchedulePlanChange} :
    Ensures (schedulePlanChange P w ctx) ((planJournal k).Records w) := by
  intro w' h
  obtain ⟨s, checked, h⟩ := bind_eq_ok.mp h
  have found := (checkScheduling_eq_ok checked).found
  split at h
  · cases h
    exact .refl w
  · dsimp only at h
    split at h
    · cases h
      exact .refl w
    · cases h
      refine planJournal_told ctx.mandate (e := .initiated _) rfl rfl found
        (writeMandate_self found (fits_current _)) rfl ?_
      exact fun other different => writeMandate_of_ne different _ _

theorem cancelPlanChange_told {ctx : CancelPlanChange} :
    Ensures (cancelPlanChange P w ctx) ((planJournal k).Records w) := by
  intro w' h
  simp only [cancelPlanChange, check, bind_eq_ok, require_eq_ok, pure_eq_ok, exists_const] at h
  obtain ⟨_, _, loaded, load, _, _, _, _, _, _, rfl⟩ := h
  have found := loadMandateAccount_currentMandate load
  refine planJournal_told ctx.mandate (e := .cancelled _) rfl rfl found
    (writeMandate_self found (fits_current _)) rfl ?_
  exact fun other different => writeMandate_of_ne different _ _

theorem PullPaid.logs {ctx : ExecutePull} {merchant : Pubkey} {amount : UInt64}
    (paid : PullPaid w ctx merchant amount w') : Logs [.tokens] w w' := by
  cases paid with
  | covered zero unchanged => exact .of_log (congrArg World.log unchanged)
  | paid positive paid => exact paid.moved.logs

theorem Advanced.planView {before after : VelaMandate} {base : UInt64} {now : Int64}
    (advanced : Advanced (before.spendCredit base) now after) :
    after.planView = before.planView := by
  rw [advanced.rest]
  rfl

/-- What is announced is what is done: nothing, or the switch to the pending plan. -/
inductive ChangeAnnounced (mandate : VelaMandate) (terms : BilledTerms) : Prop
  | none (unannounced : terms.autoAppliedChange = .none) (same : terms.mandate = mandate)
  | switched (oldPlan : Pubkey) (appliedAt : Int64)
      (announced : terms.autoAppliedChange = some (oldPlan, mandate.pendingNewPlan, appliedAt))
      (switched : terms.mandate = mandate.switchPlan mandate.pendingNewPlan terms.plan)

theorem applyPending_announced {ctx : ExecutePull} {plan : LoadedPlanAccount}
    {usageReport : Option Pubkey} :
    Ensures (applyPending P w ctx m plan usageReport) (ChangeAnnounced m) :=
  .ite (fun _ => .skip fun _ => .of_pure (.switched _ _ rfl rfl)) fun _ => .of_pure (.none rfl rfl)

theorem prepareSettlement_announced {ctx : ExecutePull} :
    Ensures (prepareSettlement P w ctx) fun s => ChangeAnnounced s.pull.mandate s.terms := by
  refine .skip fun pull => .skip fun report => .bind applyPending_announced fun terms told => ?_
  exact .skip fun _ => .skip fun _ => .skip fun _ => .of_pure told

theorem emitAutoApplied_log (w : World) (ctx : ExecutePull) (mint oldPlan newPlan : Pubkey)
    (appliedAt : Int64) : ∃ e : MandateUpgradeFinalized, e.mandate = ctx.mandate ∧
      e.newPlan = newPlan ∧ (w.emitAutoApplied ctx mint (some (oldPlan, newPlan, appliedAt))).log =
        .mandateUpgradeFinalized e :: w.log := ⟨_, rfl, rfl, rfl⟩

theorem markUsageReportSettled_log (w : World) (key : Pubkey) (periodStart : Int64)
    (report : Option Pubkey) : (w.markUsageReportSettled key periodStart report).log = w.log := by
  cases report <;> rfl

theorem finishPull_told {ctx : ExecutePull} {legacy : Bool} {start : Int64} {mint : Pubkey}
    {report : Option Pubkey} {terms : BilledTerms} {base : UInt64} {now : Int64}
    (found : w.currentMandate ctx.mandate = some m) (announced : ChangeAnnounced m terms)
    (advanced : Advanced (terms.mandate.spendCredit base) now m') (fits : m'.Fits legacy) :
    (planJournal k).Records w ((((w.writeMandate ctx.mandate m' legacy).markUsageReportSettled
      ctx.mandate start report).emitAutoApplied ctx mint terms.autoAppliedChange).closeApproval
        ctx.mandate) := by
  obtain ⟨_, mandates, _⟩ := finishPull_frame (w.writeMandate ctx.mandate m' legacy) ctx start
    report mint terms.autoAppliedChange
  have stored := currentMandate_congr mandates
  have written := (stored ctx.mandate).trans (writeMandate_self found fits)
  have others : ∀ other, other ≠ ctx.mandate → _ = w.currentMandate other :=
    fun other different => (stored other).trans (writeMandate_of_ne different m' legacy)
  have settled := markUsageReportSettled_log (w.writeMandate ctx.mandate m' legacy) ctx.mandate
    start report
  cases announced with
  | none unannounced same =>
    rw [unannounced] at written others ⊢
    have silent : Logs [] w _ := .of_log settled
    refine silent.plan_quiet List.not_mem_nil ?_
    by_cases here : k = ctx.mandate
    · subst here
      change Option.map _ _ = Option.map _ _
      rw [found, Option.map_some, ← same, ← advanced.planView]
      exact congrArg _ written
    · exact congrArg _ (others k here)
  | switched oldPlan appliedAt announced switched =>
    rw [announced] at written others ⊢
    obtain ⟨e, about, newPlan, log⟩ := emitAutoApplied_log
      ((w.writeMandate ctx.mandate m' legacy).markUsageReportSettled ctx.mandate start report)
      ctx mint oldPlan m.pendingNewPlan appliedAt
    refine planJournal_told ctx.mandate (e := .finalized e) about ?log found written ?tells others
    case log => exact log.trans (congrArg _ settled)
    case tells =>
      rw [advanced.planView, switched, PlanView.follow, newPlan]
      rfl

theorem executePull_told {ctx : ExecutePull} :
    Ensures (executePull P w ctx) ((planJournal k).Records w) := by
  intro w' h
  obtain ⟨s, prepared, h⟩ := bind_eq_ok.mp h
  obtain ⟨paid, transferred, h⟩ := bind_eq_ok.mp h
  obtain ⟨after, advance, h⟩ := bind_eq_ok.mp h
  cases h
  have checked := prepareSettlement_eq_ok prepared
  have payment := invokeBillingTransfer_eq_ok transferred
  have mandates := currentMandate_congr payment.tokenOnly.mandate
  have advanced := advance_eq_ok advance
  refine (payment.logs.plan_quiet (by decide) (congrArg (Option.map _) (mandates k))).trans ?_
  exact finishPull_told ((mandates ctx.mandate).trans checked.pull.found)
    (prepareSettlement_announced _ prepared) advanced (pulled_fits checked.terms advanced)

def Remembered (k : Pubkey) (w w' : World) : Prop :=
  w'.currentMandate k = none ∨ (planJournal k).Records w w'

theorem Inert.planView (inert : Inert w w' k) (present : w'.currentMandate k = some m') :
    w'.planView k = w.planView k := by
  cases inert with
  | gone absent => exact absurd (present.symm.trans absent) (Option.some_ne_none m')
  | kept before after found stays terms =>
    rw [World.planView, World.planView, found, stays, Option.map_some, Option.map_some, terms.rest]
    rfl

theorem Inert.remembered {kinds : List LogKind} (inert : Inert w w' k) (logs : Logs kinds w w')
    (silent : LogKind.change ∉ kinds) : Remembered k w w' := by
  cases present : w'.currentMandate k with
  | none => exact .inl present
  | some m' => exact .inr (logs.plan_quiet silent (inert.planView present))

theorem Inert.unlogged (inert : Inert w w' k) (logs : Logs [] w w') : Remembered k w w' :=
  inert.remembered logs List.not_mem_nil

def MandateCall.changesPlan : MandateCall → Bool
  | .updateMandatePlan _ => true
  | .schedulePlanChange _ => true
  | .cancelPlanChange _ => true
  | .executePull _ => true
  | _ => false

theorem unquiet {c : MandateCall} (quiet : ∀ d ∈ some c, d.changesPlan = false)
    (changes : c.changesPlan = true) : False :=
  Bool.noConfusion (changes.symm.trans (quiet c rfl))

theorem MandateStep.unchanged {call : Option MandateCall} (step : MandateStep P k w w' call)
    (found : w.currentMandate k = some m) (quiet : ∀ c ∈ call, c.changesPlan = false) :
    Inert w w' k := by
  have occupied : w.mandate k ≠ none := by
    intro vacant
    rw [World.currentMandate, vacant] at found
    cases found
  cases step with
  | inert same _ _ => exact same
  | subscribed ctx plan mandate key spec => exact absurd (key ▸ spec.vacant) occupied
  | migrated ctx before after key spec => exact absurd (key ▸ spec.vacant) occupied
  | samePlan ctx s key checked plan unchanged => exact .of_eq (by rw [unchanged])
  | switched ctx s delta priced key spec => exact (unquiet quiet rfl).elim
  | alreadyScheduled ctx s key checked unchanged => exact .of_eq (by rw [unchanged])
  | scheduled ctx s nonce key checked changed written frame => exact (unquiet quiet rfl).elim
  | dropped ctx mandate key spec => exact (unquiet quiet rfl).elim
  | pulled ctx s after key spec => exact (unquiet quiet rfl).elim
  | requested ctx mandate plan key spec => exact key ▸ spec.inert
  | answered ctx mandate result key flat output spec => exact spec.inert

theorem quiet_call {key : Pubkey} {call : MandateCall} (quiet : call.changesPlan = false) :
    ∀ c ∈ if key = k then some call else none, c.changesPlan = false := by
  intro c made
  split at made
  · cases made
    exact quiet
  · cases made

theorem billing_remembered {i : Instruction} (found : w.currentMandate k = some m)
    (h : execute P w i = .ok w') : Remembered k w w' := by
  have inert := (instruction_mandateStep k h).unchanged found
  have uncalled : ∀ c ∈ (none : Option MandateCall), c.changesPlan = false := fun _ => nofun
  cases i with
  | createPlan ctx =>
    exact (inert uncalled).unlogged (createPlan_logs w' h)
  | createUsagePlan ctx =>
    exact (inert uncalled).unlogged (createUsagePlan_logs w' h)
  | updatePlan ctx => exact (inert uncalled).remembered (updatePlan_logs w' h) (by decide)
  | updateUsagePlan ctx => exact (inert uncalled).remembered (updateUsagePlan_logs w' h) (by decide)
  | migratePlan plan => exact (inert uncalled).unlogged (migratePlan_logs w' h)
  | subscribe ctx =>
    exact (inert (quiet_call rfl)).unlogged (subscribe_logs w' h)
  | cancel ctx => exact (inert uncalled).unlogged (cancel_logs w' h)
  | adminCancel ctx =>
    exact (inert uncalled).unlogged (adminCancel_logs w' h)
  | closeMandate ctx =>
    exact (inert uncalled).unlogged (closeMandate_logs w' h)
  | migrateMandate ctx =>
    exact (inert (quiet_call rfl)).unlogged (migrateMandate_logs w' h)
  | updateMandate ctx =>
    exact (inert uncalled).unlogged (updateMandate_logs w' h)
  | updateMandatePlan ctx => exact .inr (updateMandatePlan_told w' h)
  | schedulePlanChange ctx => exact .inr (schedulePlanChange_told w' h)
  | cancelPlanChange ctx => exact .inr (cancelPlanChange_told w' h)
  | requestValidation ctx =>
    exact (inert (quiet_call rfl)).remembered (requestValidation_logs w' h) (by decide)
  | validateMandateCallback ctx =>
    exact (inert (quiet_call rfl)).remembered (validateMandateCallback_logs w' h) (by decide)
  | submitUsageReport ctx =>
    exact (inert uncalled).unlogged (submitUsageReport_logs w' h)
  | requestUsageComputation ctx =>
    exact (inert uncalled).remembered (requestUsageComputation_logs w' h) (by decide)
  | usageChargeCallback ctx =>
    exact (inert uncalled).remembered (usageChargeCallback_logs w' h) (by decide)
  | executePull ctx => exact .inr (executePull_told w' h)
  | requestBillingRecord ctx =>
    exact (inert uncalled).remembered (requestBillingRecord_logs w' h) (by decide)
  | recordBillingEventCallback ctx =>
    exact (inert uncalled).remembered (recordBillingEventCallback_logs w' h) (by decide)

theorem updateStreamRate_elsewhere {ctx : UpdateStreamRate} (other : ctx.mandate ≠ k)
    (h : updateStreamRate P w ctx = .ok w') (same : w'.mandate = w.mandate) :
    (planJournal k).Records w w' := by
  simp only [updateStreamRate, check, orVela, bind_eq_ok, orError_eq_ok, require_eq_ok, pure_eq_ok,
    exists_const] at h
  obtain ⟨⟨config, s⟩, _, _, _, _, _, _, ⟨after, amount⟩, _, paid, payment, _, proration, _,
    rfl⟩ := h
  have paying : (planJournal k).Records w paid := by
    simp only [World.emit, World.writeStreamMandate] at same
    have view := congrArg (Option.map VelaMandate.planView) (currentMandate_congr same k)
    exact (payStream_logs _ payment).plan_quiet (by decide) view
  have entry (u : World) {e : LogEntry} (blind : e.upgradeOf k = none) :
      (planJournal k).Records u (u.emit e) := by
    refine .untold (show (u.emit e).log = [e] ++ u.log from rfl) (fun l member => ?_) rfl
    exact List.mem_singleton.mp member ▸ blind
  have written : (planJournal k).Records paid (paid.writeStreamMandate ctx.mandate
      (after.setRate ctx.newRate ctx.newAuthorizedMaxRate)) := .quiet rfl rfl
  have initiated (e : MandateUpgradeInitiated) (about : e.mandate = ctx.mandate) :
      (LogEntry.mandateUpgradeInitiated e).upgradeOf k = none :=
    (upgradeOf_entry (.initiated e)).trans (if_neg fun same => other (about.symm.trans same))
  have finalized (e : MandateUpgradeFinalized) (about : e.mandate = ctx.mandate) :
      (LogEntry.mandateUpgradeFinalized e).upgradeOf k = none :=
    (upgradeOf_entry (.finalized e)).trans (if_neg fun same => other (about.symm.trans same))
  exact (((paying.trans written).trans (entry _ (initiated _ rfl))).trans (entry _ rfl)).trans
    (entry _ (finalized _ rfl))

theorem streaming_quiet {i : StreamInstruction} (vacant : w.stream k = none)
    (h : executeStreaming P w i = .ok w') : (planJournal k).Records w w' := by
  have same : w'.mandate = w.mandate := protocol_mandates (i := .streaming i) (fun _ => nofun) h
  have view : w'.planView k = w.planView k := congrArg (Option.map _) (currentMandate_congr same k)
  cases i with
  | createStreamMandate ctx =>
    exact (createStreamMandate_logs w' h).plan_quiet (by decide) view
  | executeStream ctx => exact (executeStream_logs w' h).plan_quiet (by decide) view
  | pauseStream ctx => exact (pauseStream_logs w' h).plan_quiet (by decide) view
  | resumeStream ctx => exact (resumeStream_logs w' h).plan_quiet (by decide) view
  | updateStreamRate ctx =>
    refine updateStreamRate_elsewhere (fun here => ?_) h same
    obtain ⟨⟨config, s⟩, opened, _⟩ := bind_eq_ok.mp h
    obtain ⟨found, _, _⟩ := openStream_eq_ok opened
    rw [show ctx.toStreamControl.mandate = k from here, vacant] at found
    cases found
  | cancelStream ctx => exact (cancelStream_logs w' h).plan_quiet (by decide) view

theorem protocol_remembered {a : ProtocolAction} (found : w.currentMandate k = some m)
    (vacant : w.stream k = none) (step : ProtocolStep P w a w') : Remembered k w w' := by
  have quiet {kinds : List LogKind} (logs : Logs kinds w w') (silent : LogKind.change ∉ kinds)
      (same : w'.mandate = w.mandate) : Remembered k w w' :=
    .inr (logs.plan_quiet silent (congrArg (Option.map _) (currentMandate_congr same k)))
  cases a with
  | instruction i =>
    cases i with
    | billing i => exact billing_remembered found step
    | streaming i => exact .inr (streaming_quiet vacant step)
    | agent i =>
      have same := protocol_mandates (i := .agent i) (fun _ => nofun) step
      exact quiet (agent_logs w' step) (by decide) same
    | config i =>
      have same := protocol_mandates (i := .config i) (fun _ => nofun) step
      exact quiet (configure_logs w' step) (by decide) same
    | wrap ctx =>
      have logs : Logs [] w w' := .of_log (wrap_log w' step)
      exact quiet logs (by decide) (wrap_only step).frame.mandate
    | unwrapTokens ctx =>
      have logs : Logs [] w w' := .of_log (unwrapTokens_log w' step)
      exact quiet logs (by decide) (unwrapTokens_only step).frame.mandate
  | tick clock =>
    obtain ⟨_, rfl⟩ := step
    exact .inr (.quiet rfl rfl)
  | outside =>
    have logs : Logs [] w w' := .of_log step.log
    exact quiet logs (by decide) step.mandate

theorem protocol_log {a : ProtocolAction} (step : ProtocolStep P w a w') :
    ∃ new, w'.log = new ++ w.log := by
  have grown {kinds : List LogKind} (logs : Logs kinds w w') : ∃ new, w'.log = new ++ w.log := by
    obtain ⟨new, log, _⟩ := logs
    exact ⟨new, log⟩
  cases a with
  | instruction i =>
    cases i with
    | billing i => exact grown (billing_logs w' step)
    | streaming i => exact grown (streaming_logs w' step)
    | agent i => exact grown (agent_logs w' step)
    | config i => exact grown (configure_logs w' step)
    | wrap ctx => exact ⟨[], wrap_log w' step⟩
    | unwrapTokens ctx => exact ⟨[], unwrapTokens_log w' step⟩
  | tick clock =>
    obtain ⟨_, rfl⟩ := step
    exact ⟨[], rfl⟩
  | outside => exact ⟨[], step.log⟩

theorem Placed.no_stream {opened : List Seeds} (placed : Placed P w opened)
    (stored : w.stores k .mandate) : w.stream k = none := by
  obtain held := placed.held k .mandate stored
  refine Option.not_isSome_iff_eq_none.mp fun running => ?_
  exact absurd (placed.one_kind held (show w.stores k .stream from running)) (by decide)

/-- Since `w`, the mandate at `k` became what the events tell, or is gone for good. -/
structure Told (P : Platform) (w : World) (k : Pubkey) (w' : World) (opened : List Seeds) :
    Prop where
  placed : Placed P w' opened
  used : Used P opened k
  log : ∃ new, w'.log = new ++ w.log
  told : Remembered k w w'

theorem Told.step {opened : List Seeds} {a : ProtocolAction} (told : Told P w k w₁ opened)
    (step : ProtocolStep P w₁ a w') (lawful : Lawful P opened w₁ a w') :
    Told P w k w' (watchSeeds opened w₁ a w') := by
  obtain ⟨placed, used, ⟨old, log⟩, told⟩ := told
  obtain ⟨new, log'⟩ := protocol_log step
  refine ⟨placed.step (protocol_population step) lawful, used.step,
    ⟨new ++ old, by rw [log', log, List.append_assoc]⟩, ?_⟩
  cases found : w₁.currentMandate k with
  | none =>
    -- its address is used, so nothing is opened there any more
    have absent : ¬w₁.stores k .mandate := by
      rw [World.stores, found]
      decide
    exact .inl (Option.not_isSome_iff_eq_none.mp fun stored =>
      placed.appears .mandate step lawful absent stored used)
  | some m =>
    have stored : w₁.stores k .mandate := Option.isSome_iff_exists.mpr ⟨m, found⟩
    have records := told.resolve_left fun gone =>
      absurd (found.symm.trans gone) (Option.some_ne_none m)
    exact (protocol_remembered found (placed.no_stream stored) step).imp_right records.trans

/-- From any state on, replaying the upgrade events about a mandate that is still stored gives its
plan and what it waits for. -/
theorem plan_history_replayed {opened opened' : List Seeds} (placed : Placed P w opened)
    (found : w.currentMandate k = some m) (run : ProtocolRun P (w, opened) (w', opened'))
    (present : w'.currentMandate k = some m') :
    ∃ new, w'.log = new ++ w.log ∧
      m'.planView = replay PlanView.follow m.planView (new.filterMap (LogEntry.upgradeOf k)) := by
  have stored : w.stores k .mandate := Option.isSome_iff_exists.mpr ⟨m, found⟩
  have used : Used P opened k := placed.used stored
  have start : Told P w k w opened := ⟨placed, used, ⟨[], rfl⟩, .inr (.refl w)⟩
  obtain ⟨_, _, ⟨new, log⟩, told⟩ :=
    run.invariant (Told P w k) start fun _ _ _ _ told step lawful => told.step step lawful
  obtain ⟨entries, written, view⟩ := told.resolve_left fun gone =>
    absurd (present.symm.trans gone) (Option.some_ne_none m')
  have entries_eq : entries = new.filterMap (LogEntry.upgradeOf k) := by
    change w'.log.filterMap _ = entries ++ w.log.filterMap _ at written
    rw [log, List.filterMap_append] at written
    exact (List.append_cancel_right written).symm
  have follows : w'.planView k = replay (fun v e => v.map fun known => PlanView.follow known e)
      (w.planView k) (new.filterMap (LogEntry.upgradeOf k)) := entries_eq ▸ view
  rw [World.planView, World.planView, found, present, Option.map_some, Option.map_some,
    replay_some] at follows
  exact ⟨new, log, Option.some.inj follows⟩

open Deployment in
theorem plan_history_replayed_twice : ∃ (w w' : World) (m m' : VelaMandate)
    (new : List LogEntry), w.currentMandate mandate = some m ∧
    w'.currentMandate mandate = some m' ∧ m'.plan = flatPlan 1 ∧
      m'.pendingNewPlan = flatPlan 2 ∧ w'.log = new ++ w.log ∧
      m'.planView = replay PlanView.follow m.planView
        (new.filterMap (LogEntry.upgradeOf mandate)) := by
  have played : (play (applyProtocol platform) watchSeeds Plain (world 0, [])
      (threeOffers.map ofBilling)).any (fun x => (x.1.currentMandate mandate).isSome &&
        (play (applyProtocol platform) watchSeeds Plain x
          ([schedule subscriber (flatPlan 1), tick 3600, requestFlat (flatPlan 0) 3600 1,
            answerFlat 3600 1 true, pull (flatPlan 0) mintA [flatPlan 1],
            schedule subscriber (flatPlan 2)].map ofBilling)).any fun y =>
          (y.1.currentMandate mandate).any fun m' =>
            decide (m'.plan = flatPlan 1) && decide (m'.pendingNewPlan = flatPlan 2)) = true := by
    decide +kernel
  simp only [Option.any_eq_true, Bool.and_eq_true, decide_eq_true_eq,
    Option.isSome_iff_exists] at played
  obtain ⟨⟨w, opened⟩, script, ⟨m, found⟩, ⟨w', _⟩, rest, m', present, plan, pending⟩ := played
  have placed := (protocol_script script).placed (placed_empty rfl rfl rfl)
  obtain ⟨new, log, told⟩ := plan_history_replayed placed found (protocol_script rest) present
  exact ⟨w, w', m, m', new, found, present, plan, pending, log, told⟩

end VelaProtocol
