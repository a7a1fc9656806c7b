import VelaProtocol.Deployment

/-! The two limits of a mandate: the number of its pulls and its expiry. Both are read off the plan
at `subscribe`; a plan change replaces the first and leaves the second. -/
namespace VelaProtocol

variable {P : Platform} {w w' : World} {a : Action}

/-- No more pulls than the limit, and a live mandate has one left. -/
def VelaMandate.WithinLimit (mandate : VelaMandate) : Prop :=
  0 < mandate.maxPulls → mandate.pullsExecuted ≤ mandate.maxPulls ∧
    (mandate.status = .active → mandate.pullsExecuted < mandate.maxPulls)

/-- The plan at `key` allows more pulls than this mandate has seen. -/
def World.hasRoom (w : World) (key : Pubkey) (mandate : VelaMandate) : Prop :=
  0 < w.planMaxPulls key → mandate.pullsExecuted.toNat < w.planMaxPulls key

/-- A mandate only changes to a plan with room for another pull, at once or by its schedule. -/
def ChangesLeaveRoom (w : World) (k : Pubkey) : MandateCall → Prop
  | .updateMandatePlan ctx => ∀ mandate ∈ w.currentMandate k, mandate.plan = ctx.newPlan ∨
      w.hasRoom ctx.newPlan mandate
  | .executePull _ => ∀ mandate ∈ w.currentMandate k,
      mandate.changeDue w.clock.unixTimestamp → w.hasRoom mandate.pendingNewPlan mandate
  | _ => True

instance (w : World) (key : Pubkey) (mandate : VelaMandate) : Decidable (w.hasRoom key mandate) :=
  inferInstanceAs (Decidable (_ → _))

instance (w : World) (k : Pubkey) (call : MandateCall) : Decidable (ChangesLeaveRoom w k call) := by
  refine call.casesOn ?_ ?_ ?_ ?_ ?_ ?_ ?_ ?_ <;> intro _ <;> dsimp only [ChangesLeaveRoom] <;>
    infer_instance

theorem Pulled.room {ctx : ExecutePull} {s : Settlement} {after : VelaMandate}
    (spec : Pulled P w ctx w' s after) (room : ChangesLeaveRoom w ctx.mandate (.executePull ctx))
    (limited : 0 < s.terms.mandate.maxPulls.toNat) :
    s.terms.mandate.pullsExecuted.toNat < s.terms.mandate.maxPulls.toNat := by
  rw [spec.checked.terms.keeps.2.2.1]
  cases spec.checked.terms with
  | asIs undue mandate_eq plan_eq =>
    rw [mandate_eq]
    exact Checked.lt_iff.mp spec.checked.pull.pulls
  | switched applied mandate_eq =>
    have room := room s.pull.mandate spec.checked.pull.found applied.due
    have maxPulls : s.terms.mandate.maxPulls.toNat =
      w.planMaxPulls s.pull.mandate.pendingNewPlan := by
      rw [planMaxPulls_of_load applied.loaded, mandate_eq]
      rfl
    rw [maxPulls] at limited ⊢
    exact room limited

theorem step_withinLimit (step : Step P w a w') (room : OnEveryMandate ChangesLeaveRoom w a)
    (holds : ∀ k mandate, w.currentMandate k = some mandate → mandate.WithinLimit) :
    ∀ k mandate, w'.currentMandate k = some mandate → mandate.WithinLimit := by
  refine mandates_kept step room holds ?_ ?_ ?_ ?_ ?_
  · intro before after alike within limited
    have pulls : after.pullsExecuted = before.pullsExecuted := by rw [alike.rest]
    have maxPulls : after.maxPulls = before.maxPulls := by rw [alike.rest]
    rw [maxPulls] at limited
    rw [pulls, maxPulls]
    exact ⟨(within limited).1, (within limited).2 ∘ alike.live⟩
  · intro ctx plan mandate spec limited
    obtain ⟨_, _, _, _, _, _, initial⟩ := spec.initial
    have pulls : mandate.pullsExecuted = 0 := by rw [initial]; rfl
    rw [pulls]
    exact ⟨UInt64.le_of_lt limited, fun _ => limited⟩
  · intro ctx before after spec within limited
    obtain ⟨_, _, moved⟩ := spec.moved
    rw [moved] at limited ⊢
    exact within limited
  · intro ctx s delta priced spec room limited
    have room := (room s.mandate spec.checked.found).resolve_left spec.changed
    have pulls : (priced.switchPlan ctx.newPlan s.newPlan).pullsExecuted =
        s.mandate.pullsExecuted := by
      show priced.pullsExecuted = _
      rw [spec.settled.rest]
    have maxPulls : (priced.switchPlan ctx.newPlan s.newPlan).maxPulls = s.newPlan.maxPulls := rfl
    rw [World.hasRoom, planMaxPulls_of_load spec.checked.newPlan] at room
    rw [maxPulls] at limited
    have below := Checked.lt_iff.mpr (room (Checked.lt_iff.mp limited))
    rw [pulls, maxPulls]
    exact ⟨UInt64.le_of_lt below, fun _ => below⟩
  · intro ctx s after spec room _ limited
    have maxPulls : after.maxPulls = s.terms.mandate.maxPulls := by
      rw [spec.advanced.rest]
      rfl
    have pulls : after.pullsExecuted.toNat = s.terms.mandate.pullsExecuted.toNat + 1 :=
      spec.advanced.pulls
    have below := spec.room room (maxPulls ▸ Checked.lt_iff.mp limited)
    refine ⟨Checked.le_iff.mpr ?_, spec.advanced.open_pulls⟩
    rw [pulls, maxPulls]
    exact below

/-- In every run whose plan changes leave room for a pull, every mandate stays within its limit. -/
theorem pulls_within_limit {w₀ : World} (run : ProgramRun P ChangesLeaveRoom w₀ w)
    (initial : ∀ k mandate, w₀.currentMandate k = some mandate → mandate.WithinLimit) :
    ∀ k mandate, w.currentMandate k = some mandate → mandate.WithinLimit :=
  Monitored.Run.invariant run
    (fun w _ => ∀ k mandate, w.currentMandate k = some mandate → mandate.WithinLimit) initial
    fun _ _ _ _ holds step room => step_withinLimit step room holds

open Deployment

def payOnce (maxPulls : UInt64) : List Action :=
  [offerFlat 0 100 3600 0 10 mintA, offerFlat 1 100 3600 0 maxPulls mintA,
    .instruction (.subscribe (subscription (flatPlan 0) mintA)), tick 3600,
    requestFlat (flatPlan 0) 3600 1, answerFlat 3600 1 true, pull (flatPlan 0) mintA []]

theorem smaller_limit_with_room : ∃ (w : World) (m : VelaMandate),
    ProgramRun platform ChangesLeaveRoom (world 0) w ∧ w.currentMandate mandate = some m ∧
      m.maxPulls = 2 ∧ m.pullsExecuted = 1 ∧ m.WithinLimit := by
  have played : (Monitored.play (applyAction platform) (fun g _ _ _ => g)
      (fun _ w a _ => OnEveryMandate ChangesLeaveRoom w a) (world 0, ())
      (payOnce 2 ++ [switch merchant (flatPlan 1) mintA])).any (fun x =>
        (x.1.currentMandate mandate).any fun m => m.maxPulls = 2 ∧ m.pullsExecuted = 1) = true := by
    decide +kernel
  obtain ⟨w, run, ends⟩ := program_check
    (fun w => (w.currentMandate mandate).any fun m =>
      m.maxPulls = 2 ∧ m.pullsExecuted = 1) played
  obtain ⟨m, found, ends⟩ := (Option.any_eq_true _ _).mp ends
  obtain ⟨maxPulls, pulls⟩ := of_decide_eq_true ends
  exact ⟨w, m, run, found, maxPulls, pulls, pulls_within_limit run nofun mandate m found⟩

/-- A plan of a single pull takes over a mandate that has already seen one, and it stays active. -/
theorem smaller_limit_without_room : ¬∀ (P : Platform) (w : World) (k : Pubkey)
    (mandate : VelaMandate), Reachable P w → w.currentMandate k = some mandate →
      mandate.WithinLimit := by
  intro within
  have ran : (runScript (world 0) (payOnce 1 ++ [switch merchant (flatPlan 1) mintA])).any (fun w =>
      (w.currentMandate mandate).any fun m =>
        m.maxPulls = 1 ∧ m.pullsExecuted = 1 ∧ m.status = .active) = true := by
    decide +kernel
  simp only [Option.any_eq_true, decide_eq_true_eq] at ran
  obtain ⟨w, ran, m, found, maxPulls, pulls, active⟩ := ran
  have limit := within platform w mandate m (runScript_reachable ⟨_, world_fresh 0, .refl⟩ ran)
    found
  rw [VelaMandate.WithinLimit, maxPulls, pulls] at limit
  exact absurd ((limit (by decide)).2 active) (by decide)

/-- Every pull still open under this frequency and limit falls due before the expiry. -/
def VelaMandate.EndsInTime (mandate : VelaMandate) (frequency maxPulls : Nat) : Prop :=
  0 < mandate.expiry.toInt → ∀ n < maxPulls, mandate.pullsExecuted.toNat ≤ n →
    mandate.nextPaymentDue.toInt + (n - mandate.pullsExecuted.toNat : Nat) * frequency <
      mandate.expiry.toInt

def VelaMandate.OnSchedule (mandate : VelaMandate) : Prop :=
  mandate.EndsInTime mandate.frequency.toNat mandate.maxPulls.toNat

/-- A mandate only changes to a plan whose frequency and limit end before the expiry it has. -/
def ChangesEndInTime (w : World) (k : Pubkey) : MandateCall → Prop
  | .updateMandatePlan ctx => ∀ mandate ∈ w.currentMandate k, mandate.plan = ctx.newPlan ∨
      mandate.EndsInTime (w.planFrequency ctx.newPlan) (w.planMaxPulls ctx.newPlan)
  | .executePull _ => ∀ mandate ∈ w.currentMandate k, mandate.changeDue w.clock.unixTimestamp →
      mandate.EndsInTime (w.planFrequency mandate.pendingNewPlan)
        (w.planMaxPulls mandate.pendingNewPlan)
  | _ => True

instance (mandate : VelaMandate) (frequency maxPulls : Nat) :
    Decidable (mandate.EndsInTime frequency maxPulls) :=
  inferInstanceAs (Decidable (_ → _))

instance (mandate : VelaMandate) : Decidable mandate.OnSchedule :=
  inferInstanceAs (Decidable (mandate.EndsInTime _ _))

instance (w : World) (k : Pubkey) (call : MandateCall) : Decidable (ChangesEndInTime w k call) := by
  refine call.casesOn ?_ ?_ ?_ ?_ ?_ ?_ ?_ ?_ <;> intro _ <;> dsimp only [ChangesEndInTime] <;>
    infer_instance

theorem computeFlatExpiry_eq_ok {trialPeriod frequency maxPulls : UInt64} {start expiry : Int64}
    (h : computeFlatExpiry trialPeriod frequency maxPulls start = .ok expiry) :
    expiry = 0 ∨ 0 < trialPeriod.toNat ∧
      expiry.toInt = start.toInt + trialPeriod.toNat + frequency.toNat * maxPulls.toNat := by
  unfold computeFlatExpiry at h
  split at h
  · cases h
    exact .inl rfl
  · rename_i trial
    have positive : 0 < trialPeriod.toNat := by
      rw [← UInt64.toNat_inj] at trial
      exact Nat.pos_of_ne_zero trial
    simp only [orVela, Guard.orError_bind_eq_ok, Checked.mulU64_eq_some,
      Checked.addU64_eq_some] at h
    obtain ⟨billed, product, total, sum, h⟩ := h
    have value := (addDelay_eq_ok.mp h).2
    refine .inr ⟨positive, ?_⟩
    rw [value, sum, product]
    push_cast
    ring

theorem LoadedPlanAccount.expiry_eq_ok {plan : LoadedPlanAccount} {start expiry due : Int64}
    (ends : plan.expiry start = .ok expiry) (first : plan.initialNextPaymentDue start = .ok due) :
    expiry = 0 ∨
      expiry.toInt = due.toInt + plan.mandateFrequency.toNat * plan.maxPulls.toNat := by
  have flat : ∀ {trial frequency maxPulls : UInt64},
      computeFlatExpiry trial frequency maxPulls start = .ok expiry →
      addDelay start (if 0 < trial then trial else frequency) = .ok due →
      expiry = 0 ∨ expiry.toInt = due.toInt + frequency.toNat * maxPulls.toNat := by
    intro trial frequency maxPulls ends first
    refine (computeFlatExpiry_eq_ok ends).imp id ?_
    rintro ⟨positive, value⟩
    have trial_pos : 0 < trial := Checked.lt_iff.mpr positive
    rw [if_pos trial_pos] at first
    rw [value, (addDelay_eq_ok.mp first).2]
  cases plan with
  | flat p => exact flat ends first
  | legacyFlat p => exact flat ends first
  | usage p => exact .inl (Except.ok.inj ends).symm
  | legacyUsage p => exact .inl (Except.ok.inj ends).symm

theorem VelaMandate.EndsInTime.advance {before after : VelaMandate} {frequency maxPulls : Nat}
    (inTime : before.EndsInTime frequency maxPulls) (expiry : after.expiry = before.expiry)
    (pulls : after.pullsExecuted.toNat = before.pullsExecuted.toNat + 1)
    (due : after.nextPaymentDue.toInt = before.nextPaymentDue.toInt + frequency) :
    after.EndsInTime frequency maxPulls := by
  intro expires n below beyond
  rw [expiry] at expires ⊢
  have early := inTime expires n below (by omega)
  have split : n - before.pullsExecuted.toNat = n - after.pullsExecuted.toNat + 1 := by omega
  rw [split] at early
  rw [due]
  push_cast at early ⊢
  linarith

theorem Pulled.inTime {ctx : ExecutePull} {s : Settlement} {after : VelaMandate}
    (spec : Pulled P w ctx w' s after)
    (inTime : ChangesEndInTime w ctx.mandate (.executePull ctx))
    (onSchedule : s.pull.mandate.OnSchedule) : s.terms.mandate.OnSchedule := by
  cases spec.checked.terms with
  | asIs undue mandate_eq plan_eq => rwa [mandate_eq]
  | switched applied mandate_eq =>
    have inTime := inTime s.pull.mandate spec.checked.pull.found applied.due
    rw [planFrequency_of_load applied.loaded, planMaxPulls_of_load applied.loaded] at inTime
    rw [mandate_eq]
    exact inTime

theorem step_onSchedule (step : Step P w a w') (deployed : Deployed w)
    (inTime : OnEveryMandate ChangesEndInTime w a)
    (holds : ∀ k mandate, w.currentMandate k = some mandate → mandate.OnSchedule) :
    ∀ k mandate, w'.currentMandate k = some mandate → mandate.OnSchedule := by
  refine mandates_kept step inTime holds ?_ ?_ ?_ ?_ ?_
  · intro before after alike onSchedule
    rw [alike.rest]
    exact onSchedule
  · intro ctx plan mandate spec expires n below beyond
    obtain ⟨expiry, due, _, _, ends, first, initial⟩ := spec.initial
    have positive : 0 < plan.mandateFrequency.toNat :=
      Checked.lt_iff.mp (loaded_recurring deployed spec.loaded)
    rw [initial] at expires below ⊢
    change 0 < expiry.toInt at expires
    change n < plan.maxPulls.toNat at below
    change due.toInt + (n - (0 : UInt64).toNat : Nat) * plan.mandateFrequency.toNat < expiry.toInt
    rcases plan.expiry_eq_ok ends first with never | last
    · rw [never] at expires
      exact absurd expires (by decide)
    · have before : n * plan.mandateFrequency.toNat <
          plan.maxPulls.toNat * plan.mandateFrequency.toNat :=
          Nat.mul_lt_mul_of_pos_right below positive
      rw [last, UInt64.toNat_zero, Nat.sub_zero]
      rw [Nat.mul_comm plan.maxPulls.toNat] at before
      exact_mod_cast Int.add_lt_add_left (by exact_mod_cast before) _
  · intro ctx before after spec onSchedule
    obtain ⟨_, _, moved⟩ := spec.moved
    rw [moved]
    exact onSchedule
  · intro ctx s delta priced spec inTime
    have inTime := (inTime s.mandate spec.checked.found).resolve_left spec.changed
    rw [planFrequency_of_load spec.checked.newPlan, planMaxPulls_of_load spec.checked.newPlan]
      at inTime
    rw [spec.settled.rest]
    exact inTime
  · intro ctx s after spec inTime onSchedule
    have billed := spec.inTime inTime onSchedule
    have frequency : after.frequency = s.terms.mandate.frequency := by
      rw [spec.advanced.rest]
      rfl
    have maxPulls : after.maxPulls = s.terms.mandate.maxPulls := by
      rw [spec.advanced.rest]
      rfl
    have expiry : after.expiry = s.terms.mandate.expiry := by
      rw [spec.advanced.rest]
      rfl
    rw [VelaMandate.OnSchedule, frequency, maxPulls]
    exact billed.advance expiry spec.advanced.pulls spec.advanced.due

/-- In every run whose plan changes end in time, the open pulls of every mandate fall due before
its expiry. -/
theorem open_pulls_before_expiry {w₀ : World} (run : ProgramRun P ChangesEndInTime w₀ w)
    (reachable : Reachable P w₀)
    (initial : ∀ k mandate, w₀.currentMandate k = some mandate → mandate.OnSchedule) :
    ∀ k mandate, w.currentMandate k = some mandate → mandate.OnSchedule := by
  refine (Monitored.Run.invariant run (fun w _ => Deployed w ∧ ∀ k mandate,
    w.currentMandate k = some mandate → mandate.OnSchedule) ⟨reachable.deployed, initial⟩ ?_).2
  rintro w _ a w' ⟨deployed, holds⟩ step inTime
  exact ⟨step_deployed deployed step, step_onSchedule step deployed inTime holds⟩

def tryOut (frequency maxPulls : UInt64) : List Action :=
  [offerFlat 0 100 3600 1800 2 mintA, offerFlat 1 100 frequency 0 maxPulls mintA,
    .instruction (.subscribe (subscription (flatPlan 0) mintA))]

theorem shorter_plan_in_time : ∃ (w : World) (m : VelaMandate),
    ProgramRun platform ChangesEndInTime (world 0) w ∧ w.currentMandate mandate = some m ∧
      m.maxPulls = 1 ∧ m.expiry = 9000 ∧ m.OnSchedule := by
  have played : (Monitored.play (applyAction platform) (fun g _ _ _ => g)
      (fun _ w a _ => OnEveryMandate ChangesEndInTime w a) (world 0, ())
      (tryOut 7000 1 ++ [switch merchant (flatPlan 1) mintA])).any (fun x =>
        (x.1.currentMandate mandate).any fun m => m.maxPulls = 1 ∧ m.expiry = 9000) = true := by
    decide +kernel
  obtain ⟨w, run, ends⟩ := program_check
    (fun w => (w.currentMandate mandate).any fun m => m.maxPulls = 1 ∧ m.expiry = 9000) played
  obtain ⟨m, found, ends⟩ := (Option.any_eq_true _ _).mp ends
  obtain ⟨maxPulls, expiry⟩ := of_decide_eq_true ends
  exact ⟨w, m, run, found, maxPulls, expiry,
    open_pulls_before_expiry run ⟨_, world_fresh 0, .refl⟩ nofun mandate m found⟩

/-- Two periods of ten hours do not fit in before an expiry two hours and a half away. -/
theorem longer_plan_not_in_time : ¬∀ (P : Platform) (w : World) (k : Pubkey)
    (mandate : VelaMandate), Reachable P w → w.currentMandate k = some mandate →
      mandate.status = .active → 0 < mandate.maxPulls → mandate.OnSchedule := by
  intro inTime
  have ran : (runScript (world 0) (tryOut 36000 2 ++ [switch merchant (flatPlan 1) mintA])).any
      (fun w => (w.currentMandate mandate).any fun m =>
        decide (m.status = .active ∧ 0 < m.maxPulls) && !decide m.OnSchedule) = true := by
    decide +kernel
  simp only [Option.any_eq_true, Bool.and_eq_true, decide_eq_true_eq, Bool.not_eq_true',
    decide_eq_false_iff_not] at ran
  obtain ⟨w, ran, m, found, ⟨active, limited⟩, late⟩ := ran
  exact late (inTime platform w mandate m (runScript_reachable ⟨_, world_fresh 0, .refl⟩ ran)
    found active limited)

end VelaProtocol
