import VelaProtocol.Properties.PlanLayouts
import VelaProtocol.Properties.RoundTrip

/-! `update_mandate` on the bytes: it grows the account, and the mandate in it stays as it was. -/
namespace VelaProtocol

open Codec Guard

variable {P : Platform} {ctx : Raw.UpdateMandate} {info info' : AccountInfo}
  {loaded : LoadedMandateAccount}

theorem ensureMinMandateSize_key (info : AccountInfo) :
    (Raw.ensureMinMandateSize info).key = info.key := by
  unfold Raw.ensureMinMandateSize
  split <;> rfl

theorem ensureMinMandateSize_owner (info : AccountInfo) :
    (Raw.ensureMinMandateSize info).owner = info.owner := by
  unfold Raw.ensureMinMandateSize
  split <;> rfl

theorem ensureMinMandateSize_length (info : AccountInfo) :
    (Raw.ensureMinMandateSize info).data.length = max info.data.length VelaMandate.size := by
  unfold Raw.ensureMinMandateSize
  split
  · rename_i long
    exact (Nat.max_eq_left long).symm
  · have size : VelaMandate.size = 268 := rfl
    simp only [Raw.growTo, List.length_append, List.length_take, List.length_replicate]
    omega

theorem ensureMinMandateSize_of_long (long : VelaMandate.size ≤ info.data.length) :
    Raw.ensureMinMandateSize info = info := if_pos long

/-- The arguments only repeat what the mandate says. -/
structure RepeatsTerms (ctx : Raw.UpdateMandate) (loaded : LoadedMandateAccount) : Prop where
  amount : ∀ next ∈ ctx.amount, next = loaded.amount
  frequency : ∀ next ∈ ctx.frequency, next = loaded.frequency
  maxPulls : ∀ next ∈ ctx.maxPulls, next = loaded.maxPulls
  plan : ∀ next ∈ ctx.planUpdate, next = loaded.plan
  billingType : ∀ next ∈ ctx.billingType, next = loaded.billingType

structure UpdateChecks (P : Platform) (ctx : Raw.UpdateMandate) (key : Pubkey)
    (loaded : LoadedMandateAccount) : Prop where
  given : ctx.amount.isSome ∨ ctx.frequency.isSome ∨ ctx.maxPulls.isSome ∨
    ctx.billingType.isSome ∨ ctx.planUpdate.isSome
  address : validateLoadedMandateAddress P key loaded = .ok ()
  merchant : loaded.merchant = ctx.merchant
  active : loaded.status = .active
  planKey : ctx.plan.key = ctx.planUpdate.getD loaded.plan
  target : ∃ plan, Raw.loadPlanAccount P ctx.plan = .ok plan ∧ plan.merchant = ctx.merchant ∧
    plan.status = .active ∧ ∀ next ∈ ctx.billingType, next = plan.billingType
  repeats : RepeatsTerms ctx loaded

theorem updateMandate_eq_ok_iff : Raw.updateMandate P ctx = .ok info' ↔
    ∃ loaded, Raw.loadMandateAccount ctx.mandate = .ok loaded ∧
      UpdateChecks P ctx ctx.mandate.key loaded ∧
      Raw.writeMandateAccount (Raw.ensureMinMandateSize ctx.mandate) loaded = .ok info' := by
  simp only [Raw.updateMandate, check, bind_eq_ok, require_eq_ok, exists_const]
  constructor
  · rintro ⟨given, loaded, load, _, address, merchant, active, planKey, plan, loadPlan, owner,
      planActive, amount, frequency, maxPulls, planKept, billingType, planType, written⟩
    refine ⟨loaded, load, ⟨given, address, merchant, active, planKey,
      ⟨plan, loadPlan, owner, planActive, planType⟩, amount, frequency, maxPulls, ?_,
      billingType⟩, written⟩
    intro next offered
    rw [Option.mem_def] at offered
    rw [offered] at planKept
    exact planKept rfl
  · rintro ⟨loaded, load, checks, written⟩
    obtain ⟨plan, loadPlan, owner, planActive, planType⟩ := checks.target
    refine ⟨checks.given, loaded, load, (), checks.address, checks.merchant, checks.active,
      checks.planKey, plan, loadPlan, owner, planActive, checks.repeats.amount,
      checks.repeats.frequency, checks.repeats.maxPulls, ?_, checks.repeats.billingType,
      planType, written⟩
    intro offered
    obtain ⟨next, offered⟩ := Option.isSome_iff_exists.mp offered
    rw [offered]
    exact checks.repeats.plan next offered

/-- What an update leaves: the mandate that was there, in an account of the current size. -/
structure OnlyResized (P : Platform) (ctx : Raw.UpdateMandate) (info' : AccountInfo) : Prop where
  kept : ∃ loaded, Raw.loadMandateAccount ctx.mandate = .ok loaded ∧
    Raw.loadMandateAccount info' = .ok loaded ∧ RepeatsTerms ctx loaded
  size : VelaMandate.size ≤ info'.data.length
  length : info'.data.length = max ctx.mandate.data.length VelaMandate.size
  key : info'.key = ctx.mandate.key
  owner : info'.owner = ctx.mandate.owner
  again : Raw.updateMandate P { ctx with mandate := info' } = .ok info'

theorem overwrite_idem {data bytes result : List UInt8}
    (h : Layered.overwrite data bytes = some result) :
    Layered.overwrite result bytes = some result :=
  (Layered.overwrite_congr (Layered.overwrite_length h) bytes).trans h

/-- An accepted update changes the size of the account and nothing of the mandate in it, and doing
it again changes nothing at all. -/
theorem update_mandate_only_resizes (h : Raw.updateMandate P ctx = .ok info') :
    OnlyResized P ctx info' := by
  obtain ⟨loaded, load, checks, written⟩ := updateMandate_eq_ok_iff.mp h
  obtain ⟨owner, found⟩ := Raw.loadMandateAccount_eq_ok.mp load
  obtain ⟨data, stored, rfl⟩ := Raw.writeMandateAccount_eq_ok.mp written
  have next : Raw.loadMandateAccount
      { Raw.ensureMinMandateSize ctx.mandate with data := data } = .ok loaded :=
    Raw.loadMandateAccount_eq_ok.mpr ⟨(ensureMinMandateSize_owner ctx.mandate).trans owner,
      Layered.load_of_write (Layered.load_valid found).1 stored⟩
  have length : data.length = max ctx.mandate.data.length VelaMandate.size :=
    (Layered.overwrite_length stored).trans (ensureMinMandateSize_length ctx.mandate)
  have long : VelaMandate.size ≤ data.length := by
    rw [length]
    exact Nat.le_max_right _ _
  have key := ensureMinMandateSize_key ctx.mandate
  refine ⟨⟨loaded, load, next, checks.repeats⟩, long, length, key,
    ensureMinMandateSize_owner ctx.mandate, ?_⟩
  refine updateMandate_eq_ok_iff.mpr ⟨loaded, next, ?_, ?_⟩
  · obtain ⟨given, address, merchant, active, planKey, target, repeats⟩ := checks
    rw [← key] at address
    obtain ⟨amount, frequency, maxPulls, plan, billingType⟩ := repeats
    exact ⟨given, address, merchant, active, planKey, target, amount, frequency, maxPulls, plan,
      billingType⟩
  · rw [ensureMinMandateSize_of_long long]
    exact Raw.writeMandateAccount_eq_ok.mpr ⟨data, overwrite_idem stored, rfl⟩

theorem write_grown (info : AccountInfo) (loaded : LoadedMandateAccount) :
    ∃ info', Raw.writeMandateAccount (Raw.ensureMinMandateSize info) loaded = .ok info' := by
  have fits : (Layout.mandates.bytesOf (Raw.ofMandate loaded)).length ≤
      (Raw.ensureMinMandateSize info).data.length := by
    have size : VelaMandate.size = 268 := rfl
    rw [ensureMinMandateSize_length, Raw.length_mandate]
    split <;> omega
  exact ⟨_, Raw.writeMandateAccount_eq_ok.mpr
    ⟨_, Layered.overwrite_eq_some.mpr ⟨fits, rfl⟩, rfl⟩⟩

def monthlyPlan : VelaPlan where
  merchant := Deployment.merchant
  planId := 0
  amount := 5000000
  frequency := 2592000
  trialPeriod := 0
  maxPulls := 12
  status := .active
  credentialMint := Deployment.credentialMint
  billingMint := Deployment.mintA
  bump := 255
  version := currentAccountVersion
  reserved := 0

def resizeMonthly : Raw.UpdateMandate where
  merchant := Deployment.merchant
  plan := ⟨Deployment.flatPlan 0, programId, Layout.flatPlans.bytesOf (.inl monthlyPlan) ++ []⟩
  mandate := ⟨deriveLegacyMandateAddress Deployment.platform Deployment.subscriber
    (Deployment.flatPlan 0), programId,
    Layout.mandates.bytesOf (.inr monthlyMandate) ++ List.replicate 0 0⟩
  amount := some 5000000
  frequency := none
  maxPulls := none
  billingType := none
  planUpdate := none

theorem monthly_mandate_only_resized : ∃ info',
    Raw.updateMandate Deployment.platform resizeMonthly = .ok info' ∧
      OnlyResized Deployment.platform resizeMonthly info' := by
  have load : Raw.loadMandateAccount resizeMonthly.mandate = .ok (.legacy monthlyMandate) :=
    Raw.loadMandateAccount_eq_ok.mpr ⟨rfl, Layered.load_legacy monthlyMandate 0⟩
  have loadPlan : Raw.loadPlanAccount Deployment.platform resizeMonthly.plan =
      .ok (.flat monthlyPlan) := load_flat rfl rfl rfl rfl
  have checks : UpdateChecks Deployment.platform resizeMonthly resizeMonthly.mandate.key
      (.legacy monthlyMandate) :=
    ⟨.inl rfl, require_of _ rfl, rfl, rfl, rfl, ⟨_, loadPlan, rfl, rfl, nofun⟩,
      fun next given => (Option.some.inj given).symm, nofun, nofun, nofun, nofun⟩
  obtain ⟨info', written⟩ := write_grown resizeMonthly.mandate (.legacy monthlyMandate)
  have accepted := updateMandate_eq_ok_iff.mpr ⟨_, load, checks, written⟩
  exact ⟨info', accepted, update_mandate_only_resizes accepted⟩

end VelaProtocol
