import VelaProtocol.Instructions.Subscriptions
import VelaProtocol.Properties.Decoders
import VelaProtocol.Properties.Resizing

/-! The ledger's mandates and plans as bytes. A stored account holds its contents in their own
layout with zero bytes up to its length; loading, writing and growing then mean the same on both
sides. -/
namespace VelaProtocol

open Codec Guard

variable {P : Platform} {w : World} {key : Pubkey} {info info' : AccountInfo}

structure StoresMandate (info : AccountInfo) (account : MandateAccount) : Prop where
  owner : info.owner = programId
  recognised : Raw.Recognised account.contents
  data : ∃ k, info.data = Layout.mandates.bytesOf (Raw.ofMandate account.contents) ++
    List.replicate k 0
  length : info.data.length = account.dataLen

variable {account : MandateAccount}

theorem StoresMandate.found (stores : StoresMandate info account) :
    Layout.mandates.load info.data = some (Raw.ofMandate account.contents) := by
  obtain ⟨owner, recognised, ⟨k, stored⟩, length⟩ := stores
  rw [stored]
  cases layout : account.contents with
  | current m =>
    rw [layout] at recognised
    exact Layered.load_current (l := Layout.mandates) recognised _
  | legacy old => exact Layered.load_legacy old k

theorem StoresMandate.load (stores : StoresMandate info account)
    (present : w.mandate key = some account) :
    Raw.loadMandateAccount info = .ok account.contents ∧
      loadMandateAccount w key = .ok account.contents := by
  refine ⟨Raw.loadMandateAccount_eq_ok.mpr ⟨stores.owner, stores.found⟩, ?_⟩
  rw [loadMandateAccount, present]
  cases layout : account.contents with
  | current m =>
    have version := stores.recognised
    rw [layout] at version
    simp only [layout]
    exact require_bind_eq_ok.mpr ⟨version, rfl⟩
  | legacy old => simp only [layout]

theorem StoresMandate.write {m : VelaMandate} {legacyLayout : Bool}
    (stores : StoresMandate info account) (present : w.mandate key = some account)
    (recognised : Raw.Recognised (mandateLayout m legacyLayout))
    (written : Raw.writeMandate info m legacyLayout = .ok info') :
    ∃ account', (w.writeMandate key m legacyLayout).mandate key = some account' ∧
      StoresMandate info' account' := by
  obtain ⟨data, stored, rfl⟩ := Raw.writeMandate_eq_ok.mp written
  have length := Layered.overwrite_length stored
  obtain ⟨-, shape⟩ := Layered.overwrite_eq_some.mp stored
  refine ⟨{ account with contents := mandateLayout m legacyLayout }, ?_, stores.owner, recognised,
    ⟨_, shape⟩, length.trans stores.length⟩
  simp only [World.writeMandate, Function.update_self, present, Option.map_some]

theorem StoresMandate.anchor {m : VelaMandate} (stores : StoresMandate info account)
    (present : w.mandate key = some account) :
    anchorVelaMandate w key = .ok m ↔ Raw.anchorVelaMandate info = .ok m := by
  obtain ⟨owner, -, ⟨k, stored⟩, length⟩ := stores
  rw [anchorVelaMandate_read, anchorVelaMandate, present]
  cases layout : account.contents with
  | current mandate =>
    rw [layout] at stored
    have decodes : Layout.velaMandateAccount.read info.data = some mandate :=
      Holds.read ⟨_, stored⟩
    simp only [layout, Except.ok.injEq, decodes, Option.some.injEq, owner, true_and]
  | legacy old =>
    rw [layout] at stored
    simp only [layout, require_bind_eq_ok, pure_eq_ok, ← length]
    constructor
    · rintro ⟨long, rfl⟩
      exact ⟨owner, read_padded stored long⟩
    · rintro ⟨-, decodes⟩
      have long := read_velaMandate_long decodes
      exact ⟨long, Option.some.inj ((read_padded stored long).symm.trans decodes)⟩

theorem StoresMandate.grow (stores : StoresMandate info account)
    (present : w.mandate key = some account)
    (written : Raw.writeMandateAccount (Raw.ensureMinMandateSize info) account.contents =
      .ok info') :
    ∃ account', (w.growMandate key).mandate key = some account' ∧
      StoresMandate info' account' := by
  obtain ⟨data, stored, rfl⟩ := Raw.writeMandateAccount_eq_ok.mp written
  have length := Layered.overwrite_length stored
  obtain ⟨-, shape⟩ := Layered.overwrite_eq_some.mp stored
  rw [ensureMinMandateSize_length, stores.length] at length
  refine ⟨{ account with dataLen := max account.dataLen VelaMandate.size }, ?_,
    (ensureMinMandateSize_owner info).trans stores.owner, stores.recognised, ⟨_, shape⟩, length⟩
  simp only [World.growMandate, Function.update_self, present, Option.map_some]

inductive StoresPlan (info : AccountInfo) : PlanAccount → Prop
  | flat (p : VelaPlan) (dataLen k : Nat) (version : p.version = currentAccountVersion)
      (data : info.data = Layout.flatPlans.bytesOf (.inl p) ++ List.replicate k 0) :
      StoresPlan info ⟨.flat p, dataLen⟩
  | legacyFlat (p : VelaPlanV1) (dataLen k : Nat)
      (data : info.data = Layout.flatPlans.bytesOf (.inr p) ++ List.replicate k 0) :
      StoresPlan info ⟨.legacyFlat p, dataLen⟩
  | usage (p : UsagePlan) (dataLen k : Nat) (version : p.version = currentAccountVersion)
      (data : info.data = Layout.usagePlans.bytesOf (.inl p) ++ List.replicate k 0) :
      StoresPlan info ⟨.usage p, dataLen⟩
  | legacyUsage (p : UsagePlanV1) (dataLen k : Nat)
      (data : info.data = Layout.usagePlans.bytesOf (.inr p) ++ List.replicate k 0) :
      StoresPlan info ⟨.legacyUsage p, dataLen⟩

theorem StoresPlan.load {plan : PlanAccount} {loaded : LoadedPlanAccount}
    (stores : StoresPlan info plan) (owner : info.owner = programId) (keyed : info.key = key)
    (present : w.plan key = some plan) (load : loadPlanAccount P w key = .ok loaded) :
    Raw.loadPlanAccount P info = .ok loaded := by
  obtain ⟨account, found, rfl, address⟩ := loadPlanAccount_eq_ok load
  obtain rfl := Option.some.inj (found.symm.trans present)
  rw [← keyed] at address
  cases stores with
  | flat p dataLen k version data => exact load_flat owner data version address
  | legacyFlat p dataLen k data => exact load_legacyFlat owner data address
  | usage p dataLen k version data => exact load_usage owner data version address
  | legacyUsage p dataLen k data => exact load_legacyUsage owner data address

def UpdateMandate.onBytes (ctx : UpdateMandate) (plan mandate : AccountInfo) :
    Raw.UpdateMandate where
  merchant := ctx.merchant
  plan := plan
  mandate := mandate
  amount := ctx.amount
  frequency := ctx.frequency
  maxPulls := ctx.maxPulls
  billingType := ctx.billingType
  planUpdate := ctx.planUpdate

/-- An update the ledger accepts is accepted on the bytes, which then hold what the ledger does. -/
theorem updateMandate_on_bytes {ctx : UpdateMandate} {w' : World} {plan mandate : AccountInfo}
    {planAccount : PlanAccount} (h : updateMandate P w ctx = .ok w')
    (planKey : plan.key = ctx.plan) (planOwner : plan.owner = programId)
    (planPresent : w.plan ctx.plan = some planAccount) (storesPlan : StoresPlan plan planAccount)
    (mandateKey : mandate.key = ctx.mandate) (present : w.mandate ctx.mandate = some account)
    (stores : StoresMandate mandate account) :
    ∃ info', Raw.updateMandate P (ctx.onBytes plan mandate) = .ok info' ∧
      ∃ account', w'.mandate ctx.mandate = some account' ∧ StoresMandate info' account' := by
  simp only [updateMandate, check, bind_eq_ok, require_eq_ok, pure_eq_ok, exists_const] at h
  obtain ⟨given, loaded, load, merchant, active, target, targetPlan, loadPlan, owner, planActive,
    amount, frequency, maxPulls, planKept, billingType, planType, rfl⟩ := h
  obtain ⟨account₂, found, layout, _, address⟩ := loadValidMandate_eq_ok load
  obtain rfl := Option.some.inj (found.symm.trans present)
  subst layout
  obtain ⟨info', written⟩ := write_grown mandate account₂.contents
  refine ⟨info', updateMandate_eq_ok_iff.mpr ⟨account₂.contents, (stores.load present).1,
    ⟨given, ?_, merchant, active, ?_, ⟨targetPlan, ?_, owner, planActive, planType⟩, amount,
      frequency, maxPulls, ?_, billingType⟩, written⟩, stores.grow present written⟩
  · show validateLoadedMandateAddress P mandate.key account₂.contents = .ok ()
    rw [mandateKey]
    exact address
  · exact planKey.trans target
  · exact storesPlan.load planOwner planKey planPresent loadPlan
  · intro next offered
    have offered : ctx.planUpdate = some next := offered
    rw [offered] at planKept
    exact planKept rfl

end VelaProtocol
