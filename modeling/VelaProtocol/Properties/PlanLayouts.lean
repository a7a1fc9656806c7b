import VelaProtocol.Bytes

/-! Plans brought from their legacy layout into the current one. Everything a plan is asked for
stays the same, and so does the hash reports are bound to. -/
namespace VelaProtocol

open Codec Guard

instance : Canonical Layout.flatPlans.current := inferInstanceAs (Canonical Layout.velaPlan)
instance : Canonical Layout.usagePlans.current := inferInstanceAs (Canonical Layout.usagePlan)

/-- Two plans that answer alike to everything subscriptions, billing and plan changes ask. -/
structure SameAnswers (P : Platform) (key : Pubkey) (p q : LoadedPlanAccount) : Prop where
  billingType : p.billingType = q.billingType
  merchant : p.merchant = q.merchant
  credentialMint : p.credentialMint = q.credentialMint
  billingMint : p.billingMint = q.billingMint
  status : p.status = q.status
  mandateAmount : p.mandateAmount = q.mandateAmount
  mandateFrequency : p.mandateFrequency = q.mandateFrequency
  maxPulls : p.maxPulls = q.maxPulls
  usageTierCount : p.usageTierCount = q.usageTierCount
  usageTermsHash : p.usageTermsHash P key = q.usageTermsHash P key
  planId : p.planId = q.planId
  bump : p.bump = q.bump
  isFlat : p.isFlat = q.isFlat
  expiry : ∀ start, p.expiry start = q.expiry start
  initialNextPaymentDue : ∀ start, p.initialNextPaymentDue start = q.initialNextPaymentDue start

theorem sameAnswers_flat (P : Platform) (key : Pubkey) (old : VelaPlanV1) :
    SameAnswers P key (.flat old.upgrade) (.legacyFlat old) :=
  ⟨rfl, rfl, rfl, rfl, rfl, rfl, rfl, rfl, rfl, rfl, rfl, rfl, rfl, fun _ => rfl, fun _ => rfl⟩

theorem sameAnswers_usage (P : Platform) (key : Pubkey) (old : UsagePlanV1) :
    SameAnswers P key (.usage old.upgrade) (.legacyUsage old) :=
  ⟨rfl, rfl, rfl, rfl, rfl, rfl, rfl, rfl, rfl, rfl, rfl, rfl, rfl, fun _ => rfl, fun _ => rfl⟩

variable {P : Platform} {info info' : AccountInfo}

theorem validatePlan_eq_ok {plan loaded : LoadedPlanAccount} :
    Raw.validatePlan P info plan = .ok loaded ↔
      info.key = (P.findProgramAddress plan.seeds).1 ∧ plan = loaded := by
  simp only [Raw.validatePlan, check, require_bind_eq_ok, pure_eq_ok]

theorem legacyPlan_eq_ok {plan loaded : LoadedPlanAccount} (k : Nat) :
    Raw.legacyPlan P info plan (List.replicate k 0) = .ok loaded ↔
      info.key = (P.findProgramAddress plan.seeds).1 ∧ plan = loaded := by
  simp only [Raw.legacyPlan, require_bind_eq_ok, validatePlan_eq_ok, Layered.blank_replicate,
    true_and]

theorem load_flat {p : VelaPlan} {rest : List UInt8} (owner : info.owner = programId)
    (stored : info.data = Layout.flatPlans.bytesOf (.inl p) ++ rest)
    (version : p.version = currentAccountVersion)
    (address : info.key = (P.findProgramAddress (.plan p.merchant p.planId)).1) :
    Raw.loadPlanAccount P info = .ok (.flat p) := by
  have front : info.data.take 8 = Layout.VelaPlan.discriminator := by
    rw [stored]
    exact Layered.take_bytesOf (l := Layout.flatPlans) _ _
  have latest : Layout.flatPlans.latestIn info.data = some p :=
    Layered.latestIn_eq_some.mpr ⟨version, rest, stored⟩
  simp only [Raw.loadPlanAccount, check, require_bind_eq_ok, if_pos front, latest]
  exact ⟨owner, validatePlan_eq_ok.mpr ⟨address, rfl⟩⟩

theorem load_legacyFlat {p : VelaPlanV1} {k : Nat} (owner : info.owner = programId)
    (stored : info.data = Layout.flatPlans.bytesOf (.inr p) ++ List.replicate k 0)
    (address : info.key = (P.findProgramAddress (.plan p.merchant p.planId)).1) :
    Raw.loadPlanAccount P info = .ok (.legacyFlat p) := by
  have front : info.data.take 8 = Layout.VelaPlan.discriminator := by
    rw [stored]
    exact Layered.take_bytesOf (l := Layout.flatPlans) _ _
  have latest : Layout.flatPlans.latestIn info.data = none := by
    rw [stored]
    exact Layered.latestIn_padded p k
  have body : Layout.velaPlanV1.decode (info.data.drop 8) = some (p, List.replicate k 0) := by
    rw [stored]
    exact Layout.flatPlans.decode_bytesOf_legacy p _
  simp only [Raw.loadPlanAccount, check, require_bind_eq_ok, if_pos front, latest, body]
  exact ⟨owner, (legacyPlan_eq_ok k).mpr ⟨address, rfl⟩⟩

theorem load_usage_discriminator (owner : info.owner = programId)
    (front : info.data.take 8 = Layout.UsagePlan.discriminator) :
    Raw.loadPlanAccount P info = Raw.loadUsagePlanInner P info := by
  have other : info.data.take 8 ≠ Layout.VelaPlan.discriminator := by
    rw [front]
    decide
  rw [Raw.loadPlanAccount, check, require_of _ owner, ok_bind, if_neg other, if_pos front]

theorem load_usage {p : UsagePlan} {rest : List UInt8} (owner : info.owner = programId)
    (stored : info.data = Layout.usagePlans.bytesOf (.inl p) ++ rest)
    (version : p.version = currentAccountVersion)
    (address : info.key = (P.findProgramAddress (.usagePlan p.merchant p.planId)).1) :
    Raw.loadPlanAccount P info = .ok (.usage p) := by
  have front : info.data.take 8 = Layout.UsagePlan.discriminator := by
    rw [stored]
    exact Layered.take_bytesOf (l := Layout.usagePlans) _ _
  have latest : Layout.usagePlans.latestIn info.data = some p :=
    Layered.latestIn_eq_some.mpr ⟨version, rest, stored⟩
  rw [load_usage_discriminator owner front, Raw.loadUsagePlanInner, latest]
  exact validatePlan_eq_ok.mpr ⟨address, rfl⟩

theorem load_legacyUsage {p : UsagePlanV1} {k : Nat} (owner : info.owner = programId)
    (stored : info.data = Layout.usagePlans.bytesOf (.inr p) ++ List.replicate k 0)
    (address : info.key = (P.findProgramAddress (.usagePlan p.merchant p.planId)).1) :
    Raw.loadPlanAccount P info = .ok (.legacyUsage p) := by
  have front : info.data.take 8 = Layout.UsagePlan.discriminator := by
    rw [stored]
    exact Layered.take_bytesOf (l := Layout.usagePlans) _ _
  have latest : Layout.usagePlans.latestIn info.data = none := by
    rw [stored]
    exact Layered.latestIn_padded p k
  have body : Layout.usagePlanV1.decode (info.data.drop 8) = some (p, List.replicate k 0) := by
    rw [stored]
    exact Layout.usagePlans.decode_bytesOf_legacy p _
  rw [load_usage_discriminator owner front, Raw.loadUsagePlanInner, latest, body]
  exact (legacyPlan_eq_ok k).mpr ⟨address, rfl⟩

theorem growTo_length (n : Nat) (info : AccountInfo) : n ≤ (Raw.growTo n info).data.length := by
  rw [Raw.growTo, List.length_append, List.length_replicate]
  omega

theorem writePlan_eq_ok {p : VelaPlan} : Raw.writePlan info p = .ok info' ↔
    ∃ data, Layout.flatPlans.write info.data (.inl p) = some data ∧
      { info with data := data } = info' := by
  simp only [Raw.writePlan, orHost, orError_bind_eq_ok, pure_eq_ok]

theorem writeUsagePlan_eq_ok {p : UsagePlan} : Raw.writeUsagePlan info p = .ok info' ↔
    ∃ data, Layout.usagePlans.write info.data (.inl p) = some data ∧
      { info with data := data } = info' := by
  simp only [Raw.writeUsagePlan, orHost, orError_bind_eq_ok, pure_eq_ok]

theorem writePlan_grown (info : AccountInfo) (p : VelaPlan) :
    ∃ info', Raw.writePlan (Raw.growTo VelaPlan.size info) p = .ok info' := by
  have size : (Layout.flatPlans.bytesOf (.inl p)).length = VelaPlan.size :=
    length_encode (c := Layout.velaPlan.tagged Layout.VelaPlan.discriminator) p
  have fits := size.le.trans (growTo_length VelaPlan.size info)
  exact ⟨_, writePlan_eq_ok.mpr ⟨_, Layered.overwrite_eq_some.mpr ⟨fits, rfl⟩, rfl⟩⟩

theorem writeUsagePlan_grown (info : AccountInfo) (p : UsagePlan) :
    ∃ info', Raw.writeUsagePlan (Raw.growTo UsagePlan.size info) p = .ok info' := by
  have size : (Layout.usagePlans.bytesOf (.inl p)).length = UsagePlan.size :=
    length_encode (c := Layout.usagePlan.tagged Layout.UsagePlan.discriminator) p
  have fits := size.le.trans (growTo_length UsagePlan.size info)
  exact ⟨_, writeUsagePlan_eq_ok.mpr ⟨_, Layered.overwrite_eq_some.mpr ⟨fits, rfl⟩, rfl⟩⟩

theorem writePlan_loads {p : VelaPlan} (written : Raw.writePlan info p = .ok info')
    (owner : info.owner = programId) (version : p.version = currentAccountVersion)
    (address : info.key = (P.findProgramAddress (.plan p.merchant p.planId)).1) :
    Raw.loadPlanAccount P info' = .ok (.flat p) := by
  obtain ⟨data, stored, rfl⟩ := writePlan_eq_ok.mp written
  obtain ⟨-, rfl⟩ := Layered.overwrite_eq_some.mp stored
  exact load_flat owner rfl version address

theorem writeUsagePlan_loads {p : UsagePlan} (written : Raw.writeUsagePlan info p = .ok info')
    (owner : info.owner = programId) (version : p.version = currentAccountVersion)
    (address : info.key = (P.findProgramAddress (.usagePlan p.merchant p.planId)).1) :
    Raw.loadPlanAccount P info' = .ok (.usage p) := by
  obtain ⟨data, stored, rfl⟩ := writeUsagePlan_eq_ok.mp written
  obtain ⟨-, rfl⟩ := Layered.overwrite_eq_some.mp stored
  exact load_usage owner rfl version address

inductive LegacyPlan where
  | flat (plan : VelaPlanV1)
  | usage (plan : UsagePlanV1)

namespace LegacyPlan

def loaded : LegacyPlan → LoadedPlanAccount
  | flat p => .legacyFlat p
  | usage p => .legacyUsage p

def upgraded : LegacyPlan → LoadedPlanAccount
  | flat p => .flat p.upgrade
  | usage p => .usage p.upgrade

def account (P : Platform) (plan : LegacyPlan) (k : Nat) : AccountInfo where
  key := (P.findProgramAddress plan.loaded.seeds).1
  owner := programId
  data := match plan with
    | flat p => Layout.flatPlans.bytesOf (.inr p) ++ List.replicate k 0
    | usage p => Layout.usagePlans.bytesOf (.inr p) ++ List.replicate k 0

theorem load_account (plan : LegacyPlan) (k : Nat) :
    Raw.loadPlanAccount P (plan.account P k) = .ok plan.loaded := by
  cases plan with
  | flat p => exact load_legacyFlat rfl rfl rfl
  | usage p => exact load_legacyUsage rfl rfl rfl

theorem sameAnswers (plan : LegacyPlan) (key : Pubkey) :
    SameAnswers P key plan.upgraded plan.loaded := by
  cases plan with
  | flat p => exact sameAnswers_flat P key p
  | usage p => exact sameAnswers_usage P key p

theorem migrates (plan : LegacyPlan) (k : Nat) :
    ∃ info', Raw.migratePlan P (plan.account P k) = .ok info' ∧
      Raw.loadPlanAccount P info' = .ok plan.upgraded := by
  cases plan with
  | flat p =>
    obtain ⟨info', written⟩ := writePlan_grown ((flat p).account P k) p.upgrade
    refine ⟨info', ?_, writePlan_loads written rfl rfl rfl⟩
    rw [Raw.migratePlan, load_account, ok_bind]
    exact written
  | usage p =>
    obtain ⟨info', written⟩ := writeUsagePlan_grown ((usage p).account P k) p.upgrade
    refine ⟨info', ?_, writeUsagePlan_loads written rfl rfl rfl⟩
    rw [Raw.migratePlan, load_account, ok_bind]
    exact written

theorem migrates_upgraded (plan : LegacyPlan)
    (load : Raw.loadPlanAccount P info = .ok plan.upgraded) :
    Raw.migratePlan P info = .ok info := by
  rw [Raw.migratePlan, load, ok_bind]
  cases plan <;> rfl

end LegacyPlan

theorem updatePlan_upgrades {ctx : UpdatePlan} {old : VelaPlanV1} {k : Nat}
    (h : Raw.updatePlan P ctx ((LegacyPlan.flat old).account P k) = .ok info') :
    Raw.loadPlanAccount P info' = .ok (.flat (Raw.editPlan ctx old.upgrade)) := by
  simp only [Raw.updatePlan, check, bind_eq_ok, require_eq_ok, exists_const] at h
  obtain ⟨_, loaded, load, _, _, plan, start, _, _, written⟩ := h
  rw [LegacyPlan.load_account] at load
  cases load
  cases start
  exact writePlan_loads written rfl rfl rfl

theorem editUsagePlan_keeps {ctx : UpdateUsagePlan} {old plan : UsagePlan}
    (h : Raw.editUsagePlan ctx old = .ok plan) :
    plan.version = old.version ∧ plan.merchant = old.merchant ∧ plan.planId = old.planId := by
  simp only [Raw.editUsagePlan, check, bind_eq_ok, require_eq_ok, pure_eq_ok, exists_const] at h
  obtain ⟨replaced, tiers, _, _, _, _, rfl⟩ := h
  obtain ⟨_, _, rfl⟩ := replaceTiers_eq_ok tiers
  exact ⟨rfl, rfl, rfl⟩

theorem updateUsagePlan_upgrades {ctx : UpdateUsagePlan} {old : UsagePlanV1} {k : Nat}
    (h : Raw.updateUsagePlan P ctx ((LegacyPlan.usage old).account P k) = .ok info') :
    ∃ plan, Raw.editUsagePlan ctx old.upgrade = .ok plan ∧
      Raw.loadPlanAccount P info' = .ok (.usage plan) := by
  simp only [Raw.updateUsagePlan, check, bind_eq_ok, require_eq_ok, exists_const] at h
  obtain ⟨_, loaded, load, _, _, start, editable, plan, edited, written⟩ := h
  rw [LegacyPlan.load_account] at load
  cases load
  cases editable
  obtain ⟨version, merchant, planId⟩ := editUsagePlan_keeps edited
  refine ⟨plan, edited, writeUsagePlan_loads written rfl version ?_⟩
  rw [merchant, planId]
  rfl

/-- What bringing a legacy plan into the current layout keeps. -/
structure MigrationKeepsTerms (P : Platform) (plan : LegacyPlan) (k : Nat) : Prop where
  migrated : ∃ info', Raw.migratePlan P (plan.account P k) = .ok info' ∧
    Raw.loadPlanAccount P info' = .ok plan.upgraded ∧ Raw.migratePlan P info' = .ok info'
  answers : Raw.loadPlanAccount P (plan.account P k) = .ok plan.loaded ∧
    SameAnswers P (plan.account P k).key plan.upgraded plan.loaded
  edited : ∀ ctx info', Raw.updatePlan P ctx (plan.account P k) = .ok info' →
    ∃ start, plan.upgraded = .flat start ∧
      Raw.loadPlanAccount P info' = .ok (.flat (Raw.editPlan ctx start))
  usageEdited : ∀ ctx info', Raw.updateUsagePlan P ctx (plan.account P k) = .ok info' →
    ∃ start edited, plan.upgraded = .usage start ∧ Raw.editUsagePlan ctx start = .ok edited ∧
      Raw.loadPlanAccount P info' = .ok (.usage edited)

/-- Migrating a legacy plan, or editing it, starts from a current plan that answers every question
as the legacy one did; migrating it again changes nothing. -/
theorem plan_migration_keeps_terms (P : Platform) (plan : LegacyPlan) (k : Nat) :
    MigrationKeepsTerms P plan k where
  migrated := by
    obtain ⟨info', migrated, load⟩ := plan.migrates k
    exact ⟨info', migrated, load, plan.migrates_upgraded load⟩
  answers := ⟨plan.load_account k, plan.sameAnswers _⟩
  edited := by
    intro ctx info' h
    cases plan with
    | flat old => exact ⟨_, rfl, updatePlan_upgrades h⟩
    | usage old =>
      simp only [Raw.updatePlan, check, bind_eq_ok, require_eq_ok, exists_const] at h
      obtain ⟨_, loaded, load, flat, _⟩ := h
      rw [LegacyPlan.load_account] at load
      cases load
      cases flat
  usageEdited := by
    intro ctx info' h
    cases plan with
    | flat old =>
      simp only [Raw.updateUsagePlan, check, bind_eq_ok, require_eq_ok, exists_const] at h
      obtain ⟨_, loaded, load, flat, _⟩ := h
      rw [LegacyPlan.load_account] at load
      cases load
      cases flat
    | usage old =>
      obtain ⟨edited, applied, load⟩ := updateUsagePlan_upgrades h
      exact ⟨_, edited, rfl, applied, load⟩

end VelaProtocol
