import VelaProtocol.Footprint
import VelaProtocol.Properties.Tiers

/-! What a step does to the catalogue: the plans on offer, and how many plans and which credential
each merchant's state records. -/
namespace VelaProtocol

open Footprint Guard Monitored

variable {P : Platform} {w w₁ w' : World} {signers : List Pubkey}

def LoadedPlanAccount.upgraded : LoadedPlanAccount → LoadedPlanAccount
  | .flat p => .flat p
  | .usage p => .usage p
  | .legacyFlat p => .flat p.upgrade
  | .legacyUsage p => .usage p.upgrade

structure UsagePlan.Sound (plan : UsagePlan) : Prop where
  priced : Priced plan
  cap : 0 < plan.maxChargePerPeriod
  frequency : 0 < plan.settlementFrequency

def LoadedPlanAccount.Sound (plan : LoadedPlanAccount) : Prop :=
  match plan.upgraded with
  | .flat p => validateFlatPlanTerms p.amount p.frequency p.maxPulls = .ok ()
  | .usage p => p.Sound
  | .legacyFlat _ | .legacyUsage _ => True

/-- What makes a plan the same plan after an edit. -/
structure SamePlan (before after : LoadedPlanAccount) : Prop where
  billingType : after.billingType = before.billingType
  merchant : after.merchant = before.merchant
  planId : after.planId = before.planId
  credentialMint : after.credentialMint = before.credentialMint
  billingMint : after.billingMint = before.billingMint
  status : after.status = before.status
  bump : after.bump = before.bump

theorem SamePlan.refl (p : LoadedPlanAccount) : SamePlan p p := ⟨rfl, rfl, rfl, rfl, rfl, rfl, rfl⟩

theorem SamePlan.trans {p q r : LoadedPlanAccount} (first : SamePlan p q)
    (second : SamePlan q r) : SamePlan p r :=
  ⟨second.billingType.trans first.billingType, second.merchant.trans first.merchant,
    second.planId.trans first.planId, second.credentialMint.trans first.credentialMint,
    second.billingMint.trans first.billingMint, second.status.trans first.status,
    second.bump.trans first.bump⟩

theorem SamePlan.symm {p q : LoadedPlanAccount} (same : SamePlan p q) : SamePlan q p :=
  ⟨same.billingType.symm, same.merchant.symm, same.planId.symm, same.credentialMint.symm,
    same.billingMint.symm, same.status.symm, same.bump.symm⟩

theorem samePlan_upgraded (p : LoadedPlanAccount) : SamePlan p p.upgraded := by
  cases p <;> exact ⟨rfl, rfl, rfl, rfl, rfl, rfl, rfl⟩

theorem SamePlan.of_upgraded {p q : LoadedPlanAccount} (same : q.upgraded = p.upgraded) :
    SamePlan p q := by
  have second := (samePlan_upgraded q).symm
  rw [same] at second
  exact (samePlan_upgraded p).trans second

structure Shop where
  planCount : UInt64
  credentialMint : Pubkey

def LoadedMerchantState.shop (state : LoadedMerchantState) : Shop :=
  ⟨state.intoCurrent.planCount, state.intoCurrent.credentialMint⟩

def World.shop (w : World) (merchant : Pubkey) : Shop :=
  ((w.merchantState merchant).map LoadedMerchantState.shop).getD ⟨0, Pubkey.default⟩

theorem shop_write (w : World) (merchant : Pubkey) (state : MerchantState) :
    (w.writeMerchantState merchant state).shop =
      Function.update w.shop merchant ⟨state.planCount, state.credentialMint⟩ := by
  funext other
  by_cases same : other = merchant
  · subst same
    simp only [World.shop, World.writeMerchantState, Function.update_self, Option.map_some,
      Option.getD_some, LoadedMerchantState.shop, LoadedMerchantState.intoCurrent]
  · simp only [World.shop, World.writeMerchantState, Function.update_of_ne same]

theorem shop_congr (same : w'.merchantState = w.merchantState) : w'.shop = w.shop := by
  funext merchant
  rw [World.shop, World.shop, same]

theorem shop_write_self {merchant : Pubkey} {state : MerchantState}
    (same : w.shop merchant = ⟨state.planCount, state.credentialMint⟩) :
    (w.writeMerchantState merchant state).shop = w.shop := by
  rw [shop_write, ← same, Function.update_eq_self]

theorem anchorMerchantState_shop {merchant : Pubkey} {state : MerchantState}
    (h : anchorMerchantState w merchant = .ok state) :
    w.shop merchant = ⟨state.planCount, state.credentialMint⟩ := by
  unfold anchorMerchantState at h
  split at h
  · cases h
  · cases h
  · rename_i found
    cases h
    rw [World.shop, found]
    rfl

theorem ensureMerchantState_shop {merchant : Pubkey} {bump : UInt8}
    {result : World × MerchantState} (h : ensureMerchantState w merchant bump = .ok result) :
    w.shop merchant = ⟨result.2.planCount, result.2.credentialMint⟩ ∧
      result.1.shop = w.shop := by
  have written := (ensureMerchantState_eq_ok h).1
  have here : w.shop merchant = ⟨result.2.planCount, result.2.credentialMint⟩ := by
    unfold ensureMerchantState at h
    split at h
    · rename_i none
      cases h
      rw [World.shop, none]
      rfl
    · rename_i loaded found
      obtain ⟨_, h⟩ := require_bind_eq_ok.mp h
      cases h
      rw [World.shop, found]
      rfl
  exact ⟨here, written ▸ shop_write_self here⟩

/-- What a step does to the plans and the shops while these keys sign it. -/
inductive CatalogueStep (P : Platform) (signers : List Pubkey) (w w' : World) : Prop
  | idle (plan : w'.plan = w.plan) (shop : w'.shop = w.shop)
  | credential (merchant mint : Pubkey) (signs : merchant ∈ signers)
      (unset : (w.shop merchant).credentialMint = Pubkey.default) (plan : w'.plan = w.plan)
      (shop : w'.shop =
        Function.update w.shop merchant { w.shop merchant with credentialMint := mint })
  | flat (key : Pubkey) (p : VelaPlan) (count : UInt64) (signs : p.merchant ∈ signers)
      (vacant : w.plan key = none) (sound : (LoadedPlanAccount.flat p).Sound)
      (active : p.status = .active)
      (address : key = (P.findProgramAddress (.plan p.merchant p.planId)).1)
      (numbered : p.planId = (w.shop p.merchant).planCount)
      (next : count.toNat = p.planId.toNat + 1)
      (plan : w'.plan = Function.update w.plan key (some ⟨.flat p, VelaPlan.size⟩))
      (shop : w'.shop =
        Function.update w.shop p.merchant { w.shop p.merchant with planCount := count })
  | usage (key : Pubkey) (p : UsagePlan) (signs : p.merchant ∈ signers)
      (vacant : w.plan key = none) (sound : (LoadedPlanAccount.usage p).Sound)
      (active : p.status = .active)
      (address : key = (P.findProgramAddress (.usagePlan p.merchant p.planId)).1)
      (plan : w'.plan = Function.update w.plan key (some ⟨.usage p, UsagePlan.size⟩))
      (shop : w'.shop = w.shop)
  | edited (key : Pubkey) (before after : PlanAccount) (signs : before.contents.merchant ∈ signers)
      (found : w.plan key = some before) (same : SamePlan before.contents after.contents)
      (grows : before.dataLen ≤ after.dataLen)
      (sound : before.contents.Sound → after.contents.Sound)
      (plan : w'.plan = Function.update w.plan key (some after)) (shop : w'.shop = w.shop)
  | upgraded (key : Pubkey) (before after : PlanAccount) (found : w.plan key = some before)
      (same : after.contents.upgraded = before.contents.upgraded)
      (grows : before.dataLen ≤ after.dataLen)
      (plan : w'.plan = Function.update w.plan key (some after)) (shop : w'.shop = w.shop)

theorem CatalogueStep.of_written {fields : List WorldField} (written : Written fields w w')
    (apart : ∀ f ∈ [WorldField.plan, .merchantState], f ∉ fields) :
    CatalogueStep P signers w w' :=
  .idle (written .plan (apart _ (by decide)))
    (shop_congr (written .merchantState (apart _ (by decide))))

theorem createPlan_catalogue {ctx : CreatePlan} :
    Ensures (createPlan P w ctx) (CatalogueStep P [ctx.merchant] w) := by
  intro w' h
  unfold createPlan at h
  iterate 2 obtain ⟨_, _, h⟩ := bind_eq_ok.mp h
  obtain ⟨_, terms, h⟩ := bind_eq_ok.mp h
  iterate 3 obtain ⟨_, _, h⟩ := bind_eq_ok.mp h
  obtain ⟨⟨w₁, state⟩, ensured, h⟩ := bind_eq_ok.mp h
  obtain ⟨address, h⟩ := require_bind_eq_ok.mp h
  obtain ⟨_, h⟩ := require_bind_eq_ok.mp h
  obtain ⟨vacant, h⟩ := require_bind_eq_ok.mp h
  obtain ⟨credential, _, h⟩ := bind_eq_ok.mp h
  obtain ⟨count, next, h⟩ := bind_eq_ok.mp h
  cases h
  obtain ⟨shop, kept⟩ := ensureMerchantState_shop ensured
  have written := (ensureMerchantState_eq_ok ensured).1
  have next := Checked.addU64_eq_some.mp (orError_eq_ok.mp next)
  have plans : w₁.plan = w.plan := by
    rw [show w₁ = _ from written]
    rfl
  refine .flat ctx.plan ?plan count ?signs ?vacant ?sound ?active ?address ?numbered ?next
    (Eq.trans ?stored (congrArg (Function.update · ctx.plan _) plans)) ?shop
  case stored => rfl
  case signs => exact List.mem_cons_self
  case address => exact address
  case next => exact next
  case vacant => exact plans ▸ (dataIsEmpty_vacant vacant).plan
  case sound => exact terms
  case active => rfl
  case numbered => rw [shop]
  case shop =>
    rw [shop_write, shop]
    exact congrArg (Function.update · ctx.merchant _) kept

theorem createUsagePlan_catalogue {ctx : CreateUsagePlan} :
    Ensures (createUsagePlan P w ctx) (CatalogueStep P [ctx.merchant] w) := by
  intro w' h
  unfold createUsagePlan at h
  obtain ⟨vacant, h⟩ := require_bind_eq_ok.mp h
  obtain ⟨_, _, h⟩ := bind_eq_ok.mp h
  obtain ⟨_, boundaries, h⟩ := bind_eq_ok.mp h
  obtain ⟨cap, h⟩ := require_bind_eq_ok.mp h
  obtain ⟨frequency, h⟩ := require_bind_eq_ok.mp h
  obtain ⟨_, bounds, h⟩ := bind_eq_ok.mp h
  obtain ⟨⟨w₁, state⟩, ensured, h⟩ := bind_eq_ok.mp h
  iterate 4 obtain ⟨_, _, h⟩ := bind_eq_ok.mp h
  cases h
  obtain ⟨_, kept⟩ := ensureMerchantState_shop ensured
  have plans : w₁.plan = w.plan := by
    rw [show w₁ = _ from (ensureMerchantState_eq_ok ensured).1]
    rfl
  refine .usage (P.findProgramAddress (.usagePlan ctx.merchant ctx.planId)).1 ?plan ?signs
    (dataIsEmpty_vacant vacant).plan ?sound ?active ?address
    (Eq.trans ?stored (congrArg (Function.update · _ _) plans)) (Eq.trans ?shop kept)
  case stored => rfl
  case signs => exact List.mem_cons_self
  case sound => exact ⟨priced_of_given rfl rfl boundaries bounds, cap, frequency⟩
  case active => rfl
  case address => rfl
  case shop => exact shop_congr rfl

theorem editableFlat_upgraded {loaded : LoadedPlanAccount} {p : VelaPlan}
    (h : editableFlat loaded = .ok p) : loaded.upgraded = .flat p := by
  cases loaded <;> cases h <;> rfl

theorem editableUsage_upgraded {loaded : LoadedPlanAccount} {p : UsagePlan}
    (h : editableUsage loaded = .ok p) : loaded.upgraded = .usage p := by
  cases loaded <;> cases h <;> rfl

theorem sound_upgraded {p q : LoadedPlanAccount} (same : q.upgraded = p.upgraded) :
    q.Sound ↔ p.Sound := by
  rw [LoadedPlanAccount.Sound, LoadedPlanAccount.Sound, same]

theorem writePlan_stored {key : Pubkey} {account : PlanAccount} {p : LoadedPlanAccount}
    (found : w.plan key = some account) :
    (w.writePlan key p).plan =
      Function.update w.plan key (some ⟨p, max account.dataLen p.requiredSize⟩) := by
  rw [World.writePlan, found]
  rfl

theorem updatePlan_catalogue {ctx : UpdatePlan} :
    Ensures (updatePlan P w ctx) (CatalogueStep P [ctx.merchant] w) := by
  intro w' h
  obtain ⟨_, _, h⟩ := bind_eq_ok.mp h
  obtain ⟨loaded, load, h⟩ := bind_eq_ok.mp h
  obtain ⟨_, h⟩ := require_bind_eq_ok.mp h
  obtain ⟨merchant, h⟩ := require_bind_eq_ok.mp h
  obtain ⟨old, start, h⟩ := bind_eq_ok.mp h
  obtain ⟨_, terms, h⟩ := bind_eq_ok.mp h
  cases h
  obtain ⟨account, found, rfl, _⟩ := loadPlanAccount_eq_ok load
  have same := samePlan_upgraded account.contents
  rw [editableFlat_upgraded start] at same
  refine .edited ctx.plan account _ (by simp [merchant]) found ?same (Nat.le_max_left _ _)
    (fun _ => ?sound) (writePlan_stored found) (shop_congr rfl)
  case same => exact same.trans ⟨rfl, rfl, rfl, rfl, rfl, rfl, rfl⟩
  case sound => exact terms

theorem edited_priced {old replaced : UsagePlan} {charge : UInt64} (frequency : UInt64)
    {tiers : Option (List PricingTier)} {u : Unit} (before : Priced old)
    (given : replaceTiers old charge tiers = .ok replaced)
    (kept : checkKeptTiers { replaced with maxChargePerPeriod := charge } tiers = .ok u) :
    Priced { replaced with maxChargePerPeriod := charge, settlementFrequency := frequency } := by
  cases tiers with
  | none =>
    cases given
    obtain ⟨count, boundaries, _⟩ := before
    obtain ⟨active, taken, bounds⟩ := bind_eq_ok.mp kept
    obtain ⟨_, taken⟩ := require_bind_eq_ok.mp taken
    cases taken
    exact ⟨count, boundaries, bounds⟩
  | some tiers =>
    obtain ⟨_, boundaries, given⟩ := bind_eq_ok.mp given
    obtain ⟨_, bounds, given⟩ := bind_eq_ok.mp given
    cases given
    exact priced_of_given rfl rfl boundaries bounds

theorem getD_pos {offered : Option UInt64} {old : UInt64} (positive : 0 < old)
    (checked : ∀ x ∈ offered, 0 < x) : 0 < offered.getD old := by
  cases offered with
  | none => exact positive
  | some x => exact checked x rfl

theorem updateUsagePlan_catalogue {ctx : UpdateUsagePlan} :
    Ensures (updateUsagePlan P w ctx) (CatalogueStep P [ctx.merchant] w) := by
  intro w' h
  obtain ⟨_, _, h⟩ := bind_eq_ok.mp h
  obtain ⟨loaded, load, h⟩ := bind_eq_ok.mp h
  obtain ⟨_, h⟩ := require_bind_eq_ok.mp h
  obtain ⟨merchant, h⟩ := require_bind_eq_ok.mp h
  obtain ⟨old, start, h⟩ := bind_eq_ok.mp h
  obtain ⟨replaced, given, h⟩ := bind_eq_ok.mp h
  obtain ⟨cap, h⟩ := require_bind_eq_ok.mp h
  obtain ⟨_, kept, h⟩ := bind_eq_ok.mp h
  obtain ⟨frequency, h⟩ := require_bind_eq_ok.mp h
  cases h
  obtain ⟨account, found, rfl, _⟩ := loadPlanAccount_eq_ok load
  have current := editableUsage_upgraded start
  have same := samePlan_upgraded account.contents
  rw [current] at same
  obtain ⟨tiers, count, shape⟩ := replaceTiers_eq_ok given
  refine .edited ctx.usagePlan account _ (by simp [merchant]) found ?same (Nat.le_max_left _ _)
    (fun before => ?sound) (writePlan_stored found) (shop_congr rfl)
  case same =>
    refine same.trans ?_
    rw [shape]
    exact ⟨rfl, rfl, rfl, rfl, rfl, rfl, rfl⟩
  case sound =>
    rw [LoadedPlanAccount.Sound, current] at before
    have priced := edited_priced (ctx.settlementFrequency.getD old.settlementFrequency)
      before.priced given kept
    exact ⟨priced, getD_pos before.cap cap, getD_pos before.frequency frequency⟩

theorem migratePlan_catalogue {plan : Pubkey} :
    Ensures (migratePlan P w plan) (CatalogueStep P [] w) := by
  intro w' h
  obtain ⟨loaded, load, h⟩ := bind_eq_ok.mp h
  obtain ⟨account, found, same, _⟩ := loadPlanAccount_eq_ok load
  cases loaded with
  | flat p =>
    obtain ⟨_, h⟩ := require_bind_eq_ok.mp h
    cases h
    exact .idle rfl rfl
  | usage p =>
    obtain ⟨_, h⟩ := require_bind_eq_ok.mp h
    cases h
    exact .idle rfl rfl
  | legacyFlat p =>
    cases h
    exact .upgraded plan account _ found (same ▸ rfl) (Nat.le_max_left _ _)
      (writePlan_stored found) (shop_congr rfl)
  | legacyUsage p =>
    cases h
    exact .upgraded plan account _ found (same ▸ rfl) (Nat.le_max_left _ _)
      (writePlan_stored found) (shop_congr rfl)

theorem catalogue_counted {merchant : Pubkey} {state next : MerchantState}
    (anchored : anchorMerchantState w merchant = .ok state) (plan : w₁.plan = w.plan)
    (merchants : w₁.merchantState = w.merchantState) (count : next.planCount = state.planCount)
    (credential : next.credentialMint = state.credentialMint) :
    CatalogueStep P signers w (w₁.writeMerchantState merchant next) := by
  refine .idle plan ?_
  have here := anchorMerchantState_shop anchored
  rw [← count, ← credential, ← shop_congr merchants] at here
  rw [shop_write_self here, shop_congr merchants]

theorem CatalogueStep.before {w₂ : World} (step : CatalogueStep P signers w w₁)
    (plan : w₂.plan = w₁.plan) (merchants : w₂.merchantState = w₁.merchantState) :
    CatalogueStep P signers w w₂ := by
  have shops := shop_congr merchants
  cases step with
  | idle same shop => exact .idle (plan.trans same) (shops.trans shop)
  | credential merchant mint signs unset same shop =>
    exact .credential merchant mint signs unset (plan.trans same) (shops.trans shop)
  | flat key p count signs vacant sound active address numbered next stored shop =>
    exact .flat key p count signs vacant sound active address numbered next (plan.trans stored)
      (shops.trans shop)
  | usage key p signs vacant sound active address stored shop =>
    exact .usage key p signs vacant sound active address (plan.trans stored) (shops.trans shop)
  | edited key before after signs found same grows sound stored shop =>
    exact .edited key before after signs found same grows sound (plan.trans stored)
      (shops.trans shop)
  | upgraded key before after found same grows stored shop =>
    exact .upgraded key before after found same grows (plan.trans stored) (shops.trans shop)

theorem subscribe_catalogue {ctx : Subscribe} :
    Ensures (subscribe P w ctx) (CatalogueStep P [ctx.subscriber] w) := by
  intro w' h
  unfold subscribe at h
  obtain ⟨state, anchored, h⟩ := bind_eq_ok.mp h
  iterate 11 obtain ⟨_, _, h⟩ := bind_eq_ok.mp h
  obtain ⟨w₁, opened, h⟩ := bind_eq_ok.mp h
  iterate 3 obtain ⟨_, _, h⟩ := bind_eq_ok.mp h
  obtain ⟨w₂, minted, h⟩ := bind_eq_ok.mp h
  iterate 2 obtain ⟨_, _, h⟩ := bind_eq_ok.mp h
  cases h
  have only := (createIdempotent_frame opened).1.trans (mintTo_frame minted).1
  exact catalogue_counted anchored only.plan only.merchantState rfl rfl

theorem migrateMandate_catalogue {ctx : MigrateMandate} :
    Ensures (migrateMandate P w ctx) (CatalogueStep P [ctx.admin] w) := by
  intro w' h
  unfold migrateMandate at h
  obtain ⟨state, anchored, h⟩ := bind_eq_ok.mp h
  iterate 13 obtain ⟨_, _, h⟩ := bind_eq_ok.mp h
  cases h
  refine CatalogueStep.before (catalogue_counted anchored rfl rfl ?_ ?_) rfl rfl
  · rfl
  · rfl

theorem createStreamMandate_catalogue {ctx : CreateStreamMandate} :
    Ensures (createStreamMandate P w ctx) (CatalogueStep P signers w) := by
  intro w' h
  unfold createStreamMandate at h
  obtain ⟨state, anchored, h⟩ := bind_eq_ok.mp h
  iterate 12 obtain ⟨_, _, h⟩ := bind_eq_ok.mp h
  cases h
  refine CatalogueStep.before (catalogue_counted anchored rfl rfl ?_ ?_) rfl rfl
  · rfl
  · rfl

theorem initMerchantCredential_catalogue {ctx : InitMerchantCredential} :
    Ensures (initMerchantCredential P w ctx) (CatalogueStep P [ctx.merchant] w) := by
  intro w' h
  obtain ⟨_, h⟩ := require_bind_eq_ok.mp h
  obtain ⟨⟨w₁, state⟩, ensured, h⟩ := bind_eq_ok.mp h
  obtain ⟨shop, kept⟩ := ensureMerchantState_shop ensured
  have plans : w₁.plan = w.plan := by
    rw [show w₁ = _ from (ensureMerchantState_eq_ok ensured).1]
    rfl
  by_cases set : state.credentialMint ≠ Pubkey.default
  · dsimp only at h
    rw [if_pos set] at h
    obtain ⟨_, h⟩ := require_bind_eq_ok.mp h
    cases h
    exact .idle plans kept
  · dsimp only at h
    rw [if_neg set] at h
    obtain ⟨w₂, created, h⟩ := bind_eq_ok.mp h
    cases h
    have written := createMint_written w₂ created
    have plans₂ := (written .plan (by decide)).trans plans
    have shops₂ := (shop_congr (written .merchantState (by decide))).trans kept
    refine .credential ctx.merchant ctx.credentialMint List.mem_cons_self ?_ plans₂ ?_
    · rw [shop]
      exact not_not.mp set
    · rw [shop_write, shops₂, shop]

theorem protocol_catalogue {i : ProtocolInstruction} :
    Ensures (executeProtocol P w i) (CatalogueStep P i.signers w) := by
  intro w' h
  have written := protocol_written w' h
  cases i with
  | billing i =>
    cases i with
    | createPlan ctx => exact createPlan_catalogue w' h
    | createUsagePlan ctx => exact createUsagePlan_catalogue w' h
    | updatePlan ctx => exact updatePlan_catalogue w' h
    | updateUsagePlan ctx => exact updateUsagePlan_catalogue w' h
    | migratePlan plan => exact migratePlan_catalogue w' h
    | subscribe ctx => exact subscribe_catalogue w' h
    | migrateMandate ctx => exact migrateMandate_catalogue w' h
    | _ => exact .of_written written (of_decide_eq_true rfl)
  | streaming i =>
    cases i with
    | createStreamMandate ctx => exact createStreamMandate_catalogue w' h
    | _ => exact .of_written written (of_decide_eq_true rfl)
  | agent i => cases i <;> exact .of_written written (of_decide_eq_true rfl)
  | config i =>
    cases i with
    | initMerchantCredential ctx => exact initMerchantCredential_catalogue w' h
    | _ => exact .of_written written (of_decide_eq_true rfl)
  | wrap ctx => exact .of_written written (of_decide_eq_true rfl)
  | unwrapTokens ctx => exact .of_written written (of_decide_eq_true rfl)

theorem protocolStep_catalogue {signed : List Pubkey} {a : ProtocolAction}
    (step : ProtocolStep P w a w') (closed : Sealed signed w a w') :
    CatalogueStep P a.signers w w' := by
  cases a with
  | instruction i => exact protocol_catalogue w' step
  | tick clock => exact .of_written (protocolStep_written step closed) (of_decide_eq_true rfl)
  | outside => exact .of_written (protocolStep_written step closed) (of_decide_eq_true rfl)

end VelaProtocol
