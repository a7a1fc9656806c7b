import VelaProtocol.Identity

/-! Credentials: what a subscriber holds of a credential mint, what the mint of a mandate is
resolved from, and what every instruction of billing does to either. -/
namespace VelaProtocol

open Guard

variable {P : Platform} {w w₁ w' : World} {owner mint key : Pubkey}

def TokenAccount.heldBy (owner mint : Pubkey) (account : TokenAccount) : Nat :=
  if account.mint = mint ∧ account.owner = owner then account.amount.toNat else 0

/-- What `owner` holds of `mint` in its associated account. -/
def World.credentials (P : Platform) (w : World) (owner mint : Pubkey) : Nat :=
  ((w.tokenAccount (associatedTokenAddress P owner mint)).map
    (TokenAccount.heldBy owner mint)).getD 0

/-- A mint whose tokens stay where they were minted. -/
def Untransferable (w : World) (mint : Pubkey) : Prop :=
  ∃ m, w.mint mint = some m ∧ m.nonTransferable = true

theorem credentials_congr (same : w'.tokenAccount = w.tokenAccount) :
    w'.credentials P owner mint = w.credentials P owner mint := by
  rw [World.credentials, World.credentials, same]

theorem credentials_pos (positive : 0 < w.credentials P owner mint) :
    ∃ account, w.tokenAccount (associatedTokenAddress P owner mint) = some account ∧
      account.mint = mint ∧ account.owner = owner ∧
      w.credentials P owner mint = account.amount.toNat := by
  unfold World.credentials at positive ⊢
  cases found : w.tokenAccount (associatedTokenAddress P owner mint) with
  | none =>
    rw [found] at positive
    exact absurd positive (lt_irrefl 0)
  | some account =>
    rw [found] at positive
    simp only [Option.map_some, Option.getD_some, TokenAccount.heldBy] at positive ⊢
    split at positive
    · rename_i own
      exact ⟨account, rfl, own.1, own.2, if_pos own⟩
    · exact absurd positive (lt_irrefl 0)

theorem credentials_of_found {account : TokenAccount}
    (found : w.tokenAccount (associatedTokenAddress P owner mint) = some account)
    (own : account.mint = mint ∧ account.owner = owner) :
    w.credentials P owner mint = account.amount.toNat := by
  rw [World.credentials, found]
  exact if_pos own

theorem credentials_amount {address : Pubkey} {before : TokenAccount} {amount : UInt64}
    (found : w.tokenAccount address = some before)
    (written : w'.tokenAccount =
      Function.update w.tokenAccount address (some { before with amount := amount })) :
    w'.credentials P owner mint =
      if address = associatedTokenAddress P owner mint ∧ before.mint = mint ∧
        before.owner = owner then amount.toNat else w.credentials P owner mint := by
  by_cases here : associatedTokenAddress P owner mint = address
  · have after : w'.tokenAccount (associatedTokenAddress P owner mint) =
        some { before with amount := amount } := by
      rw [written, here]
      exact Function.update_self _ _ _
    rw [World.credentials, World.credentials, after, here, found]
    simp only [Option.map_some, Option.getD_some, TokenAccount.heldBy, true_and]
    split
    · rfl
    · rfl
  · rw [if_neg fun own => here own.1.symm, World.credentials, World.credentials, written,
      Function.update_of_ne here]

theorem createIdempotent_credentials {other coin : Pubkey}
    (h : createIdempotent P w other coin = .ok w') :
    (w'.mint = w.mint ∧ w'.credentials P owner mint = w.credentials P owner mint) ∧
      ∃ account, w'.tokenAccount (associatedTokenAddress P other coin) = some account ∧
        account.owner = other := by
  simp only [createIdempotent] at h
  split at h
  · rename_i account found
    simp only [require_bind_eq_ok, pure_eq_ok] at h
    obtain ⟨own, _, rfl⟩ := h
    exact ⟨⟨rfl, rfl⟩, account, found, own⟩
  · rename_i vacant
    simp only [orHost, orError_bind_eq_ok, pure_eq_ok] at h
    obtain ⟨_, _, same⟩ := h
    have written : w'.tokenAccount = Function.update w.tokenAccount
        (associatedTokenAddress P other coin) (some ⟨coin, other, 0⟩) := by rw [← same]
    refine ⟨⟨by rw [← same], ?_⟩, ⟨coin, other, 0⟩, ?_, rfl⟩
    · by_cases here : associatedTokenAddress P owner mint = associatedTokenAddress P other coin
      · rw [World.credentials, World.credentials, written, here, vacant, Function.update_self]
        exact ite_self 0
      · rw [World.credentials, World.credentials, written, Function.update_of_ne here]
    · rw [written]
      exact Function.update_self _ _ _

theorem untransferable_supply {coin : Pubkey} {m : Mint} {supply : UInt64}
    (found : w.mint coin = some m)
    (written : w'.mint = Function.update w.mint coin (some { m with supply := supply }))
    (kept : Untransferable w mint) : Untransferable w' mint := by
  obtain ⟨before, stored, still⟩ := kept
  by_cases same : mint = coin
  · subst same
    obtain rfl := Option.some.inj (found.symm.trans stored)
    exact ⟨{ m with supply := supply }, by rw [written]; exact Function.update_self _ _ _, still⟩
  · exact ⟨before, by rw [written, Function.update_of_ne same]; exact stored, still⟩

theorem mintTo_credentials {coin account authority : Pubkey} {amount : UInt64}
    {before : TokenAccount} (found : w.tokenAccount account = some before)
    (h : mintTo w coin account authority amount = .ok w') :
    (Untransferable w mint → Untransferable w' mint) ∧
      w'.credentials P owner mint = w.credentials P owner mint +
        (if account = associatedTokenAddress P owner mint ∧ coin = mint ∧ before.owner = owner
          then amount.toNat else 0) := by
  simp only [mintTo, orHost, orError_bind_eq_ok, require_bind_eq_ok, pure_eq_ok] at h
  obtain ⟨stored, present, own, m, there, _, supply, _, received, sum, same⟩ := h
  obtain rfl := Option.some.inj (found.symm.trans present)
  have written : w'.credentials P owner mint = _ :=
    credentials_amount found (by rw [← same])
  refine ⟨untransferable_supply there (by rw [← same]), ?_⟩
  rw [written, own]
  split
  · rename_i here
    have held : w.credentials P owner mint = before.amount.toNat :=
      credentials_of_found (here.1 ▸ found) ⟨own.trans here.2.1, here.2.2⟩
    rw [held, Checked.addU64_eq_some.mp sum]
  · rw [Nat.add_zero]

theorem burn_credentials {coin account authority : Pubkey} {amount : UInt64}
    (h : burn w account coin authority amount = .ok w') :
    ∃ before, w.tokenAccount account = some before ∧
      (Untransferable w mint → Untransferable w' mint) ∧
      w'.credentials P owner mint = w.credentials P owner mint -
        (if account = associatedTokenAddress P owner mint ∧ coin = mint ∧ before.owner = owner
          then amount.toNat else 0) := by
  simp only [burn, orHost, orError_bind_eq_ok, require_bind_eq_ok, pure_eq_ok] at h
  obtain ⟨before, found, m, there, own, funds, _, same⟩ := h
  have written : w'.credentials P owner mint = _ :=
    credentials_amount found (by rw [← same])
  refine ⟨before, found, untransferable_supply there (by rw [← same]), ?_⟩
  rw [written, own]
  split
  · rename_i here
    have held : w.credentials P owner mint = before.amount.toNat :=
      credentials_of_found (here.1 ▸ found) ⟨own.trans here.2.1, here.2.2⟩
    rw [held, UInt64.toNat_sub_of_le _ _ funds]
  · rw [Nat.sub_zero]

theorem transferChecked_credentials {accounts : TransferAccounts} {amount : UInt64}
    {decimals : UInt8} : Ensures (transferChecked P w accounts amount decimals) fun w' =>
      w'.mint = w.mint ∧
        (Untransferable w mint → w'.credentials P owner mint = w.credentials P owner mint) := by
  intro w' h
  simp only [transferChecked, orHost, orError_bind_eq_ok, require_bind_eq_ok] at h
  obtain ⟨source, found, destination, present, _, mints, paid, m, there, movable, _, _, h⟩ := h
  split at h
  · cases h
    exact ⟨rfl, fun _ => rfl⟩
  · rename_i apart
    simp only [bind_eq_ok, orError_eq_ok, pure_eq_ok] at h
    obtain ⟨received, _, ⟨⟩, _, same⟩ := h
    refine ⟨by rw [← same], fun kept => ?_⟩
    obtain ⟨before, stored, still⟩ := kept
    have other : source.mint ≠ mint := by
      intro own
      rw [← paid, own, stored, Option.some.injEq] at there
      rw [there, movable] at still
      cases still
    let sent : World := { w with
      tokenAccount := Function.update w.tokenAccount accounts.source
        (some { source with amount := source.amount - amount }) }
    have first : sent.credentials P owner mint = _ := credentials_amount found rfl
    have there : sent.tokenAccount accounts.destination = some destination :=
      (Function.update_of_ne (Ne.symm apart) _ _).trans present
    have second : w'.credentials P owner mint = _ :=
      credentials_amount there (by rw [← same])
    rw [second, if_neg fun own => other (mints.trans own.2.1), first,
      if_neg fun own => other own.2.1]

def World.merchantCredential (w : World) (merchant : Pubkey) : Pubkey :=
  ((w.merchantState merchant).map fun state => state.intoCurrent.credentialMint).getD
    Pubkey.default

theorem resolve_merchantCredential (w : World) (merchant planMint : Pubkey) :
    resolveMerchantCredentialMint w merchant planMint =
      if w.merchantCredential merchant ≠ Pubkey.default then w.merchantCredential merchant
      else planMint := by
  unfold resolveMerchantCredentialMint World.merchantCredential
  cases w.merchantState merchant with
  | none => exact (if_neg (not_not.mpr rfl)).symm
  | some loaded => rfl

structure SameCredential (before after : LoadedPlanAccount) : Prop where
  merchant : after.merchant = before.merchant
  billingType : after.billingType = before.billingType
  credentialMint : after.credentialMint = before.credentialMint

theorem SameCredential.refl (plan : LoadedPlanAccount) : SameCredential plan plan :=
  ⟨rfl, rfl, rfl⟩

theorem SameCredential.trans {a b c : LoadedPlanAccount} (first : SameCredential a b)
    (second : SameCredential b c) : SameCredential a c :=
  ⟨second.merchant.trans first.merchant, second.billingType.trans first.billingType,
    second.credentialMint.trans first.credentialMint⟩

inductive Offered (P : Platform) (w : World) (key : Pubkey) (after : LoadedPlanAccount) : Prop
  | kept (before : LoadedPlanAccount) (load : loadPlanAccount P w key = .ok before)
      (same : SameCredential before after)
  | new (set : w.merchantCredential after.merchant ≠ Pubkey.default)
      (credential : after.credentialMint = w.merchantCredential after.merchant)

/-- Merchants and plans offer the credentials they offered, which stay untransferable. -/
structure CredentialTerms (P : Platform) (w w' : World) : Prop where
  merchants : w'.merchantCredential = w.merchantCredential
  plans : ∀ key plan, loadPlanAccount P w key = .ok plan →
    ∃ after, loadPlanAccount P w' key = .ok after ∧ SameCredential plan after
  offered : ∀ key after, loadPlanAccount P w' key = .ok after → Offered P w key after
  mints : ∀ mint, Untransferable w mint → Untransferable w' mint

structure Undisturbed (P : Platform) (w w' : World) : Prop extends CredentialTerms P w w' where
  held : ∀ owner mint, Untransferable w mint →
    w'.credentials P owner mint = w.credentials P owner mint

theorem merchantCredential_eq (same : w'.merchantState = w.merchantState) :
    w'.merchantCredential = w.merchantCredential := by
  funext merchant
  rw [World.merchantCredential, World.merchantCredential, same]

theorem CredentialTerms.of_eq (merchants : w'.merchantState = w.merchantState)
    (plans : w'.plan = w.plan) (mints : w'.mint = w.mint) : CredentialTerms P w w' where
  merchants := merchantCredential_eq merchants
  plans key plan load := ⟨plan, (loadPlanAccount_congr plans).trans load, .refl plan⟩
  offered key after load :=
    .kept after ((loadPlanAccount_congr plans).symm.trans load) (.refl after)
  mints mint kept := by
    obtain ⟨m, found, still⟩ := kept
    exact ⟨m, by rw [mints]; exact found, still⟩

theorem CredentialTerms.trans (first : CredentialTerms P w w₁) (second : CredentialTerms P w₁ w') :
    CredentialTerms P w w' where
  merchants := second.merchants.trans first.merchants
  plans key plan load := by
    obtain ⟨between, load₁, same₁⟩ := first.plans key plan load
    obtain ⟨after, load₂, same₂⟩ := second.plans key between load₁
    exact ⟨after, load₂, same₁.trans same₂⟩
  offered key after load := by
    cases second.offered key after load with
    | kept between load₁ same₂ =>
      cases first.offered key between load₁ with
      | kept before load₀ same₁ => exact .kept before load₀ (same₁.trans same₂)
      | new set credential =>
        rw [← same₂.merchant] at set credential
        exact .new set (same₂.credentialMint.trans credential)
    | new set credential =>
      rw [first.merchants] at set credential
      exact .new set credential
  mints mint kept := second.mints mint (first.mints mint kept)

theorem Undisturbed.of_terms (terms : CredentialTerms P w w')
    (tokens : w'.tokenAccount = w.tokenAccount) : Undisturbed P w w' :=
  ⟨terms, fun _ _ _ => credentials_congr tokens⟩

theorem Undisturbed.of_eq (merchants : w'.merchantState = w.merchantState)
    (plans : w'.plan = w.plan) (mints : w'.mint = w.mint)
    (tokens : w'.tokenAccount = w.tokenAccount) : Undisturbed P w w' :=
  .of_terms (.of_eq merchants plans mints) tokens

theorem Undisturbed.refl (w : World) : Undisturbed P w w := .of_eq rfl rfl rfl rfl

theorem Undisturbed.trans (first : Undisturbed P w w₁) (second : Undisturbed P w₁ w') :
    Undisturbed P w w' where
  toCredentialTerms := first.toCredentialTerms.trans second.toCredentialTerms
  held owner mint kept :=
    (second.held owner mint (first.mints mint kept)).trans (first.held owner mint kept)

theorem writeMerchantState_credential {merchant : Pubkey} {state : MerchantState}
    (same : state.credentialMint = w.merchantCredential merchant) :
    (w.writeMerchantState merchant state).merchantCredential = w.merchantCredential := by
  funext other
  by_cases here : other = merchant
  · subst here
    rw [← same]
    simp only [World.merchantCredential, World.writeMerchantState, Function.update_self,
      Option.map_some, Option.getD_some, LoadedMerchantState.intoCurrent]
  · simp only [World.merchantCredential, World.writeMerchantState, Function.update_of_ne here]

theorem anchorMerchantState_credential {merchant : Pubkey} {state : MerchantState}
    (h : anchorMerchantState w merchant = .ok state) :
    state.credentialMint = w.merchantCredential merchant := by
  unfold anchorMerchantState at h
  split at h
  · cases h
  · cases h
  · rename_i found
    cases h
    rw [World.merchantCredential, found]
    rfl

theorem ensureMerchantState_credential {merchant : Pubkey} {bump : UInt8}
    {result : World × MerchantState} (h : ensureMerchantState w merchant bump = .ok result) :
    result.2.credentialMint = w.merchantCredential merchant ∧
      result.1 = w.writeMerchantState merchant result.2 := by
  refine ⟨?_, (ensureMerchantState_eq_ok h).1⟩
  unfold ensureMerchantState at h
  split at h
  · rename_i none
    cases h
    rw [World.merchantCredential, none]
    rfl
  · rename_i loaded found
    simp only [require_bind_eq_ok, pure_eq_ok] at h
    obtain ⟨_, rfl⟩ := h
    rw [World.merchantCredential, found]
    rfl

theorem loadPlanAccount_of {account : PlanAccount} (found : w.plan key = some account)
    (version : account.contents.version = none ∨
      account.contents.version = some currentAccountVersion)
    (address : key = (P.findProgramAddress account.contents.seeds).1) :
    loadPlanAccount P w key = .ok account.contents := by
  simp only [loadPlanAccount, check, orVela, orError_bind_eq_ok, require_bind_eq_ok, pure_eq_ok]
  exact ⟨account, found, version, address, rfl⟩

theorem loadPlanAccount_version {plan : LoadedPlanAccount}
    (h : loadPlanAccount P w key = .ok plan) :
    plan.version = none ∨ plan.version = some currentAccountVersion := by
  simp only [loadPlanAccount, check, orVela, orError_bind_eq_ok, require_bind_eq_ok,
    pure_eq_ok] at h
  obtain ⟨_, _, version, _, rfl⟩ := h
  exact version

structure KeepsCredential (old new : LoadedPlanAccount) : Prop extends SameCredential old new where
  planId : new.planId = old.planId
  version : new.version = some currentAccountVersion

theorem writePlan_load_other {planKey : Pubkey} {new : LoadedPlanAccount} (away : key ≠ planKey) :
    loadPlanAccount P (w.writePlan planKey new) key = loadPlanAccount P w key := by
  rw [loadPlanAccount, loadPlanAccount, World.writePlan]
  simp only [Function.update_of_ne away]

theorem writePlan_load {planKey : Pubkey} {old new : LoadedPlanAccount}
    (load : loadPlanAccount P w planKey = .ok old) (keeps : KeepsCredential old new) :
    loadPlanAccount P (w.writePlan planKey new) planKey = .ok new := by
  obtain ⟨account, found, rfl, address⟩ := loadPlanAccount_eq_ok load
  have seeds : new.seeds = account.contents.seeds := by
    rw [LoadedPlanAccount.seeds, LoadedPlanAccount.seeds, keeps.billingType, keeps.merchant,
      keeps.planId]
  let written : PlanAccount := { contents := new, dataLen := max account.dataLen new.requiredSize }
  have stored : (w.writePlan planKey new).plan planKey = some written := by
    simp only [World.writePlan, Function.update_self, found, Option.map_some, written]
  exact loadPlanAccount_of stored (.inr keeps.version) (seeds ▸ address)

theorem writePlan_undisturbed {planKey : Pubkey} {old new : LoadedPlanAccount}
    (load : loadPlanAccount P w planKey = .ok old) (keeps : KeepsCredential old new) :
    Undisturbed P w (w.writePlan planKey new) := by
  have written := writePlan_load load keeps
  refine .of_terms ⟨rfl, fun key plan loaded => ?_, fun key after loaded => ?_,
    fun _ kept => kept⟩ rfl
  · by_cases here : key = planKey
    · subst here
      obtain rfl := Except.ok.inj (load.symm.trans loaded)
      exact ⟨new, written, keeps.toSameCredential⟩
    · exact ⟨plan, (writePlan_load_other here).trans loaded, .refl plan⟩
  · by_cases here : key = planKey
    · subst here
      obtain rfl := Except.ok.inj (written.symm.trans loaded)
      exact .kept old load keeps.toSameCredential
    · exact .kept after ((writePlan_load_other here).symm.trans loaded) (.refl after)

theorem createPlan_undisturbed {planKey : Pubkey} {new : LoadedPlanAccount}
    (vacant : w.plan planKey = none) (set : w.merchantCredential new.merchant ≠ Pubkey.default)
    (credential : new.credentialMint = w.merchantCredential new.merchant) :
    Undisturbed P w (w.createPlan planKey new) := by
  refine .of_terms ⟨rfl, fun key plan loaded => ?_, fun key after loaded => ?_,
    fun _ kept => kept⟩ rfl
  · refine ⟨plan, ?_, .refl plan⟩
    obtain ⟨account, found, rfl, address⟩ := loadPlanAccount_eq_ok loaded
    have away : key ≠ planKey := by
      intro same
      rw [same, vacant] at found
      cases found
    refine loadPlanAccount_of ?_ (loadPlanAccount_version loaded) address
    exact (Function.update_of_ne away _ _).trans found
  · have version := loadPlanAccount_version loaded
    obtain ⟨account, found, rfl, address⟩ := loadPlanAccount_eq_ok loaded
    by_cases here : key = planKey
    · subst here
      simp only [World.createPlan, Function.update_self, Option.some.injEq] at found
      subst found
      exact .new set credential
    · refine .kept account.contents (loadPlanAccount_of ?_ version address) (.refl _)
      exact (Function.update_of_ne here _ _).symm.trans found

theorem writeMerchantState_undisturbed {merchant : Pubkey} {state : MerchantState}
    (same : state.credentialMint = w.merchantCredential merchant) :
    Undisturbed P w (w.writeMerchantState merchant state) :=
  .of_terms ⟨writeMerchantState_credential same, fun _ plan load => ⟨plan, load, .refl plan⟩,
    fun _ plan load => .kept plan load (.refl plan), fun _ kept => kept⟩ rfl

theorem resolvedCredential_eq_ok {state : MerchantState} {merchant planMint mint : Pubkey}
    (h : resolvedCredential w state merchant planMint = .ok mint) :
    state.credentialMint ≠ Pubkey.default ∧ mint = state.credentialMint := by
  simp only [resolvedCredential, check, require_bind_eq_ok, pure_eq_ok] at h
  obtain ⟨⟨set, same⟩, rfl⟩ := h
  exact ⟨set, same⟩

theorem createPlan_credentials {ctx : CreatePlan} (h : createPlan P w ctx = .ok w') :
    Undisturbed P w w' := by
  simp only [createPlan, check, orVela, orHost, anchorTokenConfig, bind_eq_ok,
    orError_eq_ok, require_eq_ok, pure_eq_ok, exists_const] at h
  obtain ⟨_, _, _, _, _, _, _, _, _, ⟨w₁, state⟩, ensured, _, _, vacant, mint, resolved, _, _,
    rfl⟩ := h
  obtain ⟨credential, same⟩ := ensureMerchantState_credential ensured
  obtain rfl : w₁ = w.writeMerchantState ctx.merchant state := same
  obtain ⟨set, rfl⟩ := resolvedCredential_eq_ok resolved
  have upgraded : Undisturbed P w (w.writeMerchantState ctx.merchant state) :=
    writeMerchantState_undisturbed credential
  have stored : state.credentialMint =
      (w.writeMerchantState ctx.merchant state).merchantCredential ctx.merchant :=
    credential.trans (congrFun upgraded.merchants ctx.merchant).symm
  refine upgraded.trans (.trans (createPlan_undisturbed ?_ ?_ ?_)
    (writeMerchantState_undisturbed stored))
  · exact (dataIsEmpty_vacant vacant).plan
  · exact stored ▸ set
  · exact stored

theorem createUsagePlan_credentials {ctx : CreateUsagePlan}
    (h : createUsagePlan P w ctx = .ok w') : Undisturbed P w w' := by
  simp only [createUsagePlan, check, orHost, anchorTokenConfig, bind_eq_ok,
    orError_eq_ok, require_eq_ok, pure_eq_ok, exists_const] at h
  obtain ⟨vacant, _, _, _, _, _, _, _, _, ⟨w₁, state⟩, ensured, mint, resolved, _, _, _, rfl⟩ := h
  obtain ⟨credential, same⟩ := ensureMerchantState_credential ensured
  obtain rfl : w₁ = w.writeMerchantState ctx.merchant state := same
  obtain ⟨set, rfl⟩ := resolvedCredential_eq_ok resolved
  have upgraded : Undisturbed P w (w.writeMerchantState ctx.merchant state) :=
    writeMerchantState_undisturbed credential
  have stored : state.credentialMint =
      (w.writeMerchantState ctx.merchant state).merchantCredential ctx.merchant :=
    credential.trans (congrFun upgraded.merchants ctx.merchant).symm
  refine upgraded.trans (createPlan_undisturbed ?_ ?_ ?_)
  · exact (dataIsEmpty_vacant vacant).plan
  · exact stored ▸ set
  · exact stored

theorem editableFlat_keeps {loaded : LoadedPlanAccount} {old plan : VelaPlan}
    (h : editableFlat loaded = .ok old)
    (version : loaded.version = none ∨ loaded.version = some currentAccountVersion)
    (rest : plan = { old with
      amount := plan.amount
      frequency := plan.frequency
      trialPeriod := plan.trialPeriod
      maxPulls := plan.maxPulls }) : KeepsCredential loaded (.flat plan) := by
  rw [rest]
  cases loaded with
  | flat p =>
    cases h
    exact ⟨⟨rfl, rfl, rfl⟩, rfl, version.resolve_left nofun⟩
  | legacyFlat p =>
    cases h
    exact ⟨⟨rfl, rfl, rfl⟩, rfl, rfl⟩
  | usage p => cases h
  | legacyUsage p => cases h

theorem editableUsage_keeps {loaded : LoadedPlanAccount} {old plan : UsagePlan}
    (h : editableUsage loaded = .ok old)
    (version : loaded.version = none ∨ loaded.version = some currentAccountVersion)
    (rest : plan = { old with
      tiers := plan.tiers
      tierCount := plan.tierCount
      maxChargePerPeriod := plan.maxChargePerPeriod
      settlementFrequency := plan.settlementFrequency }) :
      KeepsCredential loaded (.usage plan) := by
  rw [rest]
  cases loaded with
  | usage p =>
    cases h
    exact ⟨⟨rfl, rfl, rfl⟩, rfl, version.resolve_left nofun⟩
  | legacyUsage p =>
    cases h
    exact ⟨⟨rfl, rfl, rfl⟩, rfl, rfl⟩
  | flat p => cases h
  | legacyFlat p => cases h

theorem updatePlan_credentials {ctx : UpdatePlan} (h : updatePlan P w ctx = .ok w') :
    Undisturbed P w w' := by
  simp only [updatePlan, check, bind_eq_ok, require_eq_ok, pure_eq_ok, exists_const] at h
  obtain ⟨_, loaded, load, _, _, old, start, _, _, rfl⟩ := h
  have keeps : KeepsCredential loaded (.flat { old with
      amount := ctx.amount.getD old.amount
      frequency := ctx.frequency.getD old.frequency
      trialPeriod := ctx.trialPeriod.getD old.trialPeriod
      maxPulls := ctx.maxPulls.getD old.maxPulls }) :=
    editableFlat_keeps start (loadPlanAccount_version load) rfl
  exact (writePlan_undisturbed load keeps).trans (.of_eq rfl rfl rfl rfl)

theorem updateUsagePlan_credentials {ctx : UpdateUsagePlan}
    (h : updateUsagePlan P w ctx = .ok w') : Undisturbed P w w' := by
  simp only [updateUsagePlan, check, bind_eq_ok, require_eq_ok, pure_eq_ok, exists_const] at h
  obtain ⟨_, loaded, load, _, _, old, start, plan, replaced, _, _, _, _, rfl⟩ := h
  obtain ⟨tiers, count, rfl⟩ := replaceTiers_eq_ok replaced
  have keeps : KeepsCredential loaded (.usage { old with
      tiers := tiers
      tierCount := count
      maxChargePerPeriod := ctx.maxChargePerPeriod.getD old.maxChargePerPeriod
      settlementFrequency := ctx.settlementFrequency.getD old.settlementFrequency }) :=
    editableUsage_keeps start (loadPlanAccount_version load) rfl
  exact (writePlan_undisturbed load keeps).trans (.of_eq rfl rfl rfl rfl)

theorem migratePlan_credentials {planKey : Pubkey} (h : migratePlan P w planKey = .ok w') :
    Undisturbed P w w' := by
  obtain ⟨loaded, load, h⟩ := bind_eq_ok.mp h
  cases loaded with
  | flat p =>
    obtain ⟨_, h⟩ := require_bind_eq_ok.mp h
    cases h
    exact .refl _
  | usage p =>
    obtain ⟨_, h⟩ := require_bind_eq_ok.mp h
    cases h
    exact .refl _
  | legacyFlat p =>
    cases h
    exact writePlan_undisturbed load ⟨⟨rfl, rfl, rfl⟩, rfl, rfl⟩
  | legacyUsage p =>
    cases h
    exact writePlan_undisturbed load ⟨⟨rfl, rfl, rfl⟩, rfl, rfl⟩

theorem closeMandate_credentials {ctx : CloseMandate} :
    Ensures (closeMandate P w ctx) (Undisturbed P w) := by
  unfold closeMandate
  iterate 4 refine .skip fun _ => ?_
  exact .of_pure (.of_eq rfl rfl rfl rfl)

theorem migrateMandate_credentials {ctx : MigrateMandate} (h : migrateMandate P w ctx = .ok w') :
    Undisturbed P w w' := by
  obtain ⟨state, anchored, h⟩ := bind_eq_ok.mp h
  iterate 12 obtain ⟨_, _, h⟩ := bind_eq_ok.mp h
  obtain ⟨count, _, h⟩ := bind_eq_ok.mp h
  cases h
  have credential := anchorMerchantState_credential anchored
  have written : (w.writeMerchantState ctx.merchant
      { state with mandateCounter := count }).merchantCredential = w.merchantCredential :=
    writeMerchantState_credential credential
  refine .of_terms ⟨(merchantCredential_eq rfl).trans written, ?_, ?_, fun _ kept => kept⟩ rfl
  · exact fun _ plan load => ⟨plan, load, .refl plan⟩
  · exact fun _ plan load => .kept plan load (.refl plan)

theorem updateMandate_credentials {ctx : UpdateMandate} :
    Ensures (updateMandate P w ctx) (Undisturbed P w) := by
  unfold updateMandate
  iterate 14 refine .skip fun _ => ?_
  exact .of_pure (.of_eq rfl rfl rfl rfl)

theorem schedulePlanChange_credentials {ctx : SchedulePlanChange} :
    Ensures (schedulePlanChange P w ctx) (Undisturbed P w) := by
  refine .skip fun s => ?_
  refine .ite (fun _ => .of_pure (.refl w)) fun _ => ?_
  exact .ite (fun _ => .of_pure (.refl w)) fun _ => .of_pure (.of_eq rfl rfl rfl rfl)

theorem cancelPlanChange_credentials {ctx : CancelPlanChange} :
    Ensures (cancelPlanChange P w ctx) (Undisturbed P w) := by
  unfold cancelPlanChange
  iterate 7 refine .skip fun _ => ?_
  exact .of_pure (.of_eq rfl rfl rfl rfl)

theorem startRequest_credentials {request : RequestKey} {offset nonce : UInt64} :
    Ensures (w.startRequest P request offset nonce) (Undisturbed P w) :=
  .skip fun _ => .of_pure (.of_eq rfl rfl rfl rfl)

theorem completeRequest_credentials {request : RequestKey} {state : ArciumRequestState} :
    Ensures (w.completeRequest request state) (Undisturbed P w) :=
  .skip fun _ => .of_pure (.of_eq rfl rfl rfl rfl)

theorem grantApproval_credentials {mandate : Pubkey} {period : Int64 × Int64} {approved : Bool}
    {amount : UInt64} :
    Ensures (grantApproval P w mandate period approved amount) (Undisturbed P w) :=
  .skip fun _ => .of_pure (.of_eq rfl rfl rfl rfl)

theorem requestValidation_credentials {ctx : RequestValidation} :
    Ensures (requestValidation P w ctx) (Undisturbed P w) := by
  unfold requestValidation
  iterate 8 refine .skip fun _ => ?_
  refine .bind startRequest_credentials fun w₁ started => ?_
  exact .of_pure (started.trans (.of_eq rfl rfl rfl rfl))

theorem validateMandateCallback_credentials {ctx : ValidateMandateCallback} :
    Ensures (validateMandateCallback P w ctx) (Undisturbed P w) := by
  unfold validateMandateCallback
  iterate 9 refine .skip fun _ => ?_
  refine .bind grantApproval_credentials fun w₁ granted => ?_
  refine .bind (completeRequest_credentials (P := P)) fun w₂ completed => ?_
  exact .of_pure (granted.trans (completed.trans (.of_eq rfl rfl rfl rfl)))

theorem submitUsageReport_credentials {ctx : SubmitUsageReport} :
    Ensures (submitUsageReport P w ctx) (Undisturbed P w) := by
  intro w' h
  obtain ⟨_, rfl, _⟩ := submitUsageReport_eq_ok h
  exact .of_eq rfl rfl rfl rfl

theorem requestUsageComputation_credentials {ctx : RequestUsageComputation} :
    Ensures (requestUsageComputation P w ctx) (Undisturbed P w) := by
  unfold requestUsageComputation
  iterate 8 refine .skip fun _ => ?_
  refine .bind startRequest_credentials fun w₁ started => ?_
  exact .of_pure (started.trans (.of_eq rfl rfl rfl rfl))

theorem usageChargeCallback_credentials {ctx : UsageComputationCallback} :
    Ensures (usageChargeCallback P w ctx) (Undisturbed P w) := by
  unfold usageChargeCallback
  iterate 15 refine .skip fun _ => ?_
  refine .bind grantApproval_credentials fun w₁ granted => ?_
  refine .bind (completeRequest_credentials (P := P)) fun w₂ completed => ?_
  exact .of_pure (granted.trans (completed.trans (.of_eq rfl rfl rfl rfl)))

theorem requestBillingRecord_credentials {ctx : RequestBillingRecord} :
    Ensures (requestBillingRecord P w ctx) (Undisturbed P w) := by
  unfold requestBillingRecord
  iterate 10 refine .skip fun _ => ?_
  refine .bind startRequest_credentials fun w₁ started => ?_
  exact .of_pure (started.trans (.of_eq rfl rfl rfl rfl))

theorem recordBillingEventCallback_credentials {ctx : RecordBillingEventCallback} :
    Ensures (recordBillingEventCallback P w ctx) (Undisturbed P w) := by
  unfold recordBillingEventCallback
  iterate 10 refine .skip fun _ => ?_
  refine .bind (completeRequest_credentials (P := P)) fun w₁ completed => ?_
  refine .of_pure (.trans ?_ (completed.trans (.of_eq rfl rfl rfl rfl)))
  exact .of_eq rfl rfl rfl rfl

theorem transferChecked_undisturbed {accounts : TransferAccounts} {amount : UInt64}
    {decimals : UInt8} :
    Ensures (transferChecked P w accounts amount decimals) (Undisturbed P w) := by
  intro w' h
  have only := (transferChecked_only w' h).1
  have moved (owner mint : Pubkey) : w'.mint = w.mint ∧ (Untransferable w mint →
      w'.credentials P owner mint = w.credentials P owner mint) := transferChecked_credentials w' h
  exact ⟨.of_eq only.merchantState only.plan (moved 0 0).1, fun owner mint => (moved owner mint).2⟩

theorem updateMandatePlan_credentials {ctx : UpdateMandatePlan} :
    Ensures (updateMandatePlan P w ctx) (Undisturbed P w) := by
  refine .skip fun s => .ite (fun _ => .of_pure (.refl w)) fun _ => ?_
  refine .skip fun delta => .skip fun _ => ?_
  refine .bind (R := fun result => Undisturbed P w result.1) ?_ ?_
  · refine .ite (fun _ => ?_) fun _ => .ite (fun _ => ?_) fun _ => ?_
    · refine .bind (R := Undisturbed P w) ?_ fun _ paid => .of_pure paid
      refine .skip fun _ => .skip fun _ => .bind (.skip fun _ => .skip fun _ =>
        transferChecked_undisturbed) fun paid spec => .of_pure ?_
      have closed : Undisturbed P paid (paid.closeApproval ctx.mandate) := .of_eq rfl rfl rfl rfl
      refine Undisturbed.trans ?_ (spec.trans closed)
      exact .of_eq rfl rfl rfl rfl
    · exact .skip fun _ => .skip fun _ => .of_pure (.of_eq rfl rfl rfl rfl)
    · exact .of_pure (.of_eq rfl rfl rfl rfl)
  · rintro ⟨paid, mandate⟩ spec
    exact .of_pure (spec.trans (.of_eq rfl rfl rfl rfl))

theorem finishPull_undisturbed (w : World) (ctx : ExecutePull) (periodStart : Int64)
    (report : Option Pubkey) (mint : Pubkey) (change : Option (Pubkey × Pubkey × Int64)) :
    Undisturbed P w ((w.markUsageReportSettled ctx.mandate periodStart report).emitAutoApplied ctx
      mint change) := by
  cases report <;> cases change <;> exact .of_eq rfl rfl rfl rfl

theorem executePull_credentials {ctx : ExecutePull} :
    Ensures (executePull P w ctx) (Undisturbed P w) := by
  refine .skip fun s => .bind (R := Undisturbed P w) ?_ fun paid spec => .skip fun mandate => ?_
  · refine .ite (fun _ => .skip fun _ => .skip fun _ => transferChecked_undisturbed) fun _ => ?_
    exact .of_pure (.refl w)
  · have finished := finishPull_undisturbed (P := P)
      (paid.writeMandate ctx.mandate mandate s.pull.loaded.isLegacy) ctx s.pull.period.1
      s.usageReport s.pull.config.wrappedUsdcMint s.terms.autoAppliedChange
    have written : Undisturbed P paid
      (paid.writeMandate ctx.mandate mandate s.pull.loaded.isLegacy) := .of_eq rfl rfl rfl rfl
    exact .of_pure (spec.trans (written.trans (finished.trans (.of_eq rfl rfl rfl rfl))))

def Instruction.credentialed : Instruction → Bool
  | .subscribe _ => true
  | .cancel _ => true
  | .adminCancel _ => true
  | _ => false

theorem billing_undisturbed {i : Instruction} (other : i.credentialed = false)
    (h : execute P w i = .ok w') : Undisturbed P w w' := by
  cases i with
  | createPlan ctx => exact createPlan_credentials h
  | createUsagePlan ctx => exact createUsagePlan_credentials h
  | updatePlan ctx => exact updatePlan_credentials h
  | updateUsagePlan ctx => exact updateUsagePlan_credentials h
  | migratePlan plan => exact migratePlan_credentials h
  | subscribe ctx => cases other
  | cancel ctx => cases other
  | adminCancel ctx => cases other
  | closeMandate ctx => exact closeMandate_credentials w' h
  | migrateMandate ctx => exact migrateMandate_credentials h
  | updateMandate ctx => exact updateMandate_credentials w' h
  | updateMandatePlan ctx => exact updateMandatePlan_credentials w' h
  | schedulePlanChange ctx => exact schedulePlanChange_credentials w' h
  | cancelPlanChange ctx => exact cancelPlanChange_credentials w' h
  | requestValidation ctx => exact requestValidation_credentials w' h
  | validateMandateCallback ctx => exact validateMandateCallback_credentials w' h
  | submitUsageReport ctx => exact submitUsageReport_credentials w' h
  | requestUsageComputation ctx => exact requestUsageComputation_credentials w' h
  | usageChargeCallback ctx => exact usageChargeCallback_credentials w' h
  | executePull ctx => exact executePull_credentials w' h
  | requestBillingRecord ctx => exact requestBillingRecord_credentials w' h
  | recordBillingEventCallback ctx => exact recordBillingEventCallback_credentials w' h

structure CredentialMinted (P : Platform) (w : World) (ctx : Subscribe) (w' : World)
    (plan : LoadedPlanAccount) (mandate : VelaMandate) : Prop where
  loaded : loadPlanAccount P w ctx.plan = .ok plan
  merchant : ctx.merchant = plan.merchant
  resolved : ctx.credentialMint =
    resolveMerchantCredentialMint w plan.merchant plan.credentialMint
  vacant : w.currentMandate ctx.mandate = none
  created : w'.currentMandate ctx.mandate = some mandate
  initial : mandate.subscriber = ctx.subscriber ∧ mandate.plan = ctx.plan ∧
    mandate.merchant = plan.merchant ∧ mandate.billingType = plan.billingType ∧
    mandate.status = .active
  others : ∀ k, k ≠ ctx.mandate → w'.currentMandate k = w.currentMandate k
  mint : (w.mint ctx.credentialMint).isSome = true
  terms : CredentialTerms P w w'
  minted : ∀ owner mint, w'.credentials P owner mint = w.credentials P owner mint +
    (if ctx.subscriber = owner ∧ ctx.credentialMint = mint then 1 else 0)

theorem subscribe_minted {ctx : Subscribe} (h : subscribe P w ctx = .ok w') :
    ∃ plan mandate, CredentialMinted P w ctx w' plan mandate := by
  simp only [subscribe, check, orVela, bind_eq_ok, orError_eq_ok, require_eq_ok, pure_eq_ok,
    exists_const] at h
  obtain ⟨state, anchored, _, _, plan, loaded, _, merchant, _, _, _, _, address, resolved, own, w₁,
    opened, count, _, vacant, _, _, w₂, minted, expiry, _, due, _, rfl⟩ := h
  have credential := anchorMerchantState_credential anchored
  obtain ⟨only₁, _⟩ := createIdempotent_frame opened
  obtain ⟨only₂, _⟩ := mintTo_frame minted
  have only := only₁.trans only₂
  have held (owner mint : Pubkey) :
      (w₁.mint = w.mint ∧ w₁.credentials P owner mint = w.credentials P owner mint) ∧
        ∃ account, w₁.tokenAccount (associatedTokenAddress P ctx.subscriber ctx.credentialMint) =
          some account ∧ account.owner = ctx.subscriber := createIdempotent_credentials opened
  obtain ⟨⟨mints, _⟩, before, found, mine⟩ := held 0 0
  rw [← own] at found
  have credited (owner mint : Pubkey) : (Untransferable w₁ mint → Untransferable w₂ mint) ∧
      w₂.credentials P owner mint = w₁.credentials P owner mint +
        (if ctx.subscriberCredentialAccount = associatedTokenAddress P owner mint ∧
          ctx.credentialMint = mint ∧ before.owner = owner then (1 : UInt64).toNat else 0) :=
    mintTo_credentials found minted
  have counted : (w.writeMerchantState ctx.merchant
      { state with mandateCounter := count }).merchantCredential = w.merchantCredential :=
    writeMerchantState_credential credential
  have token : CredentialTerms P w w₂ := by
    refine ⟨merchantCredential_eq only.merchantState, ?_, ?_, fun mint kept => ?_⟩
    · exact fun key plan load => ⟨plan, (loadPlanAccount_congr only.plan).trans load, .refl plan⟩
    · exact fun key plan load => .kept plan ((loadPlanAccount_congr only.plan).symm.trans load)
        (.refl plan)
    · refine (credited 0 mint).1 ?_
      rwa [Untransferable, mints]
  refine ⟨plan, _, loaded, merchant, resolved, ?vacant, createMandate_self w₂ ctx.mandate _,
    ⟨rfl, rfl, rfl, rfl, rfl⟩, ?others, ?exists_, ?terms, ?minted⟩
  case vacant =>
    have empty := (dataIsEmpty_vacant vacant).mandate
    rw [only₁.mandate] at empty
    rw [World.currentMandate, empty]
    rfl
  case others =>
    intro k away
    exact (createMandate_of_ne away _).trans (currentMandate_congr only.mandate k)
  case exists_ =>
    simp only [mintTo, orHost, orError_bind_eq_ok, require_bind_eq_ok] at minted
    obtain ⟨_, _, _, m, there, _⟩ := minted
    rw [← mints, there]
    rfl
  case terms =>
    have written : (w₂.writeMerchantState ctx.merchant
        { state with mandateCounter := count }).merchantState = (w.writeMerchantState ctx.merchant
        { state with mandateCounter := count }).merchantState :=
      congrArg (Function.update · ctx.merchant _) only.merchantState
    have merchants := (merchantCredential_eq written).trans counted
    exact ⟨merchants, token.plans, token.offered, token.mints⟩
  case minted =>
    intro owner mint
    refine (credited owner mint).2.trans ?_
    rw [(held owner mint).1.2]
    by_cases same : ctx.subscriber = owner ∧ ctx.credentialMint = mint
    · obtain ⟨rfl, rfl⟩ := same
      rw [if_pos ⟨own, rfl, mine⟩, if_pos ⟨rfl, rfl⟩]
      rfl
    · rw [if_neg same, if_neg fun here => same ⟨mine.symm.trans here.2.2, here.2.1⟩]

structure CredentialBurned (P : Platform) (w : World) (ctx : Cancel) (w' : World)
    (plan : LoadedPlanAccount) (mandate : VelaMandate) : Prop where
  found : w.currentMandate ctx.mandate = some mandate
  active : mandate.status = .active
  subscriber : mandate.subscriber = ctx.subscriber
  planKey : ctx.plan = mandate.plan
  loaded : loadPlanAccount P w ctx.plan = .ok plan
  merchant : mandate.merchant = plan.merchant
  resolved : ctx.credentialMint =
    resolveMerchantCredentialMint w plan.merchant plan.credentialMint
  account : ctx.subscriberCredentialAccount =
    associatedTokenAddress P ctx.subscriber ctx.credentialMint
  written : w'.currentMandate ctx.mandate = some { mandate with status := .cancelled }
  others : ∀ k, k ≠ ctx.mandate → w'.currentMandate k = w.currentMandate k
  terms : CredentialTerms P w w'
  burned : ∀ owner mint, (associatedTokenAddress P ctx.subscriber ctx.credentialMint =
      associatedTokenAddress P owner mint → ctx.subscriber = owner) →
    w'.credentials P owner mint = w.credentials P owner mint -
      (if ctx.subscriber = owner ∧ ctx.credentialMint = mint then 1 else 0)

theorem loadCancellable_plan {ctx : Cancel} {loaded : LoadedMandateAccount}
    {plan : LoadedPlanAccount} (h : loadCancellable P w ctx = .ok (loaded, plan)) :
    w.currentMandate ctx.mandate = some loaded.intoCurrent ∧
      loadPlanAccount P w ctx.plan = .ok plan ∧ ctx.plan = loaded.intoCurrent.plan ∧
      loaded.intoCurrent.merchant = plan.merchant ∧
      ctx.credentialMint = resolveMerchantCredentialMint w plan.merchant plan.credentialMint := by
  simp only [loadCancellable, bind_eq_ok, require_eq_ok, pure_eq_ok, exists_const] at h
  obtain ⟨loaded, load, plan, loadPlan, _, _, key, _, merchant, resolved, same⟩ := h
  cases same
  exact ⟨loadValidMandate_currentMandate load, loadPlan, key, merchant, resolved⟩

theorem credentials_foreign {before : TokenAccount}
    (found : w.tokenAccount (associatedTokenAddress P owner mint) = some before)
    (foreign : ¬(before.mint = mint ∧ before.owner = owner)) :
    w.credentials P owner mint = 0 := by
  rw [World.credentials, found]
  exact if_neg foreign

theorem cancelled_burned {ctx : Cancel} {loaded : LoadedMandateAccount} {plan : LoadedPlanAccount}
    {authority : Pubkey} (load : loadCancellable P w ctx = .ok (loaded, plan))
    (subscriber : loaded.intoCurrent.subscriber = ctx.subscriber)
    (active : loaded.intoCurrent.status = .active)
    (account : ctx.subscriberCredentialAccount =
      associatedTokenAddress P ctx.subscriber ctx.credentialMint)
    (h : burn w ctx.subscriberCredentialAccount ctx.credentialMint authority 1 = .ok w₁) :
    CredentialBurned P w ctx (w₁.cancelMandate ctx.mandate loaded) plan loaded.intoCurrent := by
  obtain ⟨found, loadPlan, planKey, merchant, resolved⟩ := loadCancellable_plan load
  obtain ⟨only, log⟩ := burn_frame h
  have done := (cancelMandate_administered only log found).2
  have debit (owner mint : Pubkey) : ∃ before,
      w.tokenAccount ctx.subscriberCredentialAccount = some before ∧
        (Untransferable w mint → Untransferable w₁ mint) ∧
        w₁.credentials P owner mint = w.credentials P owner mint -
          (if ctx.subscriberCredentialAccount = associatedTokenAddress P owner mint ∧
            ctx.credentialMint = mint ∧ before.owner = owner then (1 : UInt64).toNat else 0) :=
    burn_credentials h
  refine ⟨found, active, subscriber, planKey, loadPlan, merchant, resolved, account, done.written,
    done.others, ⟨merchantCredential_eq only.merchantState, ?_, ?_, fun mint => ?_⟩, ?_⟩
  · exact fun key plan load => ⟨plan, (loadPlanAccount_congr only.plan).trans load, .refl plan⟩
  · exact fun key plan load => .kept plan ((loadPlanAccount_congr only.plan).symm.trans load)
      (.refl plan)
  · obtain ⟨_, _, kept, _⟩ := debit 0 mint
    exact kept
  · intro owner mint apart
    obtain ⟨before, there, _, debited⟩ := debit owner mint
    refine debited.trans ?_
    by_cases same : ctx.subscriber = owner ∧ ctx.credentialMint = mint
    · obtain ⟨rfl, rfl⟩ := same
      by_cases mine : before.owner = ctx.subscriber
      · rw [if_pos ⟨account, rfl, mine⟩, if_pos ⟨rfl, rfl⟩]
        rfl
      · rw [if_neg fun here => mine here.2.2, if_pos ⟨rfl, rfl⟩,
          credentials_foreign (account ▸ there) fun own => mine own.2]
    · rw [if_neg same, if_neg fun here => same ⟨apart (account.symm.trans here.1), here.2.1⟩]

theorem cancel_debited {ctx : Cancel} (h : cancel P w ctx = .ok w') :
    ∃ plan mandate, CredentialBurned P w ctx w' plan mandate := by
  simp only [cancel, check, bind_eq_ok, require_eq_ok, pure_eq_ok, exists_const] at h
  obtain ⟨⟨loaded, plan⟩, load, subscriber, _, active, account, w₁, burned, rfl⟩ := h
  exact ⟨plan, _, cancelled_burned load subscriber active account burned⟩

theorem adminCancel_debited {ctx : Cancel} (h : adminCancel P w ctx = .ok w') :
    ∃ plan mandate, CredentialBurned P w ctx w' plan mandate := by
  simp only [adminCancel, check, bind_eq_ok, require_eq_ok, pure_eq_ok, exists_const] at h
  obtain ⟨_, _, _, ⟨loaded, plan⟩, load, subscriber, active, account, _, _, w₁, burned, rfl⟩ := h
  exact ⟨plan, _, cancelled_burned load subscriber active account burned⟩

end VelaProtocol
