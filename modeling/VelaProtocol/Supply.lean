import VelaProtocol.Credentials
import VelaProtocol.Properties.Backing

/-! What each instruction does to the mints and to the tokens in circulation: charges only move
tokens, and whatever is minted or burned is booked in the supply. -/
namespace VelaProtocol

open Guard

variable {P : Platform} {w w₁ w' : World}

def AccountsStay (before after : Pubkey → Option TokenAccount) : Prop :=
  ∀ key account, before key = some account →
    ∃ amount, after key = some { account with amount := amount }

structure Conserves (w w' : World) : Prop where
  mint : w'.mint = w.mint
  accounts : AccountsStay w.tokenAccount w'.tokenAccount
  circulating : ∀ key, w'.circulating key = w.circulating key
  splTokenAccount : w'.splTokenAccount = w.splTokenAccount
  splMint : w'.splMint = w.splMint
  protocolConfig : w'.protocolConfig = w.protocolConfig

/-- Mints keep everything but their supply, and one whose accounts added up to its supply is still
such a mint. -/
structure Booked (w w' : World) : Prop where
  mints : ∀ key m, w.mint key = some m → ∃ supply, w'.mint key = some { m with supply := supply }
  accounts : AccountsStay w.tokenAccount w'.tokenAccount
  coins : AccountsStay w.splTokenAccount w'.splTokenAccount
  sound : ∀ key, w.supply key = w.circulating key → w'.supply key = w'.circulating key

section Accounts

variable {f g h : Pubkey → Option TokenAccount} {a : Pubkey} {account : TokenAccount}

theorem AccountsStay.refl (f : Pubkey → Option TokenAccount) : AccountsStay f f :=
  fun _ account found => ⟨account.amount, found⟩

theorem AccountsStay.of_eq (same : g = f) : AccountsStay f g := same ▸ .refl f

theorem AccountsStay.trans (first : AccountsStay f g) (second : AccountsStay g h) :
    AccountsStay f h := by
  intro key account found
  obtain ⟨amount, between⟩ := first key account found
  exact second key { account with amount := amount } between

theorem AccountsStay.update {amount : UInt64} (found : f a = some account) :
    AccountsStay f (Function.update f a (some { account with amount := amount })) := by
  intro key stored present
  by_cases same : key = a
  · subst same
    obtain rfl := Option.some.inj (found.symm.trans present)
    exact ⟨amount, Function.update_self _ _ _⟩
  · exact ⟨stored.amount, (Function.update_of_ne same _ _).trans present⟩

theorem AccountsStay.open (vacant : f a = none) :
    AccountsStay f (Function.update f a (some account)) := by
  intro key stored present
  have away : key ≠ a := by
    rintro rfl
    cases vacant.symm.trans present
  exact ⟨stored.amount, (Function.update_of_ne away _ _).trans present⟩

end Accounts

theorem Conserves.of_eq (mints : w'.mint = w.mint) (tokens : w'.tokenAccount = w.tokenAccount)
    (coins : w'.splTokenAccount = w.splTokenAccount) (splMint : w'.splMint = w.splMint)
    (config : w'.protocolConfig = w.protocolConfig) : Conserves w w' :=
  ⟨mints, .of_eq tokens, fun _ => circulating_congr tokens, coins, splMint, config⟩

theorem Conserves.refl (w : World) : Conserves w w := .of_eq rfl rfl rfl rfl rfl

theorem Conserves.trans (first : Conserves w w₁) (second : Conserves w₁ w') : Conserves w w' where
  mint := second.mint.trans first.mint
  accounts := first.accounts.trans second.accounts
  circulating key := (second.circulating key).trans (first.circulating key)
  splTokenAccount := second.splTokenAccount.trans first.splTokenAccount
  splMint := second.splMint.trans first.splMint
  protocolConfig := second.protocolConfig.trans first.protocolConfig

theorem Conserves.emit (conserves : Conserves w w') (e : LogEntry) : Conserves w (w'.emit e) :=
  conserves.trans (.of_eq rfl rfl rfl rfl rfl)

theorem Booked.of_eq (mints : w'.mint = w.mint) (tokens : w'.tokenAccount = w.tokenAccount)
    (coins : AccountsStay w.splTokenAccount w'.splTokenAccount) : Booked w w' where
  mints key m found := ⟨m.supply, (congrFun mints key).trans found⟩
  accounts := .of_eq tokens
  coins := coins
  sound key balanced := by
    rw [circulating_congr tokens, ← balanced, World.supply, World.supply, mints]

theorem Conserves.booked (conserves : Conserves w w') : Booked w w' where
  mints key m found := ⟨m.supply, (congrFun conserves.mint key).trans found⟩
  accounts := conserves.accounts
  coins := .of_eq conserves.splTokenAccount
  sound key balanced := by
    rw [conserves.circulating key, ← balanced, World.supply, World.supply, conserves.mint]

theorem Booked.trans (first : Booked w w₁) (second : Booked w₁ w') : Booked w w' where
  mints key m found := by
    obtain ⟨supply, found₁⟩ := first.mints key m found
    exact second.mints key { m with supply := supply } found₁
  accounts := first.accounts.trans second.accounts
  coins := first.coins.trans second.coins
  sound key balanced := second.sound key (first.sound key balanced)

theorem Booked.refl (w : World) : Booked w w := (Conserves.refl w).booked

theorem Conserves.beside {mint vault : Pubkey} (conserves : Conserves w w') :
    Beside mint vault w w' where
  config configures := configures.of_eq conserves.protocolConfig
  minted := congrFun conserves.mint mint
  circulating := conserves.circulating mint
  holder := congrFun conserves.splTokenAccount vault
  splMint := conserves.splMint

theorem createIdempotent_conserves {owner mint : Pubkey} :
    Ensures (createIdempotent P w owner mint) (Conserves w) := by
  intro w' h
  obtain ⟨mints, circulating⟩ := createIdempotent_circulating _ h
  have only := (createIdempotent_frame h).1
  refine ⟨mints, ?_, circulating, only.splTokenAccount, only.splMint, only.protocolConfig⟩
  simp only [createIdempotent] at h
  split at h
  · simp only [require_bind_eq_ok, pure_eq_ok] at h
    obtain ⟨_, _, rfl⟩ := h
    exact .refl _
  · rename_i vacant
    simp only [orHost, orError_bind_eq_ok, pure_eq_ok] at h
    obtain ⟨_, _, rfl⟩ := h
    exact .open vacant

theorem transferChecked_conserves {accounts : TransferAccounts} {amount : UInt64}
    {decimals : UInt8} :
    Ensures (transferChecked P w accounts amount decimals) (Conserves w) := by
  intro w' h
  obtain ⟨mints, circulating⟩ := transferChecked_circulating w' h
  have only := (transferChecked_only w' h).1
  refine ⟨mints, ?_, circulating, only.splTokenAccount, only.splMint, only.protocolConfig⟩
  simp only [transferChecked, orHost, orError_bind_eq_ok, require_bind_eq_ok] at h
  obtain ⟨source, found, destination, present, _, _, _, _, _, _, _, _, h⟩ := h
  split at h
  · cases h
    exact .refl _
  · rename_i different
    simp only [bind_eq_ok, orError_eq_ok, pure_eq_ok] at h
    obtain ⟨received, _, _, _, rfl⟩ := h
    refine (AccountsStay.update found).trans (.update ?_)
    exact (Function.update_of_ne (Ne.symm different) _ _).trans present

theorem invokeTransfer_conserves {accounts : TransferAccounts} {amount : UInt64} {decimals : UInt8}
    {seeds : Seeds} {bump : UInt8} :
    Ensures (invokeTransferCheckedWithHook P w accounts amount decimals seeds bump)
      (Conserves w) := .skip fun _ => transferChecked_conserves

theorem booked_of_update {key address : Pubkey} {m : Mint} {supply : UInt64}
    {before : TokenAccount} {amount : UInt64} (found : w.mint key = some m)
    (mints : w'.mint = Function.update w.mint key (some { m with supply := supply }))
    (held : w.tokenAccount address = some before) (own : before.mint = key)
    (tokens : w'.tokenAccount =
      Function.update w.tokenAccount address (some { before with amount := amount }))
    (coins : w'.splTokenAccount = w.splTokenAccount)
    (sound : w.supply key = w.circulating key → w'.supply key = w'.circulating key) :
    Booked w w' := by
  refine ⟨?_, tokens ▸ .update held, .of_eq coins, ?_⟩
  · intro other stored present
    by_cases same : other = key
    · subst same
      obtain rfl := Option.some.inj (found.symm.trans present)
      exact ⟨supply, by rw [mints, Function.update_self]⟩
    · exact ⟨stored.supply, by rw [mints, Function.update_of_ne same, present]⟩
  · intro other balanced
    by_cases same : other = key
    · exact same ▸ sound (same ▸ balanced)
    · have written : w'.circulating other + _ = _ := circulating_update _ tokens
      simp only [held, Totals.cell_some, TokenAccount.amountOf, own, if_neg (Ne.symm same),
        Nat.add_zero] at written
      rw [written, ← balanced, World.supply, World.supply, mints, Function.update_of_ne same]

theorem mintTo_booked {mint account authority : Pubkey} {amount : UInt64} :
    Ensures (mintTo w mint account authority amount) (Booked w) := by
  intro w' h
  obtain ⟨supplied, circulating, _⟩ := mintTo_supplied h
  simp only [mintTo, orHost, orError_bind_eq_ok, require_bind_eq_ok, pure_eq_ok] at h
  obtain ⟨before, found, own, m, stored, _, supply, _, received, _, rfl⟩ := h
  refine booked_of_update stored rfl found own rfl rfl fun balanced => ?_
  rw [supplied, circulating, balanced]

theorem burn_booked {mint account authority : Pubkey} {amount : UInt64} :
    Ensures (burn w account mint authority amount) (Booked w) := by
  intro w' h
  have supplied := burn_supplied h
  simp only [burn, orHost, orError_bind_eq_ok, require_bind_eq_ok, pure_eq_ok] at h
  obtain ⟨source, found, m, stored, own, _, _, rfl⟩ := h
  refine booked_of_update stored rfl found own rfl rfl fun balanced => ?_
  obtain ⟨less, gone, _⟩ := supplied balanced
  omega

theorem createMint_booked {key : Pubkey} {m : Mint} (empty : m.supply = 0) :
    Ensures (w.createMint key m) (Booked w) := by
  intro w' h
  obtain ⟨vacant, h⟩ := require_bind_eq_ok.mp h
  cases h
  have absent : w.mint key = none := (dataIsEmpty_vacant vacant).mint
  refine ⟨?_, .refl _, .refl _, ?_⟩
  · intro other stored present
    have away : other ≠ key := by
      rintro rfl
      cases absent.symm.trans present
    exact ⟨stored.supply, (Function.update_of_ne away _ _).trans present⟩
  · intro other balanced
    refine Eq.trans ?_ balanced
    change ((Function.update w.mint key (some m) other).map fun m => m.supply.toNat).getD 0 =
      ((w.mint other).map fun m => m.supply.toNat).getD 0
    by_cases same : other = key
    · rw [same, absent, Function.update_self, Option.map_some, empty]
      rfl
    · rw [Function.update_of_ne same]

theorem splTransferChecked_booked {source mint destination authority : Pubkey} {amount : UInt64}
    {decimals : UInt8} :
    Ensures (splTransferChecked w source mint destination authority amount decimals)
      (Booked w) := by
  intro w' h
  have only := (splTransferChecked_eq_ok h).only
  refine .of_eq (by rw [only]) (by rw [only]) ?_
  simp only [splTransferChecked, orHost, orError_bind_eq_ok, require_bind_eq_ok] at h
  obtain ⟨payer, found, receiver, present, _, _, _, _, _, _, _, h⟩ := h
  split at h
  · cases h
    exact .refl _
  · rename_i different
    simp only [bind_eq_ok, orError_eq_ok, pure_eq_ok] at h
    obtain ⟨received, _, rfl⟩ := h
    refine (AccountsStay.update found).trans (.update ?_)
    exact (Function.update_of_ne (Ne.symm different) _ _).trans present

theorem deposit_booked {accounts : WrappingAccounts} {payer : Pubkey} {amount : UInt64} :
    Ensures (deposit P w accounts payer amount) (Booked w) :=
  .bind splTransferChecked_booked fun _ paid => mintTo_booked.mono fun _ => paid.trans

theorem withdraw_booked {accounts : WrappingAccounts} {owner : Pubkey} {amount : UInt64} :
    Ensures (withdraw P w accounts owner amount) (Booked w) :=
  .bind burn_booked fun _ burned => splTransferChecked_booked.mono fun _ => burned.trans

theorem ensureMerchantState_conserves {merchant : Pubkey} {bump : UInt8} :
    Ensures (ensureMerchantState w merchant bump) fun result => Conserves w result.1 := by
  intro result ensured
  rw [(ensureMerchantState_eq_ok ensured).1]
  exact .of_eq rfl rfl rfl rfl rfl

theorem createPlan_conserves {ctx : CreatePlan} : Ensures (createPlan P w ctx) (Conserves w) := by
  unfold createPlan
  iterate 6 refine .skip fun _ => ?_
  refine .bind ensureMerchantState_conserves ?_
  rintro ⟨w₁, state⟩ same
  iterate 5 refine .skip fun _ => ?_
  exact .of_pure (same.trans (.of_eq rfl rfl rfl rfl rfl))

theorem createUsagePlan_conserves {ctx : CreateUsagePlan} :
    Ensures (createUsagePlan P w ctx) (Conserves w) := by
  unfold createUsagePlan
  iterate 6 refine .skip fun _ => ?_
  refine .bind ensureMerchantState_conserves ?_
  rintro ⟨w₁, state⟩ same
  iterate 4 refine .skip fun _ => ?_
  exact .of_pure (same.trans (.of_eq rfl rfl rfl rfl rfl))

theorem updatePlan_conserves {ctx : UpdatePlan} : Ensures (updatePlan P w ctx) (Conserves w) := by
  unfold updatePlan
  iterate 6 refine .skip fun _ => ?_
  exact .of_pure (.of_eq rfl rfl rfl rfl rfl)

theorem updateUsagePlan_conserves {ctx : UpdateUsagePlan} :
    Ensures (updateUsagePlan P w ctx) (Conserves w) := by
  unfold updateUsagePlan
  iterate 9 refine .skip fun _ => ?_
  exact .of_pure (.of_eq rfl rfl rfl rfl rfl)

theorem migratePlan_conserves {plan : Pubkey} :
    Ensures (migratePlan P w plan) (Conserves w) := by
  refine .skip fun loaded => ?_
  cases loaded with
  | flat p => exact .skip fun _ => .of_pure (.refl w)
  | usage p => exact .skip fun _ => .of_pure (.refl w)
  | legacyFlat p => exact .of_pure (.of_eq rfl rfl rfl rfl rfl)
  | legacyUsage p => exact .of_pure (.of_eq rfl rfl rfl rfl rfl)

theorem closeMandate_conserves {ctx : CloseMandate} :
    Ensures (closeMandate P w ctx) (Conserves w) := by
  unfold closeMandate
  iterate 4 refine .skip fun _ => ?_
  exact .of_pure (.of_eq rfl rfl rfl rfl rfl)

theorem migrateMandate_conserves {ctx : MigrateMandate} :
    Ensures (migrateMandate P w ctx) (Conserves w) := by
  unfold migrateMandate
  iterate 14 refine .skip fun _ => ?_
  exact .of_pure (.of_eq rfl rfl rfl rfl rfl)

theorem updateMandate_conserves {ctx : UpdateMandate} :
    Ensures (updateMandate P w ctx) (Conserves w) := by
  unfold updateMandate
  iterate 14 refine .skip fun _ => ?_
  exact .of_pure (.of_eq rfl rfl rfl rfl rfl)

theorem settleProration_conserves {ctx : UpdateMandatePlan} {s : PlanSwitch} {delta : Int} :
    Ensures (settleProration P w ctx s delta) fun result => Conserves w result.1 := by
  refine .ite (fun _ => ?_) fun _ => .ite (fun _ => ?_) fun _ => .of_pure (.refl w)
  · refine .bind (R := Conserves w) ?_ fun _ paid => .of_pure paid
    refine .skip fun _ => .skip fun _ => .bind (.skip fun _ => invokeTransfer_conserves) ?_
    exact fun paid spec => .of_pure (spec.trans (.of_eq rfl rfl rfl rfl rfl))
  · exact .skip fun _ => .skip fun _ => .of_pure (.of_eq rfl rfl rfl rfl rfl)

theorem updateMandatePlan_conserves {ctx : UpdateMandatePlan} :
    Ensures (updateMandatePlan P w ctx) (Conserves w) := by
  refine .skip fun s => .ite (fun _ => .of_pure (.refl w)) fun _ => ?_
  refine .skip fun _ => .skip fun _ => .bind settleProration_conserves ?_
  rintro ⟨paid, mandate⟩ spec
  refine .of_pure (.trans ?_ (spec.trans (.of_eq rfl rfl rfl rfl rfl)))
  exact .of_eq rfl rfl rfl rfl rfl

theorem schedulePlanChange_conserves {ctx : SchedulePlanChange} :
    Ensures (schedulePlanChange P w ctx) (Conserves w) := by
  refine .skip fun s => ?_
  refine .ite (fun _ => .of_pure (.refl w)) fun _ => ?_
  refine .ite (fun _ => .of_pure (.refl w)) fun _ => ?_
  exact .of_pure (.of_eq rfl rfl rfl rfl rfl)

theorem cancelPlanChange_conserves {ctx : CancelPlanChange} :
    Ensures (cancelPlanChange P w ctx) (Conserves w) := by
  unfold cancelPlanChange
  iterate 7 refine .skip fun _ => ?_
  exact .of_pure (.of_eq rfl rfl rfl rfl rfl)

theorem startRequest_conserves {key : RequestKey} {offset nonce : UInt64} :
    Ensures (w.startRequest P key offset nonce) (Conserves w) :=
  .skip fun _ => .of_pure (.of_eq rfl rfl rfl rfl rfl)

theorem completeRequest_conserves {key : RequestKey} {request : ArciumRequestState} :
    Ensures (w.completeRequest key request) (Conserves w) :=
  .skip fun _ => .of_pure (.of_eq rfl rfl rfl rfl rfl)

theorem grantApproval_conserves {mandate : Pubkey} {period : Int64 × Int64} {approved : Bool}
    {amount : UInt64} : Ensures (grantApproval P w mandate period approved amount) (Conserves w) :=
  .skip fun _ => .of_pure (.of_eq rfl rfl rfl rfl rfl)

theorem requestValidation_conserves {ctx : RequestValidation} :
    Ensures (requestValidation P w ctx) (Conserves w) := by
  unfold requestValidation
  iterate 8 refine .skip fun _ => ?_
  refine .bind startRequest_conserves fun w₁ started => .of_pure (started.trans ?_)
  exact .of_eq rfl rfl rfl rfl rfl

theorem validateMandateCallback_conserves {ctx : ValidateMandateCallback} :
    Ensures (validateMandateCallback P w ctx) (Conserves w) := by
  unfold validateMandateCallback
  iterate 9 refine .skip fun _ => ?_
  refine .bind grantApproval_conserves fun w₁ granted => ?_
  refine .bind completeRequest_conserves fun w₂ completed => .of_pure (.emit ?_ _)
  exact granted.trans completed

theorem submitUsageReport_conserves {ctx : SubmitUsageReport} :
    Ensures (submitUsageReport P w ctx) (Conserves w) := by
  intro w' h
  obtain ⟨report, rfl, _⟩ := submitUsageReport_eq_ok h
  exact .of_eq rfl rfl rfl rfl rfl

theorem requestUsageComputation_conserves {ctx : RequestUsageComputation} :
    Ensures (requestUsageComputation P w ctx) (Conserves w) := by
  unfold requestUsageComputation
  iterate 8 refine .skip fun _ => ?_
  refine .bind startRequest_conserves fun w₁ started => .of_pure (started.trans ?_)
  exact .of_eq rfl rfl rfl rfl rfl

theorem usageChargeCallback_conserves {ctx : UsageComputationCallback} :
    Ensures (usageChargeCallback P w ctx) (Conserves w) := by
  unfold usageChargeCallback
  iterate 15 refine .skip fun _ => ?_
  refine .bind grantApproval_conserves fun w₁ granted => ?_
  refine .bind completeRequest_conserves fun w₂ completed => .of_pure (.emit ?_ _)
  exact .trans (.trans (.of_eq rfl rfl rfl rfl rfl) granted) completed

theorem requestBillingRecord_conserves {ctx : RequestBillingRecord} :
    Ensures (requestBillingRecord P w ctx) (Conserves w) := by
  unfold requestBillingRecord
  iterate 10 refine .skip fun _ => ?_
  refine .bind startRequest_conserves fun w₁ started => .of_pure (started.trans ?_)
  exact .of_eq rfl rfl rfl rfl rfl

theorem recordBillingEventCallback_conserves {ctx : RecordBillingEventCallback} :
    Ensures (recordBillingEventCallback P w ctx) (Conserves w) := by
  unfold recordBillingEventCallback
  iterate 10 refine .skip fun _ => ?_
  refine .bind completeRequest_conserves fun w₁ completed => .of_pure ?_
  refine Conserves.emit (.trans ?_ completed) _
  exact .of_eq rfl rfl rfl rfl rfl

theorem finishPull_conserves (w : World) (ctx : ExecutePull) (periodStart : Int64)
    (report : Option Pubkey) (mint : Pubkey) (change : Option (Pubkey × Pubkey × Int64)) :
    Conserves w ((w.markUsageReportSettled ctx.mandate periodStart report).emitAutoApplied ctx
      mint change) := by
  cases report <;> cases change <;> exact .of_eq rfl rfl rfl rfl rfl

theorem executePull_conserves {ctx : ExecutePull} :
    Ensures (executePull P w ctx) (Conserves w) := by
  refine .skip fun s => .bind (R := Conserves w) ?_ fun paid spec => .skip fun mandate => ?_
  · refine .ite (fun _ => .skip fun _ => invokeTransfer_conserves) fun _ => ?_
    exact .of_pure (.refl w)
  · have finished := finishPull_conserves
      (paid.writeMandate ctx.mandate mandate s.pull.loaded.isLegacy) ctx s.pull.period.1
      s.usageReport s.pull.config.wrappedUsdcMint s.terms.autoAppliedChange
    have written : Conserves paid
      (paid.writeMandate ctx.mandate mandate s.pull.loaded.isLegacy) := .of_eq rfl rfl rfl rfl rfl
    exact .of_pure (spec.trans (written.trans (finished.trans (.of_eq rfl rfl rfl rfl rfl))))

theorem billing_conserves {i : Instruction} (other : i.credentialed = false)
    (h : execute P w i = .ok w') : Conserves w w' := by
  cases i with
  | createPlan ctx => exact createPlan_conserves w' h
  | createUsagePlan ctx => exact createUsagePlan_conserves w' h
  | updatePlan ctx => exact updatePlan_conserves w' h
  | updateUsagePlan ctx => exact updateUsagePlan_conserves w' h
  | migratePlan plan => exact migratePlan_conserves w' h
  | subscribe ctx => cases other
  | cancel ctx => cases other
  | adminCancel ctx => cases other
  | closeMandate ctx => exact closeMandate_conserves w' h
  | migrateMandate ctx => exact migrateMandate_conserves w' h
  | updateMandate ctx => exact updateMandate_conserves w' h
  | updateMandatePlan ctx => exact updateMandatePlan_conserves w' h
  | schedulePlanChange ctx => exact schedulePlanChange_conserves w' h
  | cancelPlanChange ctx => exact cancelPlanChange_conserves w' h
  | requestValidation ctx => exact requestValidation_conserves w' h
  | validateMandateCallback ctx => exact validateMandateCallback_conserves w' h
  | submitUsageReport ctx => exact submitUsageReport_conserves w' h
  | requestUsageComputation ctx => exact requestUsageComputation_conserves w' h
  | usageChargeCallback ctx => exact usageChargeCallback_conserves w' h
  | executePull ctx => exact executePull_conserves w' h
  | requestBillingRecord ctx => exact requestBillingRecord_conserves w' h
  | recordBillingEventCallback ctx => exact recordBillingEventCallback_conserves w' h

/-- Neither a merchant nor a plan signs at this address. -/
structure Uncredentialed (P : Platform) (k : Pubkey) : Prop where
  merchant : ∀ merchant, (P.findProgramAddress (.merchant merchant)).1 ≠ k
  plan : ∀ plan : LoadedPlanAccount, (P.findProgramAddress plan.seeds).1 ≠ k

def CredentialAuthority (P : Platform) (w : World) (credential authority : Pubkey) : Prop :=
  ∃ plan planKey, loadPlanAccount P w planKey = .ok plan ∧
    authority = (credentialSigner P plan planKey credential).authority

theorem CredentialAuthority.ne {credential authority k : Pubkey}
    (signs : CredentialAuthority P w credential authority) (apart : Uncredentialed P k) :
    authority ≠ k := by
  obtain ⟨plan, planKey, loaded, rfl⟩ := signs
  unfold credentialSigner
  split
  · exact apart.merchant plan.merchant
  · obtain ⟨_, _, _, address⟩ := loadPlanAccount_eq_ok loaded
    exact address ▸ apart.plan plan

structure CredentialIssued (P : Platform) (w : World) (credential : Pubkey) (w' : World) :
    Prop where
  booked : Booked w w'
  minted : ∃ w₁ w₂ account authority, Conserves w w₁ ∧ Conserves w₂ w' ∧
    CredentialAuthority P w credential authority ∧
    mintTo w₁ credential account authority 1 = .ok w₂

/-- A credential is burned, by a signer of the instruction or by whoever minted it. -/
structure CredentialRevoked (P : Platform) (w : World) (credential signer : Pubkey)
    (w' : World) : Prop where
  booked : Booked w w'
  burned : ∃ w₁ account authority, burn w account credential authority 1 = .ok w₁ ∧
    Conserves w₁ w' ∧ w'.tokenAccount = w₁.tokenAccount ∧
    (∀ k, w'.transfersBy k = w.transfersBy k) ∧
    (authority = signer ∨ CredentialAuthority P w credential authority)

theorem subscribe_issued {ctx : Subscribe} :
    Ensures (subscribe P w ctx) (CredentialIssued P w ctx.credentialMint) := by
  intro w' h
  unfold subscribe at h
  iterate 2 obtain ⟨_, _, h⟩ := bind_eq_ok.mp h
  obtain ⟨plan, loaded, h⟩ := bind_eq_ok.mp h
  iterate 7 obtain ⟨_, h⟩ := require_bind_eq_ok.mp h
  obtain ⟨resolved, h⟩ := require_bind_eq_ok.mp h
  obtain ⟨_, h⟩ := require_bind_eq_ok.mp h
  obtain ⟨w₁, opened, h⟩ := bind_eq_ok.mp h
  iterate 3 obtain ⟨_, _, h⟩ := bind_eq_ok.mp h
  obtain ⟨w₂, minted, h⟩ := bind_eq_ok.mp h
  iterate 2 obtain ⟨_, _, h⟩ := bind_eq_ok.mp h
  cases h
  rw [← resolved] at minted
  have first := createIdempotent_conserves w₁ opened
  refine ⟨?_, w₁, w₂, ctx.subscriberCredentialAccount, _, first, ?_,
    ⟨plan, ctx.plan, loaded, rfl⟩, minted⟩
  · refine first.booked.trans ((mintTo_booked w₂ minted).trans (Conserves.booked ?_))
    exact .of_eq rfl rfl rfl rfl rfl
  · exact .of_eq rfl rfl rfl rfl rfl

theorem cancelMandate_revoked {credential account authority signer key : Pubkey}
    {loaded : LoadedMandateAccount} (burned : burn w account credential authority 1 = .ok w₁)
    (signs : authority = signer ∨ CredentialAuthority P w credential authority) :
    CredentialRevoked P w credential signer (w₁.cancelMandate key loaded) := by
  have conserves : Conserves w₁ (w₁.cancelMandate key loaded) := .of_eq rfl rfl rfl rfl rfl
  refine ⟨(burn_booked w₁ burned).trans conserves.booked, w₁, account, authority, burned,
    conserves, rfl, fun k => ?_, signs⟩
  exact (burn_burned w₁ burned).transfersBy k

theorem cancel_revoked {ctx : Cancel} :
    Ensures (cancel P w ctx) (CredentialRevoked P w ctx.credentialMint ctx.authority) := by
  intro w' h
  unfold cancel at h
  iterate 5 obtain ⟨_, _, h⟩ := bind_eq_ok.mp h
  obtain ⟨w₁, burned, h⟩ := bind_eq_ok.mp h
  cases h
  exact cancelMandate_revoked burned (.inl rfl)

theorem adminCancel_revoked {ctx : Cancel} :
    Ensures (adminCancel P w ctx) (CredentialRevoked P w ctx.credentialMint ctx.authority) := by
  intro w' h
  unfold adminCancel at h
  iterate 2 obtain ⟨_, _, h⟩ := bind_eq_ok.mp h
  obtain ⟨⟨loaded, plan⟩, load, h⟩ := bind_eq_ok.mp h
  iterate 4 obtain ⟨_, _, h⟩ := bind_eq_ok.mp h
  obtain ⟨w₁, burned, h⟩ := bind_eq_ok.mp h
  cases h
  obtain ⟨_, loadPlan, _⟩ := loadCancellable_plan load
  exact cancelMandate_revoked burned (.inr ⟨plan, ctx.plan, loadPlan, rfl⟩)

theorem invokeStreamTransfer_conserves {accounts : StreamTransferAccounts} {key merchant : Pubkey}
    {amount : UInt64} {seeds : Seeds} {bump : UInt8} :
    Ensures (invokeStreamTransfer P w accounts key merchant amount seeds bump) (Conserves w) :=
  .skip fun _ => .skip fun _ => .bind invokeTransfer_conserves fun _ spec =>
    .skip fun _ => .of_pure spec

theorem payStream_conserves {accounts : StreamTransferAccounts} {key : Pubkey} {s : StreamMandate}
    {amount : UInt64} : Ensures (payStream P w accounts key s amount) (Conserves w) :=
  .ite (fun _ => invokeStreamTransfer_conserves) fun _ => .of_pure (.refl w)

theorem createStreamMandate_conserves {ctx : CreateStreamMandate} :
    Ensures (createStreamMandate P w ctx) (Conserves w) := by
  unfold createStreamMandate
  iterate 13 refine .skip fun _ => ?_
  exact .of_pure (.of_eq rfl rfl rfl rfl rfl)

theorem executeStream_conserves {ctx : ExecuteStream} :
    Ensures (executeStream P w ctx) (Conserves w) := by
  unfold executeStream
  iterate 11 refine .skip fun _ => ?_
  refine .ite (fun _ => .of_pure (.of_eq rfl rfl rfl rfl rfl)) fun _ => ?_
  refine .bind invokeStreamTransfer_conserves fun paid spec => .of_pure (spec.trans ?_)
  exact .of_eq rfl rfl rfl rfl rfl

theorem pauseStream_conserves {ctx : StreamControl} :
    Ensures (pauseStream P w ctx) (Conserves w) := by
  unfold pauseStream
  iterate 5 refine .skip fun _ => ?_
  refine .bind payStream_conserves fun paid spec => .of_pure (spec.trans ?_)
  exact .of_eq rfl rfl rfl rfl rfl

theorem resumeStream_conserves {ctx : ResumeStream} :
    Ensures (resumeStream P w ctx) (Conserves w) := by
  unfold resumeStream
  iterate 8 refine .skip fun _ => ?_
  exact .of_pure (.of_eq rfl rfl rfl rfl rfl)

theorem cancelStream_conserves {ctx : StreamControl} :
    Ensures (cancelStream P w ctx) (Conserves w) := by
  unfold cancelStream
  iterate 4 refine .skip fun _ => ?_
  refine .bind payStream_conserves fun paid spec => .of_pure (spec.trans ?_)
  exact .of_eq rfl rfl rfl rfl rfl

theorem updateStreamRate_conserves {ctx : UpdateStreamRate} :
    Ensures (updateStreamRate P w ctx) (Conserves w) := by
  unfold updateStreamRate
  iterate 7 refine .skip fun _ => ?_
  refine .bind payStream_conserves fun paid spec => .skip fun _ => .skip fun _ => .of_pure ?_
  refine .emit (.emit (.emit (spec.trans ?_) _) _) _
  exact .of_eq rfl rfl rfl rfl rfl

theorem streaming_conserves {i : StreamInstruction} :
    Ensures (executeStreaming P w i) (Conserves w) := by
  cases i with
  | createStreamMandate ctx => exact createStreamMandate_conserves
  | executeStream ctx => exact executeStream_conserves
  | pauseStream ctx => exact pauseStream_conserves
  | resumeStream ctx => exact resumeStream_conserves
  | updateStreamRate ctx => exact updateStreamRate_conserves
  | cancelStream ctx => exact cancelStream_conserves

theorem writeAgentMandate_conserves {key : Pubkey} {m : AgentMandate} {legacy : Bool} :
    Ensures (w.writeAgentMandate key m legacy) (Conserves w) :=
  .skip fun _ => .ite (fun _ => .skip fun _ => .of_pure (.of_eq rfl rfl rfl rfl rfl)) fun _ =>
    .skip fun _ => .of_pure (.of_eq rfl rfl rfl rfl rfl)

theorem agentPull_conserves {ctx : AgentPull} : Ensures (agentPull P w ctx) (Conserves w) := by
  unfold agentPull
  iterate 16 refine .skip fun _ => ?_
  refine .bind (R := Conserves w) ?_ fun paid spec => ?_
  · refine .skip fun _ => .bind invokeTransfer_conserves fun _ spec => .skip fun _ => .of_pure ?_
    refine Conserves.trans ?_ (spec.trans (.of_eq rfl rfl rfl rfl rfl))
    exact .of_eq rfl rfl rfl rfl rfl
  · exact .bind writeAgentMandate_conserves fun _ wrote => .of_pure ((spec.trans wrote).emit _)

theorem adjustAgentMandate_conserves {ctx : AdjustAgentMandate} :
    Ensures (adjustAgentMandate P w ctx) (Conserves w) := by
  unfold adjustAgentMandate
  iterate 8 refine .skip fun _ => ?_
  exact .bind writeAgentMandate_conserves fun _ wrote => .of_pure (wrote.emit _)

theorem pauseAgentMandate_conserves {ctx : AgentControl} :
    Ensures (pauseAgentMandate P w ctx) (Conserves w) :=
  .skip fun _ => .skip fun _ => .bind writeAgentMandate_conserves fun _ wrote =>
    .of_pure (wrote.emit _)

theorem resumeAgentMandate_conserves {ctx : AgentControl} :
    Ensures (resumeAgentMandate P w ctx) (Conserves w) :=
  .skip fun _ => .skip fun _ => .bind writeAgentMandate_conserves fun _ wrote =>
    .of_pure (wrote.emit _)

theorem returnFunds_booked {ctx : AgentExit} {amount : UInt64} {bump : UInt8} :
    Ensures (returnFunds P w ctx amount bump) (Booked w) :=
  .ite (fun _ => .skip fun _ => withdraw_booked) fun _ => .of_pure (Conserves.refl w).booked

theorem agent_booked {i : AgentInstruction} : Ensures (executeAgent P w i) (Booked w) := by
  cases i with
  | createAgentMandate ctx =>
    unfold executeAgent createAgentMandate
    iterate 3 refine .skip fun _ => ?_
    refine .bind createIdempotent_conserves fun funded opened => ?_
    iterate 7 refine .skip fun _ => ?_
    refine .bind deposit_booked fun deposited paid => .of_pure ?_
    have created : Conserves funded (funded.initializeAgentMandate ctx.agentMandate
      (initialAgentMandate ctx w.clock.unixTimestamp
        (P.findProgramAddress (.agentMandate ctx.authority ctx.agent)).2)) :=
      .of_eq rfl rfl rfl rfl rfl
    exact (opened.trans created).booked.trans (paid.trans ((Conserves.refl _).emit _).booked)
  | agentPull ctx => exact agentPull_conserves.mono fun _ spec => spec.booked
  | adjustAgentMandate ctx => exact adjustAgentMandate_conserves.mono fun _ spec => spec.booked
  | pauseAgentMandate ctx => exact pauseAgentMandate_conserves.mono fun _ spec => spec.booked
  | resumeAgentMandate ctx => exact resumeAgentMandate_conserves.mono fun _ spec => spec.booked
  | drainAgentMandate ctx =>
    exact .skip fun _ => .skip fun _ => .bind returnFunds_booked fun drained spec =>
      .of_pure (spec.trans ((Conserves.refl drained).emit _).booked)
  | revokeAgentMandate ctx =>
    exact .skip fun _ => .skip fun _ => .skip fun _ => .bind returnFunds_booked fun _ spec =>
      .bind writeAgentMandate_conserves fun _ wrote =>
        .of_pure (spec.trans (wrote.emit _).booked)

theorem ensureVault_booked {ctx : InitWrappedMint} :
    Ensures (w.ensureVault P ctx) (Booked w) := by
  intro w' h
  unfold World.ensureVault at h
  split at h
  · simp only [require_bind_eq_ok, pure_eq_ok] at h
    obtain ⟨_, _, rfl⟩ := h
    exact .refl w
  · rename_i vacant
    cases h
    exact .of_eq rfl rfl (.open vacant)

theorem configure_booked {i : ConfigInstruction} : Ensures (configure P w i) (Booked w) := by
  cases i with
  | initConfig ctx =>
    unfold configure initConfig
    iterate 4 refine .skip fun _ => ?_
    exact .of_pure (.of_eq rfl rfl (.refl _))
  | updateConfig ctx =>
    unfold configure updateConfig
    iterate 4 refine .skip fun _ => ?_
    exact .of_pure (.of_eq rfl rfl (.refl _))
  | pauseProtocol admin => exact .skip fun _ => .skip fun _ => .of_pure (.of_eq rfl rfl (.refl _))
  | unpauseProtocol admin => exact .skip fun _ => .skip fun _ => .of_pure (.of_eq rfl rfl (.refl _))
  | initKeeperConfig ctx =>
    unfold configure initKeeperConfig
    iterate 4 refine .skip fun _ => ?_
    exact .of_pure (.of_eq rfl rfl (.refl _))
  | updateKeeperConfig ctx =>
    unfold configure updateKeeperConfig
    iterate 6 refine .skip fun _ => ?_
    exact .of_pure (.of_eq rfl rfl (.refl _))
  | initTokenConfig ctx =>
    unfold configure initTokenConfig
    iterate 4 refine .skip fun _ => ?_
    exact .of_pure (.of_eq rfl rfl (.refl _))
  | updateTokenConfig ctx =>
    unfold configure updateTokenConfig
    iterate 4 refine .skip fun _ => ?_
    exact .of_pure (.of_eq rfl rfl (.refl _))
  | initWrappedMint ctx =>
    unfold configure
    refine .skip fun _ => .bind ensureVault_booked fun w₁ vault => ?_
    iterate 3 refine .skip fun _ => ?_
    refine .bind (createMint_booked rfl) fun w₂ created => .of_pure ?_
    exact vault.trans (created.trans (.of_eq rfl rfl (.refl _)))
  | initMerchantCredential ctx =>
    unfold configure
    refine .skip fun _ => .bind ensureMerchantState_conserves ?_
    rintro ⟨w₁, state⟩ same
    refine .ite (fun _ => .skip fun _ => .of_pure same.booked) fun _ => ?_
    refine .bind (createMint_booked rfl) fun w₂ created => .of_pure ?_
    exact same.booked.trans (created.trans (.of_eq rfl rfl (.refl _)))
  | initCompDef circuit ctx => exact .skip fun _ => .of_pure (.of_eq rfl rfl (.refl _))

theorem wrap_booked {ctx : Wrap} : Ensures (wrap P w ctx) (Booked w) := by
  unfold wrap
  iterate 9 refine .skip fun _ => ?_
  exact deposit_booked

theorem unwrapTokens_booked {ctx : Unwrap} : Ensures (unwrapTokens P w ctx) (Booked w) := by
  unfold unwrapTokens
  iterate 8 refine .skip fun _ => ?_
  exact withdraw_booked

theorem protocol_booked {i : ProtocolInstruction} :
    Ensures (executeProtocol P w i) (Booked w) := by
  intro w' h
  cases i with
  | billing i =>
    by_cases other : i.credentialed = false
    · exact (billing_conserves other h).booked
    · cases i with
      | subscribe ctx => exact (subscribe_issued w' h).booked
      | cancel ctx => exact (cancel_revoked w' h).booked
      | adminCancel ctx => exact (adminCancel_revoked w' h).booked
      | _ => exact absurd rfl other
  | streaming i => exact (streaming_conserves w' h).booked
  | agent i => exact agent_booked w' h
  | config i => exact configure_booked w' h
  | wrap ctx => exact wrap_booked w' h
  | unwrapTokens ctx => exact unwrapTokens_booked w' h

end VelaProtocol
