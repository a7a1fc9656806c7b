import VelaProtocol.Instructions.Plans
import VelaProtocol.Token

/-! The life of a mandate outside billing: subscribing, cancelling, closing, migrating and
resizing. The legacy delegate that `cancel` may revoke is not modelled. -/
namespace VelaProtocol

open Guard

structure CredentialSigner where
  seeds : Seeds
  bump : UInt8
  authority : Pubkey

/-- The plan-scoped credential mint a plan had before merchant credentials. -/
def legacyPlanCredentialMint (P : Platform) (plan : LoadedPlanAccount) : Pubkey :=
  match plan.billingType with
  | .flat => (P.findProgramAddress (.credential plan.merchant plan.planId)).1
  | .usage => (P.findProgramAddress (.usageCredential plan.merchant plan.planId)).1

def credentialSigner (P : Platform) (plan : LoadedPlanAccount) (planKey resolved : Pubkey) :
    CredentialSigner :=
  if resolved ≠ legacyPlanCredentialMint P plan then
    { seeds := .merchant plan.merchant
      bump := (P.findProgramAddress (.merchant plan.merchant)).2
      authority := (P.findProgramAddress (.merchant plan.merchant)).1 }
  else { seeds := plan.seeds, bump := plan.bump, authority := planKey }

def CredentialSigner.signs (P : Platform) (s : CredentialSigner) : Result Unit :=
  require (P.createProgramAddress s.seeds s.bump = some s.authority)
    (.host .missingRequiredSignature)

structure Subscribe where
  subscriber : Pubkey
  merchant : Pubkey
  plan : Pubkey
  mandate : Pubkey
  credentialMint : Pubkey
  billingMint : Pubkey
  subscriberCredentialAccount : Pubkey

def initialMandate (ctx : Subscribe) (plan : LoadedPlanAccount) (now expiry nextPaymentDue : Int64)
    (bump : UInt8) (mandateIndex : UInt64) : VelaMandate where
  subscriber := ctx.subscriber
  plan := ctx.plan
  merchant := plan.merchant
  amount := plan.mandateAmount
  frequency := plan.mandateFrequency
  startDate := now
  expiry := expiry
  maxPulls := plan.maxPulls
  pullsExecuted := 0
  nextPaymentDue := nextPaymentDue
  lastPullAt := 0
  lastBillingRecordedPull := 0
  validationRequestNonce := 0
  billingRequestNonce := 0
  status := .active
  bump := bump
  billingType := plan.billingType
  mandateIndex := mandateIndex
  version := currentAccountVersion
  creditBalance := 0
  pendingNewPlan := Pubkey.default
  pendingEffectiveAt := 0
  pendingChangeType := 0
  pendingNonceShort := 0
  reservedV3 := 0

def subscribe (P : Platform) (w : World) (ctx : Subscribe) : Result World := do
  let merchantState ← anchorMerchantState w ctx.merchant
  let tokenConfig ← anchorTokenConfig w ctx.billingMint
  let plan ← loadPlanAccount P w ctx.plan
  check (plan.status = .active) .planNotActive
  require (ctx.merchant = plan.merchant) (.host .requireKeysEqViolated)
  check (plan.billingMint ≠ Pubkey.default → ctx.billingMint = plan.billingMint)
    .tokenChangeNotSupported
  check (tokenConfig.enabled = true) .tokenDisabled
  check (tokenConfig.billingRail = .transferHook) .invalidBillingRail
  check (tokenConfig.mint = ctx.billingMint) .tokenNotRegistered
  let mandateIndex := merchantState.mandateCounter
  let (expectedMandate, mandateBump) :=
    P.findProgramAddress (.mandate ctx.subscriber plan.merchant mandateIndex)
  require (ctx.mandate = expectedMandate) (.host .requireKeysEqViolated)
  let resolved := resolveMerchantCredentialMint w plan.merchant plan.credentialMint
  require (ctx.credentialMint = resolved) (.host .requireKeysEqViolated)
  require (ctx.subscriberCredentialAccount =
    associatedTokenAddress P ctx.subscriber ctx.credentialMint) (.host .requireKeysEqViolated)
  let w ← createIdempotent P w ctx.subscriber ctx.credentialMint
  let mandateCounter ← orVela (Checked.addU64 merchantState.mandateCounter 1) .overflow
  require (w.dataIsEmpty ctx.mandate = true) (.host .accountAlreadyInitialized)
  let signer := credentialSigner P plan ctx.plan resolved
  signer.signs P
  let w ← mintTo w ctx.credentialMint ctx.subscriberCredentialAccount signer.authority 1
  let now := w.clock.unixTimestamp
  let expiry ← plan.expiry now
  let nextPaymentDue ← plan.initialNextPaymentDue now
  let mandate := initialMandate ctx plan now expiry nextPaymentDue mandateBump mandateIndex
  return (w.createMandate ctx.mandate mandate).writeMerchantState ctx.merchant
    { merchantState with mandateCounter := mandateCounter }

structure Cancel where
  authority : Pubkey
  subscriber : Pubkey
  merchant : Pubkey
  plan : Pubkey
  mandate : Pubkey
  subscriberCredentialAccount : Pubkey
  credentialMint : Pubkey

def loadCancellable (P : Platform) (w : World) (ctx : Cancel) :
    Result (LoadedMandateAccount × LoadedPlanAccount) := do
  let loaded ← loadValidMandate P w ctx.mandate
  let mandate := loaded.intoCurrent
  let plan ← loadPlanAccount P w ctx.plan
  requirePlanBillingType plan mandate.billingType
  require (ctx.plan = mandate.plan) (.host .requireKeysEqViolated)
  require (ctx.merchant = plan.merchant) (.host .requireKeysEqViolated)
  require (mandate.merchant = plan.merchant) (.host .requireKeysEqViolated)
  require (ctx.credentialMint =
    resolveMerchantCredentialMint w plan.merchant plan.credentialMint)
    (.host .requireKeysEqViolated)
  return (loaded, plan)

def World.cancelMandate (w : World) (key : Pubkey) (loaded : LoadedMandateAccount) : World :=
  w.writeMandate key { loaded.intoCurrent with status := .cancelled } loaded.isLegacy

def cancel (P : Platform) (w : World) (ctx : Cancel) : Result World := do
  let (loaded, _) ← loadCancellable P w ctx
  check (loaded.intoCurrent.subscriber = ctx.subscriber) .unauthorizedCancel
  check (ctx.authority = ctx.subscriber) .unauthorizedCancel
  check (loaded.intoCurrent.status = .active) .mandateNotActive
  require (ctx.subscriberCredentialAccount =
    associatedTokenAddress P ctx.subscriber ctx.credentialMint) (.host .requireKeysEqViolated)
  let w ← burn w ctx.subscriberCredentialAccount ctx.credentialMint ctx.authority 1
  return w.cancelMandate ctx.mandate loaded

/-- `admin_cancel`: the credential is burned by its permanent delegate -/
def adminCancel (P : Platform) (w : World) (ctx : Cancel) : Result World := do
  let config ← loadProtocolConfig w
  check (ctx.authority = config.admin) .unauthorizedAdmin
  let (loaded, plan) ← loadCancellable P w ctx
  require (loaded.intoCurrent.subscriber = ctx.subscriber) (.host .requireKeysEqViolated)
  check (loaded.intoCurrent.status = .active) .mandateNotActive
  require (ctx.subscriberCredentialAccount =
    associatedTokenAddress P ctx.subscriber ctx.credentialMint) (.host .requireKeysEqViolated)
  let signer := credentialSigner P plan ctx.plan ctx.credentialMint
  signer.signs P
  let w ← burn w ctx.subscriberCredentialAccount ctx.credentialMint signer.authority 1
  return w.cancelMandate ctx.mandate loaded

structure CloseMandate where
  authority : Pubkey
  subscriber : Pubkey
  mandate : Pubkey

def closeMandate (P : Platform) (w : World) (ctx : CloseMandate) : Result World := do
  let mandate ← loadValidMandate P w ctx.mandate
  check (ctx.authority = mandate.subscriber) .unauthorizedCancel
  check (ctx.subscriber = mandate.subscriber) .unauthorizedCancel
  check (mandate.status = .cancelled ∨ mandate.status = .expired) .migrationPreconditionFailed
  return w.closeMandateAccount ctx.mandate

structure MigrateMandate where
  admin : Pubkey
  subscriber : Pubkey
  merchant : Pubkey
  plan : Pubkey
  legacyMandate : Pubkey
  migratedMandate : Pubkey

/-- Counters that show dependent accounts may exist under the legacy address. -/
def hasStrandedNamespaces (mandate : VelaMandate) : Prop :=
  0 < mandate.validationRequestNonce ∨ 0 < mandate.billingRequestNonce ∨
    0 < mandate.pullsExecuted ∨ 0 < mandate.lastBillingRecordedPull

instance (mandate : VelaMandate) : Decidable (hasStrandedNamespaces mandate) :=
  inferInstanceAs (Decidable (_ ∨ _ ∨ _ ∨ _))

def migrateMandate (P : Platform) (w : World) (ctx : MigrateMandate) : Result World := do
  let merchantState ← anchorMerchantState w ctx.merchant
  let config ← loadProtocolConfig w
  check (ctx.admin = config.admin) .unauthorizedAdmin
  let loaded ← loadValidMandate P w ctx.legacyMandate
  check (loaded.isLegacy = true) .migrationPreconditionFailed
  let mandate := loaded.intoCurrent
  require (ctx.subscriber = mandate.subscriber) (.host .requireKeysEqViolated)
  require (ctx.merchant = mandate.merchant) (.host .requireKeysEqViolated)
  require (ctx.plan = mandate.plan) (.host .requireKeysEqViolated)
  let plan ← loadPlanAccount P w ctx.plan
  require (plan.merchant = mandate.merchant) (.host .requireKeysEqViolated)
  check (¬hasStrandedNamespaces mandate) .migrationPreconditionFailed
  let mandateIndex := merchantState.mandateCounter
  let (expectedMigrated, migratedBump) :=
    P.findProgramAddress (.mandate mandate.subscriber mandate.merchant mandateIndex)
  require (ctx.migratedMandate = expectedMigrated) (.host .requireKeysEqViolated)
  check (w.dataIsEmpty ctx.migratedMandate = true) .migrationPreconditionFailed
  let migrated := { mandate with
    bump := migratedBump
    mandateIndex := mandateIndex
    version := currentAccountVersion
    creditBalance := 0
    pendingNewPlan := Pubkey.default
    pendingEffectiveAt := 0
    pendingChangeType := 0
    pendingNonceShort := 0
    reservedV3 := 0 }
  let mandateCounter ← orVela (Checked.addU64 merchantState.mandateCounter 1) .overflow
  return ((w.createMandate ctx.migratedMandate migrated).writeMerchantState ctx.merchant
    { merchantState with mandateCounter := mandateCounter }).closeMandateAccount ctx.legacyMandate

structure UpdateMandate where
  merchant : Pubkey
  plan : Pubkey
  mandate : Pubkey
  amount : Option UInt64
  frequency : Option UInt64
  maxPulls : Option UInt64
  billingType : Option BillingType
  planUpdate : Option Pubkey

def World.growMandate (w : World) (key : Pubkey) : World :=
  { w with
    mandate := Function.update w.mandate key ((w.mandate key).map fun account =>
      { account with dataLen := max account.dataLen VelaMandate.size }) }

/-- `update_mandate`: every value offered must be the one already stored -/
def updateMandate (P : Platform) (w : World) (ctx : UpdateMandate) : Result World := do
  check (ctx.amount.isSome ∨ ctx.frequency.isSome ∨ ctx.maxPulls.isSome ∨
    ctx.billingType.isSome ∨ ctx.planUpdate.isSome) .noUpdateProvided
  let mandate ← loadValidMandate P w ctx.mandate
  check (mandate.merchant = ctx.merchant) .unauthorizedCancel
  check (mandate.status = .active) .mandateNotActive
  let targetPlanKey := ctx.planUpdate.getD mandate.plan
  check (ctx.plan = targetPlanKey) .migrationPreconditionFailed
  let targetPlan ← loadPlanAccount P w ctx.plan
  check (targetPlan.merchant = ctx.merchant) .unauthorizedCancel
  check (targetPlan.status = .active) .planNotActive
  check (∀ next ∈ ctx.amount, next = mandate.amount) .unauthorizedUpgrade
  check (∀ next ∈ ctx.frequency, next = mandate.frequency) .unauthorizedUpgrade
  check (∀ next ∈ ctx.maxPulls, next = mandate.maxPulls) .unauthorizedUpgrade
  check (ctx.planUpdate.isSome → targetPlanKey = mandate.plan) .unauthorizedUpgrade
  check (∀ next ∈ ctx.billingType, next = mandate.billingType) .unauthorizedUpgrade
  check (∀ next ∈ ctx.billingType, next = targetPlan.billingType) .billingTypeMismatch
  return w.growMandate ctx.mandate

theorem TokenOnly.mandateFrame {w w' : World} (only : TokenOnly w w') (log : w'.log = w.log) :
    MandateFrame w w' where
  clock := only.clock
  protocolConfig := only.protocolConfig
  tokenConfig := only.tokenConfig
  plan := only.plan
  counter := mandateCounter_le_of_eq only.merchantState
  pullApproval := only.pullApproval
  requestState := only.requestState
  usageReport := only.usageReport
  money := SameMoney.of_log log

def World.nextMandateSeeds (w : World) (subscriber merchant : Pubkey) : Seeds :=
  .mandate subscriber merchant (UInt64.ofNat (w.mandateCounter merchant))

structure NewAddress (P : Platform) (w : World) (subscriber merchant key : Pubkey) (w' : World) :
    Prop where
  address : key = (P.findProgramAddress (w.nextMandateSeeds subscriber merchant)).1
  counted : w'.mandateCounter merchant = w.mandateCounter merchant + 1
  bounded : w.mandateCounter merchant < 2 ^ 64

section Counting

variable {w w' : World} {merchant owner : Pubkey} {state : MerchantState} {count : UInt64}
  (loaded : anchorMerchantState w merchant = .ok state)
  (added : Checked.addU64 state.mandateCounter 1 = some count)
  (written : w'.merchantState =
    (w.writeMerchantState merchant { state with mandateCounter := count }).merchantState)
include loaded added written

theorem counted (other : Pubkey) : w.mandateCounter other ≤ w'.mandateCounter other := by
  have before := anchorMerchantState_counter loaded
  have count_eq : count.toNat = state.mandateCounter.toNat + 1 := Checked.addU64_eq_some.mp added
  have counter : w'.mandateCounter other =
      (w.writeMerchantState merchant { state with mandateCounter := count }).mandateCounter
        other := by
    rw [World.mandateCounter, written, ← World.mandateCounter]
  rw [counter]
  refine writeMerchantState_counter ?_ other
  rw [before]
  exact count_eq ▸ Nat.le_succ _

theorem newAddress {P : Platform} {subscriber key : Pubkey} (belongs : merchant = owner)
    (address : key =
      (P.findProgramAddress (.mandate subscriber owner state.mandateCounter)).1) :
    NewAddress P w subscriber merchant key w' := by
  have before := anchorMerchantState_counter loaded
  subst belongs
  refine ⟨?_, ?_, ?_⟩
  · rw [World.nextMandateSeeds, before, UInt64.ofNat_toNat]
    exact address
  · rw [World.mandateCounter, written, ← World.mandateCounter, writeMerchantState_self_counter,
      before]
    exact Checked.addU64_eq_some.mp added
  · exact before ▸ Checked.toNat_lt _

end Counting

structure Subscribed (P : Platform) (w : World) (ctx : Subscribe) (w' : World)
    (plan : LoadedPlanAccount) (mandate : VelaMandate) : Prop where
  loaded : loadPlanAccount P w ctx.plan = .ok plan
  billingMint : plan.billingMint ≠ Pubkey.default → ctx.billingMint = plan.billingMint
  vacant : w.mandate ctx.mandate = none
  initial : ∃ expiry nextPaymentDue bump mandateIndex,
    plan.expiry w.clock.unixTimestamp = .ok expiry ∧
      plan.initialNextPaymentDue w.clock.unixTimestamp = .ok nextPaymentDue ∧
      mandate = initialMandate ctx plan w.clock.unixTimestamp expiry nextPaymentDue bump
        mandateIndex
  created : w'.currentMandate ctx.mandate = some mandate
  others : ∀ key, key ≠ ctx.mandate → w'.currentMandate key = w.currentMandate key
  frame : MandateFrame w w'
  address : NewAddress P w ctx.subscriber ctx.merchant ctx.mandate w'

theorem subscribe_eq_ok {P : Platform} {w w' : World} {ctx : Subscribe}
    (h : subscribe P w ctx = .ok w') : ∃ plan mandate, Subscribed P w ctx w' plan mandate := by
  simp only [subscribe, check, orVela, bind_eq_ok, orError_eq_ok, require_eq_ok, pure_eq_ok,
    exists_const] at h
  obtain ⟨merchantState, counter, _, _, plan, loaded, _, merchant, billingMint, _, _, _, address, _,
    _, w₁, credential, count, added, vacant, _, _, w₂, minted, expiry, expires, due,
    first, rfl⟩ := h
  obtain ⟨only₁, log₁⟩ := createIdempotent_frame credential
  obtain ⟨only₂, log₂⟩ := mintTo_frame minted
  have only := only₁.trans only₂
  have frame := only.mandateFrame (log₂.trans log₁)
  rw [only.clock] at expires first
  refine ⟨plan, _, loaded, billingMint, ?_, ⟨expiry, due,
    (P.findProgramAddress (.mandate ctx.subscriber plan.merchant merchantState.mandateCounter)).2,
    merchantState.mandateCounter, expires, first, rfl⟩, ?_, ?_, ?_, ?_⟩
  · rw [← only₁.mandate]
    exact (dataIsEmpty_vacant vacant).mandate
  · rw [← only.clock]
    exact createMandate_self w₂ _ _
  · intro key different
    exact (createMandate_of_ne different _).trans (currentMandate_congr only.mandate key)
  · refine ⟨⟨frame.clock, frame.protocolConfig, frame.tokenConfig, frame.plan,
      counted counter added ?_⟩, frame.pullApproval, frame.requestState, frame.usageReport,
      ⟨frame.money.transfersBy, frame.money.creditsTo⟩⟩
    exact congrArg (Function.update · ctx.merchant _) only.merchantState
  · refine newAddress counter added ?_ merchant address
    exact congrArg (Function.update · ctx.merchant _) only.merchantState

structure Administered (w : World) (key : Pubkey) (w' : World) (before after : VelaMandate) :
    Prop where
  found : w.currentMandate key = some before
  written : w'.currentMandate key = some after
  terms : before.SameTerms after
  counters : after.requestNonce = before.requestNonce
  others : ∀ other, other ≠ key → w'.currentMandate other = w.currentMandate other

theorem loadCancellable_eq_ok {P : Platform} {w : World} {ctx : Cancel}
    {result : LoadedMandateAccount × LoadedPlanAccount} (h : loadCancellable P w ctx = .ok result) :
    w.currentMandate ctx.mandate = some result.1.intoCurrent := by
  simp only [loadCancellable, bind_eq_ok, pure_eq_ok] at h
  obtain ⟨loaded, load, _, _, _, _, _, _, _, _, _, _, _, _, rfl⟩ := h
  exact loadValidMandate_currentMandate load

theorem cancelMandate_administered {w w₁ : World} {key : Pubkey} {loaded : LoadedMandateAccount}
    (only : TokenOnly w w₁) (log : w₁.log = w.log)
    (found : w.currentMandate key = some loaded.intoCurrent) :
    MandateFrame w (w₁.cancelMandate key loaded) ∧
      Administered w key (w₁.cancelMandate key loaded) loaded.intoCurrent
        { loaded.intoCurrent with status := .cancelled } := by
  have frame := only.mandateFrame log
  have found₁ : w₁.currentMandate key = some loaded.intoCurrent :=
    (currentMandate_congr only.mandate key).trans found
  have terms : loaded.intoCurrent.SameTerms { loaded.intoCurrent with status := .cancelled } :=
    ⟨rfl, nofun⟩
  refine ⟨⟨⟨frame.clock, frame.protocolConfig, frame.tokenConfig, frame.plan, frame.counter⟩,
    frame.pullApproval, frame.requestState, frame.usageReport,
    ⟨frame.money.transfersBy, frame.money.creditsTo⟩⟩, found, ?_, terms,
    funext fun flow => by cases flow <;> rfl, ?_⟩
  · exact writeMandate_self found₁ terms.fits
  · intro other different
    exact (writeMandate_of_ne different _ _).trans (currentMandate_congr only.mandate other)

theorem cancel_eq_ok {P : Platform} {w w' : World} {ctx : Cancel} (h : cancel P w ctx = .ok w') :
    MandateFrame w w' ∧ ∃ before after, Administered w ctx.mandate w' before after := by
  simp only [cancel, check, bind_eq_ok, require_eq_ok, pure_eq_ok, exists_const] at h
  obtain ⟨⟨loaded, plan⟩, load, _, _, _, _, w₁, burned, rfl⟩ := h
  obtain ⟨only, log⟩ := burn_frame burned
  obtain ⟨frame, done⟩ := cancelMandate_administered only log (loadCancellable_eq_ok load)
  exact ⟨frame, _, _, done⟩

theorem adminCancel_eq_ok {P : Platform} {w w' : World} {ctx : Cancel}
    (h : adminCancel P w ctx = .ok w') :
    MandateFrame w w' ∧ ∃ before after, Administered w ctx.mandate w' before after := by
  simp only [adminCancel, check, bind_eq_ok, require_eq_ok, pure_eq_ok, exists_const] at h
  obtain ⟨_, _, _, ⟨loaded, plan⟩, load, _, _, _, _, _, w₁, burned, rfl⟩ := h
  obtain ⟨only, log⟩ := burn_frame burned
  obtain ⟨frame, done⟩ := cancelMandate_administered only log (loadCancellable_eq_ok load)
  exact ⟨frame, _, _, done⟩

theorem closeMandate_eq_ok {P : Platform} {w w' : World} {ctx : CloseMandate}
    (h : closeMandate P w ctx = .ok w') :
    MandateFrame w w' ∧ w'.currentMandate ctx.mandate = none ∧
      ∀ other, other ≠ ctx.mandate → w'.currentMandate other = w.currentMandate other := by
  simp only [closeMandate, check, bind_eq_ok, require_eq_ok, pure_eq_ok, exists_const] at h
  obtain ⟨_, _, _, _, _, rfl⟩ := h
  exact ⟨⟨⟨rfl, rfl, rfl, rfl, fun _ => le_refl _⟩, rfl, rfl, rfl, SameMoney.of_log rfl⟩,
    closeMandateAccount_self w _, fun _ different => closeMandateAccount_of_ne different⟩

/-- A successful `migrate_mandate`: the legacy mandate moves to the address it derives now. -/
structure Migrated (P : Platform) (w : World) (ctx : MigrateMandate) (w' : World)
    (before after : VelaMandate) : Prop where
  found : w.currentMandate ctx.legacyMandate = some before
  vacant : w.mandate ctx.migratedMandate = none
  moved : ∃ bump mandateIndex, after = { before with bump := bump, mandateIndex := mandateIndex }
  untouched : before.pullsExecuted = 0 ∧ before.creditBalance = 0 ∧ before.pendingChangeType = 0
  unscheduled : before.pendingNewPlan = Pubkey.default ∧ before.pendingEffectiveAt = 0
  created : w'.currentMandate ctx.migratedMandate = some after
  removed : w'.currentMandate ctx.legacyMandate = none
  others : ∀ key, key ≠ ctx.legacyMandate → key ≠ ctx.migratedMandate →
    w'.currentMandate key = w.currentMandate key
  frame : MandateFrame w w'
  address : NewAddress P w ctx.subscriber ctx.merchant ctx.migratedMandate w'

theorem isLegacy_eq_true {loaded : LoadedMandateAccount} (h : loaded.isLegacy = true) :
    ∃ legacy, loaded = .legacy legacy := by
  cases loaded with
  | current _ => cases h
  | legacy old => exact ⟨old, rfl⟩

theorem migrateMandate_eq_ok {P : Platform} {w w' : World} {ctx : MigrateMandate}
    (h : migrateMandate P w ctx = .ok w') : ∃ before after, Migrated P w ctx w' before after := by
  simp only [migrateMandate, check, orVela, bind_eq_ok, orError_eq_ok, require_eq_ok, pure_eq_ok,
    exists_const] at h
  obtain ⟨merchantState, counter, _, _, _, loaded, load, legacy, subscriber,
    merchant, _, plan, _, _,
    stranded, address, vacant, count, added, rfl⟩ := h
  obtain ⟨old, rfl⟩ := isLegacy_eq_true legacy
  have found := loadValidMandate_currentMandate load
  have vacant := (dataIsEmpty_vacant vacant).mandate
  have different : ctx.migratedMandate ≠ ctx.legacyMandate := by
    intro same
    rw [same] at vacant
    rw [World.currentMandate, vacant] at found
    cases found
  refine ⟨_, _, found, vacant, ⟨(P.findProgramAddress (.mandate old.subscriber old.merchant
    merchantState.mandateCounter)).2, merchantState.mandateCounter, rfl⟩, ⟨?_, rfl, rfl⟩,
    ⟨rfl, rfl⟩, ?_, ?_, ?_, ?_, ?_⟩
  · by_contra pulled
    exact stranded (.inr (.inr (.inl (UInt64.pos_iff_ne_zero.mpr pulled))))
  · exact (closeMandateAccount_of_ne different).trans (createMandate_self w _ _)
  · exact closeMandateAccount_self _ _
  · intro key legacy_ne migrated_ne
    exact (closeMandateAccount_of_ne legacy_ne).trans (createMandate_of_ne migrated_ne _)
  · exact ⟨⟨rfl, rfl, rfl, rfl, counted counter added rfl⟩, rfl, rfl, rfl, SameMoney.of_log rfl⟩
  · rw [← subscriber] at address
    refine newAddress counter added ?_ merchant address
    rfl

theorem growMandate_currentMandate (w : World) (key other : Pubkey) :
    (w.growMandate key).currentMandate other = w.currentMandate other := by
  by_cases same : other = key
  · subst same
    simp only [World.currentMandate, World.growMandate, Function.update_self, Option.map_map]
    rfl
  · simp only [World.currentMandate, World.growMandate, Function.update_of_ne same]

theorem updateMandate_eq_ok {P : Platform} {w w' : World} {ctx : UpdateMandate}
    (h : updateMandate P w ctx = .ok w') :
    MandateFrame w w' ∧ ∀ key, w'.currentMandate key = w.currentMandate key := by
  simp only [updateMandate, check, bind_eq_ok, require_eq_ok, pure_eq_ok, exists_const] at h
  obtain ⟨_, _, _, _, _, _, _, _, _, _, _, _, _, _, _, _, rfl⟩ := h
  exact ⟨⟨⟨rfl, rfl, rfl, rfl, fun _ => le_refl _⟩, rfl, rfl, rfl, SameMoney.of_log rfl⟩,
    growMandate_currentMandate w ctx.mandate⟩

end VelaProtocol
