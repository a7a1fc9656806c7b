import VelaProtocol.Accounts.Merchant

/-! Loading, addressing and writing mandate accounts in either layout. -/
namespace VelaProtocol

open Guard

def currentFromLegacyMandate (legacy : VelaMandateV1) : VelaMandate where
  subscriber := legacy.subscriber
  plan := legacy.plan
  merchant := legacy.merchant
  amount := legacy.amount
  frequency := legacy.frequency
  startDate := legacy.startDate
  expiry := legacy.expiry
  maxPulls := legacy.maxPulls
  pullsExecuted := legacy.pullsExecuted
  nextPaymentDue := legacy.nextPaymentDue
  lastPullAt := legacy.lastPullAt
  lastBillingRecordedPull := legacy.lastBillingRecordedPull
  validationRequestNonce := legacy.validationRequestNonce
  billingRequestNonce := legacy.billingRequestNonce
  status := legacy.status
  bump := legacy.bump
  billingType := legacy.billingType
  mandateIndex := 0
  version := currentAccountVersion
  creditBalance := 0
  pendingNewPlan := Pubkey.default
  pendingEffectiveAt := 0
  pendingChangeType := 0
  pendingNonceShort := 0
  reservedV3 := 0

def VelaMandate.toLegacy (mandate : VelaMandate) : VelaMandateV1 where
  subscriber := mandate.subscriber
  plan := mandate.plan
  merchant := mandate.merchant
  amount := mandate.amount
  frequency := mandate.frequency
  startDate := mandate.startDate
  expiry := mandate.expiry
  maxPulls := mandate.maxPulls
  pullsExecuted := mandate.pullsExecuted
  nextPaymentDue := mandate.nextPaymentDue
  lastPullAt := mandate.lastPullAt
  lastBillingRecordedPull := mandate.lastBillingRecordedPull
  validationRequestNonce := mandate.validationRequestNonce
  billingRequestNonce := mandate.billingRequestNonce
  status := mandate.status
  bump := mandate.bump
  billingType := mandate.billingType

namespace LoadedMandateAccount

def intoCurrent : LoadedMandateAccount → VelaMandate
  | .current mandate => mandate
  | .legacy old => currentFromLegacyMandate old

def isLegacy : LoadedMandateAccount → Bool
  | .current _ => false
  | .legacy _ => true

def getter {β : Type} (ofCurrent : VelaMandate → β) (ofLegacy : VelaMandateV1 → β) :
    LoadedMandateAccount → β
  | .current mandate => ofCurrent mandate
  | .legacy old => ofLegacy old

def subscriber := getter VelaMandate.subscriber VelaMandateV1.subscriber
def plan := getter VelaMandate.plan VelaMandateV1.plan
def merchant := getter VelaMandate.merchant VelaMandateV1.merchant
def amount := getter VelaMandate.amount VelaMandateV1.amount
def frequency := getter VelaMandate.frequency VelaMandateV1.frequency
def maxPulls := getter VelaMandate.maxPulls VelaMandateV1.maxPulls
def status := getter VelaMandate.status VelaMandateV1.status
def billingType := getter VelaMandate.billingType VelaMandateV1.billingType
def mandateIndex := getter VelaMandate.mandateIndex (fun _ => 0)

end LoadedMandateAccount

def deriveV2MandateAddress (P : Platform) (subscriber merchant : Pubkey) (mandateIndex : UInt64) :
    Pubkey :=
  (P.findProgramAddress (.mandate subscriber merchant mandateIndex)).1

def deriveLegacyMandateAddress (P : Platform) (subscriber plan : Pubkey) : Pubkey :=
  (P.findProgramAddress (.legacyMandate subscriber plan)).1

/-- `load_mandate_account`: current layout first, then the legacy one -/
def loadMandateAccount (w : World) (key : Pubkey) : Result LoadedMandateAccount :=
  match w.mandate key with
  | none => .error (.host .incorrectProgramId)
  | some account =>
    match account.contents with
    | .legacy legacy => .ok (.legacy legacy)
    | .current mandate => do
      require (mandate.version = currentAccountVersion) (.host .invalidAccountData)
      return .current mandate

def validateLoadedMandateAddress (P : Platform) (key : Pubkey) (mandate : LoadedMandateAccount) :
    Result Unit :=
  let expectedLegacy := deriveLegacyMandateAddress P mandate.subscriber mandate.plan
  match mandate with
  | .legacy _ => require (key = expectedLegacy) (.host .requireKeysEqViolated)
  | .current _ =>
    let expectedV2 := deriveV2MandateAddress P mandate.subscriber mandate.merchant
      mandate.mandateIndex
    require (key = expectedV2 ∨ key = expectedLegacy) (.host .invalidSeeds)

def loadValidMandate (P : Platform) (w : World) (key : Pubkey) : Result LoadedMandateAccount := do
  let loaded ← loadMandateAccount w key
  validateLoadedMandateAddress P key loaded
  return loaded

def mandateBillingPeriod (mandate : VelaMandate) : Result (Int64 × Int64) := do
  let frequency ← orVela (Checked.toI64 mandate.frequency.toNat) .overflow
  let periodStart ← orVela (Checked.subI64 mandate.nextPaymentDue frequency) .overflow
  return (periodStart, mandate.nextPaymentDue)

def mandateLayout (mandate : VelaMandate) (legacyLayout : Bool) : LoadedMandateAccount :=
  if legacyLayout then .legacy mandate.toLegacy else .current mandate

/-- `write_mandate`: the account keeps its length -/
def World.writeMandate (w : World) (key : Pubkey) (mandate : VelaMandate) (legacyLayout : Bool) :
    World :=
  { w with
    mandate := Function.update w.mandate key ((w.mandate key).map fun account =>
      { account with contents := mandateLayout mandate legacyLayout }) }

def World.createMandate (w : World) (key : Pubkey) (mandate : VelaMandate) : World :=
  { w with
    mandate := Function.update w.mandate key
      (some { contents := .current mandate, dataLen := VelaMandate.size }) }

def World.closeMandateAccount (w : World) (key : Pubkey) : World :=
  { w with mandate := Function.update w.mandate key none }

/-- `Account<VelaMandate>`: a legacy record decodes once its account is long enough, its missing
fields reading as zero. -/
def anchorVelaMandate (w : World) (key : Pubkey) : Result VelaMandate :=
  match w.mandate key with
  | none => .error (.host .accountNotInitialized)
  | some account =>
    match account.contents with
    | .current mandate => .ok mandate
    | .legacy legacy => do
      require (VelaMandate.size ≤ account.dataLen) (.host .accountDidNotDeserialize)
      return { currentFromLegacyMandate legacy with version := legacyAccountVersion }

/-- The mandate at an address, whichever layout holds it. -/
def World.currentMandate (w : World) (key : Pubkey) : Option VelaMandate :=
  (w.mandate key).map fun account => account.contents.intoCurrent

/-- The counter behind the offsets of a flow's requests; validation and usage share one. -/
def VelaMandate.requestNonce (mandate : VelaMandate) : ArciumRequestFlow → UInt64
  | .validation => mandate.validationRequestNonce
  | .usageComputation => mandate.validationRequestNonce
  | .billingRecord => mandate.billingRequestNonce

def VelaMandate.CountsOn (before after : VelaMandate) : Prop :=
  ∀ flow, (before.requestNonce flow).toNat ≤ (after.requestNonce flow).toNat

theorem VelaMandate.CountsOn.of_eq {before after : VelaMandate}
    (same : after.requestNonce = before.requestNonce) : before.CountsOn after :=
  fun flow => (congrArg UInt64.toNat (congrFun same flow)).ge

theorem loadMandateAccount_eq_ok {w : World} {key : Pubkey} {loaded : LoadedMandateAccount}
    (h : loadMandateAccount w key = .ok loaded) :
    ∃ account, w.mandate key = some account ∧ account.contents = loaded ∧
      loaded.intoCurrent.version = currentAccountVersion := by
  unfold loadMandateAccount at h
  split at h
  · cases h
  · rename_i account found
    refine ⟨account, found, ?_⟩
    split at h
    · rename_i legacy layout
      cases h
      exact ⟨layout, rfl⟩
    · rename_i mandate layout
      simp only [require_bind_eq_ok, pure_eq_ok] at h
      obtain ⟨version, rfl⟩ := h
      exact ⟨layout, version⟩

theorem loadValidMandate_eq_ok {P : Platform} {w : World} {key : Pubkey}
    {loaded : LoadedMandateAccount} (h : loadValidMandate P w key = .ok loaded) :
    ∃ account, w.mandate key = some account ∧ account.contents = loaded ∧
      loaded.intoCurrent.version = currentAccountVersion ∧
      validateLoadedMandateAddress P key loaded = .ok () := by
  simp only [loadValidMandate, bind_eq_ok, pure_eq_ok] at h
  obtain ⟨loaded, load, ⟨⟩, valid, rfl⟩ := h
  obtain ⟨account, found, layout, version⟩ := loadMandateAccount_eq_ok load
  exact ⟨account, found, layout, version, valid⟩

theorem currentMandate_eq_some {w : World} {key : Pubkey} {account : MandateAccount}
    (found : w.mandate key = some account) :
    w.currentMandate key = some account.contents.intoCurrent := by
  simp [World.currentMandate, found]

theorem anchorVelaMandate_eq_ok {w : World} {key : Pubkey} {mandate : VelaMandate}
    (h : anchorVelaMandate w key = .ok mandate) :
    ∃ account, w.mandate key = some account ∧
      (account.contents = .current mandate ∨
        ∃ legacy, account.contents = .legacy legacy ∧
          mandate = { currentFromLegacyMandate legacy with version := legacyAccountVersion }) := by
  unfold anchorVelaMandate at h
  split at h
  · cases h
  · rename_i account found
    refine ⟨account, found, ?_⟩
    split at h
    · rename_i layout
      cases h
      exact .inl layout
    · rename_i legacy layout
      simp only [require_bind_eq_ok, pure_eq_ok] at h
      exact .inr ⟨legacy, layout, h.2.symm⟩

theorem loadValidMandate_currentMandate {P : Platform} {w : World} {key : Pubkey}
    {loaded : LoadedMandateAccount} (h : loadValidMandate P w key = .ok loaded) :
    w.currentMandate key = some loaded.intoCurrent := by
  obtain ⟨account, found, rfl, _⟩ := loadValidMandate_eq_ok h
  exact currentMandate_eq_some found

theorem loadMandateAccount_currentMandate {w : World} {key : Pubkey}
    {loaded : LoadedMandateAccount} (h : loadMandateAccount w key = .ok loaded) :
    w.currentMandate key = some loaded.intoCurrent := by
  obtain ⟨account, found, rfl, _⟩ := loadMandateAccount_eq_ok h
  exact currentMandate_eq_some found

def VelaMandate.Fits (mandate : VelaMandate) (legacyLayout : Bool) : Prop :=
  (mandateLayout mandate legacyLayout).intoCurrent = mandate

theorem fits_current (mandate : VelaMandate) : mandate.Fits false := rfl

theorem writeMandate_self {w : World} {key : Pubkey} {before mandate : VelaMandate}
    {legacyLayout : Bool} (found : w.currentMandate key = some before)
    (fits : mandate.Fits legacyLayout) :
    (w.writeMandate key mandate legacyLayout).currentMandate key = some mandate := by
  simp only [World.currentMandate, Option.map_eq_some_iff] at found
  obtain ⟨account, stored, _⟩ := found
  simp only [World.currentMandate, World.writeMandate, Function.update_self, stored,
    Option.map_some]
  exact congrArg some fits

theorem writeMandate_of_ne {w : World} {key other : Pubkey} (different : other ≠ key)
    (mandate : VelaMandate) (legacyLayout : Bool) :
    (w.writeMandate key mandate legacyLayout).currentMandate other = w.currentMandate other := by
  simp only [World.currentMandate, World.writeMandate, Function.update_of_ne different]

theorem createMandate_self (w : World) (key : Pubkey) (mandate : VelaMandate) :
    (w.createMandate key mandate).currentMandate key = some mandate := by
  simp only [World.currentMandate, World.createMandate, Function.update_self, Option.map_some,
    LoadedMandateAccount.intoCurrent]

theorem createMandate_of_ne {w : World} {key other : Pubkey} (different : other ≠ key)
    (mandate : VelaMandate) :
    (w.createMandate key mandate).currentMandate other = w.currentMandate other := by
  simp only [World.currentMandate, World.createMandate, Function.update_of_ne different]

theorem closeMandateAccount_self (w : World) (key : Pubkey) :
    (w.closeMandateAccount key).currentMandate key = none := by
  simp only [World.currentMandate, World.closeMandateAccount, Function.update_self,
    Option.map_none]

theorem closeMandateAccount_of_ne {w : World} {key other : Pubkey} (different : other ≠ key) :
    (w.closeMandateAccount key).currentMandate other = w.currentMandate other := by
  simp only [World.currentMandate, World.closeMandateAccount, Function.update_of_ne different]

theorem currentMandate_congr {w w' : World} (same : w'.mandate = w.mandate) (key : Pubkey) :
    w'.currentMandate key = w.currentMandate key := by
  rw [World.currentMandate, World.currentMandate, same]

/-- The same mandate but for its request and record counters and a status that may only close. -/
structure VelaMandate.SameTerms (before after : VelaMandate) : Prop where
  rest : after = { before with
    status := after.status
    lastBillingRecordedPull := after.lastBillingRecordedPull
    validationRequestNonce := after.validationRequestNonce
    billingRequestNonce := after.billingRequestNonce }
  live : after.status = .active → before.status = .active

theorem VelaMandate.SameTerms.fits {loaded : LoadedMandateAccount} {mandate : VelaMandate}
    (same : loaded.intoCurrent.SameTerms mandate) : mandate.Fits loaded.isLegacy := by
  cases loaded with
  | current _ => exact fits_current mandate
  | legacy old =>
    rw [same.rest]
    rfl

structure VelaMandate.BilledAlike (before after : VelaMandate) : Prop where
  rest : after = { before with
    status := after.status
    lastBillingRecordedPull := after.lastBillingRecordedPull
    validationRequestNonce := after.validationRequestNonce
    billingRequestNonce := after.billingRequestNonce
    version := after.version
    pendingNewPlan := after.pendingNewPlan
    pendingEffectiveAt := after.pendingEffectiveAt
    pendingChangeType := after.pendingChangeType
    pendingNonceShort := after.pendingNonceShort
    reservedV3 := after.reservedV3 }
  live : after.status = .active → before.status = .active

theorem VelaMandate.BilledAlike.refl (mandate : VelaMandate) : mandate.BilledAlike mandate :=
  ⟨rfl, id⟩

theorem VelaMandate.SameTerms.alike {before after : VelaMandate} (same : before.SameTerms after) :
    before.BilledAlike after := by
  refine ⟨?_, same.live⟩
  rw [same.rest]

theorem VelaMandate.BilledAlike.trans {a b c : VelaMandate} (first : a.BilledAlike b)
    (second : b.BilledAlike c) : a.BilledAlike c := by
  refine ⟨?_, first.live ∘ second.live⟩
  have rest := second.rest
  rw [first.rest] at rest
  exact rest

structure SetupFrame (w w' : World) : Prop where
  clock : w'.clock = w.clock
  protocolConfig : w'.protocolConfig = w.protocolConfig
  tokenConfig : w'.tokenConfig = w.tokenConfig
  plan : w'.plan = w.plan
  counter : ∀ merchant, w.mandateCounter merchant ≤ w'.mandateCounter merchant

structure MandateFrame (w w' : World) : Prop extends SetupFrame w w' where
  pullApproval : w'.pullApproval = w.pullApproval
  requestState : w'.requestState = w.requestState
  usageReport : w'.usageReport = w.usageReport
  money : SameMoney w w'

theorem mandateBillingPeriod_eq_ok {mandate : VelaMandate} {period : Int64 × Int64} :
    mandateBillingPeriod mandate = .ok period ↔
      mandate.frequency.toNat < 2 ^ 63 ∧ period.2 = mandate.nextPaymentDue ∧
        period.1.toInt = mandate.nextPaymentDue.toInt - mandate.frequency.toNat := by
  obtain ⟨periodStart, periodEnd⟩ := period
  simp only [mandateBillingPeriod, orVela, orError_bind_eq_ok, pure_eq_ok, Checked.toI64_eq_some,
    Checked.subI64_eq_some, Prod.mk.injEq]
  constructor
  · rintro ⟨frequency, value, start, difference, rfl, rfl⟩
    have bounds := Checked.toInt_bounds frequency
    exact ⟨by omega, rfl, by omega⟩
  · rintro ⟨small, rfl, start⟩
    obtain ⟨frequency, value⟩ := Checked.exists_toI64 (n := mandate.frequency.toNat) (by omega)
    rw [Checked.toI64_eq_some] at value
    exact ⟨frequency, value, periodStart, by omega, rfl, rfl⟩

end VelaProtocol
