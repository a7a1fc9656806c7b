import VelaProtocol.Bytes
import VelaProtocol.Deployment

/-! Mandates written and loaded again. The two layouts are never taken for one another as long as
a current mandate has the current version; what is read depends on the fields alone. -/
namespace VelaProtocol

open Codec Guard

instance : Canonical Layout.mandates.current := inferInstanceAs (Canonical Layout.velaMandate)
instance : Canonical Layout.mandates.legacy := inferInstanceAs (Canonical Layout.velaMandateV1)

namespace Raw

def ofMandate : LoadedMandateAccount → VelaMandate ⊕ VelaMandateV1
  | .current mandate => .inl mandate
  | .legacy legacy => .inr legacy

theorem mandateOf_eq {x : VelaMandate ⊕ VelaMandateV1} {loaded : LoadedMandateAccount} :
    mandateOf x = loaded ↔ x = ofMandate loaded := by
  cases x <;> cases loaded <;> simp [mandateOf, ofMandate]

variable {info info' : AccountInfo} {loaded : LoadedMandateAccount} {mandate : VelaMandate}
  {legacyLayout : Bool}

theorem loadMandateAccount_eq_ok :
    loadMandateAccount info = .ok loaded ↔
      info.owner = programId ∧ Layout.mandates.load info.data = some (ofMandate loaded) := by
  simp only [loadMandateAccount, orHost, require_bind_eq_ok, orError_bind_eq_ok, pure_eq_ok,
    mandateOf_eq]
  constructor
  · rintro ⟨owner, x, found, rfl⟩
    exact ⟨owner, found⟩
  · rintro ⟨owner, found⟩
    exact ⟨owner, _, found, rfl⟩

theorem length_mandate : ∀ loaded : LoadedMandateAccount,
    (Layout.mandates.bytesOf (ofMandate loaded)).length = if loaded.isLegacy then 195 else 268
  | .current mandate => length_encode (c := Layout.velaMandateAccount) mandate
  | .legacy legacy =>
    length_encode (c := Layout.velaMandateV1.tagged Layout.VelaMandate.discriminator) legacy

theorem writeMandate_eq_ok :
    writeMandate info mandate legacyLayout = .ok info' ↔
      ∃ data, Layout.mandates.write info.data (ofMandate (mandateLayout mandate legacyLayout)) =
        some data ∧ { info with data := data } = info' := by
  cases legacyLayout with
  | false =>
    simp only [writeMandate, Bool.false_eq_true, if_false, orHost, orError_bind_eq_ok, pure_eq_ok]
    exact Iff.rfl
  | true =>
    simp only [writeMandate, if_true, orHost, require_bind_eq_ok, orError_bind_eq_ok, pure_eq_ok]
    constructor
    · rintro ⟨_, data, written, rfl⟩
      exact ⟨data, written, rfl⟩
    · rintro ⟨data, written, rfl⟩
      have fits := (Layered.overwrite_eq_some.mp written).1
      rw [length_mandate] at fits
      have long : 195 ≤ info.data.length := fits
      exact ⟨by omega, data, written, rfl⟩

theorem writeMandateAccount_eq_ok :
    writeMandateAccount info loaded = .ok info' ↔
      ∃ data, Layout.mandates.write info.data (ofMandate loaded) = some data ∧
        { info with data := data } = info' := by
  cases loaded with
  | current mandate => exact writeMandate_eq_ok
  | legacy legacy => exact writeMandate_eq_ok

/-- Only a current mandate of another version reads differently from its own bytes. -/
def Recognised : LoadedMandateAccount → Prop
  | .current mandate => mandate.version = currentAccountVersion
  | .legacy _ => True

theorem recognised_iff : Recognised loaded ↔ Layout.mandates.Valid (ofMandate loaded) := by
  cases loaded <;> exact Iff.rfl

theorem load_of_writeMandate (owner : info.owner = programId)
    (recognised : Recognised (mandateLayout mandate legacyLayout))
    (written : writeMandate info mandate legacyLayout = .ok info') :
    info'.data.length = info.data.length ∧
      loadMandateAccount info' = .ok (mandateLayout mandate legacyLayout) := by
  obtain ⟨data, stored, rfl⟩ := writeMandate_eq_ok.mp written
  refine ⟨Layered.overwrite_length stored, loadMandateAccount_eq_ok.mpr ⟨owner, ?_⟩⟩
  exact Layered.load_of_write (recognised_iff.mp recognised) stored

theorem write_loaded (load : loadMandateAccount info = .ok loaded) :
    ∃ info', writeMandateAccount info loaded = .ok info' ∧
      info'.data.length = info.data.length ∧ loadMandateAccount info' = .ok loaded := by
  obtain ⟨owner, found⟩ := loadMandateAccount_eq_ok.mp load
  obtain ⟨data, written⟩ := Layered.write_loaded found
  have valid := (Layered.load_valid found).1
  exact ⟨_, writeMandateAccount_eq_ok.mpr ⟨data, written, rfl⟩, Layered.overwrite_length written,
    loadMandateAccount_eq_ok.mpr ⟨owner, Layered.load_of_write valid written⟩⟩

end Raw

def ownedAccount (key : Pubkey) (data : List UInt8) : AccountInfo := ⟨key, programId, data⟩

structure LegacyDefaults (m : VelaMandate) : Prop where
  mandateIndex : m.mandateIndex = 0
  version : m.version = currentAccountVersion
  creditBalance : m.creditBalance = 0
  pendingNewPlan : m.pendingNewPlan = Pubkey.default
  pendingEffectiveAt : m.pendingEffectiveAt = 0
  pendingChangeType : m.pendingChangeType = 0
  pendingNonceShort : m.pendingNonceShort = 0
  reservedV3 : m.reservedV3 = 0

theorem legacyDefaults (legacy : VelaMandateV1) :
    LegacyDefaults (currentFromLegacyMandate legacy) := ⟨rfl, rfl, rfl, rfl, rfl, rfl, rfl, rfl⟩

/-- What a mandate survives in an account of given bytes. -/
structure MandateRoundTrip (key : Pubkey) (data : List UInt8) : Prop where
  current : ∀ m : VelaMandate, m.version = currentAccountVersion →
    VelaMandate.size ≤ data.length → ∃ info', Raw.writeMandate (ownedAccount key data) m false =
      .ok info' ∧ Raw.loadMandateAccount info' = .ok (.current m)
  legacy : ∀ (old : VelaMandateV1) (k : Nat),
    data = Layout.VelaMandate.discriminator ++ Layout.velaMandateV1.encode old ++
      List.replicate k 0 →
    ∃ loaded, Raw.loadMandateAccount (ownedAccount key data) = .ok loaded ∧
      loaded = .legacy old ∧ loaded.intoCurrent.toLegacy = old ∧ LegacyDefaults loaded.intoCurrent
  apart : ∀ (m : VelaMandate) (legacyLayout : Bool) (info' : AccountInfo),
    (legacyLayout = false → m.version = currentAccountVersion) →
    Raw.writeMandate (ownedAccount key data) m legacyLayout = .ok info' →
    info'.data.length = data.length ∧
      Raw.loadMandateAccount info' = .ok (mandateLayout m legacyLayout)
  again : ∀ loaded, Raw.loadMandateAccount (ownedAccount key data) = .ok loaded →
    (∃ info', Raw.writeMandateAccount (ownedAccount key data) loaded = .ok info' ∧
      Raw.loadMandateAccount info' = .ok loaded) ∧
    ∀ legacyLayout info',
      Raw.writeMandate (ownedAccount key data) loaded.intoCurrent legacyLayout = .ok info' →
      ∃ next, Raw.loadMandateAccount info' = .ok next ∧
        next.intoCurrent.toLegacy = loaded.intoCurrent.toLegacy ∧
        (legacyLayout = loaded.isLegacy → next = loaded)

theorem mandateLayout_recognised (m : VelaMandate) (legacyLayout : Bool)
    (version : legacyLayout = false → m.version = currentAccountVersion) :
    Raw.Recognised (mandateLayout m legacyLayout) := by
  cases legacyLayout with
  | false => exact version rfl
  | true => exact trivial

theorem loaded_version {info : AccountInfo} {loaded : LoadedMandateAccount}
    (load : Raw.loadMandateAccount info = .ok loaded) :
    loaded.intoCurrent.version = currentAccountVersion := by
  cases loaded with
  | current m => exact (Layered.load_valid (Raw.loadMandateAccount_eq_ok.mp load).2).1
  | legacy old => rfl

theorem mandateLayout_loaded (loaded : LoadedMandateAccount) :
    mandateLayout loaded.intoCurrent loaded.isLegacy = loaded := by
  cases loaded <;> rfl

theorem mandateLayout_shared (m : VelaMandate) (legacyLayout : Bool) :
    (mandateLayout m legacyLayout).intoCurrent.toLegacy = m.toLegacy := by
  cases legacyLayout <;> rfl

/-- Every mandate of the current version, and every legacy one, comes back from its bytes. -/
theorem mandate_round_trip (key : Pubkey) (data : List UInt8) : MandateRoundTrip key data where
  current := by
    intro m version long
    have fits : (Layout.mandates.bytesOf (Raw.ofMandate (mandateLayout m false))).length ≤
        (ownedAccount key data).data.length := by
      rw [Raw.length_mandate]
      exact long
    have written := Raw.writeMandate_eq_ok.mpr
      ⟨_, Layered.overwrite_eq_some.mpr ⟨fits, rfl⟩, rfl⟩
    have recognised := mandateLayout_recognised m false fun _ => version
    exact ⟨_, written, (Raw.load_of_writeMandate rfl recognised written).2⟩
  legacy := by
    intro old k stored
    have found : Layout.mandates.load (ownedAccount key data).data = some (.inr old) :=
      Layered.load_eq_legacy.mpr ⟨k, stored⟩
    exact ⟨.legacy old, Raw.loadMandateAccount_eq_ok.mpr ⟨rfl, found⟩, rfl, rfl,
      legacyDefaults old⟩
  apart := by
    intro m legacyLayout info' version written
    exact Raw.load_of_writeMandate rfl (mandateLayout_recognised m _ version) written
  again := by
    intro loaded load
    constructor
    · obtain ⟨info', written, -, next⟩ := Raw.write_loaded load
      exact ⟨info', written, next⟩
    · intro legacyLayout info' written
      have recognised := mandateLayout_recognised loaded.intoCurrent legacyLayout
        fun _ => loaded_version load
      refine ⟨_, (Raw.load_of_writeMandate rfl recognised written).2,
        mandateLayout_shared _ _, fun own => ?_⟩
      rw [own]
      exact mandateLayout_loaded loaded

def paddedMandate (old : VelaMandateV1) : VelaMandate :=
  { currentFromLegacyMandate old with version := legacyAccountVersion }

theorem encode_paddedMandate (old : VelaMandateV1) : Layout.velaMandate.encode (paddedMandate old) =
    Layout.velaMandateV1.encode old ++ List.replicate 73 0 := by
  have fields : Codec.u64.encode 0 ++ (0 : UInt8) :: (Codec.u64.pair <| Layout.pubkey.pair <|
      Codec.i64.pair <| Codec.byte.pair <| (Layout.bytes 8).pair (Layout.bytes 7)).encode
        ⟨0, Pubkey.default, 0, 0, 0, 0⟩ = List.replicate 73 0 := by
    simp only [Codec.pair, Layout.encode_u64_zero, Layout.encode_i64_zero, Layout.encode_default,
      Layout.encode_bytes_zero]
    decide
  rw [Layout.velaMandate_split, List.append_assoc, ← fields]
  rfl

theorem bytesOf_paddedMandate (old : VelaMandateV1) :
    Layout.mandates.bytesOf (.inl (paddedMandate old)) =
      Layout.mandates.bytesOf (.inr old) ++ List.replicate 73 0 := by
  have body : Layout.mandates.current.encode (paddedMandate old) =
    Layout.mandates.legacy.encode old ++ List.replicate 73 0 := encode_paddedMandate old
  rw [Layered.bytesOf, Layered.bytesOf, body, List.append_assoc]

theorem bytesOf_paddedMandate_append (old : VelaMandateV1) (k : Nat) :
    Layout.mandates.bytesOf (.inl (paddedMandate old)) ++ List.replicate k 0 =
      Layout.mandates.bytesOf (.inr old) ++ List.replicate (73 + k) 0 := by
  rw [bytesOf_paddedMandate, List.append_assoc, List.replicate_append_replicate]

def monthlyMandate : VelaMandateV1 where
  subscriber := Deployment.subscriber
  plan := Deployment.flatPlan 0
  merchant := Deployment.merchant
  amount := 5000000
  frequency := 2592000
  startDate := 0
  expiry := 0
  maxPulls := 12
  pullsExecuted := 0
  nextPaymentDue := 2592000
  lastPullAt := 0
  lastBillingRecordedPull := 0
  validationRequestNonce := 0
  billingRequestNonce := 0
  status := .active
  bump := 255
  billingType := .flat

def mandateSlot : AccountInfo := ownedAccount Deployment.mandate (List.replicate VelaMandate.size 7)

/-- Written with another version, a mandate is taken for a legacy one. -/
theorem other_version_not_returned : ∃ info',
    Raw.writeMandate mandateSlot (paddedMandate monthlyMandate) false = .ok info' ∧
    Raw.loadMandateAccount info' = .ok (.legacy monthlyMandate) ∧
    (LoadedMandateAccount.legacy monthlyMandate).intoCurrent ≠ paddedMandate monthlyMandate := by
  have fits : (Layout.mandates.bytesOf (.inl (paddedMandate monthlyMandate))).length ≤
      mandateSlot.data.length := by
    rw [mandateSlot, ownedAccount, List.length_replicate]
    exact (Raw.length_mandate (.current (paddedMandate monthlyMandate))).le
  have written : Raw.writeMandate mandateSlot (paddedMandate monthlyMandate) false =
      .ok { mandateSlot with data := _ } :=
    Raw.writeMandate_eq_ok.mpr ⟨_, Layered.overwrite_eq_some.mpr ⟨fits, rfl⟩, rfl⟩
  refine ⟨_, written, Raw.loadMandateAccount_eq_ok.mpr ⟨rfl, Layered.load_eq_legacy.mpr ?_⟩, ?_⟩
  · exact ⟨_, bytesOf_paddedMandate_append monthlyMandate _⟩
  · intro same
    exact absurd (congrArg VelaMandate.version same) (by decide)

end VelaProtocol
