import VelaProtocol.Properties.RoundTrip
import VelaProtocol.TransferHook

/-! The decoders a mandate passes through while it is billed. The request handlers take both
layouts; the hook and the callbacks only decode the current one, which needs its full length. -/
namespace VelaProtocol

open Codec Guard

variable {info : AccountInfo} {loaded : LoadedMandateAccount}

/-- The fields a billing step acts on. -/
structure BilledAs (m : VelaMandate) (loaded : LoadedMandateAccount) : Prop where
  subscriber : m.subscriber = loaded.intoCurrent.subscriber
  merchant : m.merchant = loaded.intoCurrent.merchant
  plan : m.plan = loaded.intoCurrent.plan
  amount : m.amount = loaded.intoCurrent.amount
  frequency : m.frequency = loaded.intoCurrent.frequency
  nextPaymentDue : m.nextPaymentDue = loaded.intoCurrent.nextPaymentDue
  status : m.status = loaded.intoCurrent.status

theorem billedAs_padded (old : VelaMandateV1) :
    BilledAs (paddedMandate old) (.legacy old) := ⟨rfl, rfl, rfl, rfl, rfl, rfl, rfl⟩

/-- The hook and the callbacks decode the account, to the billing the loader sees. -/
structure DecodersAgree (info : AccountInfo) (loaded : LoadedMandateAccount) : Prop where
  hook : ∃ m, Layout.velaMandateAccount.read info.data = some m ∧ BilledAs m loaded
  callback : ∃ m, Raw.anchorVelaMandate info = .ok m ∧ BilledAs m loaded

theorem anchorVelaMandate_read {m : VelaMandate} :
    Raw.anchorVelaMandate info = .ok m ↔
      info.owner = programId ∧ Layout.velaMandateAccount.read info.data = some m := by
  simp only [Raw.anchorVelaMandate, orHost, require_bind_eq_ok, orError_eq_ok]

theorem read_velaMandate_long {data : List UInt8} {m : VelaMandate}
    (decodes : Layout.velaMandateAccount.read data = some m) :
    VelaMandate.size ≤ data.length := by
  obtain ⟨x, decoded, _⟩ := Option.map_eq_some_iff.mp decodes
  rw [encode_decode decoded, List.length_append, length_encode x.1]
  exact Nat.le_add_right _ _

theorem read_padded {data : List UInt8} {old : VelaMandateV1} {k : Nat}
    (stored : data = Layout.mandates.bytesOf (.inr old) ++ List.replicate k 0)
    (long : VelaMandate.size ≤ data.length) :
    Layout.velaMandateAccount.read data = some (paddedMandate old) := by
  have length := congrArg List.length stored
  have size : (Layout.mandates.bytesOf (.inr old)).length = 195 := Raw.length_mandate (.legacy old)
  have total : 268 ≤ data.length := long
  rw [List.length_append, List.length_replicate] at length
  have enough : 73 + (k - 73) = k := by omega
  rw [← enough, ← bytesOf_paddedMandate_append] at stored
  exact Holds.read ⟨_, stored⟩

theorem read_loaded (load : Raw.loadMandateAccount info = .ok loaded)
    (long : VelaMandate.size ≤ info.data.length) :
    ∃ m, Layout.velaMandateAccount.read info.data = some m ∧ BilledAs m loaded := by
  have found := (Raw.loadMandateAccount_eq_ok.mp load).2
  cases loaded with
  | current m =>
    obtain ⟨-, rest, same⟩ := Layered.load_eq_current.mp found
    exact ⟨m, Holds.read ⟨rest, same⟩, rfl, rfl, rfl, rfl, rfl, rfl, rfl⟩
  | legacy old =>
    obtain ⟨k, same⟩ := Layered.load_eq_legacy.mp found
    exact ⟨paddedMandate old, read_padded same long, billedAs_padded old⟩

/-- A loaded mandate is decoded alike by every later step exactly when its account has the size of
the current layout. -/
theorem decoders_agree_iff (load : Raw.loadMandateAccount info = .ok loaded) :
    DecodersAgree info loaded ↔ VelaMandate.size ≤ info.data.length := by
  constructor
  · intro agree
    obtain ⟨m, decodes, _⟩ := agree.hook
    exact read_velaMandate_long decodes
  · intro long
    obtain ⟨m, decodes, same⟩ := read_loaded load long
    have owner := (Raw.loadMandateAccount_eq_ok.mp load).1
    exact ⟨⟨m, decodes, same⟩, ⟨m, anchorVelaMandate_read.mpr ⟨owner, decodes⟩, same⟩⟩

def legacyAccount (old : VelaMandateV1) (k : Nat) : AccountInfo :=
  ownedAccount Deployment.mandate (Layout.mandates.bytesOf (.inr old) ++ List.replicate k 0)

theorem load_legacyAccount (old : VelaMandateV1) (k : Nat) :
    Raw.loadMandateAccount (legacyAccount old k) = .ok (.legacy old) :=
  Raw.loadMandateAccount_eq_ok.mpr ⟨rfl, Layered.load_legacy old k⟩

theorem decoders_agree_monthly :
    DecodersAgree (legacyAccount monthlyMandate 73) (.legacy monthlyMandate) ↔
      VelaMandate.size ≤ (legacyAccount monthlyMandate 73).data.length :=
  decoders_agree_iff (load_legacyAccount monthlyMandate 73)

/-- A legacy mandate in an account of its own size is loaded and then not decoded. -/
theorem legacy_size_not_decoded :
    Raw.loadMandateAccount (legacyAccount monthlyMandate 0) = .ok (.legacy monthlyMandate) ∧
    (legacyAccount monthlyMandate 0).data.length = 195 ∧
    ¬DecodersAgree (legacyAccount monthlyMandate 0) (.legacy monthlyMandate) := by
  have length : (legacyAccount monthlyMandate 0).data.length = 195 := by
    have size := Raw.length_mandate (.legacy monthlyMandate)
    rw [legacyAccount, ownedAccount, List.length_append, List.length_replicate]
    exact size
  refine ⟨load_legacyAccount _ 0, length, fun agree => ?_⟩
  obtain ⟨m, decodes, _⟩ := agree.hook
  have long := read_velaMandate_long decodes
  rw [length] at long
  exact absurd long (by decide)

end VelaProtocol
