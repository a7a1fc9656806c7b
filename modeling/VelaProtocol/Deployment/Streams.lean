import VelaProtocol.Deployment
import VelaProtocol.Streaming

/-! The deployment with a funded stream address: scripts of streaming instructions. -/
namespace VelaProtocol.Deployment

def stream : Pubkey := (findProgramAddress (.stream subscriber merchant 0)).1

def streamPayer : Pubkey := (findProgramAddress (.associatedToken stream mintA)).1

def streamWorld (now : Int64) (funds : UInt64) : World :=
  { world now with
    tokenAccount := fun key =>
      if key = streamPayer then some ⟨mintA, stream, funds⟩ else (world now).tokenAccount key }

theorem stream_address_large (subscriber merchant : Pubkey) (mandateIndex : UInt64) :
    121 * 2 ^ 60 ≤ (platform.findProgramAddress (.stream subscriber merchant mandateIndex)).1.toNat
    := by
  simp only [platform, findProgramAddress, derived, List.foldl_cons, List.foldl_nil,
    BitVec.toNat_ofNat]
  omega

theorem streamWorld_merchantsSign (now : Int64) (funds : UInt64) :
    MerchantsSign platform (streamWorld now funds) := by
  intro key loaded found subscriber merchant' mandateIndex same
  have large := stream_address_large subscriber merchant' mandateIndex
  have small : loaded.intoCurrent.merchant = merchant := by
    simp only [streamWorld, world, Option.ite_none_right_eq_some, Option.some.injEq] at found
    obtain ⟨_, rfl⟩ := found
    rfl
  have value : merchant.toNat = 3 := rfl
  rw [← same, small] at large
  omega

/-- A stream at 10 a second, at most 20, settled at most once a minute. -/
def streamOffer (maxStreamed : Option UInt64) : CreateStreamMandate where
  subscriber := subscriber
  merchant := merchant
  mandate := stream
  mint := mintA
  payer := subscriber
  ratePerSecond := 10
  authorizedMaxRate := 20
  maxStreamed := maxStreamed
  minSettleInterval := 60

def streamAccounts : StreamTransferAccounts where
  subscriberWrappedAccount := streamPayer
  merchantWrappedAccount := receiver mintA
  wrappedUsdcMint := mintA
  pullApproval := (findProgramAddress (.approval stream)).1
  tokenConfig := .registered
  wrappingVault := vault
  hookProgram := transferHookProgramId

def tickStream (now : Int64) : StreamAction := .tick ⟨now, 0⟩

def settleStream : StreamAction :=
  .instruction (.executeStream {
    payer := keeper
    subscriber := subscriber
    merchant := merchant
    streamMandate := stream
    accounts := streamAccounts })

def control (authority : Pubkey) : StreamControl where
  authority := authority
  mandate := stream
  accounts := streamAccounts

def pauseBy (authority : Pubkey) : StreamAction := .instruction (.pauseStream (control authority))

def cancelBy (authority : Pubkey) : StreamAction :=
  .instruction (.cancelStream (control authority))

def resumeBy (authority : Pubkey) : StreamAction :=
  .instruction (.resumeStream { authority := authority, mandate := stream })

def raiseBy (authority : Pubkey) (rate : UInt64) : StreamAction :=
  .instruction (.updateStreamRate {
    toStreamControl := control authority
    newRate := some rate
    newAuthorizedMaxRate := none })

def applyStreamAction (w : World) : StreamAction → Option World
  | .instruction i => (executeStreaming platform w i).toOption
  | .tick clock =>
    if w.clock.unixTimestamp ≤ clock.unixTimestamp then some { w with clock := clock } else none
  | .environment => none

theorem applyStreamAction_step {w w' : World} {a : StreamAction}
    (applied : applyStreamAction w a = some w') : StreamStep platform w a w' := by
  cases a with
  | instruction i => exact toOption_eq_some.mp applied
  | tick clock =>
    simp only [applyStreamAction, Option.ite_none_right_eq_some, Option.some.injEq] at applied
    exact ⟨applied.1, applied.2.symm⟩
  | environment => cases applied

variable {γ : Type} {observe : Monitored.Observe World StreamAction γ}
  {allowed : γ → World → StreamAction → World → Prop} [∀ g w a w', Decidable (allowed g w a w')]

theorem stream_script {ctx : CreateStreamMandate} {funds : UInt64} {g : γ}
    {script : List StreamAction} {good : World → World × γ → Bool}
    (checked : (createStreamMandate platform (streamWorld 0 funds) ctx).toOption.any
      (fun w₀ => (Monitored.play applyStreamAction observe allowed (w₀, g) script).any (good w₀)) =
        true) :
    ∃ w₀ x, createStreamMandate platform (streamWorld 0 funds) ctx = .ok w₀ ∧
      Monitored.Run (StreamStep platform) observe allowed (w₀, g) x ∧ good w₀ x = true := by
  simp only [Option.any_eq_true, toOption_eq_some] at checked
  obtain ⟨w₀, created, x, played, ok⟩ := checked
  exact ⟨w₀, x, created, Monitored.play_run (fun _ _ _ => applyStreamAction_step) played, ok⟩

end VelaProtocol.Deployment
