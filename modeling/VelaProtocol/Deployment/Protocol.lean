import VelaProtocol.Addresses
import VelaProtocol.Deployment.Agents
import VelaProtocol.Deployment.Streams

/-! Scripts over the whole program, played by plain keys. -/
namespace VelaProtocol.Deployment

open Monitored

theorem custody_address_large {seeds : Seeds} (own : seeds.custody ≠ none) :
    1000 ≤ (platform.findProgramAddress seeds).1.toNat := by
  cases seeds with
  | mandate s m i =>
    simp only [platform, findProgramAddress, derived, List.foldl_cons, List.foldl_nil,
      BitVec.toNat_ofNat]
    omega
  | legacyMandate s p =>
    simp only [platform, findProgramAddress, derived, List.foldl_cons, List.foldl_nil,
      BitVec.toNat_ofNat]
    omega
  | stream s m i =>
    simp only [platform, findProgramAddress, derived, List.foldl_cons, List.foldl_nil,
      BitVec.toNat_ofNat]
    omega
  | agentMandate a g =>
    simp only [platform, findProgramAddress, derived, List.foldl_cons, List.foldl_nil,
      BitVec.toNat_ofNat]
    omega
  | _ => exact absurd rfl own

def actionSigners : ProtocolAction → List Pubkey
  | .instruction i => i.signers
  | _ => []

/-- A step signed by plain keys that opens no address twice. -/
def Plain (opened : List Seeds) (w : World) (a : ProtocolAction) (_ : World) : Prop :=
  (actionSigners a).all (fun key => decide (key.toNat < 1000)) = true ∧
    AddressesDiffer platform (.mintAuthority :: ((a.opens w).toList ++ opened))

instance (opened : List Seeds) (w : World) (a : ProtocolAction) (w' : World) :
    Decidable (Plain opened w a w') :=
  inferInstanceAs (Decidable (_ ∧ ∀ x ∈ _, ∀ y ∈ _, _ → _))

theorem Plain.lawful {opened : List Seeds} {w w' : World} {a : ProtocolAction}
    (plain : Plain opened w a w') : Lawful platform opened w a w' := by
  refine ⟨fun i same key signs => ?_, plain.2⟩
  rintro ⟨seeds, own, rfl⟩
  subst same
  have large := custody_address_large own
  have small := of_decide_eq_true (List.all_eq_true.mp plain.1 _ signs)
  omega

theorem placed_empty {w : World} (mandate : w.mandate = fun _ => none)
    (stream : w.stream = fun _ => none) (agent : w.agentMandate = fun _ => none) :
    Placed platform w [] := by
  constructor
  case held =>
    intro k kind stored
    cases kind with
    | mandate =>
      rw [World.stores, World.currentMandate, mandate] at stored
      cases stored
    | stream =>
      rw [World.stores, stream] at stored
      cases stored
    | agentMandate =>
      rw [World.stores, World.agentMandateAt, agent] at stored
      cases stored
  case own =>
    intro x mem
    cases mem
  case below =>
    intro _ _ _ mem
    cases mem
  case stays =>
    intro x mem
    cases mem
  case apart =>
    intro x mem y mem' _
    rw [List.mem_singleton] at mem mem'
    exact mem.trans mem'.symm

theorem protocol_script {x y : World × List Seeds} {script : List ProtocolAction}
    (played : play (applyProtocol platform) watchSeeds Plain x script = some y) :
    ProtocolRun platform x y :=
  (play_run (fun _ _ _ => applyProtocol_step) played).weaken fun _ _ _ _ => Plain.lawful

def ofBilling : Action → ProtocolAction
  | .instruction i => .instruction (.billing i)
  | .tick clock => .tick clock
  | .environment => .outside

def ofStreaming : StreamAction → ProtocolAction
  | .instruction i => .instruction (.streaming i)
  | .tick clock => .tick clock
  | .environment => .outside

def ofAgent : AgentAction → ProtocolAction
  | .instruction i => .instruction (.agent i)
  | .tick clock => .tick clock
  | .environment => .outside

def subscribeFlat : Action := .instruction (.subscribe (subscription (flatPlan 0) mintA))

def subscriberCancel : Cancel where
  authority := subscriber
  subscriber := subscriber
  merchant := merchant
  plan := flatPlan 0
  mandate := mandate
  subscriberCredentialAccount := (findProgramAddress (.associatedToken subscriber credentialMint)).1
  credentialMint := credentialMint

def cancelBySubscriber : Action := .instruction (.cancel subscriberCancel)

def wrapToMandate (amount : UInt64) : ProtocolAction :=
  .instruction (.wrap {
    subscriber := subscriber
    accounts := {
      splUsdcMint := classicMint
      wrappedUsdcMint := mintA
      usdcAccount := ownerClassic
      wrappedAccount := payer mintA
      wrappingVault := vault }
    destinationAuthority := mandate
    amount := amount })

def offerStream : ProtocolAction :=
  .instruction (.streaming (.createStreamMandate (streamOffer none)))

def cancelStreamBySubscriber : ProtocolAction :=
  .instruction (.streaming (.cancelStream (control subscriber)))

def fundAgent : ProtocolAction := .instruction (.agent (.createAgentMandate agentOffer))

def pauseByAdmin : ProtocolAction := .instruction (.config (.pauseProtocol admin))

def drainByOwner : ProtocolInstruction := .agent (.drainAgentMandate agentExit)

def unwrappedWorld : World :=
  { agentWorld 0 with
    protocolConfig := some (.current { config with
      wrappedUsdcMint := Pubkey.default
      wrappingVault := Pubkey.default })
    mint := fun _ => none
    tokenAccount := fun _ => none
    splTokenAccount := fun key =>
      if key = ownerClassic then some ⟨classicMint, subscriber, 1000000⟩ else none }

def wrappedOffer : InitWrappedMint where
  admin := admin
  wrappedUsdcMint := mintA
  splUsdcMint := classicMint

def wrappedVault : Pubkey := wrappedOffer.wrappingVault platform

end VelaProtocol.Deployment
