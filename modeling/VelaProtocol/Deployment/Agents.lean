import VelaProtocol.Agents
import VelaProtocol.Deployment

/-! The deployment with a classic mint behind the first wrapped one: scripts of agent
instructions. -/
namespace VelaProtocol.Deployment

def classicMint : Pubkey := 8
def ownerClassic : Pubkey := 9
def agent : Pubkey := 10

def agentMandate : Pubkey := (findProgramAddress (.agentMandate subscriber agent)).1

def agentPayer : Pubkey := (findProgramAddress (.associatedToken agentMandate mintA)).1

/-- The first mint is minted by the program alone, against classic tokens in the vault. -/
def agentWorld (now : Int64) : World :=
  { world now with
    mint := fun key =>
      if key = mintA then
        some { billingMint with mintAuthority := some (findProgramAddress .mintAuthority).1 }
      else (world now).mint key
    splMint := fun key => if key = classicMint then some 6 else none
    splTokenAccount := fun key =>
      if key = ownerClassic then some ⟨classicMint, subscriber, 1000000⟩
      else if key = vault then some ⟨classicMint, (findProgramAddress .mintAuthority).1, 0⟩
      else none }

/-- At most 100 a day and 1000 in all, to the merchant alone. -/
def agentOffer : CreateAgentMandate where
  authority := subscriber
  agent := agent
  agentMandate := agentMandate
  splUsdcMint := classicMint
  authorityUsdcAccount := ownerClassic
  wrappedUsdcMint := mintA
  wrappingVault := vault
  dailyLimit := 100
  lifetimeCap := 1000
  minPullAmount := 1
  minPullInterval := 0
  services := [⟨merchant, 100⟩]
  fundedAmount := 500

def tickAgent (now : Int64) : AgentAction := .tick ⟨now, 0⟩

def pullForMerchant (amount : UInt64) : AgentAction :=
  .instruction (.agentPull {
    payer := keeper
    agent := agent
    authority := subscriber
    agentMandate := agentMandate
    mandateWrappedAccount := agentPayer
    serviceWrappedAccount := receiver mintA
    tokenConfig := .registered
    wrappedUsdcMint := mintA
    wrappingVault := vault
    hookProgram := transferHookProgramId
    amount := amount })

def agentExit : AgentExit where
  authority := subscriber
  agent := agent
  agentMandate := agentMandate
  accounts := agentOffer.accounts platform

def drainAgent : AgentAction := .instruction (.drainAgentMandate agentExit)

def revokeAgent : AgentAction := .instruction (.revokeAgentMandate agentExit)

def applyAgentAction (w : World) : AgentAction → Option World
  | .instruction i => (executeAgent platform w i).toOption
  | .tick clock =>
    if w.clock.unixTimestamp ≤ clock.unixTimestamp then some { w with clock := clock } else none
  | .environment => none

theorem applyAgentAction_step {w w' : World} {a : AgentAction}
    (applied : applyAgentAction w a = some w') : AgentStep platform w a w' := by
  cases a with
  | instruction i => exact toOption_eq_some.mp applied
  | tick clock =>
    simp only [applyAgentAction, Option.ite_none_right_eq_some, Option.some.injEq] at applied
    exact ⟨applied.1, applied.2.symm⟩
  | environment => cases applied

end VelaProtocol.Deployment
