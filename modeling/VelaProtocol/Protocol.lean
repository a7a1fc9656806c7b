import VelaProtocol.Agents
import VelaProtocol.Instructions.Configuration
import VelaProtocol.Program
import VelaProtocol.Streaming

/-! The whole program as one transition system: every instruction, with who signs it.
Other programs may do what they like with accounts this program does not own, but nobody signs for
an address this program derives. -/
namespace VelaProtocol

open Monitored

inductive ConfigInstruction where
  | initConfig (ctx : InitConfig)
  | updateConfig (ctx : UpdateConfig)
  | pauseProtocol (admin : Pubkey)
  | unpauseProtocol (admin : Pubkey)
  | initKeeperConfig (ctx : InitKeeperConfig)
  | updateKeeperConfig (ctx : UpdateKeeperConfig)
  | initTokenConfig (ctx : InitTokenConfig)
  | updateTokenConfig (ctx : UpdateTokenConfig)
  | initWrappedMint (ctx : InitWrappedMint)
  | initMerchantCredential (ctx : InitMerchantCredential)
  | initCompDef (circuit : Circuit) (ctx : InitCompDef)

def configure (P : Platform) (w : World) : ConfigInstruction → Result World
  | .initConfig ctx => initConfig P w ctx
  | .updateConfig ctx => updateConfig P w ctx
  | .pauseProtocol admin => pauseProtocol w admin
  | .unpauseProtocol admin => unpauseProtocol w admin
  | .initKeeperConfig ctx => initKeeperConfig w ctx
  | .updateKeeperConfig ctx => updateKeeperConfig w ctx
  | .initTokenConfig ctx => initTokenConfig w ctx
  | .updateTokenConfig ctx => updateTokenConfig w ctx
  | .initWrappedMint ctx => initWrappedMint P w ctx
  | .initMerchantCredential ctx => initMerchantCredential P w ctx
  | .initCompDef _ ctx => initCompDef P w ctx

inductive ProtocolInstruction where
  | billing (i : Instruction)
  | streaming (i : StreamInstruction)
  | agent (i : AgentInstruction)
  | config (i : ConfigInstruction)
  | wrap (ctx : Wrap)
  | unwrapTokens (ctx : Unwrap)

def executeProtocol (P : Platform) (w : World) : ProtocolInstruction → Result World
  | .billing i => execute P w i
  | .streaming i => executeStreaming P w i
  | .agent i => executeAgent P w i
  | .config i => configure P w i
  | .wrap ctx => wrap P w ctx
  | .unwrapTokens ctx => unwrapTokens P w ctx

/-- `migrate_plan` is signed by anyone and the callbacks by nobody whose key is read. -/
def Instruction.signers : Instruction → List Pubkey
  | .createPlan ctx => [ctx.merchant]
  | .createUsagePlan ctx => [ctx.merchant]
  | .updatePlan ctx => [ctx.merchant]
  | .updateUsagePlan ctx => [ctx.merchant]
  | .migratePlan _ => []
  | .subscribe ctx => [ctx.subscriber]
  | .cancel ctx => [ctx.authority]
  | .adminCancel ctx => [ctx.authority]
  | .closeMandate ctx => [ctx.authority]
  | .migrateMandate ctx => [ctx.admin]
  | .updateMandate ctx => [ctx.merchant]
  | .updateMandatePlan ctx => [ctx.authority]
  | .schedulePlanChange ctx => [ctx.authority]
  | .cancelPlanChange ctx => [ctx.authority]
  | .requestValidation ctx => [ctx.payer]
  | .validateMandateCallback _ => []
  | .submitUsageReport ctx => [ctx.merchant]
  | .requestUsageComputation ctx => [ctx.payer]
  | .usageChargeCallback _ => []
  | .executePull ctx => [ctx.payer]
  | .requestBillingRecord ctx => [ctx.payer]
  | .recordBillingEventCallback _ => []

def AgentInstruction.signers : AgentInstruction → List Pubkey
  | .createAgentMandate ctx => [ctx.authority]
  | .agentPull ctx => [ctx.payer, ctx.agent]
  | .adjustAgentMandate ctx => [ctx.authority]
  | .pauseAgentMandate ctx => [ctx.authority]
  | .resumeAgentMandate ctx => [ctx.authority]
  | .drainAgentMandate ctx => [ctx.authority]
  | .revokeAgentMandate ctx => [ctx.authority]

def ConfigInstruction.signers : ConfigInstruction → List Pubkey
  | .initConfig ctx => [ctx.admin]
  | .updateConfig ctx => [ctx.admin]
  | .pauseProtocol admin => [admin]
  | .unpauseProtocol admin => [admin]
  | .initKeeperConfig ctx => [ctx.admin]
  | .updateKeeperConfig ctx => [ctx.admin]
  | .initTokenConfig ctx => [ctx.admin]
  | .updateTokenConfig ctx => [ctx.admin]
  | .initWrappedMint ctx => [ctx.admin, ctx.wrappedUsdcMint]
  | .initMerchantCredential ctx => [ctx.merchant]
  | .initCompDef _ ctx => [ctx.payer]

def ProtocolInstruction.signers : ProtocolInstruction → List Pubkey
  | .billing i => i.signers
  | .streaming i => i.signers
  | .agent i => i.signers
  | .config i => i.signers
  | .wrap ctx => [ctx.subscriber]
  | .unwrapTokens ctx => [ctx.user]

inductive Coin where
  | token2022 | classic
  deriving DecidableEq, Repr

def World.held (w : World) : Coin → Pubkey → Option TokenAccount
  | .token2022 => w.tokenAccount
  | .classic => w.splTokenAccount

def World.holds (w : World) (coin : Coin) (address : Pubkey) : Nat :=
  ((w.held coin address).map fun account => account.amount.toNat).getD 0

inductive Custody where
  | mandate | stream | agentMandate
  deriving DecidableEq, Repr

def Seeds.custody : Seeds → Option Custody
  | .mandate .. | .legacyMandate .. => some .mandate
  | .stream .. => some .stream
  | .agentMandate .. => some .agentMandate
  | _ => none

def InCustody (P : Platform) (k : Pubkey) : Prop :=
  ∃ seeds, seeds.custody ≠ none ∧ (P.findProgramAddress seeds).1 = k

def World.stores (w : World) (k : Pubkey) : Custody → Prop
  | .mandate => (w.currentMandate k).isSome = true
  | .stream => (w.stream k).isSome = true
  | .agentMandate => (w.agentMandateAt k).isSome = true

/-- What other programs do: this program's accounts stay as they are, and a token account in
custody keeps its owner. -/
structure Outside (P : Platform) (w w' : World) : Prop where
  clock : w.clock.unixTimestamp ≤ w'.clock.unixTimestamp
  protocolConfig : w'.protocolConfig = w.protocolConfig
  merchantState : w'.merchantState = w.merchantState
  mandate : w'.mandate = w.mandate
  stream : w'.stream = w.stream
  agentMandate : w'.agentMandate = w.agentMandate
  log : w'.log = w.log
  custody : ∀ coin a account, w.held coin a = some account → InCustody P account.owner →
    ∃ after, w'.held coin a = some after ∧ after.owner = account.owner

inductive ProtocolAction where
  | instruction (i : ProtocolInstruction)
  | tick (clock : Clock)
  | outside

def ProtocolStep (P : Platform) (w : World) (a : ProtocolAction) (w' : World) : Prop :=
  match a with
  | .instruction i => executeProtocol P w i = .ok w'
  | .tick clock => w.clock.unixTimestamp ≤ clock.unixTimestamp ∧ w' = { w with clock := clock }
  | .outside => Outside P w w'

def applyProtocol (P : Platform) (w : World) : ProtocolAction → Option World
  | .instruction i => (executeProtocol P w i).toOption
  | .tick clock =>
    if w.clock.unixTimestamp ≤ clock.unixTimestamp then some { w with clock := clock } else none
  | .outside => none

theorem applyProtocol_step {P : Platform} {w w' : World} {a : ProtocolAction}
    (h : applyProtocol P w a = some w') : ProtocolStep P w a w' := by
  cases a with
  | instruction i => exact toOption_eq_some.mp h
  | tick clock =>
    simp only [applyProtocol, Option.ite_none_right_eq_some, Option.some.injEq] at h
    exact ⟨h.1, h.2.symm⟩
  | outside => cases h

def World.nextStreamSeeds (w : World) (subscriber merchant : Pubkey) : Option Seeds :=
  (w.merchantState merchant).map fun state =>
    .stream subscriber state.intoCurrent.merchant state.intoCurrent.streamMandateCounter

def ProtocolAction.opens (w : World) : ProtocolAction → Option Seeds
  | .instruction (.billing (.subscribe ctx)) =>
    some (w.nextMandateSeeds ctx.subscriber ctx.merchant)
  | .instruction (.billing (.migrateMandate ctx)) =>
    some (w.nextMandateSeeds ctx.subscriber ctx.merchant)
  | .instruction (.streaming (.createStreamMandate ctx)) =>
    w.nextStreamSeeds ctx.subscriber ctx.merchant
  | .instruction (.agent (.createAgentMandate ctx)) =>
    some (.agentMandate ctx.authority ctx.agent)
  | _ => none

def watchSeeds : Observe World ProtocolAction (List Seeds) := fun opened w a _ =>
  (a.opens w).toList ++ opened

/-- Nobody signs for a derived address, and the addresses derived so far do not collide. -/
def Lawful (P : Platform) (opened : List Seeds) (w : World) (a : ProtocolAction) (_ : World) :
    Prop :=
  (∀ i, a = .instruction i → ∀ key ∈ i.signers, ¬InCustody P key) ∧
  AddressesDiffer P (.mintAuthority :: ((a.opens w).toList ++ opened))

abbrev ProtocolRun (P : Platform) : World × List Seeds → World × List Seeds → Prop :=
  Run (ProtocolStep P) watchSeeds (Lawful P)

end VelaProtocol
