import Mathlib.Logic.Function.Basic
import VelaProtocol.Lib.Precise
import VelaProtocol.State.Events

/-! The ledger the instructions act on, and the host platform under them.
An account pinned by its seeds is stored under these seeds; plans, mandates, streams and
token accounts are passed by address and stored by address. Lamports are not modelled. -/
namespace VelaProtocol

inductive OffsetDomain where
  | validateMandate | usage | recordBillingEvent
  deriving DecidableEq, Repr

inductive Circuit where
  | validateMandate | usageCharge | tieredPricing | recordBillingEvent
  deriving DecidableEq, Repr

/-- The seed lists the program derives addresses from, one constructor per list. -/
inductive Seeds where
  | mandate (subscriber merchant : Pubkey) (mandateIndex : UInt64)
  | legacyMandate (subscriber plan : Pubkey)
  | plan (merchant : Pubkey) (planId : UInt64)
  | usagePlan (merchant : Pubkey) (planId : UInt64)
  | merchant (merchant : Pubkey)
  | stream (subscriber merchant : Pubkey) (mandateIndex : UInt64)
  | agentMandate (authority agent : Pubkey)
  | mintAuthority
  | approval (mandate : Pubkey)
  | usageReport (mandate : Pubkey) (periodStart : Int64)
  | arciumRequest (flow : ArciumRequestFlow) (mandate : Pubkey) (subject : Bytes 8)
  | billingEvent (mandate : Pubkey) (pullsExecuted : UInt64)
  | merchantCredential (merchant : Pubkey)
  | credential (merchant : Pubkey) (planId : UInt64)
  | usageCredential (merchant : Pubkey) (planId : UInt64)
  | associatedToken (owner mint : Pubkey)
  | requestOffset (domain : OffsetDomain) (mandate : Pubkey) (subject nonce : Bytes 8)
  | cluster (clusterId : UInt32)
  | mempool (clusterId : UInt32)
  | execpool (clusterId : UInt32)
  | computation (clusterId : UInt32) (computationOffset : UInt64)
  | compDef (circuit : Circuit) (mxeProgramId : Pubkey)
  | mxe (mxeProgramId : Pubkey)
  deriving DecidableEq

structure UsageTerms where
  planKey : Pubkey
  merchant : Pubkey
  planId : UInt64
  tierCount : UInt8
  maxChargePerPeriod : UInt64
  settlementFrequency : UInt64
  tiers : Vector (UInt64 × UInt64) 5
  deriving DecidableEq

/-- What the runtime and other programs supply. Address derivation is deterministic, and the
bump it returns recreates the address; nothing is assumed about collisions. -/
structure Platform where
  findProgramAddress : Seeds → Pubkey × UInt8
  createProgramAddress : Seeds → UInt8 → Option Pubkey
  create_find : ∀ seeds,
    createProgramAddress seeds (findProgramAddress seeds).2 = some (findProgramAddress seeds).1
  hash : UsageTerms → Bytes 32
  precise : Precise.Arithmetic
  arciumFeePool : Pubkey
  arciumClock : Pubkey
  /-- Verdict of a transfer hook other than the protocol's own. -/
  foreignHook : Pubkey → Bool

def AddressesDiffer (P : Platform) (opened : List Seeds) : Prop :=
  ∀ x ∈ opened, ∀ y ∈ opened, (P.findProgramAddress x).1 = (P.findProgramAddress y).1 → x = y

inductive LoadedPlanAccount where
  | flat (plan : VelaPlan)
  | usage (plan : UsagePlan)
  | legacyFlat (plan : VelaPlanV1)
  | legacyUsage (plan : UsagePlanV1)
  deriving DecidableEq

structure PlanAccount where
  contents : LoadedPlanAccount
  dataLen : Nat
  deriving DecidableEq

inductive LoadedMandateAccount where
  | current (mandate : VelaMandate)
  | legacy (mandate : VelaMandateV1)
  deriving DecidableEq

structure MandateAccount where
  contents : LoadedMandateAccount
  dataLen : Nat
  deriving DecidableEq

inductive LoadedAgentMandate where
  | legacy (mandate : AgentMandateV1)
  | current (mandate : AgentMandate)
  deriving DecidableEq

structure AgentMandateAccount where
  contents : LoadedAgentMandate
  dataLen : Nat
  deriving DecidableEq

inductive LoadedProtocolConfig where
  | legacy (config : ProtocolConfigV1)
  | current (config : ProtocolConfig)
  deriving DecidableEq

inductive LoadedKeeperConfig where
  | legacy (config : KeeperConfigV1)
  | current (config : KeeperConfig)
  deriving DecidableEq

inductive LoadedMerchantState where
  | legacy (state : MerchantStateV1)
  | current (state : MerchantState)
  deriving DecidableEq

/-- A Token-2022 mint with the extensions the program sets. -/
structure Mint where
  decimals : UInt8
  supply : UInt64
  mintAuthority : Option Pubkey
  permanentDelegate : Option Pubkey
  nonTransferable : Bool
  transferHookProgramId : Option Pubkey
  deriving DecidableEq

structure TokenAccount where
  mint : Pubkey
  owner : Pubkey
  amount : UInt64
  deriving DecidableEq

structure TokenTransfer where
  mint : Pubkey
  source : Pubkey
  destination : Pubkey
  authority : Pubkey
  amount : UInt64
  deriving DecidableEq

structure MandateUpgradeInitiated where
  schemaVersion : UInt8
  mandate : Pubkey
  mint : Pubkey
  tokenSymbol : String
  oldPlan : Pubkey
  newPlan : Pubkey
  prorationAmount : Int64
  changeType : UInt8
  signer : Pubkey
  appliedAt : Int64
  timestamp : Int64
  deriving DecidableEq

structure MandateUpgradeFinalized where
  schemaVersion : UInt8
  mandate : Pubkey
  mint : Pubkey
  tokenSymbol : String
  oldPlan : Pubkey
  newPlan : Pubkey
  prorationAmount : Int64
  changeType : UInt8
  appliedAt : Int64
  timestamp : Int64
  deriving DecidableEq

structure MandateUpgradeCancelled where
  schemaVersion : UInt8
  mandate : Pubkey
  mint : Pubkey
  tokenSymbol : String
  oldPlan : Pubkey
  newPlan : Pubkey
  prorationAmount : Int64
  changeType : UInt8
  signer : Pubkey
  appliedAt : Int64
  timestamp : Int64
  deriving DecidableEq

structure MandateCreditAdded where
  schemaVersion : UInt8
  mandate : Pubkey
  mint : Pubkey
  tokenSymbol : String
  oldPlan : Pubkey
  newPlan : Pubkey
  creditAmount : UInt64
  newCreditBalance : UInt64
  appliedAt : Int64
  timestamp : Int64
  deriving DecidableEq

structure PlanUpdated where
  plan : Pubkey
  merchant : Pubkey
  planId : UInt64
  oldAmount : UInt64
  newAmount : UInt64
  oldFrequency : UInt64
  newFrequency : UInt64
  oldTrialPeriod : UInt64
  newTrialPeriod : UInt64
  oldMaxPulls : UInt64
  newMaxPulls : UInt64
  deriving DecidableEq

structure UsagePlanUpdated where
  plan : Pubkey
  merchant : Pubkey
  planId : UInt64
  oldMaxChargePerPeriod : UInt64
  newMaxChargePerPeriod : UInt64
  oldSettlementFrequency : UInt64
  newSettlementFrequency : UInt64
  oldTierCount : UInt8
  newTierCount : UInt8
  deriving DecidableEq

structure ValidationCompleteEvent where
  mandate : Pubkey
  approved : Bool
  timestamp : Int64
  deriving DecidableEq

structure UsageComputationCompleteEvent where
  mandate : Pubkey
  approvedAmount : UInt64
  timestamp : Int64
  deriving DecidableEq

structure BillingEventCreatedEvent where
  mandate : Pubkey
  merchant : Pubkey
  subscriber : Pubkey
  pullsExecuted : UInt64
  timestamp : Int64
  deriving DecidableEq

inductive ComputationArgs where
  | validateMandate (pubKey : Bytes 32) (nonce : Bytes 16) (ciphertext : List (Bytes 32))
  | usageCharge (pubKey : Bytes 32) (nonce : Bytes 16) (units : Bytes 32)
      (ratePerUnit maxCharge : UInt64)
  | tieredPricing (pubKey : Bytes 32) (nonce : Bytes 16) (units : Bytes 32)
      (upTo rates : Vector UInt64 5) (tierCount : UInt8) (maxCharge : UInt64)
  | recordBillingEvent (amountCharged : UInt64) (timestamp : Int64) (pullsExecuted : UInt64)
      (periodStart periodEnd : Int64) (paymentMethod : UInt64)
  deriving DecidableEq

structure QueuedComputation where
  mandate : Pubkey
  computationOffset : UInt64
  circuit : Circuit
  args : ComputationArgs
  deriving DecidableEq

inductive LogEntry where
  | transfer (t : TokenTransfer)
  | mandateUpgradeInitiated (e : MandateUpgradeInitiated)
  | mandateUpgradeFinalized (e : MandateUpgradeFinalized)
  | mandateUpgradeCancelled (e : MandateUpgradeCancelled)
  | mandateCreditAdded (e : MandateCreditAdded)
  | planUpdated (e : PlanUpdated)
  | usagePlanUpdated (e : UsagePlanUpdated)
  | validationComplete (e : ValidationCompleteEvent)
  | usageComputationComplete (e : UsageComputationCompleteEvent)
  | billingEventCreated (e : BillingEventCreatedEvent)
  | queueComputation (q : QueuedComputation)
  | stream (e : StreamEvent)
  | agent (e : AgentEvent)
  | config (e : ConfigEvent)
  deriving DecidableEq

structure Clock where
  unixTimestamp : Int64
  slot : UInt64
  deriving DecidableEq

structure World where
  clock : Clock
  protocolConfig : Option LoadedProtocolConfig
  keeperConfig : Option LoadedKeeperConfig
  /-- keyed by merchant -/
  merchantState : Pubkey → Option LoadedMerchantState
  /-- keyed by mint -/
  tokenConfig : Pubkey → Option TokenConfig
  mint : Pubkey → Option Mint
  tokenAccount : Pubkey → Option TokenAccount
  /-- decimals of the classic SPL mints -/
  splMint : Pubkey → Option UInt8
  /-- classic SPL token accounts, among them the wrapping vault -/
  splTokenAccount : Pubkey → Option TokenAccount
  plan : Pubkey → Option PlanAccount
  mandate : Pubkey → Option MandateAccount
  stream : Pubkey → Option StreamMandate
  agentMandate : Pubkey → Option AgentMandateAccount
  /-- keyed by mandate -/
  pullApproval : Pubkey → Option PullApproval
  /-- keyed by flow, mandate and subject -/
  requestState : ArciumRequestFlow × Pubkey × Bytes 8 → Option ArciumRequestState
  /-- keyed by mandate and period start -/
  usageReport : Pubkey × Int64 → Option UsageReport
  /-- keyed by mandate and pull number -/
  billingEvent : Pubkey × UInt64 → Option BillingEvent
  /-- newest entry first -/
  log : List LogEntry

def World.emit (w : World) (e : LogEntry) : World := { w with log := e :: w.log }

def World.dataIsEmpty (w : World) (address : Pubkey) : Bool :=
  (w.mandate address).isNone && (w.plan address).isNone && (w.stream address).isNone &&
    (w.agentMandate address).isNone && (w.tokenAccount address).isNone &&
    (w.mint address).isNone && (w.splTokenAccount address).isNone &&
    (w.splMint address).isNone

structure Vacant (w : World) (address : Pubkey) : Prop where
  mandate : w.mandate address = none
  plan : w.plan address = none
  stream : w.stream address = none
  agentMandate : w.agentMandate address = none
  tokenAccount : w.tokenAccount address = none
  mint : w.mint address = none
  splTokenAccount : w.splTokenAccount address = none
  splMint : w.splMint address = none

theorem dataIsEmpty_vacant {w : World} {address : Pubkey} (empty : w.dataIsEmpty address = true) :
    Vacant w address := by
  simp only [World.dataIsEmpty, Bool.and_eq_true, Option.isNone_iff_eq_none] at empty
  obtain ⟨⟨⟨⟨⟨⟨⟨mandate, plan⟩, stream⟩, agent⟩, token⟩, mint⟩, splToken⟩, splMint⟩ := empty
  exact ⟨mandate, plan, stream, agent, token, mint, splToken, splMint⟩

def eventTokenSymbol (mint wrappedUsdcMint : Pubkey) : String :=
  if mint = wrappedUsdcMint then "sUSDC" else ""

def LogEntry.transferBy (authority : Pubkey) : LogEntry → Option TokenTransfer
  | .transfer t => if t.authority = authority then some t else none
  | _ => none

def LogEntry.creditTo (mandate : Pubkey) : LogEntry → Option MandateCreditAdded
  | .mandateCreditAdded e => if e.mandate = mandate then some e else none
  | _ => none

def World.transfersBy (w : World) (mandate : Pubkey) : List TokenTransfer :=
  w.log.filterMap (LogEntry.transferBy mandate)

def World.creditsTo (w : World) (mandate : Pubkey) : List MandateCreditAdded :=
  w.log.filterMap (LogEntry.creditTo mandate)

def World.transferred (w : World) (mandate : Pubkey) : Nat :=
  ((w.transfersBy mandate).map fun t => t.amount.toNat).sum

def World.credited (w : World) (mandate : Pubkey) : Nat :=
  ((w.creditsTo mandate).map fun e => e.creditAmount.toNat).sum

theorem transfersBy_of_transfer {w w' : World} {t : TokenTransfer} (mandate : Pubkey)
    (log : w'.log = .transfer t :: w.log) :
    w'.transfersBy mandate =
      if t.authority = mandate then t :: w.transfersBy mandate else w.transfersBy mandate := by
  rw [World.transfersBy, log]
  by_cases same : t.authority = mandate <;>
    simp [World.transfersBy, LogEntry.transferBy, same]

theorem creditsTo_of_transfer {w w' : World} {t : TokenTransfer} (mandate : Pubkey)
    (log : w'.log = .transfer t :: w.log) : w'.creditsTo mandate = w.creditsTo mandate := by
  rw [World.creditsTo, log]
  rfl

theorem creditsTo_emit_credit (w : World) (e : MandateCreditAdded) (mandate : Pubkey) :
    (w.emit (.mandateCreditAdded e)).creditsTo mandate =
      if e.mandate = mandate then e :: w.creditsTo mandate else w.creditsTo mandate := by
  by_cases same : e.mandate = mandate <;>
    simp [World.creditsTo, World.emit, LogEntry.creditTo, same]

/-- Two worlds whose logs say the same about every mandate's money. -/
structure SameMoney (w w' : World) : Prop where
  transfersBy : ∀ mandate, w'.transfersBy mandate = w.transfersBy mandate
  creditsTo : ∀ mandate, w'.creditsTo mandate = w.creditsTo mandate

theorem SameMoney.of_log {w w' : World} (log : w'.log = w.log) : SameMoney w w' :=
  ⟨fun _ => by rw [World.transfersBy, World.transfersBy, log],
    fun _ => by rw [World.creditsTo, World.creditsTo, log]⟩

theorem SameMoney.trans {w₁ w₂ w₃ : World} (first : SameMoney w₁ w₂) (second : SameMoney w₂ w₃) :
    SameMoney w₁ w₃ :=
  ⟨fun k => (second.transfersBy k).trans (first.transfersBy k),
    fun k => (second.creditsTo k).trans (first.creditsTo k)⟩

def LogEntry.neutral : LogEntry → Bool
  | .transfer _ => false
  | .mandateCreditAdded _ => false
  | _ => true

theorem SameMoney.of_entry {w w' : World} {e : LogEntry} (log : w'.log = e :: w.log)
    (neutral : e.neutral = true) : SameMoney w w' := by
  refine ⟨fun k => ?_, fun k => ?_⟩
  · rw [World.transfersBy, log]
    cases e <;> first | rfl | cases neutral
  · rw [World.creditsTo, log]
    cases e <;> first | rfl | cases neutral

end VelaProtocol
