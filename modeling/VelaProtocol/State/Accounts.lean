import VelaProtocol.Lib.Checked

/-! Account contents, field by field as the source declares them.
Byte arrays are bit vectors read little-endian; codecs are not modelled here. -/
namespace VelaProtocol

abbrev Bytes (n : Nat) := BitVec (8 * n)

abbrev Pubkey := Bytes 32

def Pubkey.default : Pubkey := 0

def minFrequencySeconds : UInt64 := 3600
def pullApprovalTtlSeconds : Int64 := 3600
def maxSafeUsageUnits : UInt64 := 1000000000000
def maxSafeUsageRatePerUnit : UInt64 := 18446744073709551615 / maxSafeUsageUnits / 5
def maxSafeUsageCharge : UInt64 := maxSafeUsageUnits * maxSafeUsageRatePerUnit
def maxUsageComputationCiphertexts : Nat := 13
def legacyAccountVersion : UInt8 := 0
def currentAccountVersion : UInt8 := 1

def programId : Pubkey := 0x1e19898bd11624f380a658173bccc953057a92d5557eb71042737be22c8ab3aa

def transferHookProgramId : Pubkey :=
  0xa036229ca538adf1e781d0cbece85b547dc31653ce87843d5df026ae0b335826

inductive BillingType where
  | flat | usage
  deriving DecidableEq, Repr

inductive PlanStatus where
  | active | inactive
  deriving DecidableEq, Repr

structure VelaPlan where
  merchant : Pubkey
  planId : UInt64
  amount : UInt64
  frequency : UInt64
  trialPeriod : UInt64
  maxPulls : UInt64
  status : PlanStatus
  credentialMint : Pubkey
  billingMint : Pubkey
  bump : UInt8
  version : UInt8
  reserved : Bytes 32
  deriving DecidableEq

structure VelaPlanV1 where
  merchant : Pubkey
  planId : UInt64
  amount : UInt64
  frequency : UInt64
  trialPeriod : UInt64
  maxPulls : UInt64
  status : PlanStatus
  credentialMint : Pubkey
  bump : UInt8
  deriving DecidableEq

structure PricingTier where
  upTo : UInt64
  ratePerUnit : UInt64
  padding : UInt64
  deriving DecidableEq, Repr

def PricingTier.default : PricingTier := ⟨0, 0, 0⟩

structure UsagePlan where
  merchant : Pubkey
  planId : UInt64
  unitName : Bytes 32
  tiers : Vector PricingTier 5
  tierCount : UInt8
  maxChargePerPeriod : UInt64
  settlementFrequency : UInt64
  credentialMint : Pubkey
  billingMint : Pubkey
  status : PlanStatus
  bump : UInt8
  version : UInt8
  reserved : Bytes 32
  deriving DecidableEq

def UsagePlan.firstTier (plan : UsagePlan) : PricingTier := plan.tiers.get 0

structure UsagePlanV1 where
  merchant : Pubkey
  planId : UInt64
  unitName : Bytes 32
  tiers : Vector PricingTier 5
  tierCount : UInt8
  maxChargePerPeriod : UInt64
  settlementFrequency : UInt64
  credentialMint : Pubkey
  status : PlanStatus
  bump : UInt8
  deriving DecidableEq

def VelaPlan.size : Nat := 8 + 32 + 8 + 8 + 8 + 8 + 8 + 1 + 32 + 32 + 1 + 1 + 32
def UsagePlan.size : Nat := 8 + 32 + 8 + 32 + (24 * 5) + 1 + 8 + 8 + 32 + 32 + 1 + 1 + 1 + 32

inductive MandateStatus where
  | active | cancelled | expired
  deriving DecidableEq, Repr

structure VelaMandate where
  subscriber : Pubkey
  plan : Pubkey
  merchant : Pubkey
  amount : UInt64
  frequency : UInt64
  startDate : Int64
  expiry : Int64
  maxPulls : UInt64
  pullsExecuted : UInt64
  nextPaymentDue : Int64
  lastPullAt : Int64
  lastBillingRecordedPull : UInt64
  validationRequestNonce : UInt64
  billingRequestNonce : UInt64
  status : MandateStatus
  bump : UInt8
  billingType : BillingType
  mandateIndex : UInt64
  version : UInt8
  creditBalance : UInt64
  pendingNewPlan : Pubkey
  pendingEffectiveAt : Int64
  pendingChangeType : UInt8
  pendingNonceShort : Bytes 8
  reservedV3 : Bytes 7
  deriving DecidableEq

structure VelaMandateV1 where
  subscriber : Pubkey
  plan : Pubkey
  merchant : Pubkey
  amount : UInt64
  frequency : UInt64
  startDate : Int64
  expiry : Int64
  maxPulls : UInt64
  pullsExecuted : UInt64
  nextPaymentDue : Int64
  lastPullAt : Int64
  lastBillingRecordedPull : UInt64
  validationRequestNonce : UInt64
  billingRequestNonce : UInt64
  status : MandateStatus
  bump : UInt8
  billingType : BillingType
  deriving DecidableEq

def VelaMandate.size : Nat :=
  8 + 32 + 32 + 32 + (11 * 8) + 1 + 1 + 1 + 8 + 1 + 8 + 32 + 8 + 1 + 8 + 7

def VelaMandate.hasPendingChange (m : VelaMandate) : Bool := m.pendingChangeType != 0

def VelaMandate.clearPending (m : VelaMandate) : VelaMandate :=
  { m with
    pendingNewPlan := Pubkey.default
    pendingEffectiveAt := 0
    pendingChangeType := 0
    pendingNonceShort := 0
    reservedV3 := 0 }

structure PullApproval where
  mandate : Pubkey
  periodStart : Int64
  periodEnd : Int64
  validUntil : Int64
  approved : Bool
  approvedAmount : UInt64
  createdAt : Int64
  bump : UInt8
  deriving DecidableEq

/-- The cleared approval an in-flight request leaves behind. -/
def PullApproval.reset (bump : UInt8) : PullApproval :=
  ⟨Pubkey.default, 0, 0, 0, false, 0, 0, bump⟩

inductive ArciumRequestFlow where
  | validation | usageComputation | billingRecord
  deriving DecidableEq, Repr

inductive ArciumRequestStatus where
  | pending | completed | aborted
  deriving DecidableEq, Repr

structure ArciumRequestState where
  mandate : Pubkey
  flow : ArciumRequestFlow
  subject : Bytes 8
  computationOffset : UInt64
  requestNonce : UInt64
  status : ArciumRequestStatus
  createdAt : Int64
  completedAt : Int64
  bump : UInt8
  version : UInt8
  reserved : Bytes 32
  deriving DecidableEq

/-- A freshly allocated, zero-filled request account. -/
def ArciumRequestState.zeroed : ArciumRequestState :=
  ⟨Pubkey.default, .validation, 0, 0, 0, .pending, 0, 0, 0, 0, 0⟩

structure UsageReport where
  mandate : Pubkey
  merchant : Pubkey
  periodStart : Int64
  periodEnd : Int64
  computationCiphertext : Vector (Bytes 32) maxUsageComputationCiphertexts
  ciphertextCount : UInt8
  nonce : Bytes 16
  pubKey : Bytes 32
  settled : Bool
  createdAt : Int64
  bump : UInt8
  deriving DecidableEq

structure BillingEvent where
  mandate : Pubkey
  merchant : Pubkey
  subscriber : Pubkey
  planId : UInt64
  encryptedBlob : Vector (Bytes 32) 10
  nonce : Bytes 16
  createdAt : Int64
  bump : UInt8
  deriving DecidableEq

inductive ClusterType where
  | cerberus | manticore
  deriving DecidableEq, Repr

structure ProtocolConfig where
  admin : Pubkey
  clusterPubkey : Pubkey
  clusterType : ClusterType
  clusterOffset : UInt64
  wrappedUsdcMint : Pubkey
  wrappingVault : Pubkey
  paused : Bool
  pausedAt : Int64
  transferHookProgramId : Pubkey
  bump : UInt8
  version : UInt8
  mxeProgramId : Pubkey
  deriving DecidableEq

structure ProtocolConfigV1 where
  admin : Pubkey
  clusterPubkey : Pubkey
  clusterType : ClusterType
  clusterOffset : UInt64
  wrappedUsdcMint : Pubkey
  wrappingVault : Pubkey
  paused : Bool
  pausedAt : Int64
  bump : UInt8
  deriving DecidableEq

def ProtocolConfig.effectiveMxeProgramId (c : ProtocolConfig) : Pubkey :=
  if c.mxeProgramId = Pubkey.default then programId else c.mxeProgramId

inductive KeeperMode where
  | centralized | tukTuk
  deriving DecidableEq, Repr

structure KeeperConfig where
  admin : Pubkey
  mode : KeeperMode
  keeperEndpoint : Bytes 128
  endpointLen : UInt8
  keeperAuthority : Pubkey
  bump : UInt8
  version : UInt8
  reserved : Bytes 64
  deriving DecidableEq

structure KeeperConfigV1 where
  admin : Pubkey
  mode : KeeperMode
  keeperEndpoint : Bytes 128
  endpointLen : UInt8
  keeperAuthority : Pubkey
  bump : UInt8
  deriving DecidableEq

inductive BillingRail where
  | transferHook | tokenDelegate
  deriving DecidableEq, Repr

structure TokenConfig where
  mint : Pubkey
  tokenProgram : Pubkey
  billingRail : BillingRail
  decimals : UInt8
  enabled : Bool
  oracleReference : Pubkey
  admin : Pubkey
  createdAt : Int64
  bump : UInt8
  version : UInt8
  reserved : Bytes 64
  deriving DecidableEq

structure MerchantState where
  merchant : Pubkey
  planCount : UInt64
  bump : UInt8
  credentialMint : Pubkey
  mandateCounter : UInt64
  streamMandateCounter : UInt64
  version : UInt8
  reserved : Bytes 56
  deriving DecidableEq

structure MerchantStateV1 where
  merchant : Pubkey
  planCount : UInt64
  bump : UInt8
  deriving DecidableEq

inductive StreamStatus where
  | active | paused | cancelled
  deriving DecidableEq, Repr

structure StreamMandate where
  version : UInt8
  subscriber : Pubkey
  merchant : Pubkey
  mint : Pubkey
  ratePerSecond : UInt64
  authorizedMaxRate : UInt64
  lastSettledTs : Int64
  totalStreamed : UInt64
  maxStreamed : Option UInt64
  pausedAt : Option Int64
  minSettleInterval : UInt32
  status : StreamStatus
  mandateIndex : UInt64
  bump : UInt8
  pendingNewRatePerSecond : UInt64
  pendingNewAuthorizedMaxRate : UInt64
  pendingEffectiveAt : Int64
  pendingChangeType : UInt8
  pendingNonceShort : Bytes 8
  reservedV2 : Bytes 23
  deriving DecidableEq

structure ServiceLimit where
  service : Pubkey
  dailyLimit : UInt64
  dailySpent : UInt64
  lastReset : Int64
  deriving DecidableEq

inductive AgentMandateStatus where
  | active | paused | revoked
  deriving DecidableEq, Repr

structure AgentMandate where
  authority : Pubkey
  agent : Pubkey
  dailyLimit : UInt64
  dailySpent : UInt64
  dailyLastReset : Int64
  lifetimeCap : UInt64
  totalSpent : UInt64
  minPullAmount : UInt64
  minPullInterval : Int64
  lastPullAt : Int64
  status : AgentMandateStatus
  services : List ServiceLimit
  bump : UInt8
  version : UInt8
  reserved : Bytes 64
  deriving DecidableEq

structure AgentMandateV1 where
  authority : Pubkey
  agent : Pubkey
  dailyLimit : UInt64
  dailySpent : UInt64
  dailyLastReset : Int64
  lifetimeCap : UInt64
  totalSpent : UInt64
  minPullAmount : UInt64
  minPullInterval : Int64
  lastPullAt : Int64
  status : AgentMandateStatus
  services : List ServiceLimit
  bump : UInt8
  deriving DecidableEq

end VelaProtocol
