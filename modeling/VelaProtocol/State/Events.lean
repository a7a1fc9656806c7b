import VelaProtocol.State.Accounts

/-! Events of the streaming, agent and configuration instructions. -/
namespace VelaProtocol

structure StreamCreated where
  schemaVersion : UInt8
  mandate : Pubkey
  subscriber : Pubkey
  merchant : Pubkey
  mint : Pubkey
  tokenSymbol : String
  ratePerSecond : UInt64
  authorizedMaxRate : UInt64
  maxStreamed : Option UInt64
  minSettleInterval : UInt32
  timestamp : Int64
  deriving DecidableEq

structure StreamSettled where
  schemaVersion : UInt8
  mandate : Pubkey
  mint : Pubkey
  tokenSymbol : String
  amount : UInt64
  totalStreamedAfter : UInt64
  lastSettledTs : Int64
  timestamp : Int64
  deriving DecidableEq

structure StreamPaused where
  schemaVersion : UInt8
  mandate : Pubkey
  mint : Pubkey
  tokenSymbol : String
  pausedAt : Int64
  signer : Pubkey
  finalSettleAmount : UInt64
  timestamp : Int64
  deriving DecidableEq

structure StreamResumed where
  schemaVersion : UInt8
  mandate : Pubkey
  mint : Pubkey
  tokenSymbol : String
  resumedAt : Int64
  pauseDurationSecs : UInt64
  signer : Pubkey
  timestamp : Int64
  deriving DecidableEq

structure StreamRateUpdated where
  schemaVersion : UInt8
  mandate : Pubkey
  mint : Pubkey
  tokenSymbol : String
  oldRatePerSecond : UInt64
  newRatePerSecond : UInt64
  oldAuthorizedMaxRate : UInt64
  newAuthorizedMaxRate : UInt64
  signer : Pubkey
  finalSettleAmount : UInt64
  timestamp : Int64
  deriving DecidableEq

structure StreamCancelled where
  schemaVersion : UInt8
  mandate : Pubkey
  mint : Pubkey
  tokenSymbol : String
  cancelledAt : Int64
  signer : Pubkey
  finalSettleAmount : UInt64
  totalStreamedFinal : UInt64
  timestamp : Int64
  deriving DecidableEq

inductive StreamEvent where
  | created (e : StreamCreated)
  | settled (e : StreamSettled)
  | paused (e : StreamPaused)
  | resumed (e : StreamResumed)
  | rateUpdated (e : StreamRateUpdated)
  | cancelled (e : StreamCancelled)
  deriving DecidableEq

structure AgentMandateCreated where
  mandate : Pubkey
  authority : Pubkey
  agent : Pubkey
  dailyLimit : UInt64
  lifetimeCap : UInt64
  serviceCount : UInt8
  fundedAmount : UInt64
  remainingBalance : UInt64
  deriving DecidableEq

structure AgentPullExecuted where
  mandate : Pubkey
  authority : Pubkey
  agent : Pubkey
  service : Pubkey
  amount : UInt64
  dailySpent : UInt64
  totalSpent : UInt64
  remainingBalance : UInt64
  deriving DecidableEq

structure AgentMandateAdjusted where
  mandate : Pubkey
  authority : Pubkey
  agent : Pubkey
  dailyLimit : UInt64
  lifetimeCap : UInt64
  minPullAmount : UInt64
  minPullInterval : Int64
  dailySpent : UInt64
  totalSpent : UInt64
  remainingBalance : UInt64
  deriving DecidableEq

/-- The fields `AgentMandatePaused` and `AgentMandateResumed` have in common, which is all. -/
structure AgentMandateSpending where
  mandate : Pubkey
  authority : Pubkey
  agent : Pubkey
  dailySpent : UInt64
  totalSpent : UInt64
  deriving DecidableEq

structure AgentMandateDrained where
  mandate : Pubkey
  authority : Pubkey
  agent : Pubkey
  status : AgentMandateStatus
  dailySpent : UInt64
  totalSpent : UInt64
  remainingBalance : UInt64
  deriving DecidableEq

structure AgentMandateRevoked where
  mandate : Pubkey
  authority : Pubkey
  agent : Pubkey
  dailySpent : UInt64
  totalSpent : UInt64
  remainingBalance : UInt64
  deriving DecidableEq

inductive AgentEvent where
  | created (e : AgentMandateCreated)
  | pullExecuted (e : AgentPullExecuted)
  | adjusted (e : AgentMandateAdjusted)
  | paused (e : AgentMandateSpending)
  | resumed (e : AgentMandateSpending)
  | drained (e : AgentMandateDrained)
  | revoked (e : AgentMandateRevoked)
  deriving DecidableEq

structure TokenConfigCreated where
  mint : Pubkey
  billingRail : BillingRail
  decimals : UInt8
  admin : Pubkey
  deriving DecidableEq

structure TokenConfigUpdated where
  mint : Pubkey
  enabled : Option Bool
  oracleReference : Option Pubkey
  deriving DecidableEq

structure KeeperConfigEvent where
  admin : Pubkey
  mode : KeeperMode
  keeperAuthority : Pubkey
  deriving DecidableEq

inductive ConfigEvent where
  | tokenConfigCreated (e : TokenConfigCreated)
  | tokenConfigUpdated (e : TokenConfigUpdated)
  | keeperConfigInitialized (e : KeeperConfigEvent)
  | keeperConfigUpdated (e : KeeperConfigEvent)
  deriving DecidableEq

end VelaProtocol
