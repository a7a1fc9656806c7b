import VelaProtocol.Lib.Codec
import VelaProtocol.State.World

/-! The bytes of the accounts the transfer hook reads: a discriminator, then the fields in order.
`try_deserialize` ignores what follows them. -/
namespace VelaProtocol

structure AccountInfo where
  key : Pubkey
  owner : Pubkey
  data : List UInt8
  deriving DecidableEq

def AccountInfo.dataIsEmpty (info : AccountInfo) : Bool := info.data.isEmpty

namespace Layout

def bytes (n : Nat) : Codec (Bytes n) := Codec.word n

def pubkey : Codec Pubkey := bytes 32

def clusterType : Codec ClusterType :=
  Codec.variant (fun b => if b = 0 then some .cerberus else if b = 1 then some .manticore else none)
    (fun | .cerberus => 0 | .manticore => 1) (by rintro ⟨⟩ <;> rfl)

def billingRail : Codec BillingRail :=
  Codec.variant
    (fun b => if b = 0 then some .transferHook else if b = 1 then some .tokenDelegate else none)
    (fun | .transferHook => 0 | .tokenDelegate => 1) (by rintro ⟨⟩ <;> rfl)

def billingType : Codec BillingType :=
  Codec.variant (fun b => if b = 0 then some .flat else if b = 1 then some .usage else none)
    (fun | .flat => 0 | .usage => 1) (by rintro ⟨⟩ <;> rfl)

def mandateStatus : Codec MandateStatus :=
  Codec.variant
    (fun b => if b = 0 then some .active else if b = 1 then some .cancelled
      else if b = 2 then some .expired else none)
    (fun | .active => 0 | .cancelled => 1 | .expired => 2) (by rintro ⟨⟩ <;> rfl)

def streamStatus : Codec StreamStatus :=
  Codec.variant
    (fun b => if b = 0 then some .active else if b = 1 then some .paused
      else if b = 2 then some .cancelled else none)
    (fun | .active => 0 | .paused => 1 | .cancelled => 2) (by rintro ⟨⟩ <;> rfl)

def ProtocolConfig.discriminator : List UInt8 := [207, 91, 250, 28, 152, 179, 215, 209]
def TokenConfig.discriminator : List UInt8 := [92, 73, 255, 43, 107, 51, 117, 101]
def StreamMandate.discriminator : List UInt8 := [145, 238, 151, 102, 199, 201, 5, 164]
def VelaMandate.discriminator : List UInt8 := [254, 125, 146, 195, 217, 231, 108, 200]
def PullApproval.discriminator : List UInt8 := [34, 113, 33, 28, 209, 134, 64, 93]

def protocolConfig : Codec ProtocolConfig :=
  (pubkey.pair <| pubkey.pair <| clusterType.pair <| Codec.u64.pair <| pubkey.pair <|
    pubkey.pair <| Codec.bool.pair <| Codec.i64.pair <| pubkey.pair <| Codec.byte.pair <|
    Codec.byte.pair pubkey).iso
    (fun ⟨admin, clusterPubkey, clusterType, clusterOffset, wrappedUsdcMint, wrappingVault, paused,
      pausedAt, transferHookProgramId, bump, version, mxeProgramId⟩ =>
      ⟨admin, clusterPubkey, clusterType, clusterOffset, wrappedUsdcMint, wrappingVault, paused,
        pausedAt, transferHookProgramId, bump, version, mxeProgramId⟩)
    (fun c => ⟨c.admin, c.clusterPubkey, c.clusterType, c.clusterOffset, c.wrappedUsdcMint,
      c.wrappingVault, c.paused, c.pausedAt, c.transferHookProgramId, c.bump, c.version,
      c.mxeProgramId⟩)
    fun _ => rfl

def tokenConfig : Codec TokenConfig :=
  (pubkey.pair <| pubkey.pair <| billingRail.pair <| Codec.byte.pair <| Codec.bool.pair <|
    pubkey.pair <| pubkey.pair <| Codec.i64.pair <| Codec.byte.pair <| Codec.byte.pair
    (bytes 64)).iso
    (fun ⟨mint, tokenProgram, billingRail, decimals, enabled, oracleReference, admin, createdAt,
      bump, version, reserved⟩ =>
      ⟨mint, tokenProgram, billingRail, decimals, enabled, oracleReference, admin, createdAt, bump,
        version, reserved⟩)
    (fun c => ⟨c.mint, c.tokenProgram, c.billingRail, c.decimals, c.enabled, c.oracleReference,
      c.admin, c.createdAt, c.bump, c.version, c.reserved⟩)
    fun _ => rfl

def streamMandate : Codec StreamMandate :=
  (Codec.byte.pair <| pubkey.pair <| pubkey.pair <| pubkey.pair <| Codec.u64.pair <|
    Codec.u64.pair <| Codec.i64.pair <| Codec.u64.pair <| Codec.u64.option.pair <|
    Codec.i64.option.pair <| Codec.u32.pair <| streamStatus.pair <| Codec.u64.pair <|
    Codec.byte.pair <| Codec.u64.pair <| Codec.u64.pair <| Codec.i64.pair <| Codec.byte.pair <|
    (bytes 8).pair (bytes 23)).iso
    (fun ⟨version, subscriber, merchant, mint, ratePerSecond, authorizedMaxRate, lastSettledTs,
      totalStreamed, maxStreamed, pausedAt, minSettleInterval, status, mandateIndex, bump,
      pendingNewRatePerSecond, pendingNewAuthorizedMaxRate, pendingEffectiveAt, pendingChangeType,
      pendingNonceShort, reservedV2⟩ =>
      ⟨version, subscriber, merchant, mint, ratePerSecond, authorizedMaxRate, lastSettledTs,
        totalStreamed, maxStreamed, pausedAt, minSettleInterval, status, mandateIndex, bump,
        pendingNewRatePerSecond, pendingNewAuthorizedMaxRate, pendingEffectiveAt,
        pendingChangeType, pendingNonceShort, reservedV2⟩)
    (fun s => ⟨s.version, s.subscriber, s.merchant, s.mint, s.ratePerSecond, s.authorizedMaxRate,
      s.lastSettledTs, s.totalStreamed, s.maxStreamed, s.pausedAt, s.minSettleInterval, s.status,
      s.mandateIndex, s.bump, s.pendingNewRatePerSecond, s.pendingNewAuthorizedMaxRate,
      s.pendingEffectiveAt, s.pendingChangeType, s.pendingNonceShort, s.reservedV2⟩)
    fun _ => rfl

def velaMandate : Codec VelaMandate :=
  (pubkey.pair <| pubkey.pair <| pubkey.pair <| Codec.u64.pair <| Codec.u64.pair <|
    Codec.i64.pair <| Codec.i64.pair <| Codec.u64.pair <| Codec.u64.pair <| Codec.i64.pair <|
    Codec.i64.pair <| Codec.u64.pair <| Codec.u64.pair <| Codec.u64.pair <| mandateStatus.pair <|
    Codec.byte.pair <| billingType.pair <| Codec.u64.pair <| Codec.byte.pair <| Codec.u64.pair <|
    pubkey.pair <| Codec.i64.pair <| Codec.byte.pair <| (bytes 8).pair (bytes 7)).iso
    (fun ⟨subscriber, plan, merchant, amount, frequency, startDate, expiry, maxPulls,
      pullsExecuted, nextPaymentDue, lastPullAt, lastBillingRecordedPull, validationRequestNonce,
      billingRequestNonce, status, bump, billingType, mandateIndex, version, creditBalance,
      pendingNewPlan, pendingEffectiveAt, pendingChangeType, pendingNonceShort, reservedV3⟩ =>
      ⟨subscriber, plan, merchant, amount, frequency, startDate, expiry, maxPulls, pullsExecuted,
        nextPaymentDue, lastPullAt, lastBillingRecordedPull, validationRequestNonce,
        billingRequestNonce, status, bump, billingType, mandateIndex, version, creditBalance,
        pendingNewPlan, pendingEffectiveAt, pendingChangeType, pendingNonceShort, reservedV3⟩)
    (fun m => ⟨m.subscriber, m.plan, m.merchant, m.amount, m.frequency, m.startDate, m.expiry,
      m.maxPulls, m.pullsExecuted, m.nextPaymentDue, m.lastPullAt, m.lastBillingRecordedPull,
      m.validationRequestNonce, m.billingRequestNonce, m.status, m.bump, m.billingType,
      m.mandateIndex, m.version, m.creditBalance, m.pendingNewPlan, m.pendingEffectiveAt,
      m.pendingChangeType, m.pendingNonceShort, m.reservedV3⟩)
    fun _ => rfl

def pullApproval : Codec PullApproval :=
  (pubkey.pair <| Codec.i64.pair <| Codec.i64.pair <| Codec.i64.pair <| Codec.bool.pair <|
    Codec.u64.pair <| Codec.i64.pair Codec.byte).iso
    (fun ⟨mandate, periodStart, periodEnd, validUntil, approved, approvedAmount, createdAt, bump⟩ =>
      ⟨mandate, periodStart, periodEnd, validUntil, approved, approvedAmount, createdAt, bump⟩)
    (fun a => ⟨a.mandate, a.periodStart, a.periodEnd, a.validUntil, a.approved, a.approvedAmount,
      a.createdAt, a.bump⟩)
    fun _ => rfl

def protocolConfigAccount : Codec ProtocolConfig :=
  protocolConfig.tagged ProtocolConfig.discriminator

def tokenConfigAccount : Codec TokenConfig := tokenConfig.tagged TokenConfig.discriminator

def streamMandateAccount : Codec StreamMandate := streamMandate.tagged StreamMandate.discriminator

def velaMandateAccount : Codec VelaMandate := velaMandate.tagged VelaMandate.discriminator

def pullApprovalAccount : Codec PullApproval := pullApproval.tagged PullApproval.discriminator

end Layout

end VelaProtocol
