import VelaProtocol.Accounts.Mandate
import VelaProtocol.Accounts.Plan
import VelaProtocol.Lib.Layered
import VelaProtocol.State.Layout

/-! The bytes of the accounts the program keeps in two layouts.
A current layout may put new fields before old ones; its version always lies behind the legacy
bytes. -/
namespace VelaProtocol

open Codec

/-- A mandate whose services have a length that fits the four bytes in front of them. -/
abbrev AgentMandate.Storable := {m : AgentMandate // m.services.length < 2 ^ 32}

abbrev AgentMandateV1.Storable := {m : AgentMandateV1 // m.services.length < 2 ^ 32}

namespace Layout

def planStatus : Codec PlanStatus :=
  Codec.variant (fun b => if b = 0 then some .active else if b = 1 then some .inactive else none)
    (fun | .active => 0 | .inactive => 1) (by rintro ⟨⟩ <;> rfl)

def keeperMode : Codec KeeperMode :=
  Codec.variant (fun b => if b = 0 then some .centralized else if b = 1 then some .tukTuk else none)
    (fun | .centralized => 0 | .tukTuk => 1) (by rintro ⟨⟩ <;> rfl)

def agentMandateStatus : Codec AgentMandateStatus :=
  Codec.variant
    (fun b => if b = 0 then some .active else if b = 1 then some .paused
      else if b = 2 then some .revoked else none)
    (fun | .active => 0 | .paused => 1 | .revoked => 2) (by rintro ⟨⟩ <;> rfl)

def VelaPlan.discriminator : List UInt8 := [141, 112, 118, 132, 18, 188, 112, 68]
def UsagePlan.discriminator : List UInt8 := [207, 158, 202, 192, 217, 13, 235, 214]
def AgentMandate.discriminator : List UInt8 := [31, 231, 224, 237, 201, 149, 38, 235]
def KeeperConfig.discriminator : List UInt8 := [77, 240, 250, 22, 132, 135, 162, 101]
def UsageReport.discriminator : List UInt8 := [134, 41, 8, 129, 151, 233, 78, 124]

def velaMandateV1 : Codec VelaMandateV1 :=
  (pubkey.pair <| pubkey.pair <| pubkey.pair <| Codec.u64.pair <| Codec.u64.pair <|
    Codec.i64.pair <| Codec.i64.pair <| Codec.u64.pair <| Codec.u64.pair <| Codec.i64.pair <|
    Codec.i64.pair <| Codec.u64.pair <| Codec.u64.pair <| Codec.u64.pair <| mandateStatus.pair <|
    Codec.byte.pair billingType).iso
    (fun ⟨subscriber, plan, merchant, amount, frequency, startDate, expiry, maxPulls,
      pullsExecuted, nextPaymentDue, lastPullAt, lastBillingRecordedPull, validationRequestNonce,
      billingRequestNonce, status, bump, billingType⟩ =>
      ⟨subscriber, plan, merchant, amount, frequency, startDate, expiry, maxPulls, pullsExecuted,
        nextPaymentDue, lastPullAt, lastBillingRecordedPull, validationRequestNonce,
        billingRequestNonce, status, bump, billingType⟩)
    (fun m => ⟨m.subscriber, m.plan, m.merchant, m.amount, m.frequency, m.startDate, m.expiry,
      m.maxPulls, m.pullsExecuted, m.nextPaymentDue, m.lastPullAt, m.lastBillingRecordedPull,
      m.validationRequestNonce, m.billingRequestNonce, m.status, m.bump, m.billingType⟩)
    fun _ => rfl

def velaPlan : Codec VelaPlan :=
  (pubkey.pair <| Codec.u64.pair <| Codec.u64.pair <| Codec.u64.pair <| Codec.u64.pair <|
    Codec.u64.pair <| planStatus.pair <| pubkey.pair <| pubkey.pair <| Codec.byte.pair <|
    Codec.byte.pair (bytes 32)).iso
    (fun ⟨merchant, planId, amount, frequency, trialPeriod, maxPulls, status, credentialMint,
      billingMint, bump, version, reserved⟩ =>
      ⟨merchant, planId, amount, frequency, trialPeriod, maxPulls, status, credentialMint,
        billingMint, bump, version, reserved⟩)
    (fun p => ⟨p.merchant, p.planId, p.amount, p.frequency, p.trialPeriod, p.maxPulls, p.status,
      p.credentialMint, p.billingMint, p.bump, p.version, p.reserved⟩)
    fun _ => rfl

def velaPlanV1 : Codec VelaPlanV1 :=
  (pubkey.pair <| Codec.u64.pair <| Codec.u64.pair <| Codec.u64.pair <| Codec.u64.pair <|
    Codec.u64.pair <| planStatus.pair <| pubkey.pair Codec.byte).iso
    (fun ⟨merchant, planId, amount, frequency, trialPeriod, maxPulls, status, credentialMint,
      bump⟩ =>
      ⟨merchant, planId, amount, frequency, trialPeriod, maxPulls, status, credentialMint, bump⟩)
    (fun p => ⟨p.merchant, p.planId, p.amount, p.frequency, p.trialPeriod, p.maxPulls, p.status,
      p.credentialMint, p.bump⟩)
    fun _ => rfl

def pricingTier : Codec PricingTier :=
  (Codec.u64.pair <| Codec.u64.pair Codec.u64).iso
    (fun ⟨upTo, ratePerUnit, padding⟩ => ⟨upTo, ratePerUnit, padding⟩)
    (fun t => ⟨t.upTo, t.ratePerUnit, t.padding⟩) fun _ => rfl

def usagePlan : Codec UsagePlan :=
  (pubkey.pair <| Codec.u64.pair <| (bytes 32).pair <| (pricingTier.vector 5).pair <|
    Codec.byte.pair <| Codec.u64.pair <| Codec.u64.pair <| pubkey.pair <| pubkey.pair <|
    planStatus.pair <| Codec.byte.pair <| Codec.byte.pair (bytes 32)).iso
    (fun ⟨merchant, planId, unitName, tiers, tierCount, maxChargePerPeriod, settlementFrequency,
      credentialMint, billingMint, status, bump, version, reserved⟩ =>
      ⟨merchant, planId, unitName, tiers, tierCount, maxChargePerPeriod, settlementFrequency,
        credentialMint, billingMint, status, bump, version, reserved⟩)
    (fun p => ⟨p.merchant, p.planId, p.unitName, p.tiers, p.tierCount, p.maxChargePerPeriod,
      p.settlementFrequency, p.credentialMint, p.billingMint, p.status, p.bump, p.version,
      p.reserved⟩)
    fun _ => rfl

def usagePlanV1 : Codec UsagePlanV1 :=
  (pubkey.pair <| Codec.u64.pair <| (bytes 32).pair <| (pricingTier.vector 5).pair <|
    Codec.byte.pair <| Codec.u64.pair <| Codec.u64.pair <| pubkey.pair <| planStatus.pair
    Codec.byte).iso
    (fun ⟨merchant, planId, unitName, tiers, tierCount, maxChargePerPeriod, settlementFrequency,
      credentialMint, status, bump⟩ =>
      ⟨merchant, planId, unitName, tiers, tierCount, maxChargePerPeriod, settlementFrequency,
        credentialMint, status, bump⟩)
    (fun p => ⟨p.merchant, p.planId, p.unitName, p.tiers, p.tierCount, p.maxChargePerPeriod,
      p.settlementFrequency, p.credentialMint, p.status, p.bump⟩)
    fun _ => rfl

def protocolConfigV1 : Codec ProtocolConfigV1 :=
  (pubkey.pair <| pubkey.pair <| clusterType.pair <| Codec.u64.pair <| pubkey.pair <|
    pubkey.pair <| Codec.bool.pair <| Codec.i64.pair Codec.byte).iso
    (fun ⟨admin, clusterPubkey, clusterType, clusterOffset, wrappedUsdcMint, wrappingVault, paused,
      pausedAt, bump⟩ =>
      ⟨admin, clusterPubkey, clusterType, clusterOffset, wrappedUsdcMint, wrappingVault, paused,
        pausedAt, bump⟩)
    (fun c => ⟨c.admin, c.clusterPubkey, c.clusterType, c.clusterOffset, c.wrappedUsdcMint,
      c.wrappingVault, c.paused, c.pausedAt, c.bump⟩)
    fun _ => rfl

def keeperConfig : Codec KeeperConfig :=
  (pubkey.pair <| keeperMode.pair <| (bytes 128).pair <| Codec.byte.pair <| pubkey.pair <|
    Codec.byte.pair <| Codec.byte.pair (bytes 64)).iso
    (fun ⟨admin, mode, keeperEndpoint, endpointLen, keeperAuthority, bump, version, reserved⟩ =>
      ⟨admin, mode, keeperEndpoint, endpointLen, keeperAuthority, bump, version, reserved⟩)
    (fun c => ⟨c.admin, c.mode, c.keeperEndpoint, c.endpointLen, c.keeperAuthority, c.bump,
      c.version, c.reserved⟩)
    fun _ => rfl

def keeperConfigV1 : Codec KeeperConfigV1 :=
  (pubkey.pair <| keeperMode.pair <| (bytes 128).pair <| Codec.byte.pair <| pubkey.pair
    Codec.byte).iso
    (fun ⟨admin, mode, keeperEndpoint, endpointLen, keeperAuthority, bump⟩ =>
      ⟨admin, mode, keeperEndpoint, endpointLen, keeperAuthority, bump⟩)
    (fun c => ⟨c.admin, c.mode, c.keeperEndpoint, c.endpointLen, c.keeperAuthority, c.bump⟩)
    fun _ => rfl

def serviceLimit : Codec ServiceLimit :=
  (pubkey.pair <| Codec.u64.pair <| Codec.u64.pair Codec.i64).iso
    (fun ⟨service, dailyLimit, dailySpent, lastReset⟩ =>
      ⟨service, dailyLimit, dailySpent, lastReset⟩)
    (fun s => ⟨s.service, s.dailyLimit, s.dailySpent, s.lastReset⟩) fun _ => rfl

def agentMandate : Codec AgentMandate.Storable :=
  (pubkey.pair <| pubkey.pair <| Codec.u64.pair <| Codec.u64.pair <| Codec.i64.pair <|
    Codec.u64.pair <| Codec.u64.pair <| Codec.u64.pair <| Codec.i64.pair <| Codec.i64.pair <|
    agentMandateStatus.pair <| serviceLimit.counted.pair <| Codec.byte.pair <| Codec.byte.pair
    (bytes 64)).iso
    (fun ⟨authority, agent, dailyLimit, dailySpent, dailyLastReset, lifetimeCap, totalSpent,
      minPullAmount, minPullInterval, lastPullAt, status, services, bump, version, reserved⟩ =>
      ⟨⟨authority, agent, dailyLimit, dailySpent, dailyLastReset, lifetimeCap, totalSpent,
        minPullAmount, minPullInterval, lastPullAt, status, services.1, bump, version, reserved⟩,
        services.2⟩)
    (fun ⟨m, short⟩ => ⟨m.authority, m.agent, m.dailyLimit, m.dailySpent, m.dailyLastReset,
      m.lifetimeCap, m.totalSpent, m.minPullAmount, m.minPullInterval, m.lastPullAt, m.status,
      ⟨m.services, short⟩, m.bump, m.version, m.reserved⟩)
    fun _ => rfl

def agentMandateV1 : Codec AgentMandateV1.Storable :=
  (pubkey.pair <| pubkey.pair <| Codec.u64.pair <| Codec.u64.pair <| Codec.i64.pair <|
    Codec.u64.pair <| Codec.u64.pair <| Codec.u64.pair <| Codec.i64.pair <| Codec.i64.pair <|
    agentMandateStatus.pair <| serviceLimit.counted.pair Codec.byte).iso
    (fun ⟨authority, agent, dailyLimit, dailySpent, dailyLastReset, lifetimeCap, totalSpent,
      minPullAmount, minPullInterval, lastPullAt, status, services, bump⟩ =>
      ⟨⟨authority, agent, dailyLimit, dailySpent, dailyLastReset, lifetimeCap, totalSpent,
        minPullAmount, minPullInterval, lastPullAt, status, services.1, bump⟩, services.2⟩)
    (fun ⟨m, short⟩ => ⟨m.authority, m.agent, m.dailyLimit, m.dailySpent, m.dailyLastReset,
      m.lifetimeCap, m.totalSpent, m.minPullAmount, m.minPullInterval, m.lastPullAt, m.status,
      ⟨m.services, short⟩, m.bump⟩)
    fun _ => rfl

def usageReport : Codec UsageReport :=
  (pubkey.pair <| pubkey.pair <| Codec.i64.pair <| Codec.i64.pair <|
    ((bytes 32).vector maxUsageComputationCiphertexts).pair <| Codec.byte.pair <|
    (bytes 16).pair <| (bytes 32).pair <| Codec.bool.pair <| Codec.i64.pair Codec.byte).iso
    (fun ⟨mandate, merchant, periodStart, periodEnd, computationCiphertext, ciphertextCount, nonce,
      pubKey, settled, createdAt, bump⟩ =>
      ⟨mandate, merchant, periodStart, periodEnd, computationCiphertext, ciphertextCount, nonce,
        pubKey, settled, createdAt, bump⟩)
    (fun r => ⟨r.mandate, r.merchant, r.periodStart, r.periodEnd, r.computationCiphertext,
      r.ciphertextCount, r.nonce, r.pubKey, r.settled, r.createdAt, r.bump⟩)
    fun _ => rfl

def usageReportAccount : Codec UsageReport := usageReport.tagged UsageReport.discriminator

instance (n : Nat) : Canonical (bytes n) := canonical_word n
instance (n : Nat) : Sized (bytes n) n := sized_word n
instance : Canonical pubkey := canonical_word 32
instance : Sized pubkey 32 := sized_word 32

instance : Canonical clusterType := .variant fun b a h => by grind
instance : Canonical billingType := .variant fun b a h => by grind
instance : Canonical mandateStatus := .variant fun b a h => by grind
instance : Canonical planStatus := .variant fun b a h => by grind
instance : Canonical keeperMode := .variant fun b a h => by grind
instance : Canonical agentMandateStatus := .variant fun b a h => by grind

instance : Sized clusterType 1 := ⟨fun _ => rfl⟩
instance : Sized billingType 1 := ⟨fun _ => rfl⟩
instance : Sized mandateStatus 1 := ⟨fun _ => rfl⟩
instance : Sized planStatus 1 := ⟨fun _ => rfl⟩
instance : Sized keeperMode 1 := ⟨fun _ => rfl⟩
instance : Sized agentMandateStatus 1 := ⟨fun _ => rfl⟩

instance : Canonical velaMandate := .iso fun _ => rfl
instance : Canonical velaMandateV1 := .iso fun _ => rfl
instance : Canonical velaPlan := .iso fun _ => rfl
instance : Canonical velaPlanV1 := .iso fun _ => rfl
instance : Canonical pricingTier := .iso fun _ => rfl
instance : Canonical usagePlan := .iso fun _ => rfl
instance : Canonical usagePlanV1 := .iso fun _ => rfl
instance : Canonical protocolConfig := .iso fun _ => rfl
instance : Canonical protocolConfigV1 := .iso fun _ => rfl
instance : Canonical keeperConfig := .iso fun _ => rfl
instance : Canonical keeperConfigV1 := .iso fun _ => rfl
instance : Canonical serviceLimit := .iso fun _ => rfl
instance : Canonical agentMandate := .iso fun _ => rfl
instance : Canonical agentMandateV1 := .iso fun _ => rfl
instance : Canonical usageReport := .iso fun _ => rfl

instance : Sized velaMandate 260 := .iso
instance : Sized velaMandateV1 187 := .iso
instance : Sized velaPlan 171 := .iso
instance : Sized velaPlanV1 106 := .iso
instance : Sized pricingTier 24 := .iso
instance : Sized usagePlan 308 := .iso
instance : Sized usagePlanV1 243 := .iso
instance : Sized protocolConfig 212 := .iso
instance : Sized protocolConfigV1 147 := .iso
instance : Sized keeperConfig 260 := .iso
instance : Sized keeperConfigV1 195 := .iso
instance : Sized serviceLimit 56 := .iso
instance : Sized usageReport 555 := .iso

instance : Canonical velaMandateAccount :=
  inferInstanceAs (Canonical (velaMandate.tagged VelaMandate.discriminator))
instance : Canonical usageReportAccount :=
  inferInstanceAs (Canonical (usageReport.tagged UsageReport.discriminator))
instance : Sized velaMandateAccount 268 :=
  inferInstanceAs (Sized (velaMandate.tagged VelaMandate.discriminator) _)
instance : Sized usageReportAccount 563 :=
  inferInstanceAs (Sized (usageReport.tagged UsageReport.discriminator) _)

theorem encode_u64_zero : Codec.u64.encode 0 = List.replicate 8 0 := word_zero 8
theorem encode_i64_zero : Codec.i64.encode 0 = List.replicate 8 0 := word_zero 8
theorem encode_default : pubkey.encode Pubkey.default = List.replicate 32 0 := word_zero 32
theorem encode_bytes_zero (n : Nat) : (bytes n).encode 0 = List.replicate n 0 := word_zero n

theorem velaMandate_split (m : VelaMandate) : velaMandate.encode m =
    (velaMandateV1.encode m.toLegacy ++ Codec.u64.encode m.mandateIndex) ++
      m.version :: (Codec.u64.pair <| pubkey.pair <| Codec.i64.pair <| Codec.byte.pair <|
        (bytes 8).pair (bytes 7)).encode ⟨m.creditBalance, m.pendingNewPlan, m.pendingEffectiveAt,
          m.pendingChangeType, m.pendingNonceShort, m.reservedV3⟩ := by
  simp only [velaMandate, velaMandateV1, Codec.iso, Codec.refine, Codec.pair, List.append_assoc]
  rfl

def mandates : Layered VelaMandate VelaMandateV1 where
  tag := VelaMandate.discriminator
  current := velaMandate
  legacy := velaMandateV1
  version := VelaMandate.version
  latest := currentAccountVersion
  padded := by
    intro old value rest k same
    have zero : value.version = 0 := by
      refine Layered.padded_of_offset (show 187 ≤ 195 by decide) (fun m => ?_) same
      exact ⟨_, _, velaMandate_split m, by rw [List.length_append, length_encode, length_encode]⟩
    rw [zero]
    decide

theorem velaPlan_split (p : VelaPlan) : velaPlan.encode p =
    (pubkey.pair <| Codec.u64.pair <| Codec.u64.pair <| Codec.u64.pair <| Codec.u64.pair <|
      Codec.u64.pair <| planStatus.pair <| pubkey.pair <| pubkey.pair Codec.byte).encode
      ⟨p.merchant, p.planId, p.amount, p.frequency, p.trialPeriod, p.maxPulls, p.status,
        p.credentialMint, p.billingMint, p.bump⟩ ++
      p.version :: (bytes 32).encode p.reserved := by
  simp only [velaPlan, Codec.iso, Codec.refine, Codec.pair, List.append_assoc]
  rfl

def flatPlans : Layered VelaPlan VelaPlanV1 where
  tag := VelaPlan.discriminator
  current := velaPlan
  legacy := velaPlanV1
  version := VelaPlan.version
  latest := currentAccountVersion
  padded := by
    intro old value rest k same
    have zero : value.version = 0 := by
      refine Layered.padded_of_offset (show 106 ≤ 138 by decide) (fun p => ?_) same
      exact ⟨_, _, velaPlan_split p, by rw [length_encode]⟩
    rw [zero]
    decide

theorem usagePlan_split (p : UsagePlan) : usagePlan.encode p =
    (pubkey.pair <| Codec.u64.pair <| (bytes 32).pair <| (pricingTier.vector 5).pair <|
      Codec.byte.pair <| Codec.u64.pair <| Codec.u64.pair <| pubkey.pair <| pubkey.pair <|
      planStatus.pair Codec.byte).encode
      ⟨p.merchant, p.planId, p.unitName, p.tiers, p.tierCount, p.maxChargePerPeriod,
        p.settlementFrequency, p.credentialMint, p.billingMint, p.status, p.bump⟩ ++
      p.version :: (bytes 32).encode p.reserved := by
  simp only [usagePlan, Codec.iso, Codec.refine, Codec.pair, List.append_assoc]
  rfl

def usagePlans : Layered UsagePlan UsagePlanV1 where
  tag := UsagePlan.discriminator
  current := usagePlan
  legacy := usagePlanV1
  version := UsagePlan.version
  latest := currentAccountVersion
  padded := by
    intro old value rest k same
    have zero : value.version = 0 := by
      refine Layered.padded_of_offset (show 243 ≤ 275 by decide) (fun p => ?_) same
      exact ⟨_, _, usagePlan_split p, by rw [length_encode]⟩
    rw [zero]
    decide

theorem protocolConfig_split (c : ProtocolConfig) : protocolConfig.encode c =
    (pubkey.pair <| pubkey.pair <| clusterType.pair <| Codec.u64.pair <| pubkey.pair <|
      pubkey.pair <| Codec.bool.pair <| Codec.i64.pair <| pubkey.pair Codec.byte).encode
      ⟨c.admin, c.clusterPubkey, c.clusterType, c.clusterOffset, c.wrappedUsdcMint,
        c.wrappingVault, c.paused, c.pausedAt, c.transferHookProgramId, c.bump⟩ ++
      c.version :: pubkey.encode c.mxeProgramId := by
  simp only [protocolConfig, Codec.iso, Codec.refine, Codec.pair, List.append_assoc]
  rfl

def protocolConfigs : Layered ProtocolConfig ProtocolConfigV1 where
  tag := ProtocolConfig.discriminator
  current := protocolConfig
  legacy := protocolConfigV1
  version := ProtocolConfig.version
  latest := currentAccountVersion
  padded := by
    intro old value rest k same
    have zero : value.version = 0 := by
      refine Layered.padded_of_offset (show 147 ≤ 179 by decide) (fun p => ?_) same
      exact ⟨_, _, protocolConfig_split p, by rw [length_encode]⟩
    rw [zero]
    decide

theorem keeperConfig_split (c : KeeperConfig) : keeperConfig.encode c =
    keeperConfigV1.encode ⟨c.admin, c.mode, c.keeperEndpoint, c.endpointLen, c.keeperAuthority,
      c.bump⟩ ++ c.version :: (bytes 64).encode c.reserved := by
  simp only [keeperConfig, keeperConfigV1, Codec.iso, Codec.refine, Codec.pair, List.append_assoc]
  rfl

def keeperConfigs : Layered KeeperConfig KeeperConfigV1 where
  tag := KeeperConfig.discriminator
  current := keeperConfig
  legacy := keeperConfigV1
  version := KeeperConfig.version
  latest := currentAccountVersion
  padded := by
    intro old value rest k same
    have zero : value.version = 0 :=
      Layered.padded_of_append (fun c => ⟨_, _, keeperConfig_split c⟩) same
    rw [zero]
    decide

theorem agentMandate_split (m : AgentMandate.Storable) : agentMandate.encode m =
    agentMandateV1.encode ⟨⟨m.1.authority, m.1.agent, m.1.dailyLimit, m.1.dailySpent,
      m.1.dailyLastReset, m.1.lifetimeCap, m.1.totalSpent, m.1.minPullAmount,
      m.1.minPullInterval, m.1.lastPullAt, m.1.status, m.1.services, m.1.bump⟩, m.2⟩ ++
      m.1.version :: (bytes 64).encode m.1.reserved := by
  simp only [agentMandate, agentMandateV1, Codec.iso, Codec.refine, Codec.pair, List.append_assoc]
  rfl

def agentMandates : Layered AgentMandate.Storable AgentMandateV1.Storable where
  tag := AgentMandate.discriminator
  current := agentMandate
  legacy := agentMandateV1
  version m := m.1.version
  latest := currentAccountVersion
  padded := by
    intro old value rest k same
    have zero : value.1.version = 0 :=
      Layered.padded_of_append (fun m => ⟨_, _, agentMandate_split m⟩) same
    rw [zero]
    decide

end Layout

end VelaProtocol
