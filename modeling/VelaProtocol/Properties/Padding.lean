import VelaProtocol.Bytes
import VelaProtocol.Deployment

/-! Legacy accounts followed by zero bytes. The strict loaders try the current layout first and
stop when it decodes to another version, so they lose a legacy value once the padding makes up for
the new fields. -/
namespace VelaProtocol

open Codec Guard

def lowKey (b : UInt8) : Pubkey := BitVec.ofNat _ b.toNat

theorem encode_lowKey (b : UInt8) :
    Layout.pubkey.encode (lowKey b) = b :: List.replicate 31 0 := by
  rw [← word_zero 31]
  exact word_low 31 b

theorem agentMandate_room (m : AgentMandateV1.Storable) : ∃ a, Layout.agentMandate.encode a =
    Layout.agentMandateV1.encode m ++ List.replicate 65 0 := by
  refine ⟨⟨{ m.1.intoCurrent with version := 0 }, m.2⟩, ?_⟩
  rw [Layout.agentMandate_split]
  simp only [AgentMandateV1.intoCurrent, Layout.encode_bytes_zero, List.replicate_succ]

theorem agentMandate_padded (m : AgentMandateV1.Storable) (k : Nat) :
    Layout.agentMandate.decode (Layout.agentMandateV1.encode m ++ List.replicate k 0) = none ↔
      k < 65 := by
  refine Layered.decode_padded (agentMandate_room m) (fun k short => ?_) k
  refine Layered.decode_short_of_append (fun a => ?_) short
  exact ⟨_, _, Layout.agentMandate_split a, by rw [List.length_cons, length_encode]⟩

theorem keeperConfig_room (c : KeeperConfigV1) : ∃ a, Layout.keeperConfig.encode a =
    Layout.keeperConfigV1.encode c ++ List.replicate 65 0 := by
  refine ⟨{ (LoadedKeeperConfig.legacy c).intoCurrent with version := 0 }, ?_⟩
  rw [Layout.keeperConfig_split]
  simp only [LoadedKeeperConfig.intoCurrent, Layout.encode_bytes_zero, List.replicate_succ]

theorem keeperConfig_padded (c : KeeperConfigV1) (k : Nat) :
    Layout.keeperConfig.decode (Layout.keeperConfigV1.encode c ++ List.replicate k 0) = none ↔
      k < 65 := by
  refine Layered.decode_padded (keeperConfig_room c) (fun k short => decode_short ?_) k
  rw [List.length_append, length_encode, List.length_replicate]
  omega

theorem protocolConfig_room (c : ProtocolConfigV1) : ∃ a, Layout.protocolConfig.encode a =
    Layout.protocolConfigV1.encode c ++ List.replicate 65 0 := by
  refine ⟨{ (LoadedProtocolConfig.legacy c).intoCurrent with
    transferHookProgramId := lowKey c.bump, bump := 0, version := 0, mxeProgramId := 0 }, ?_⟩
  have mxe : Layout.pubkey.encode 0 = List.replicate 32 0 := word_zero 32
  have zeros : List.replicate 65 (0 : UInt8) =
      List.replicate 31 0 ++ (0 :: 0 :: List.replicate 32 0) := rfl
  rw [Layout.protocolConfig_split, mxe, zeros]
  simp only [Layout.protocolConfigV1, Codec.iso, Codec.refine, Codec.pair, encode_lowKey,
    LoadedProtocolConfig.intoCurrent, List.append_assoc]
  rfl

theorem protocolConfig_padded (c : ProtocolConfigV1) (k : Nat) :
    Layout.protocolConfig.decode (Layout.protocolConfigV1.encode c ++ List.replicate k 0) = none ↔
      k < 65 := by
  refine Layered.decode_padded (protocolConfig_room c) (fun k short => decode_short ?_) k
  rw [List.length_append, length_encode, List.length_replicate]
  omega

/-- A legacy agent mandate at its address, with so many zero bytes behind it. -/
def paddedAgentMandate (P : Platform) (m : AgentMandateV1.Storable) (k : Nat) : AccountInfo where
  key := (P.findProgramAddress (.agentMandate m.1.authority m.1.agent)).1
  owner := programId
  data := Layout.agentMandates.bytesOf (.inr m) ++ List.replicate k 0

def paddedProtocolConfig (P : ConfiguredPlatform) (c : ProtocolConfigV1) (k : Nat) :
    AccountInfo where
  key := P.configAddress
  owner := programId
  data := Layout.protocolConfigs.bytesOf (.inr c) ++ List.replicate k 0

def paddedKeeperConfig (P : ConfiguredPlatform) (c : KeeperConfigV1) (k : Nat) : AccountInfo where
  key := P.keeperConfigAddress
  owner := programId
  data := Layout.keeperConfigs.bytesOf (.inr c) ++ List.replicate k 0

instance : Canonical Layout.agentMandates.current := inferInstanceAs (Canonical Layout.agentMandate)
instance : Canonical Layout.protocolConfigs.current :=
  inferInstanceAs (Canonical Layout.protocolConfig)
instance : Canonical Layout.keeperConfigs.current := inferInstanceAs (Canonical Layout.keeperConfig)

theorem loadAgentMandate_padded {P : Platform} {m : AgentMandateV1.Storable} {k : Nat}
    {loaded : LoadedAgentMandate} :
    Raw.loadAgentMandate P (paddedAgentMandate P m k) m.1.authority m.1.agent = .ok loaded ↔
      k < 65 ∧ loaded = .legacy m.1 := by
  rw [← agentMandate_padded m k]
  simp only [Raw.loadAgentMandate, validateAgentMandateAddress, orHost, require_bind_eq_ok,
    orError_bind_eq_ok]
  constructor
  · rintro ⟨_, _, x, found, h⟩
    obtain rfl := Layered.loadStrict_padded found
    obtain ⟨_, h⟩ := require_bind_eq_ok.mp h
    exact ⟨(Layered.loadStrict_eq_legacy m k).mp found, (pure_eq_ok.mp h).symm⟩
  · rintro ⟨undecoded, rfl⟩
    refine ⟨rfl, rfl, _, (Layered.loadStrict_eq_legacy m k).mpr undecoded, ?_⟩
    exact require_bind_eq_ok.mpr ⟨⟨rfl, rfl⟩, rfl⟩

theorem loadProtocolConfig_padded {P : ConfiguredPlatform} {c : ProtocolConfigV1} {k : Nat}
    {loaded : LoadedProtocolConfig} :
    Raw.loadProtocolConfig P (paddedProtocolConfig P c k) = .ok loaded ↔
      k < 65 ∧ loaded = .legacy c := by
  rw [← protocolConfig_padded c k]
  simp only [Raw.loadProtocolConfig, check, orHost, require_bind_eq_ok, orError_bind_eq_ok]
  constructor
  · rintro ⟨_, _, _, x, found, h⟩
    obtain rfl := Layered.loadStrict_padded found
    exact ⟨(Layered.loadStrict_eq_legacy c k).mp found, (pure_eq_ok.mp h).symm⟩
  · rintro ⟨undecoded, rfl⟩
    have front : (paddedProtocolConfig P c k).data.take 8 = Layout.ProtocolConfig.discriminator :=
      Layered.take_bytesOf (l := Layout.protocolConfigs) _ _
    exact ⟨rfl, rfl, front, _,
      (Layered.loadStrict_eq_legacy c k).mpr undecoded, rfl⟩

theorem loadKeeperConfig_padded {P : ConfiguredPlatform} {c : KeeperConfigV1} {k : Nat}
    {loaded : LoadedKeeperConfig} :
    Raw.loadKeeperConfig P (paddedKeeperConfig P c k) = .ok loaded ↔
      k < 65 ∧ loaded = .legacy c := by
  rw [← keeperConfig_padded c k]
  simp only [Raw.loadKeeperConfig, orHost, require_bind_eq_ok, orError_bind_eq_ok]
  constructor
  · rintro ⟨_, _, x, found, h⟩
    obtain rfl := Layered.loadStrict_padded found
    exact ⟨(Layered.loadStrict_eq_legacy c k).mp found, (pure_eq_ok.mp h).symm⟩
  · rintro ⟨undecoded, rfl⟩
    exact ⟨rfl, rfl, _, (Layered.loadStrict_eq_legacy c k).mpr undecoded, rfl⟩

def ProtocolConfig.toLegacy (c : ProtocolConfig) : ProtocolConfigV1 :=
  ⟨c.admin, c.clusterPubkey, c.clusterType, c.clusterOffset, c.wrappedUsdcMint, c.wrappingVault,
    c.paused, c.pausedAt, c.bump⟩

def KeeperConfig.toLegacy (c : KeeperConfig) : KeeperConfigV1 :=
  ⟨c.admin, c.mode, c.keeperEndpoint, c.endpointLen, c.keeperAuthority, c.bump⟩

/-- The loader accepts the account and hands out a current value with the fields it stores. -/
def UpgradesAgentMandate (P : Platform) (m : AgentMandateV1.Storable) (k : Nat) : Prop :=
  ∃ loaded, Raw.loadAgentMandate P (paddedAgentMandate P m k) m.1.authority m.1.agent =
    .ok loaded ∧ loaded.intoCurrent.toLegacy = m.1 ∧
      loaded.intoCurrent.version = currentAccountVersion

def UpgradesProtocolConfig (P : ConfiguredPlatform) (c : ProtocolConfigV1) (k : Nat) : Prop :=
  ∃ loaded, Raw.loadProtocolConfig P (paddedProtocolConfig P c k) = .ok loaded ∧
    loaded.intoCurrent.toLegacy = c ∧ loaded.intoCurrent.version = currentAccountVersion

def UpgradesKeeperConfig (P : ConfiguredPlatform) (c : KeeperConfigV1) (k : Nat) : Prop :=
  ∃ loaded, Raw.loadKeeperConfig P (paddedKeeperConfig P c k) = .ok loaded ∧
    loaded.intoCurrent.toLegacy = c ∧ loaded.intoCurrent.version = currentAccountVersion

/-- A padded legacy account is accepted and upgraded exactly as long as fewer zero bytes follow
than the 65 the current layout has more. -/
theorem padded_legacy_upgrades_iff (P : ConfiguredPlatform) (k : Nat) :
    (∀ m, UpgradesAgentMandate P.toPlatform m k ↔ k < 65) ∧
    (∀ c, UpgradesProtocolConfig P c k ↔ k < 65) ∧
    (∀ c, UpgradesKeeperConfig P c k ↔ k < 65) := by
  refine ⟨fun m => ⟨?_, fun short => ?_⟩, fun c => ⟨?_, fun short => ?_⟩,
    fun c => ⟨?_, fun short => ?_⟩⟩
  · rintro ⟨loaded, accepted, _⟩
    exact (loadAgentMandate_padded.mp accepted).1
  · exact ⟨_, loadAgentMandate_padded.mpr ⟨short, rfl⟩, rfl, rfl⟩
  · rintro ⟨loaded, accepted, _⟩
    exact (loadProtocolConfig_padded.mp accepted).1
  · exact ⟨_, loadProtocolConfig_padded.mpr ⟨short, rfl⟩, rfl, rfl⟩
  · rintro ⟨loaded, accepted, _⟩
    exact (loadKeeperConfig_padded.mp accepted).1
  · exact ⟨_, loadKeeperConfig_padded.mpr ⟨short, rfl⟩, rfl, rfl⟩

def protocolConfigSize : Nat := 8 + 32 + 32 + 1 + 8 + 32 + 32 + 1 + 8 + 32 + 32 + 1 + 1

def configuredPlatform : ConfiguredPlatform where
  toPlatform := Deployment.platform
  configAddress := 40
  keeperConfigAddress := 41

def legacyConfiguration : ProtocolConfigV1 :=
  ⟨Deployment.admin, 42, .cerberus, 456, Deployment.mintA, Deployment.vault, false, 0, 255⟩

/-- Padded to exactly the current size, it is not loaded. -/
theorem padded_configuration_refused :
    (paddedProtocolConfig configuredPlatform legacyConfiguration 65).data.length =
      protocolConfigSize ∧
    ¬UpgradesProtocolConfig configuredPlatform legacyConfiguration 65 := by
  constructor
  · have body : (Layout.protocolConfigs.bytesOf (.inr legacyConfiguration)).length = 8 + 147 :=
      length_encode (c := Layout.protocolConfigV1.tagged Layout.ProtocolConfig.discriminator) _
    rw [paddedProtocolConfig, List.length_append, List.length_replicate, body]
    decide
  · rintro ⟨loaded, accepted, _⟩
    exact absurd (loadProtocolConfig_padded.mp accepted).1 (by decide)

end VelaProtocol
