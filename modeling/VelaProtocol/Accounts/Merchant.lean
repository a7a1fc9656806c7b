import VelaProtocol.State.Errors
import VelaProtocol.State.World

/-! Merchant state accounts and the credential mint they resolve to, and the singleton
configuration accounts. -/
namespace VelaProtocol

open Guard

namespace LoadedProtocolConfig

def admin : LoadedProtocolConfig → Pubkey
  | .legacy c => c.admin
  | .current c => c.admin

def paused : LoadedProtocolConfig → Bool
  | .legacy c => c.paused
  | .current c => c.paused

def wrappedUsdcMint : LoadedProtocolConfig → Pubkey
  | .legacy c => c.wrappedUsdcMint
  | .current c => c.wrappedUsdcMint

def wrappingVault : LoadedProtocolConfig → Pubkey
  | .legacy c => c.wrappingVault
  | .current c => c.wrappingVault

/-- Unset for a legacy configuration. -/
def hookProgramId : LoadedProtocolConfig → Pubkey
  | .legacy _ => Pubkey.default
  | .current c => c.transferHookProgramId

def intoCurrent : LoadedProtocolConfig → ProtocolConfig
  | .current c => c
  | .legacy c =>
    { admin := c.admin
      clusterPubkey := c.clusterPubkey
      clusterType := c.clusterType
      clusterOffset := c.clusterOffset
      wrappedUsdcMint := c.wrappedUsdcMint
      wrappingVault := c.wrappingVault
      paused := c.paused
      pausedAt := c.pausedAt
      transferHookProgramId := VelaProtocol.transferHookProgramId
      mxeProgramId := Pubkey.default
      bump := c.bump
      version := currentAccountVersion }

end LoadedProtocolConfig

def loadProtocolConfig (w : World) : Result LoadedProtocolConfig :=
  match w.protocolConfig with
  | none => .error (.vela .invalidProtocolConfig)
  | some (.legacy c) => .ok (.legacy c)
  | some (.current c) => do
    require (c.version = currentAccountVersion) (.host .invalidAccountData)
    return .current c

def LoadedKeeperConfig.keeperAuthority : LoadedKeeperConfig → Pubkey
  | .legacy c => c.keeperAuthority
  | .current c => c.keeperAuthority

def loadKeeperConfig (w : World) : Result LoadedKeeperConfig :=
  match w.keeperConfig with
  | none => .error (.host .incorrectProgramId)
  | some (.legacy c) => .ok (.legacy c)
  | some (.current c) => do
    require (c.version = currentAccountVersion) (.host .invalidAccountData)
    return .current c

def token2022ProgramId : Pubkey :=
  0xfc8ba1d828f9bdfe270db9834dfc1ab6dacd6ce4bc5d4218de8f75eee1f6dd06

def tokenProgramId : Pubkey :=
  0xa900ff7e85f58c3a91375b5fed85b41cac79ebce46e1cbd993a165d7e1f6dd06

/-- `InterfaceAccount<Mint>`: the program that owns a mint, and its decimals -/
def interfaceMint (w : World) (mint : Pubkey) : Result (Pubkey × UInt8) :=
  match w.mint mint with
  | some found => .ok (token2022ProgramId, found.decimals)
  | none => do
    let decimals ← orHost (w.splMint mint) .accountNotInitialized
    return (tokenProgramId, decimals)

def anchorTokenConfig (w : World) (mint : Pubkey) : Result TokenConfig :=
  orHost (w.tokenConfig mint) .accountNotInitialized

def MerchantState.new (merchant : Pubkey) (bump : UInt8) (planCount : UInt64) : MerchantState where
  merchant := merchant
  planCount := planCount
  bump := bump
  credentialMint := Pubkey.default
  mandateCounter := 0
  streamMandateCounter := 0
  version := currentAccountVersion
  reserved := 0

def LoadedMerchantState.intoCurrent : LoadedMerchantState → MerchantState
  | .legacy s => MerchantState.new s.merchant s.bump s.planCount
  | .current s => s

def World.writeMerchantState (w : World) (merchant : Pubkey) (state : MerchantState) : World :=
  { w with merchantState := Function.update w.merchantState merchant (some (.current state)) }

def ensureMerchantState (w : World) (merchant : Pubkey) (bump : UInt8) :
    Result (World × MerchantState) :=
  match w.merchantState merchant with
  | none =>
    let state := MerchantState.new merchant bump 0
    .ok (w.writeMerchantState merchant state, state)
  | some loaded => do
    let state := loaded.intoCurrent
    require (state.merchant = Pubkey.default ∨ state.merchant = merchant)
      (.host .invalidAccountData)
    let state := { state with
      merchant := merchant
      bump := bump
      version := currentAccountVersion
      reserved := 0 }
    return (w.writeMerchantState merchant state, state)

def resolveMerchantCredentialMint (w : World) (merchant planCredentialMint : Pubkey) : Pubkey :=
  match w.merchantState merchant with
  | none => planCredentialMint
  | some loaded =>
    if loaded.intoCurrent.credentialMint ≠ Pubkey.default then loaded.intoCurrent.credentialMint
    else planCredentialMint

/-- `Account<MerchantState>`: a legacy record is too short to decode -/
def anchorMerchantState (w : World) (merchant : Pubkey) : Result MerchantState :=
  match w.merchantState merchant with
  | none => .error (.host .accountNotInitialized)
  | some (.legacy _) => .error (.host .accountDidNotDeserialize)
  | some (.current s) => .ok s

def World.mandateCounter (w : World) (merchant : Pubkey) : Nat :=
  ((w.merchantState merchant).map fun state => state.intoCurrent.mandateCounter.toNat).getD 0

theorem mandateCounter_le_of_eq {w w' : World} (same : w'.merchantState = w.merchantState)
    (merchant : Pubkey) : w.mandateCounter merchant ≤ w'.mandateCounter merchant := by
  rw [World.mandateCounter, World.mandateCounter, same]

theorem writeMerchantState_counter {w : World} {merchant : Pubkey} {state : MerchantState}
    (more : w.mandateCounter merchant ≤ state.mandateCounter.toNat) (other : Pubkey) :
    w.mandateCounter other ≤ (w.writeMerchantState merchant state).mandateCounter other := by
  by_cases same : other = merchant
  · subst same
    simpa only [World.writeMerchantState, World.mandateCounter, Function.update_self,
      Option.map_some, Option.getD_some, LoadedMerchantState.intoCurrent] using more
  · simp only [World.writeMerchantState, World.mandateCounter, Function.update_of_ne same, le_refl]

theorem writeMerchantState_self_counter (w : World) (merchant : Pubkey) (state : MerchantState) :
    (w.writeMerchantState merchant state).mandateCounter merchant = state.mandateCounter.toNat := by
  simp only [World.writeMerchantState, World.mandateCounter, Function.update_self,
    Option.map_some, Option.getD_some, LoadedMerchantState.intoCurrent]

theorem anchorMerchantState_counter {w : World} {merchant : Pubkey} {state : MerchantState}
    (h : anchorMerchantState w merchant = .ok state) :
    w.mandateCounter merchant = state.mandateCounter.toNat := by
  unfold anchorMerchantState at h
  split at h
  · cases h
  · cases h
  · rename_i found
    cases h
    simp only [World.mandateCounter, found, Option.map_some, Option.getD_some,
      LoadedMerchantState.intoCurrent]

theorem loadProtocolConfig_eq_ok {w : World} {config : LoadedProtocolConfig}
    (h : loadProtocolConfig w = .ok config) : w.protocolConfig = some config := by
  unfold loadProtocolConfig at h
  split at h
  · cases h
  · rename_i found
    cases h
    exact found
  · rename_i found
    simp only [require_bind_eq_ok, pure_eq_ok] at h
    rw [found, h.2]

theorem ensureMerchantState_eq_ok {w : World} {merchant : Pubkey} {bump : UInt8}
    {result : World × MerchantState} (h : ensureMerchantState w merchant bump = .ok result) :
    result.1 = w.writeMerchantState merchant result.2 ∧
      w.mandateCounter merchant = result.2.mandateCounter.toNat := by
  unfold ensureMerchantState at h
  split at h
  · rename_i none
    cases h
    refine ⟨rfl, ?_⟩
    rw [World.mandateCounter, none]
    rfl
  · rename_i loaded found
    simp only [require_bind_eq_ok, pure_eq_ok] at h
    obtain ⟨_, rfl⟩ := h
    refine ⟨rfl, ?_⟩
    rw [World.mandateCounter, found]
    rfl

end VelaProtocol
