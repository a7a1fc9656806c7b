import VelaProtocol.Arcium
import VelaProtocol.Instructions.Wrapping

/-! What the admin and the merchants set up: the protocol, keeper and token configurations, the
wrapped mint, the merchant credentials and the computation definitions. -/
namespace VelaProtocol

open Guard

def upgradeProtocolConfig (w : World) : Result ProtocolConfig := do
  let loaded ← loadProtocolConfig w
  let config := loaded.intoCurrent
  return { config with
    transferHookProgramId :=
      if config.transferHookProgramId = Pubkey.default then transferHookProgramId
      else config.transferHookProgramId
    version := currentAccountVersion }

def World.writeProtocolConfig (w : World) (config : ProtocolConfig) : World :=
  { w with protocolConfig := some (.current config) }

def loadConfigAsAdmin (w : World) (admin : Pubkey) : Result LoadedProtocolConfig := do
  let config ← loadProtocolConfig w
  check (admin = config.admin) .unauthorizedAdmin
  return config

def validateClusterConfiguration (P : Platform) (clusterPubkey : Pubkey)
    (clusterOffset : UInt64) : Result Unit := do
  check (clusterOffset.toNat < 2 ^ 32) .invalidProtocolConfig
  check (clusterPubkey = deriveClusterPubkey P clusterOffset.toUInt32) .invalidProtocolConfig

def normalizeMxeProgramId (mxeProgramId : Pubkey) : Pubkey :=
  if mxeProgramId = Pubkey.default then programId else mxeProgramId

def validateMxeAccount (P : Platform) (mxeAccount mxeProgramId : Pubkey) (e : VelaError) :
    Result Unit :=
  check (mxeAccount = deriveMxePubkey P mxeProgramId) e

structure ConfigIx where
  clusterPubkey : Pubkey
  clusterType : ClusterType
  clusterOffset : UInt64
  mxeProgramId : Pubkey

structure InitConfig extends ConfigIx where
  admin : Pubkey
  /-- as the program's data account has it -/
  upgradeAuthority : Option Pubkey
  mxeAccount : Pubkey
  bump : UInt8

def ProtocolConfig.new (ctx : InitConfig) : ProtocolConfig where
  admin := ctx.admin
  clusterPubkey := ctx.clusterPubkey
  clusterType := ctx.clusterType
  clusterOffset := ctx.clusterOffset
  wrappedUsdcMint := Pubkey.default
  wrappingVault := Pubkey.default
  paused := false
  pausedAt := 0
  transferHookProgramId := VelaProtocol.transferHookProgramId
  bump := ctx.bump
  version := currentAccountVersion
  mxeProgramId := normalizeMxeProgramId ctx.mxeProgramId

def initConfig (P : Platform) (w : World) (ctx : InitConfig) : Result World := do
  require (w.protocolConfig.isNone = true) (.host .accountAlreadyInitialized)
  check (ctx.upgradeAuthority = some ctx.admin) .unauthorizedAdmin
  validateClusterConfiguration P ctx.clusterPubkey ctx.clusterOffset
  validateMxeAccount P ctx.mxeAccount (normalizeMxeProgramId ctx.mxeProgramId)
    .invalidProtocolConfig
  return w.writeProtocolConfig (.new ctx)

structure UpdateConfig extends ConfigIx where
  admin : Pubkey
  mxeAccount : Pubkey

def updateConfig (P : Platform) (w : World) (ctx : UpdateConfig) : Result World := do
  validateClusterConfiguration P ctx.clusterPubkey ctx.clusterOffset
  let mxeProgramId := normalizeMxeProgramId ctx.mxeProgramId
  validateMxeAccount P ctx.mxeAccount mxeProgramId .invalidProtocolConfig
  let _ ← loadConfigAsAdmin w ctx.admin
  let config ← upgradeProtocolConfig w
  return w.writeProtocolConfig { config with
    clusterPubkey := ctx.clusterPubkey
    clusterType := ctx.clusterType
    clusterOffset := ctx.clusterOffset
    mxeProgramId := mxeProgramId }

def pauseProtocol (w : World) (admin : Pubkey) : Result World := do
  let _ ← loadConfigAsAdmin w admin
  let config ← upgradeProtocolConfig w
  return w.writeProtocolConfig { config with
    paused := true
    pausedAt := w.clock.unixTimestamp }

def unpauseProtocol (w : World) (admin : Pubkey) : Result World := do
  let _ ← loadConfigAsAdmin w admin
  let config ← upgradeProtocolConfig w
  return w.writeProtocolConfig { config with
    paused := false
    pausedAt := 0 }

def endpointBytes (endpoint : List UInt8) : Bytes 128 :=
  BitVec.ofNat _ (endpoint.foldr (fun b rest => b.toNat + 256 * rest) 0)

def checkEndpoint (endpoint : List UInt8) : Result Unit := do
  check (endpoint.length ≤ 128) .endpointTooLong
  check (endpoint ≠ []) .endpointEmpty

structure InitKeeperConfig where
  admin : Pubkey
  mode : KeeperMode
  keeperEndpoint : List UInt8
  keeperAuthority : Pubkey
  bump : UInt8

def KeeperConfig.new (ctx : InitKeeperConfig) : KeeperConfig where
  admin := ctx.admin
  mode := ctx.mode
  keeperEndpoint := endpointBytes ctx.keeperEndpoint
  endpointLen := UInt8.ofNat ctx.keeperEndpoint.length
  keeperAuthority := ctx.keeperAuthority
  bump := ctx.bump
  version := currentAccountVersion
  reserved := 0

def keeperConfigEvent (admin : Pubkey) (config : KeeperConfig) : KeeperConfigEvent where
  admin := admin
  mode := config.mode
  keeperAuthority := config.keeperAuthority

def initKeeperConfig (w : World) (ctx : InitKeeperConfig) : Result World := do
  checkEndpoint ctx.keeperEndpoint
  check (ctx.keeperAuthority ≠ Pubkey.default) .invalidKeeperAuthority
  let _ ← loadConfigAsAdmin w ctx.admin
  require (w.keeperConfig.isNone = true) (.host .accountAlreadyInitialized)
  let config := KeeperConfig.new ctx
  return { w with keeperConfig := some (.current config) }.emit
    (.config (.keeperConfigInitialized (keeperConfigEvent config.admin config)))

def LoadedKeeperConfig.intoCurrent : LoadedKeeperConfig → KeeperConfig
  | .current c => c
  | .legacy c =>
    { admin := c.admin
      mode := c.mode
      keeperEndpoint := c.keeperEndpoint
      endpointLen := c.endpointLen
      keeperAuthority := c.keeperAuthority
      bump := c.bump
      version := currentAccountVersion
      reserved := 0 }

def upgradeKeeperConfig (w : World) : Result KeeperConfig := do
  let loaded ← loadKeeperConfig w
  return { loaded.intoCurrent with version := currentAccountVersion, reserved := 0 }

structure UpdateKeeperConfig where
  admin : Pubkey
  mode : Option KeeperMode
  keeperEndpoint : Option (List UInt8)
  keeperAuthority : Option Pubkey

def KeeperConfig.updated (config : KeeperConfig) (ctx : UpdateKeeperConfig) : KeeperConfig :=
  { config with
    mode := ctx.mode.getD config.mode
    endpointLen := (ctx.keeperEndpoint.map fun endpoint =>
      UInt8.ofNat endpoint.length).getD config.endpointLen
    keeperEndpoint := (ctx.keeperEndpoint.map endpointBytes).getD config.keeperEndpoint
    keeperAuthority := ctx.keeperAuthority.getD config.keeperAuthority }

def updateKeeperConfig (w : World) (ctx : UpdateKeeperConfig) : Result World := do
  check (ctx.mode.isSome ∨ ctx.keeperEndpoint.isSome ∨ ctx.keeperAuthority.isSome)
    .noUpdateProvided
  check (∀ endpoint ∈ ctx.keeperEndpoint, endpoint.length ≤ 128) .endpointTooLong
  check (∀ endpoint ∈ ctx.keeperEndpoint, endpoint ≠ []) .endpointEmpty
  check (∀ authority ∈ ctx.keeperAuthority, authority ≠ Pubkey.default) .invalidKeeperAuthority
  let _ ← loadConfigAsAdmin w ctx.admin
  let existing ← upgradeKeeperConfig w
  let config := existing.updated ctx
  return { w with keeperConfig := some (.current config) }.emit
    (.config (.keeperConfigUpdated (keeperConfigEvent ctx.admin config)))

structure InitTokenConfig where
  admin : Pubkey
  mint : Pubkey
  billingRail : BillingRail
  decimals : UInt8
  bump : UInt8

def initialTokenConfig (ctx : InitTokenConfig) (tokenProgram : Pubkey) (now : Int64) :
    TokenConfig where
  mint := ctx.mint
  tokenProgram := tokenProgram
  billingRail := ctx.billingRail
  decimals := ctx.decimals
  enabled := true
  oracleReference := Pubkey.default
  admin := ctx.admin
  createdAt := now
  bump := ctx.bump
  version := currentAccountVersion
  reserved := 0

def initTokenConfig (w : World) (ctx : InitTokenConfig) : Result World := do
  let (tokenProgram, decimals) ← interfaceMint w ctx.mint
  require ((w.tokenConfig ctx.mint).isNone = true) (.host .accountAlreadyInitialized)
  let _ ← loadConfigAsAdmin w ctx.admin
  check (decimals = ctx.decimals) .tokenConfigDecimalsMismatch
  let config := initialTokenConfig ctx tokenProgram w.clock.unixTimestamp
  return { w with tokenConfig := Function.update w.tokenConfig ctx.mint (some config) }.emit
    (.config (.tokenConfigCreated {
      mint := config.mint
      billingRail := ctx.billingRail
      decimals := ctx.decimals
      admin := config.admin }))

structure UpdateTokenConfig where
  admin : Pubkey
  mint : Pubkey
  enabled : Option Bool
  oracleReference : Option Pubkey

/-- `update_token_config`; the account is pinned by the mint it stores -/
def updateTokenConfig (w : World) (ctx : UpdateTokenConfig) : Result World := do
  let existing ← orHost (w.tokenConfig ctx.mint) .accountNotInitialized
  require (existing.mint = ctx.mint) (.host .constraintSeeds)
  check (ctx.enabled.isSome ∨ ctx.oracleReference.isSome) .noUpdateProvided
  let _ ← loadConfigAsAdmin w ctx.admin
  let config := { existing with
    enabled := ctx.enabled.getD existing.enabled
    oracleReference := ctx.oracleReference.getD existing.oracleReference }
  return { w with tokenConfig := Function.update w.tokenConfig ctx.mint (some config) }.emit
    (.config (.tokenConfigUpdated {
      mint := config.mint
      enabled := ctx.enabled
      oracleReference := ctx.oracleReference }))

structure InitWrappedMint where
  admin : Pubkey
  wrappedUsdcMint : Pubkey
  splUsdcMint : Pubkey

def InitWrappedMint.wrappingVault (P : Platform) (ctx : InitWrappedMint) : Pubkey :=
  associatedTokenAddress P (mintAuthority P) ctx.splUsdcMint

def World.ensureVault (w : World) (P : Platform) (ctx : InitWrappedMint) : Result World :=
  match w.splTokenAccount (ctx.wrappingVault P) with
  | some account => do
    require (account.mint = ctx.splUsdcMint) (.host .constraintTokenMint)
    require (account.owner = mintAuthority P) (.host .constraintTokenOwner)
    return w
  | none => return { w with
      splTokenAccount := Function.update w.splTokenAccount (ctx.wrappingVault P)
        (some ⟨ctx.splUsdcMint, mintAuthority P, 0⟩) }

/-- The program alone mints, and may move or burn what anyone holds. -/
def wrappedMint (P : Platform) : Mint where
  decimals := usdcDecimals
  supply := 0
  mintAuthority := some (VelaProtocol.mintAuthority P)
  permanentDelegate := some (VelaProtocol.mintAuthority P)
  nonTransferable := false
  transferHookProgramId := some VelaProtocol.transferHookProgramId

def World.createMint (w : World) (key : Pubkey) (mint : Mint) : Result World := do
  require (w.dataIsEmpty key = true) (.host .accountAlreadyInitialized)
  return { w with mint := Function.update w.mint key (some mint) }

def initWrappedMint (P : Platform) (w : World) (ctx : InitWrappedMint) : Result World := do
  let _ ← orHost (w.splMint ctx.splUsdcMint) .accountNotInitialized
  let w ← w.ensureVault P ctx
  let _ ← loadConfigAsAdmin w ctx.admin
  let config ← upgradeProtocolConfig w
  check (config.wrappedUsdcMint = Pubkey.default) .wrappedMintAlreadyInitialized
  let w ← w.createMint ctx.wrappedUsdcMint (wrappedMint P)
  return w.writeProtocolConfig { config with
    wrappedUsdcMint := ctx.wrappedUsdcMint
    wrappingVault := ctx.wrappingVault P }

structure InitMerchantCredential where
  merchant : Pubkey
  credentialMint : Pubkey

/-- The merchant record mints credentials and burns them without the holder. -/
def credentialMintOf (P : Platform) (merchant : Pubkey) : Mint where
  decimals := 0
  supply := 0
  mintAuthority := some (P.findProgramAddress (.merchant merchant)).1
  permanentDelegate := some (P.findProgramAddress (.merchant merchant)).1
  nonTransferable := true
  transferHookProgramId := none

/-- `init_merchant_credential`, a no-op once the mint is set -/
def initMerchantCredential (P : Platform) (w : World) (ctx : InitMerchantCredential) :
    Result World := do
  require (ctx.credentialMint = (P.findProgramAddress (.merchantCredential ctx.merchant)).1)
    (.host .invalidSeeds)
  let (w, state) ← ensureMerchantState w ctx.merchant
    (P.findProgramAddress (.merchant ctx.merchant)).2
  if state.credentialMint ≠ Pubkey.default then do
    require (state.credentialMint = ctx.credentialMint) (.host .accountAlreadyInitialized)
    return w
  else do
    let w ← w.createMint ctx.credentialMint (credentialMintOf P ctx.merchant)
    return w.writeMerchantState ctx.merchant { state with credentialMint := ctx.credentialMint }

structure InitCompDef where
  payer : Pubkey
  mxeProgram : Pubkey
  mxeAccount : Pubkey

/-- The four `init_*_comp_def` instructions; what Arcium stores for a circuit is its own. -/
def initCompDef (P : Platform) (w : World) (ctx : InitCompDef) : Result World := do
  validateMxeAccount P ctx.mxeAccount ctx.mxeProgram .invalidArciumAccount
  return w

end VelaProtocol
