import VelaProtocol.Footprint
import VelaProtocol.TransferHook

/-! The list of extra accounts behind a hooked mint, and the accounts a transfer passes along for
it. What the list looks like in bytes is the resolution library's business. -/
namespace VelaProtocol

open Guard

structure AccountMeta where
  pubkey : Pubkey
  isSigner : Bool
  isWritable : Bool
  deriving DecidableEq, Repr

namespace AccountMeta

def writable (pubkey : Pubkey) (isSigner : Bool) : AccountMeta := ⟨pubkey, isSigner, true⟩

def readonly (pubkey : Pubkey) (isSigner : Bool) : AccountMeta := ⟨pubkey, isSigner, false⟩

end AccountMeta

inductive Seed where
  | literal (bytes : List UInt8)
  | accountKey (index : UInt8)
  deriving DecidableEq, Repr

def Seed.value (accounts : List Pubkey) : Seed → Option (List UInt8)
  | .literal bytes => some bytes
  | .accountKey index => accounts[index.toNat]?.map Layout.pubkey.encode

/-- `spl_tlv_account_resolution`, as far as the programs call it. -/
structure TlvAccountResolution where
  ExtraAccountMeta : Type
  newWithPubkey : Pubkey → Bool → Bool → Option ExtraAccountMeta
  newExternalPdaWithSeeds : UInt8 → List Seed → Bool → Bool → Option ExtraAccountMeta
  sizeOf : Nat → Option Nat
  init : List UInt8 → List ExtraAccountMeta → Option (List UInt8)
  resolve : ExtraAccountMeta → List Pubkey → Option AccountMeta
  /-- an account that is also in the call so far gets no more rights than it has there -/
  deEscalate : List AccountMeta → AccountMeta → AccountMeta
  addToCpiInstruction : List UInt8 → List AccountMeta → Option (List AccountMeta)

namespace TlvAccountResolution

variable (T : TlvAccountResolution)

def addAll (base : List AccountMeta) :
    List T.ExtraAccountMeta → List AccountMeta → Option (List AccountMeta)
  | [], accounts => some accounts
  | entry :: rest, accounts => do
    let next ← T.resolve entry (accounts.map AccountMeta.pubkey)
    addAll base rest (accounts ++ [T.deEscalate base next])

/-- What the library promises; `derive` is `find_program_address` on raw seeds. -/
structure Lawful (derive : Pubkey → List (List UInt8) → Pubkey) : Prop where
  pubkey : ∀ key s w entry, T.newWithPubkey key s w = some entry →
    ∀ accounts, T.resolve entry accounts = some ⟨key, s, w⟩
  pda : ∀ index seeds s w entry, T.newExternalPdaWithSeeds index seeds s w = some entry →
    ∀ accounts program bytes, accounts[index.toNat]? = some program →
      seeds.mapM (Seed.value accounts) = some bytes →
      T.resolve entry accounts = some ⟨derive program bytes, s, w⟩
  key : ∀ base a, (T.deEscalate base a).pubkey = a.pubkey
  signer : ∀ base a, (T.deEscalate base a).isSigner = true → a.isSigner = true
  writable : ∀ base a, (T.deEscalate base a).isWritable = true → a.isWritable = true
  length : ∀ bytes entries data, T.init bytes entries = some data → data.length = bytes.length
  /-- a list written over zeros is the list that is read -/
  stored : ∀ entries size data, T.sizeOf entries.length = some size →
    T.init (List.replicate size 0) entries = some data →
    ∀ base, T.addToCpiInstruction data base = T.addAll base entries base

end TlvAccountResolution

def approvalSeed : List UInt8 := [97, 112, 112, 114, 111, 118, 97, 108]

def tokenConfigSeed : List UInt8 := [116, 111, 107, 101, 110, 95, 99, 111, 110, 102, 105, 103]

structure ListPlatform extends HookPlatform where
  tlv : TlvAccountResolution
  derive : Pubkey → List (List UInt8) → Pubkey
  lawful : tlv.Lawful derive
  approval_derived : ∀ owner, (findProgramAddress (.approval owner)).1 =
    derive programId [approvalSeed, Layout.pubkey.encode owner]
  tokenConfig_derived : ∀ mint, tokenConfigAddress mint =
    derive programId [tokenConfigSeed, Layout.pubkey.encode mint]

inductive MetaListError where
  | program (e : Error)
  | metaListAlreadyInitialized
  deriving DecidableEq, Repr

abbrev ListResult := Except MetaListError

def ListResult.of {α : Type} : Result α → ListResult α := Except.mapError .program

/-- The ledger with the lists the hook program keeps, one for each mint. -/
structure HookLedger where
  world : World
  metaList : Pubkey → Option (List UInt8)

structure ExtraAccountMetaListAccounts where
  admin : Pubkey
  config : AccountInfo
  extraAccountMetaList : Pubkey
  mint : AccountInfo
  wrappingVault : Pubkey
  deriving DecidableEq

def systemProgramId : Pubkey := Pubkey.default

def build8SlotAccountMetas (T : TlvAccountResolution) (protocolProgram vault config : Pubkey) :
    Result (List T.ExtraAccountMeta) := do
  let program ← orHost (T.newWithPubkey protocolProgram false false) .invalidAccountData
  let vault ← orHost (T.newWithPubkey vault false false) .invalidAccountData
  let config ← orHost (T.newWithPubkey config false false) .invalidAccountData
  let approval ← orHost (T.newExternalPdaWithSeeds 5 [.literal approvalSeed, .accountKey 3]
    false true) .invalidAccountData
  let tokenConfig ← orHost (T.newExternalPdaWithSeeds 5 [.literal tokenConfigSeed, .accountKey 1]
    false false) .invalidAccountData
  let reserved6 ← orHost (T.newWithPubkey systemProgramId false false) .invalidAccountData
  let reserved7 ← orHost (T.newWithPubkey systemProgramId false false) .invalidAccountData
  let reserved8 ← orHost (T.newWithPubkey systemProgramId false false) .invalidAccountData
  return [program, vault, config, approval, tokenConfig, reserved6, reserved7, reserved8]

section Handlers

variable (P : ListPlatform)

def openMetaList (ctx : ExtraAccountMetaListAccounts) : Result Unit := do
  let _ ← orHost (P.unpackMint ctx.mint) .accountDidNotDeserialize
  require (ctx.extraAccountMetaList = P.extraAccountMetasAddress ctx.mint.key)
    (.host .constraintSeeds)

def checkMetaListAdmin (ctx : ExtraAccountMetaListAccounts) : Result Unit := do
  let config ← Hook.loadProtocolConfig P.toHookPlatform ctx.config
  check (config.transferHookProgramId = transferHookProgramId) .invalidProtocolConfig
  check (config.admin = ctx.admin) .unauthorizedAdmin
  check (ctx.wrappingVault = config.wrappingVault) .vaultMismatch

/-- The list both handlers write, over zeros. -/
def writeMetaList (size : Nat) (ctx : ExtraAccountMetaListAccounts) : Result (List UInt8) := do
  let accountMetas ← build8SlotAccountMetas P.tlv programId ctx.wrappingVault ctx.config.key
  orHost (P.tlv.init (List.replicate size 0) accountMetas) .invalidAccountData

def HookLedger.setMetaList (s : HookLedger) (mint : Pubkey) (data : List UInt8) : HookLedger :=
  { s with metaList := Function.update s.metaList mint (some data) }

theorem HookLedger.setMetaList_self (s : HookLedger) (mint : Pubkey) (data : List UInt8) :
    (s.setMetaList mint data).metaList mint = some data := Function.update_self _ _ _

theorem HookLedger.setMetaList_of_ne {mint other : Pubkey} (different : other ≠ mint)
    (s : HookLedger) (data : List UInt8) :
    (s.setMetaList mint data).metaList other = s.metaList other :=
  Function.update_of_ne different _ _

def initExtraAccountMetaList (s : HookLedger) (ctx : ExtraAccountMetaListAccounts) :
    ListResult HookLedger := do
  .of (openMetaList P ctx)
  let size ← .of (orHost (P.tlv.sizeOf 8) .programFailedToComplete)
  .of (require ((s.metaList ctx.mint.key).isNone = true) (.host .accountAlreadyInitialized))
  .of (checkMetaListAdmin P ctx)
  let data ← .of (writeMetaList P size ctx)
  return s.setMetaList ctx.mint.key data

/-- `handler_update_extra_account_meta_list`, less the rent the admin tops up. An account that is
not there has no data; the runtime lets the program write only one of its own. -/
def updateExtraAccountMetaList (s : HookLedger) (ctx : ExtraAccountMetaListAccounts) :
    ListResult HookLedger := do
  .of (openMetaList P ctx)
  .of (checkMetaListAdmin P ctx)
  let newSize ← .of (orHost (P.tlv.sizeOf 8) .programFailedToComplete)
  require (((s.metaList ctx.mint.key).getD []).length < newSize) .metaListAlreadyInitialized
  let data ← .of (writeMetaList P newSize ctx)
  .of (require ((s.metaList ctx.mint.key).isSome = true) (.host .incorrectProgramId))
  return s.setMetaList ctx.mint.key data

end Handlers

structure TransferCheckedWithHookAccounts where
  source : Pubkey
  mint : Pubkey
  destination : Pubkey
  authority : Pubkey
  protocolProgram : Pubkey
  wrappingVault : Pubkey
  protocolConfig : Pubkey
  pullApproval : Pubkey
  tokenConfig : Pubkey
  systemProgram : Pubkey
  extraAccountMetaList : Pubkey
  hookProgram : Pubkey

def transferHookAccountMetas (accounts : TransferCheckedWithHookAccounts) : List AccountMeta :=
  [.readonly accounts.protocolProgram false,
    .readonly accounts.wrappingVault false,
    .readonly accounts.protocolConfig false,
    .writable accounts.pullApproval false,
    .readonly accounts.tokenConfig false,
    .readonly accounts.systemProgram false,
    .readonly accounts.systemProgram false,
    .readonly accounts.systemProgram false,
    .readonly accounts.extraAccountMetaList false,
    .readonly accounts.hookProgram false]

def convertInstruction (metas : List AccountMeta) : List AccountMeta :=
  metas.map fun a =>
    if a.isWritable then .writable a.pubkey a.isSigner else .readonly a.pubkey a.isSigner

theorem convertInstruction_eq (metas : List AccountMeta) : convertInstruction metas = metas := by
  refine (List.map_congr_left fun a _ => ?_).trans (List.map_id metas)
  obtain ⟨key, signer, writable⟩ := a
  cases writable <;> rfl

def TransferAccounts.passed (P : HookPlatform) (config : ProtocolConfig)
    (accounts : TransferAccounts) : TransferCheckedWithHookAccounts where
  source := accounts.source
  mint := accounts.mint
  destination := accounts.destination
  authority := accounts.authority
  protocolProgram := programId
  wrappingVault := config.wrappingVault
  protocolConfig := P.configAddress
  pullApproval := (P.findProgramAddress (.approval accounts.authority)).1
  tokenConfig := P.tokenConfigAddress accounts.mint
  systemProgram := systemProgramId
  extraAccountMetaList := P.extraAccountMetasAddress accounts.mint
  hookProgram := config.transferHookProgramId

/-- What the token program calls the hook with, before the list's accounts. -/
def executeAccounts (P : HookPlatform) (accounts : TransferAccounts) : List AccountMeta :=
  [.readonly accounts.source false,
    .readonly accounts.mint false,
    .readonly accounts.destination false,
    .readonly accounts.authority false,
    .readonly (P.extraAccountMetasAddress accounts.mint) false]

/-- Data a list for this vault was written to, over zeros. -/
structure ListsVault (P : ListPlatform) (vault : Pubkey) (data : List UInt8) : Prop where
  written : ∃ size metas, P.tlv.sizeOf 8 = some size ∧
    build8SlotAccountMetas P.tlv programId vault P.configAddress = .ok metas ∧
    P.tlv.init (List.replicate size 0) metas = some data

def extraKeys (P : HookPlatform) (vault : Pubkey) (accounts : TransferAccounts) : List Pubkey :=
  [programId, vault, P.configAddress, (P.findProgramAddress (.approval accounts.authority)).1,
    P.tokenConfigAddress accounts.mint, systemProgramId, systemProgramId, systemProgramId]

section Resolution

variable {P : ListPlatform} {vault : Pubkey} {data : List UInt8}

theorem addAll_cons {T : TlvAccountResolution} {entry : T.ExtraAccountMeta}
    {rest : List T.ExtraAccountMeta} {base accounts : List AccountMeta} {next : AccountMeta}
    (resolved : T.resolve entry (accounts.map AccountMeta.pubkey) = some next) :
    T.addAll base (entry :: rest) accounts =
      T.addAll base rest (accounts ++ [T.deEscalate base next]) := by
  rw [TlvAccountResolution.addAll, resolved]
  rfl

/-- An account of the list: its key is kept, it never signs, and only an approval is written. -/
structure Grants (approval : Pubkey) (a : AccountMeta) (key : Pubkey) : Prop where
  pubkey : a.pubkey = key
  signer : a.isSigner = false
  writable : a.isWritable = true → key = approval

theorem deEscalate_grants {approval : Pubkey} (base : List AccountMeta) {key : Pubkey}
    {writable : Bool} (own : writable = true → key = approval) :
    Grants approval (P.tlv.deEscalate base ⟨key, false, writable⟩) key where
  pubkey := P.lawful.key base _
  signer := by
    cases signs : (P.tlv.deEscalate base ⟨key, false, writable⟩).isSigner with
    | false => rfl
    | true => exact (P.lawful.signer base _ signs).symm
  writable given := own (P.lawful.writable base _ given)

theorem ListsVault.resolves (lists : ListsVault P vault data) (accounts : TransferAccounts) :
    ∃ extra, P.tlv.addToCpiInstruction data (executeAccounts P.toHookPlatform accounts) =
      some (executeAccounts P.toHookPlatform accounts ++ extra) ∧
        List.Forall₂ (Grants (P.findProgramAddress (.approval accounts.authority)).1) extra
          (extraKeys P.toHookPlatform vault accounts) := by
  obtain ⟨size, metas, sized, built, written⟩ := lists.written
  simp only [build8SlotAccountMetas, orHost, bind_eq_ok, orError_eq_ok, pure_eq_ok] at built
  obtain ⟨e₁, program, e₂, own, e₃, config, e₄, approval, e₅, token, e₆, reserved, e₇, reserved',
    e₈, reserved'', rfl⟩ := built
  let base := executeAccounts P.toHookPlatform accounts
  rw [P.lawful.stored [e₁, e₂, e₃, e₄, e₅, e₆, e₇, e₈] size data sized written]
  change ∃ extra, P.tlv.addAll base _ base = some (base ++ extra) ∧ _
  rw [addAll_cons (P.lawful.pubkey _ _ _ _ program _), addAll_cons (P.lawful.pubkey _ _ _ _ own _),
    addAll_cons (P.lawful.pubkey _ _ _ _ config _),
    addAll_cons (P.lawful.pda _ _ _ _ _ approval _ programId
      [approvalSeed, Layout.pubkey.encode accounts.authority] ?program ?seeds),
    addAll_cons (P.lawful.pda _ _ _ _ _ token _ programId
      [tokenConfigSeed, Layout.pubkey.encode accounts.mint] ?program' ?seeds'),
    addAll_cons (P.lawful.pubkey _ _ _ _ reserved _),
    addAll_cons (P.lawful.pubkey _ _ _ _ reserved' _),
    addAll_cons (P.lawful.pubkey _ _ _ _ reserved'' _), ← P.approval_derived,
    ← P.tokenConfig_derived]
  case program => exact congrArg some (P.lawful.key base _)
  case seeds => rfl
  case program' => exact congrArg some (P.lawful.key base _)
  case seeds' => rfl
  simp only [TlvAccountResolution.addAll, List.append_assoc]
  refine ⟨_, rfl, ?_⟩
  have silent {key : Pubkey} : Grants (P.findProgramAddress (.approval accounts.authority)).1
      (P.tlv.deEscalate base ⟨key, false, false⟩) key := deEscalate_grants base nofun
  exact .cons silent (.cons silent (.cons silent (.cons (deEscalate_grants base fun _ => rfl)
    (.cons silent (.cons silent (.cons silent (.cons silent .nil)))))))

end Resolution

end VelaProtocol
