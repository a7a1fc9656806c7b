import VelaProtocol.Deployment.Streams
import VelaProtocol.Depiction

/-! The deployment as the transfer hook sees it: every account written out in bytes. -/
namespace VelaProtocol.Deployment

def token2022 : Pubkey := 33

def tokenAccountLayout : Codec TokenAccount :=
  (Layout.pubkey.pair (Layout.pubkey.pair Codec.u64)).iso
    (fun ⟨mint, owner, amount⟩ => ⟨mint, owner, amount⟩) (fun t => ⟨t.mint, t.owner, t.amount⟩)
    fun _ => rfl

def hookPlatform : HookPlatform where
  toPlatform := platform
  unpackAccount info := if info.owner = token2022 then tokenAccountLayout.read info.data else none
  unpackMint info := if info.owner = token2022 ∧ info.data.length = 82 then some billingMint
    else none
  configAddress := (derived 130 []).1
  tokenConfigAddress mint := (derived 131 [mint.toNat]).1
  extraAccountMetasAddress mint := (derived 132 [mint.toNat]).1

def stored {α : Type} (key : Pubkey) (c : Codec α) : Option α → AccountInfo
  | none => ⟨key, 0, []⟩
  | some a => ⟨key, programId, c.encode a ++ List.replicate 8 0⟩

def tokenInfo (key : Pubkey) : Option TokenAccount → AccountInfo
  | none => ⟨key, 0, []⟩
  | some t => ⟨key, token2022, tokenAccountLayout.encode t ++ List.replicate 93 0⟩

def currentConfig (w : World) : Option ProtocolConfig :=
  match w.protocolConfig with
  | some (.current c) => some c
  | _ => none

def currentLayout (w : World) (key : Pubkey) : Option VelaMandate :=
  match w.mandate key with
  | some ⟨.current m, _⟩ => some m
  | _ => none

/-- A stream where there is one, and a mandate otherwise. -/
def authorityInfo (w : World) (key : Pubkey) : AccountInfo :=
  if (w.stream key).isSome then stored key Layout.streamMandateAccount (w.stream key)
  else stored key Layout.velaMandateAccount (currentLayout w key)

def hookView (w : World) (accounts : TransferAccounts) : TransferHook where
  sourceToken := tokenInfo accounts.source (w.tokenAccount accounts.source)
  mint := ⟨accounts.mint, token2022, List.replicate 82 0⟩
  destinationToken := tokenInfo accounts.destination (w.tokenAccount accounts.destination)
  owner := authorityInfo w accounts.authority
  extraAccountMetaList := ⟨hookPlatform.extraAccountMetasAddress accounts.mint, 0, []⟩
  protocolProgram := ⟨programId, 0, []⟩
  wrappingVault := ⟨accounts.wrappingVault, 0, []⟩
  protocolConfig := stored hookPlatform.configAddress Layout.protocolConfigAccount
    (currentConfig w)
  pullApproval := stored (findProgramAddress (.approval accounts.authority)).1
    Layout.pullApprovalAccount (w.pullApproval accounts.authority)
  tokenConfig := stored (hookPlatform.tokenConfigAddress accounts.mint) Layout.tokenConfigAccount
    (w.tokenConfig accounts.mint)

theorem stored_stores {α : Type} (key : Pubkey) (c : Codec α) {value : Option α} {a : α}
    (found : value = some a) : (stored key c value).Stores c a := by
  subst found
  exact ⟨rfl, _, rfl⟩

theorem stored_key {α : Type} (key : Pubkey) (c : Codec α) (value : Option α) :
    (stored key c value).key = key := by
  cases value <;> rfl

theorem unpackAccount_eq {info : AccountInfo} (owner : info.owner = token2022) :
    hookPlatform.unpackAccount info = tokenAccountLayout.read info.data := if_pos owner

theorem unpack_tokenInfo (key : Pubkey) {value : Option TokenAccount} {t : TokenAccount}
    (found : value = some t) : hookPlatform.unpackAccount (tokenInfo key value) = some t := by
  subst found
  rw [unpackAccount_eq rfl]
  exact Codec.Holds.read ⟨_, rfl⟩

theorem tokenInfo_key (key : Pubkey) (value : Option TokenAccount) :
    (tokenInfo key value).key = key := by
  cases value <;> rfl

theorem authorityInfo_key (w : World) (key : Pubkey) : (authorityInfo w key).key = key := by
  unfold authorityInfo
  split <;> exact stored_key _ _ _

theorem hookView_depicts {w : World} {accounts : TransferAccounts}
    (single : w.stream accounts.authority = none ∨ w.mandate accounts.authority = none) :
    Depicts hookPlatform w accounts (hookView w accounts) where
  source := tokenInfo_key _ _
  sourceToken t found := ⟨t, unpack_tokenInfo _ found, rfl, rfl⟩
  destination := tokenInfo_key _ _
  destinationToken t found := ⟨t, unpack_tokenInfo _ found, rfl, rfl⟩
  mint := rfl
  mintDecodes := rfl
  authority := authorityInfo_key _ _
  stream s found := by
    have present : (w.stream accounts.authority).isSome = true := by
      rw [Option.mem_def.mp found]
      rfl
    simp only [hookView, authorityInfo, present, if_true]
    exact stored_stores _ _ found
  mandate account found m layout := by
    have apart : w.stream accounts.authority = none := by
      refine single.resolve_right ?_
      rw [Option.mem_def.mp found]
      exact nofun
    have current : currentLayout w accounts.authority = some m := by
      obtain ⟨contents, dataLen⟩ := account
      subst layout
      rw [currentLayout, Option.mem_def.mp found]
    simp only [hookView, authorityInfo, apart]
    exact stored_stores _ _ current
  metas := rfl
  protocol := rfl
  vault := rfl
  configAddress := stored_key _ _ _
  config c found := stored_stores _ _ (by rw [currentConfig, found])
  tokenAddress := stored_key _ _ _
  tokenConfig c found := stored_stores _ _ found
  approvalAddress := stored_key _ _ _
  approval a found := stored_stores _ _ found

end VelaProtocol.Deployment
