import Mathlib.Data.FinEnum
import VelaProtocol.Deployment.Protocol
import VelaProtocol.Lib.Totals

/-! Wrapped tokens are backed: what the vault holds is what has been wrapped and not unwrapped
again, and what was donated. -/
namespace VelaProtocol

open Guard Monitored Totals

variable {P : Platform} {w w₁ w' : World} {mint vault classic : Pubkey} {donated : Nat}

def TokenAccount.amountOf (mint : Pubkey) (account : TokenAccount) : Nat :=
  if account.mint = mint then account.amount.toNat else 0

noncomputable def World.circulating (w : World) (mint : Pubkey) : Nat :=
  total (TokenAccount.amountOf mint) w.tokenAccount

def World.supply (w : World) (mint : Pubkey) : Nat :=
  ((w.mint mint).map fun m => m.supply.toNat).getD 0

theorem supply_of_mint {m : Mint} (found : w.mint mint = some m) :
    w.supply mint = m.supply.toNat := by
  rw [World.supply, found]
  rfl

theorem circulating_congr (same : w'.tokenAccount = w.tokenAccount) :
    w'.circulating mint = w.circulating mint := by
  rw [World.circulating, World.circulating, same]

theorem circulating_update {address : Pubkey} (after : TokenAccount)
    (written : w'.tokenAccount = Function.update w.tokenAccount address (some after)) :
    w'.circulating mint + cell (TokenAccount.amountOf mint) (w.tokenAccount address) =
      w.circulating mint + after.amountOf mint := by
  rw [World.circulating, World.circulating, written]
  exact total_update _ _ _ _

theorem held_le_circulating {address : Pubkey} {account : TokenAccount}
    (found : w.tokenAccount address = some account) (own : account.mint = mint) :
    account.amount.toNat ≤ w.circulating mint := by
  have bound := cell_le_total (TokenAccount.amountOf mint) w.tokenAccount address
  rw [World.circulating]
  simpa only [found, cell_some, TokenAccount.amountOf, own, if_true] using bound

theorem mintTo_supplied {account authority : Pubkey} {amount : UInt64}
    (h : mintTo w mint account authority amount = .ok w') :
    w'.supply mint = w.supply mint + amount.toNat ∧
      w'.circulating mint = w.circulating mint + amount.toNat ∧ (w'.mint mint).isSome = true := by
  simp only [mintTo, orHost, orError_bind_eq_ok, require_bind_eq_ok, pure_eq_ok] at h
  obtain ⟨before, found, own, m, stored, _, supply, added, received, sum, same⟩ := h
  have written : w'.circulating mint + _ = _ :=
    circulating_update { before with amount := received } (by rw [← same])
  simp only [found, cell_some, TokenAccount.amountOf, own, if_true,
    Checked.addU64_eq_some.mp sum] at written
  have mints : w'.mint mint = some { m with supply := supply } := by
    rw [← same]
    exact Function.update_self _ _ _
  refine ⟨?_, ?_, ?_⟩
  · simp only [World.supply, mints, stored, Option.map_some, Option.getD_some,
      Checked.addU64_eq_some.mp added]
  · omega
  · rw [mints, Option.isSome_some]

theorem burn_supplied {account authority : Pubkey} {amount : UInt64}
    (h : burn w account mint authority amount = .ok w')
    (sound : w.supply mint = w.circulating mint) :
    w'.supply mint + amount.toNat = w.supply mint ∧
      w'.circulating mint + amount.toNat = w.circulating mint ∧
      (w'.mint mint).isSome = true := by
  simp only [burn, orHost, orError_bind_eq_ok, require_bind_eq_ok, pure_eq_ok] at h
  obtain ⟨source, found, m, stored, own, funds, _, same⟩ := h
  have held := held_le_circulating found own
  have supplied := supply_of_mint stored
  have value : amount.toNat ≤ source.amount.toNat := Checked.le_iff.mp funds
  have enough : amount ≤ m.supply := Checked.le_iff.mpr (by omega)
  have written : w'.circulating mint + _ = _ :=
    circulating_update { source with amount := source.amount - amount }
      (by rw [← same])
  simp only [found, cell_some, TokenAccount.amountOf, own, if_true,
    UInt64.toNat_sub_of_le _ _ funds] at written
  have mints : w'.mint mint = some { m with supply := m.supply - amount } := by
    rw [← same]
    exact Function.update_self _ _ _
  refine ⟨?_, ?_, ?_⟩
  · simp only [World.supply, mints, stored, Option.map_some, Option.getD_some,
      UInt64.toNat_sub_of_le _ _ enough]
    have := Checked.le_iff.mp enough
    omega
  · omega
  · rw [mints, Option.isSome_some]

theorem createIdempotent_circulating {owner key : Pubkey} :
    Ensures (createIdempotent P w owner key) fun w' => w'.mint = w.mint ∧
      ∀ mint, w'.circulating mint = w.circulating mint := by
  intro w' h
  simp only [createIdempotent] at h
  split at h
  · simp only [require_bind_eq_ok, pure_eq_ok] at h
    obtain ⟨_, _, rfl⟩ := h
    exact ⟨rfl, fun _ => rfl⟩
  · rename_i vacant
    simp only [orHost, orError_bind_eq_ok, pure_eq_ok] at h
    obtain ⟨_, _, same⟩ := h
    refine ⟨by rw [← same], fun mint => ?_⟩
    have written : w'.circulating mint + _ = _ :=
      circulating_update ⟨key, owner, 0⟩ (by rw [← same])
    have empty : TokenAccount.amountOf mint ⟨key, owner, 0⟩ = 0 := ite_self _
    simpa only [vacant, cell_none, empty, Nat.add_zero] using written

theorem transferChecked_circulating {accounts : TransferAccounts} {amount : UInt64}
    {decimals : UInt8} : Ensures (transferChecked P w accounts amount decimals) fun w' =>
      w'.mint = w.mint ∧ ∀ mint, w'.circulating mint = w.circulating mint := by
  intro w' h
  simp only [transferChecked, orHost, orError_bind_eq_ok, require_bind_eq_ok] at h
  obtain ⟨source, found, destination, present, funds, same, _, _, _, _, _, _, h⟩ := h
  split at h
  · cases h
    exact ⟨rfl, fun _ => rfl⟩
  · rename_i different
    simp only [bind_eq_ok, orError_eq_ok, pure_eq_ok] at h
    obtain ⟨received, sum, _, _, moved⟩ := h
    refine ⟨by rw [← moved], fun mint => ?_⟩
    rw [World.circulating, World.circulating, ← moved]
    apply total_move different
    have value := Checked.addU64_eq_some.mp sum
    have less := Checked.le_iff.mp funds
    simp only [found, present, cell_some, TokenAccount.amountOf, same, value,
      UInt64.toNat_sub_of_le _ _ funds]
    split <;> omega

def Configures (mint vault : Pubkey) (w : World) : Prop :=
  ∃ config, w.protocolConfig = some (.current config) ∧ config.wrappedUsdcMint = mint ∧
    config.wrappingVault = vault ∧ config.version = currentAccountVersion

/-- The vault is the mint authority's and holds what circulates and what was donated, and there are
no more tokens than the mint says. -/
structure Backed (P : Platform) (mint vault classic : Pubkey) (w : World) (donated : Nat) :
    Prop where
  config : Configures mint vault w
  minted : (w.mint mint).isSome = true
  sound : w.supply mint = w.circulating mint
  holder : ∃ account, w.splTokenAccount vault = some account ∧ account.mint = classic ∧
    account.owner = mintAuthority P
  backed : w.splBalance vault = w.supply mint + donated
  decimals : 0 < w.supply mint → w.splMint classic = some usdcDecimals

/-- What the rest of the world may do: the vault and what circulates stay as they are. -/
structure Beside (mint vault : Pubkey) (w w' : World) : Prop where
  config : Configures mint vault w → Configures mint vault w'
  minted : w'.mint mint = w.mint mint
  circulating : w'.circulating mint = w.circulating mint
  holder : w'.splTokenAccount vault = w.splTokenAccount vault
  splMint : w'.splMint = w.splMint

theorem Beside.refl (mint vault : Pubkey) (w : World) : Beside mint vault w w :=
  ⟨id, rfl, rfl, rfl, rfl⟩

theorem Configures.of_eq (configures : Configures mint vault w)
    (same : w'.protocolConfig = w.protocolConfig) : Configures mint vault w' := by
  rw [Configures, same]
  exact configures

theorem Beside.of_eq (config : w'.protocolConfig = w.protocolConfig) (mints : w'.mint = w.mint)
    (tokens : w'.tokenAccount = w.tokenAccount) (coins : w'.splTokenAccount = w.splTokenAccount)
    (splMint : w'.splMint = w.splMint) : Beside mint vault w w' where
  config configures := configures.of_eq config
  minted := congrFun mints mint
  circulating := circulating_congr tokens
  holder := congrFun coins vault
  splMint := splMint

theorem Backed.beside (backed : Backed P mint vault classic w donated)
    (beside : Beside mint vault w w') : Backed P mint vault classic w' donated := by
  have supply : w'.supply mint = w.supply mint := by rw [World.supply, World.supply, beside.minted]
  constructor
  · exact beside.config backed.config
  · rw [beside.minted]
    exact backed.minted
  · rw [supply, beside.circulating]
    exact backed.sound
  · rw [beside.holder]
    exact backed.holder
  · rw [supply, World.splBalance, beside.holder]
    exact backed.backed
  · rw [supply, beside.splMint]
    exact backed.decimals

theorem splTransferChecked_into {source authority : Pubkey} {amount : UInt64} {decimals : UInt8}
    {classicMint : Pubkey} (backed : Backed P mint vault classic w donated)
    (other : authority ≠ mintAuthority P)
    (h : splTransferChecked w source classicMint vault authority amount decimals = .ok w') :
    SplOnly w w' ∧ w'.splBalance vault = w.splBalance vault + amount.toNat ∧
      (∃ account, w'.splTokenAccount vault = some account ∧ account.mint = classic ∧
        account.owner = mintAuthority P) ∧
      w.splMint classic = some decimals := by
  obtain ⟨stored, present, own, owner⟩ := backed.holder
  have apart : source ≠ vault := by
    rintro rfl
    obtain ⟨account, found, signed⟩ := (splTransferChecked_eq_ok h).owner
    obtain rfl := Option.some.inj (present.symm.trans found)
    exact other (signed.symm.trans owner)
  have paid := splTransferChecked_eq_ok h
  refine ⟨paid.only, paid.received apart, ?_⟩
  simp only [splTransferChecked, orHost, orError_bind_eq_ok, require_bind_eq_ok, if_neg apart,
    pure_eq_ok] at h
  obtain ⟨payer, _, receiver, found, _, same, named, dec, known, agree, _, received, _, rfl⟩ := h
  obtain rfl := Option.some.inj (present.symm.trans found)
  refine ⟨⟨_, Function.update_self _ _ _, own, owner⟩, ?_⟩
  rw [← own, ← same, named, known, agree]

theorem SplOnly.supply (only : SplOnly w w') : w'.supply mint = w.supply mint := by
  rw [only]
  rfl

theorem deposit_backed {accounts : WrappingAccounts} {payer : Pubkey} {amount : UInt64}
    (backed : Backed P mint vault classic w donated) (wrapped : accounts.wrappedUsdcMint = mint)
    (configured : accounts.wrappingVault = vault) (other : payer ≠ mintAuthority P)
    (h : deposit P w accounts payer amount = .ok w') :
    Backed P mint vault classic w' donated := by
  obtain ⟨paid, transferred, minted⟩ := bind_eq_ok.mp h
  rw [configured] at transferred
  rw [wrapped] at minted
  obtain ⟨only, received, kept, decimals⟩ := splTransferChecked_into backed other transferred
  obtain ⟨supply, circulating, stored⟩ := mintTo_supplied minted
  have frame := (mintTo_frame minted).1
  have config : paid.protocolConfig = w.protocolConfig := by rw [only]
  have classics : paid.splMint = w.splMint := by rw [only]
  have before : paid.circulating mint = w.circulating mint := circulating_congr (by rw [only])
  constructor
  · exact backed.config.of_eq (frame.protocolConfig.trans config)
  · exact stored
  · rw [supply, circulating, only.supply, backed.sound, before]
  · rw [frame.splTokenAccount]
    exact kept
  · rw [World.splBalance, frame.splTokenAccount]
    have sum : paid.splBalance vault = w'.supply mint + donated := by
      rw [received, backed.backed, supply, only.supply]
      omega
    exact sum
  · intro _
    rw [frame.splMint, classics]
    exact decimals

theorem withdraw_backed {accounts : WrappingAccounts} {owner : Pubkey} {amount : UInt64}
    (backed : Backed P mint vault classic w donated) (wrapped : accounts.wrappedUsdcMint = mint)
    (configured : accounts.wrappingVault = vault)
    (receives : ∃ account, w.splTokenAccount accounts.usdcAccount = some account ∧
      account.owner ≠ mintAuthority P)
    (h : withdraw P w accounts owner amount = .ok w') :
    Backed P mint vault classic w' donated := by
  obtain ⟨burned, gone, transferred⟩ := bind_eq_ok.mp h
  rw [wrapped] at gone
  rw [configured] at transferred
  obtain ⟨supply, circulating, stored⟩ := burn_supplied gone backed.sound
  have frame := (burn_frame gone).1
  obtain ⟨account, present, own, held⟩ := backed.holder
  have apart : vault ≠ accounts.usdcAccount := by
    rintro rfl
    obtain ⟨receiver, found, other⟩ := receives
    obtain rfl := Option.some.inj (present.symm.trans found)
    exact other held
  have balance : w.splBalance vault = account.amount.toNat := by
    rw [World.splBalance, present]
    rfl
  simp only [splTransferChecked, orHost, orError_bind_eq_ok, require_bind_eq_ok, if_neg apart,
    pure_eq_ok] at transferred
  obtain ⟨payer, found, receiver, _, funds, _, _, _, _, _, _, received, _, moved⟩ := transferred
  rw [frame.splTokenAccount] at found
  obtain rfl := Option.some.inj (present.symm.trans found)
  have less := Checked.le_iff.mp funds
  have left : w'.splTokenAccount vault =
      some { account with amount := account.amount - amount } := by
    rw [← moved]
    exact (Function.update_of_ne apart _ _).trans (Function.update_self _ _ _)
  have supplied : w'.supply mint = burned.supply mint := by
    rw [World.supply, World.supply, ← moved]
  have sound := backed.sound
  have whole := backed.backed
  constructor
  · exact backed.config.of_eq (by rw [← moved, frame.protocolConfig])
  · rw [← moved]
    exact stored
  · rw [supplied, circulating_congr (w := burned) (by rw [← moved])]
    omega
  · exact ⟨_, left, own, held⟩
  · rw [supplied, World.splBalance, left, Option.map_some, Option.getD_some,
      UInt64.toNat_sub_of_le _ _ funds]
    omega
  · rw [supplied, ← moved, frame.splMint]
    intro more
    exact backed.decimals (by omega)

theorem validateUsdcAccount_owner {accounts : WrappingAccounts} {owner : Pubkey} {e : Error}
    (h : validateUsdcAccount w accounts owner e = .ok ()) :
    ∃ account, w.splTokenAccount accounts.usdcAccount = some account ∧ account.owner = owner := by
  simp only [validateUsdcAccount, orHost, orError_bind_eq_ok, require_bind_eq_ok] at h
  obtain ⟨_, account, found, owner, _⟩ := h
  exact ⟨account, found, owner⟩

theorem Backed.loaded (backed : Backed P mint vault classic w donated)
    {config : LoadedProtocolConfig} (loaded : loadProtocolConfig w = .ok config) :
    config.wrappedUsdcMint = mint ∧ config.wrappingVault = vault := by
  obtain ⟨stored, present, named, vaulted, _⟩ := backed.config
  obtain rfl := Option.some.inj ((loadProtocolConfig_eq_ok loaded).symm.trans present)
  exact ⟨named, vaulted⟩

theorem Backed.anchored (backed : Backed P mint vault classic w donated)
    {config : ProtocolConfig} (loaded : anchorProtocolConfig w = .ok config) :
    config.wrappedUsdcMint = mint ∧ config.wrappingVault = vault := by
  obtain ⟨stored, present, named, vaulted, _⟩ := backed.config
  rw [anchorProtocolConfig, present] at loaded
  obtain rfl := Except.ok.inj loaded
  exact ⟨named, vaulted⟩

theorem wrap_backed {ctx : Wrap} (backed : Backed P mint vault classic w donated)
    (signed : ctx.subscriber ≠ mintAuthority P) (h : wrap P w ctx = .ok w') :
    Backed P mint vault classic w' donated := by
  unfold wrap at h
  iterate 4 obtain ⟨_, _, h⟩ := bind_eq_ok.mp h
  obtain ⟨config, loaded, h⟩ := bind_eq_ok.mp h
  obtain ⟨_, _, h⟩ := bind_eq_ok.mp h
  simp only [check, require_bind_eq_ok] at h
  obtain ⟨wrapped, configured, _, h⟩ := h
  have names := backed.loaded loaded
  exact deposit_backed backed (wrapped.trans names.1) (configured.trans names.2) signed h

theorem unwrapTokens_backed {ctx : Unwrap} (backed : Backed P mint vault classic w donated)
    (signed : ctx.user ≠ mintAuthority P) (h : unwrapTokens P w ctx = .ok w') :
    Backed P mint vault classic w' donated := by
  unfold unwrapTokens at h
  iterate 3 obtain ⟨_, _, h⟩ := bind_eq_ok.mp h
  obtain ⟨_, valid, h⟩ := bind_eq_ok.mp h
  obtain ⟨account, found, owner⟩ := validateUsdcAccount_owner valid
  obtain ⟨_, _, h⟩ := bind_eq_ok.mp h
  obtain ⟨config, loaded, h⟩ := bind_eq_ok.mp h
  simp only [check, require_bind_eq_ok] at h
  obtain ⟨wrapped, configured, h⟩ := h
  have names := backed.loaded loaded
  exact withdraw_backed backed (wrapped.trans names.1) (configured.trans names.2)
    ⟨account, found, owner ▸ signed⟩ h

theorem createAgentMandate_backed {ctx : CreateAgentMandate}
    (backed : Backed P mint vault classic w donated) (signed : ctx.authority ≠ mintAuthority P)
    (h : createAgentMandate P w ctx = .ok w') : Backed P mint vault classic w' donated := by
  unfold createAgentMandate at h
  obtain ⟨config, loaded, h⟩ := bind_eq_ok.mp h
  iterate 2 obtain ⟨_, _, h⟩ := bind_eq_ok.mp h
  obtain ⟨funded, opened, h⟩ := bind_eq_ok.mp h
  obtain ⟨wrapped, h⟩ := require_bind_eq_ok.mp h
  obtain ⟨configured, h⟩ := require_bind_eq_ok.mp h
  iterate 5 obtain ⟨_, _, h⟩ := bind_eq_ok.mp h
  obtain ⟨deposited, paid, h⟩ := bind_eq_ok.mp h
  cases h
  have names := backed.anchored loaded
  have frame := (createIdempotent_frame opened).1
  obtain ⟨mints, circulating⟩ := createIdempotent_circulating _ opened
  have created : Beside mint vault w (funded.initializeAgentMandate ctx.agentMandate
      (initialAgentMandate ctx w.clock.unixTimestamp
        (P.findProgramAddress (.agentMandate ctx.authority ctx.agent)).2)) := by
    refine ⟨fun configures => configures.of_eq frame.protocolConfig, congrFun mints mint, ?_,
      congrFun frame.splTokenAccount vault, frame.splMint⟩
    exact (circulating_congr rfl).trans (circulating mint)
  have after := deposit_backed (backed.beside created) (wrapped.trans names.1)
    (configured.trans names.2) signed paid
  exact after.beside (.of_eq rfl rfl rfl rfl rfl)

theorem returnFunds_backed {ctx : AgentExit} {amount sum : UInt64} {bump : UInt8}
    (backed : Backed P mint vault classic w donated) (signed : ctx.authority ≠ mintAuthority P)
    (valid : validateAgentExit P w ctx = .ok amount)
    (h : returnFunds P w ctx sum bump = .ok w') : Backed P mint vault classic w' donated := by
  obtain ⟨config, loaded, valid⟩ := bind_eq_ok.mp valid
  obtain ⟨_, _, valid⟩ := bind_eq_ok.mp valid
  obtain ⟨_, usdc, valid⟩ := bind_eq_ok.mp valid
  obtain ⟨account, found, owner⟩ := validateUsdcAccount_owner usdc
  simp only [require_bind_eq_ok] at valid
  obtain ⟨wrapped, configured, _⟩ := valid
  have names := backed.anchored loaded
  unfold returnFunds at h
  split at h
  · obtain ⟨_, h⟩ := require_bind_eq_ok.mp h
    exact withdraw_backed backed (wrapped.trans names.1) (configured.trans names.2)
      ⟨account, found, owner ▸ signed⟩ h
  · cases h
    exact backed

theorem drainAgentMandate_backed {ctx : AgentExit}
    (backed : Backed P mint vault classic w donated) (signed : ctx.authority ≠ mintAuthority P)
    (h : drainAgentMandate P w ctx = .ok w') : Backed P mint vault classic w' donated := by
  obtain ⟨amount, valid, h⟩ := bind_eq_ok.mp h
  obtain ⟨loaded, _, h⟩ := bind_eq_ok.mp h
  obtain ⟨drained, returned, h⟩ := bind_eq_ok.mp h
  cases h
  exact (returnFunds_backed backed signed valid returned).beside (.of_eq rfl rfl rfl rfl rfl)

theorem writeAgentMandate_beside {key : Pubkey} {m : AgentMandate} {legacy : Bool} :
    Ensures (w.writeAgentMandate key m legacy) (Beside mint vault w) :=
  .skip fun _ => .ite (fun _ => .skip fun _ => .of_pure (.of_eq rfl rfl rfl rfl rfl)) fun _ =>
    .skip fun _ => .of_pure (.of_eq rfl rfl rfl rfl rfl)

theorem revokeAgentMandate_backed {ctx : AgentExit}
    (backed : Backed P mint vault classic w donated) (signed : ctx.authority ≠ mintAuthority P)
    (h : revokeAgentMandate P w ctx = .ok w') : Backed P mint vault classic w' donated := by
  obtain ⟨amount, valid, h⟩ := bind_eq_ok.mp h
  obtain ⟨loaded, _, h⟩ := bind_eq_ok.mp h
  obtain ⟨_, h⟩ := require_bind_eq_ok.mp h
  obtain ⟨drained, returned, h⟩ := bind_eq_ok.mp h
  obtain ⟨written, wrote, h⟩ := bind_eq_ok.mp h
  cases h
  have paid := returnFunds_backed backed signed valid returned
  exact (paid.beside (writeAgentMandate_beside _ wrote)).beside (.of_eq rfl rfl rfl rfl rfl)

theorem writeProtocolConfig_beside {upgraded after : ProtocolConfig}
    (h : upgradeProtocolConfig w = .ok upgraded)
    (mints : after.wrappedUsdcMint = upgraded.wrappedUsdcMint)
    (vaults : after.wrappingVault = upgraded.wrappingVault)
    (version : after.version = upgraded.version) :
    Beside mint vault w (w.writeProtocolConfig after) := by
  refine ⟨?_, rfl, circulating_congr rfl, rfl, rfl⟩
  rintro ⟨config, found, named, vaulted, _⟩
  obtain ⟨loaded, load, h⟩ := bind_eq_ok.mp h
  cases h
  obtain rfl := Option.some.inj ((loadProtocolConfig_eq_ok load).symm.trans found)
  exact ⟨after, rfl, mints.trans named, vaults.trans vaulted, version⟩

theorem initMerchantCredential_beside {ctx : InitMerchantCredential}
    (minted : (w.mint mint).isSome = true) (h : initMerchantCredential P w ctx = .ok w') :
    Beside mint vault w w' := by
  obtain ⟨_, h⟩ := require_bind_eq_ok.mp h
  obtain ⟨⟨w₁, state⟩, ensured, h⟩ := bind_eq_ok.mp h
  obtain rfl : w₁ = w.writeMerchantState ctx.merchant state := (ensureMerchantState_eq_ok ensured).1
  have upgraded : Beside mint vault w (w.writeMerchantState ctx.merchant state) :=
    .of_eq rfl rfl rfl rfl rfl
  dsimp only at h
  split at h
  · obtain ⟨_, h⟩ := require_bind_eq_ok.mp h
    cases h
    exact upgraded
  · obtain ⟨created, making, h⟩ := bind_eq_ok.mp h
    obtain ⟨empty, making⟩ := require_bind_eq_ok.mp making
    cases making
    cases h
    have other : mint ≠ ctx.credentialMint := by
      rintro rfl
      have gone : w.mint ctx.credentialMint = none := (dataIsEmpty_vacant empty).mint
      rw [gone] at minted
      cases minted
    exact ⟨id, Function.update_of_ne other _ _,
      circulating_congr rfl, rfl, rfl⟩

theorem configure_backed {i : ConfigInstruction} (backed : Backed P mint vault classic w donated)
    (real : mint ≠ Pubkey.default) (h : configure P w i = .ok w') :
    Backed P mint vault classic w' donated := by
  refine backed.beside ?_
  cases i with
  | initConfig ctx =>
    obtain ⟨config, found, _⟩ := backed.config
    obtain ⟨none, _⟩ := require_bind_eq_ok.mp h
    rw [found] at none
    cases none
  | updateConfig ctx =>
    iterate 3 obtain ⟨_, _, h⟩ := bind_eq_ok.mp h
    obtain ⟨upgraded, same, h⟩ := bind_eq_ok.mp h
    cases h
    exact writeProtocolConfig_beside same rfl rfl rfl
  | pauseProtocol admin =>
    obtain ⟨_, _, h⟩ := bind_eq_ok.mp h
    obtain ⟨upgraded, same, h⟩ := bind_eq_ok.mp h
    cases h
    exact writeProtocolConfig_beside same rfl rfl rfl
  | unpauseProtocol admin =>
    obtain ⟨_, _, h⟩ := bind_eq_ok.mp h
    obtain ⟨upgraded, same, h⟩ := bind_eq_ok.mp h
    cases h
    exact writeProtocolConfig_beside same rfl rfl rfl
  | initKeeperConfig ctx =>
    iterate 4 obtain ⟨_, _, h⟩ := bind_eq_ok.mp h
    cases h
    exact .of_eq rfl rfl rfl rfl rfl
  | updateKeeperConfig ctx =>
    iterate 6 obtain ⟨_, _, h⟩ := bind_eq_ok.mp h
    cases h
    exact .of_eq rfl rfl rfl rfl rfl
  | initTokenConfig ctx =>
    iterate 4 obtain ⟨_, _, h⟩ := bind_eq_ok.mp h
    cases h
    exact .of_eq rfl rfl rfl rfl rfl
  | updateTokenConfig ctx =>
    iterate 4 obtain ⟨_, _, h⟩ := bind_eq_ok.mp h
    cases h
    exact .of_eq rfl rfl rfl rfl rfl
  | initWrappedMint ctx =>
    obtain ⟨_, _, h⟩ := bind_eq_ok.mp h
    obtain ⟨opened, vaulted, h⟩ := bind_eq_ok.mp h
    obtain ⟨_, _, h⟩ := bind_eq_ok.mp h
    obtain ⟨upgraded, same, h⟩ := bind_eq_ok.mp h
    obtain ⟨unset, _⟩ := require_bind_eq_ok.mp h
    have frame : opened.protocolConfig = w.protocolConfig := by
      unfold World.ensureVault at vaulted
      split at vaulted
      · simp only [require_bind_eq_ok, pure_eq_ok] at vaulted
        obtain ⟨_, _, rfl⟩ := vaulted
        rfl
      · cases vaulted
        rfl
    obtain ⟨config, found, named, _⟩ := backed.config
    obtain ⟨loaded, load, same⟩ := bind_eq_ok.mp same
    cases same
    have stored := (loadProtocolConfig_eq_ok load).symm.trans (frame.trans found)
    obtain rfl := Option.some.inj stored
    exact absurd (named.symm.trans unset) real
  | initMerchantCredential ctx => exact initMerchantCredential_beside backed.minted h
  | initCompDef circuit ctx =>
    obtain ⟨_, _, h⟩ := bind_eq_ok.mp h
    cases h
    exact .refl mint vault w

theorem ensureVault_holder {ctx : InitWrappedMint} (h : w.ensureVault P ctx = .ok w') :
    SplOnly w w' ∧ ∃ account, w'.splTokenAccount (ctx.wrappingVault P) = some account ∧
      account.mint = ctx.splUsdcMint ∧ account.owner = mintAuthority P := by
  unfold World.ensureVault at h
  split at h
  · rename_i account found
    simp only [require_bind_eq_ok, pure_eq_ok] at h
    obtain ⟨own, owner, rfl⟩ := h
    exact ⟨rfl, account, found, own, owner⟩
  · cases h
    exact ⟨rfl, _, Function.update_self _ _ _, rfl, rfl⟩

theorem initWrappedMint_backed {ctx : InitWrappedMint}
    (ledger : w.supply ctx.wrappedUsdcMint = w.circulating ctx.wrappedUsdcMint)
    (h : initWrappedMint P w ctx = .ok w') :
    Backed P ctx.wrappedUsdcMint (ctx.wrappingVault P) ctx.splUsdcMint w'
      (w'.splBalance (ctx.wrappingVault P)) := by
  obtain ⟨_, _, h⟩ := bind_eq_ok.mp h
  obtain ⟨opened, vaulted, h⟩ := bind_eq_ok.mp h
  obtain ⟨_, _, h⟩ := bind_eq_ok.mp h
  obtain ⟨upgraded, same, h⟩ := bind_eq_ok.mp h
  obtain ⟨_, h⟩ := require_bind_eq_ok.mp h
  obtain ⟨created, making, h⟩ := bind_eq_ok.mp h
  obtain ⟨empty, making⟩ := require_bind_eq_ok.mp making
  cases making
  obtain ⟨only, holder⟩ := ensureVault_holder vaulted
  have mints : w'.mint ctx.wrappedUsdcMint = some (wrappedMint P) := by
    cases h
    exact Function.update_self _ _ _
  have tokens : w'.tokenAccount = w.tokenAccount := by
    have kept : opened.tokenAccount = w.tokenAccount := by rw [only]
    cases h
    exact kept
  have coins : w'.splTokenAccount = opened.splTokenAccount := by
    cases h
    rfl
  have absent : w.mint ctx.wrappedUsdcMint = none := by
    have gone := (dataIsEmpty_vacant empty).mint
    rw [only] at gone
    exact gone
  have nothing : w.circulating ctx.wrappedUsdcMint = 0 := by
    rw [← ledger, World.supply, absent]
    rfl
  have supply : w'.supply ctx.wrappedUsdcMint = 0 := supply_of_mint mints
  constructor
  · obtain ⟨_, _, same⟩ := bind_eq_ok.mp same
    cases same
    cases h
    exact ⟨_, rfl, rfl, rfl, rfl⟩
  · rw [mints]
    rfl
  · rw [supply, circulating_congr tokens, nothing]
  · rw [coins]
    exact holder
  · rw [supply, Nat.zero_add]
  · rw [supply]
    exact fun more => absurd more (lt_irrefl _)

inductive TokenAction where
  | instruction (i : ProtocolInstruction)
  /-- a holder moves Token-2022 tokens -/
  | transfer (accounts : TransferAccounts) (amount : UInt64) (decimals : UInt8)
  /-- a holder moves classic tokens -/
  | splTransfer (source classicMint destination authority : Pubkey) (amount : UInt64)
      (decimals : UInt8)
  | beside

def ProtocolInstruction.wraps : ProtocolInstruction → Bool
  | .wrap _ | .unwrapTokens _ | .config _ => true
  | .agent (.createAgentMandate _) | .agent (.drainAgentMandate _)
  | .agent (.revokeAgentMandate _) => true
  | _ => false

def TokenAction.signers : TokenAction → List Pubkey
  | .instruction i => i.signers
  | .transfer accounts _ _ => [accounts.authority]
  | .splTransfer _ _ _ authority _ _ => [authority]
  | .beside => []

def TokenStep (P : Platform) (mint vault : Pubkey) (w : World) (a : TokenAction) (w' : World) :
    Prop :=
  match a with
  | .instruction i => executeProtocol P w i = .ok w'
  | .transfer accounts amount decimals => transferChecked P w accounts amount decimals = .ok w'
  | .splTransfer source classicMint destination authority amount decimals =>
    splTransferChecked w source classicMint destination authority amount decimals = .ok w'
  | .beside => Beside mint vault w w'

/-- Nobody signs for the mint authority or the system program. -/
def Signable (P : Platform) (key : Pubkey) : Prop := key ≠ mintAuthority P ∧ key ≠ Pubkey.default

instance (P : Platform) (key : Pubkey) : Decidable (Signable P key) :=
  inferInstanceAs (Decidable (_ ∧ _))

def TokenAction.wraps : TokenAction → Bool
  | .instruction i => i.wraps
  | _ => true

def WrappingOnly (P : Platform) (_ : Nat) (_ : World) (a : TokenAction) (_ : World) : Prop :=
  a.wraps = true ∧ ∀ key ∈ a.signers, Signable P key

-- one signer after the other: addresses are too many to try
instance (P : Platform) (donated : Nat) (w : World) (a : TokenAction) (w' : World) :
    Decidable (WrappingOnly P donated w a w') :=
  have : Decidable (∀ key ∈ a.signers, Signable P key) := List.decidableBAll _ _
  inferInstanceAs (Decidable (_ ∧ _))

def watchDonations (vault : Pubkey) : Observe World TokenAction Nat := fun donated _ a _ =>
  match a with
  | .splTransfer _ _ destination _ amount _ =>
    if destination = vault then donated + amount.toNat else donated
  | _ => donated

abbrev WrappingRun (P : Platform) (mint vault : Pubkey) : World × Nat → World × Nat → Prop :=
  Run (TokenStep P mint vault) (watchDonations vault) (WrappingOnly P)

theorem splTransferChecked_backed {source classicMint destination authority : Pubkey}
    {amount : UInt64} {decimals : UInt8} (backed : Backed P mint vault classic w donated)
    (signed : authority ≠ mintAuthority P)
    (h : splTransferChecked w source classicMint destination authority amount decimals = .ok w') :
    Backed P mint vault classic w'
      (if destination = vault then donated + amount.toNat else donated) := by
  by_cases donation : destination = vault
  · subst donation
    rw [if_pos rfl]
    obtain ⟨only, received, holder, _⟩ := splTransferChecked_into backed signed h
    constructor
    · exact backed.config.of_eq (by rw [only])
    · rw [only]
      exact backed.minted
    · rw [only.supply, circulating_congr (w := w) (by rw [only])]
      exact backed.sound
    · exact holder
    · rw [received, only.supply, backed.backed, Nat.add_assoc]
    · rw [only.supply, only]
      exact backed.decimals
  · rw [if_neg donation]
    have only := (splTransferChecked_eq_ok h).only
    obtain ⟨stored, present, own, owner⟩ := backed.holder
    have apart : source ≠ vault := by
      rintro rfl
      obtain ⟨account, found, mine⟩ := (splTransferChecked_eq_ok h).owner
      obtain rfl := Option.some.inj (present.symm.trans found)
      exact signed (mine.symm.trans owner)
    have kept : w'.splTokenAccount vault = w.splTokenAccount vault := by
      simp only [splTransferChecked, orHost, orError_bind_eq_ok, require_bind_eq_ok] at h
      obtain ⟨payer, found, receiver, there, _, _, _, _, _, _, _, h⟩ := h
      split at h
      · cases h
        rfl
      · simp only [bind_eq_ok, orError_eq_ok, pure_eq_ok] at h
        obtain ⟨_, _, rfl⟩ := h
        exact (Function.update_of_ne (Ne.symm donation) _ _).trans
          (Function.update_of_ne (Ne.symm apart) _ _)
    refine backed.beside ⟨fun configures => configures.of_eq ?_, ?_, circulating_congr ?_, kept, ?_⟩
    · rw [only]
    · rw [only]
    · rw [only]
    · rw [only]

theorem Backed.step {a : TokenAction} (backed : Backed P mint vault classic w donated)
    (real : mint ≠ Pubkey.default) (wrapping : WrappingOnly P donated w a w')
    (step : TokenStep P mint vault w a w') :
    Backed P mint vault classic w' (watchDonations vault donated w a w') := by
  cases a with
  | beside => exact backed.beside step
  | splTransfer source classicMint destination authority amount decimals =>
    have signed : Signable P authority := wrapping.2 authority List.mem_cons_self
    exact splTransferChecked_backed backed signed.1 step
  | transfer accounts amount decimals =>
    obtain ⟨mints, circulating⟩ := transferChecked_circulating w' step
    have frame := (transferChecked_eq_ok step).frame
    exact backed.beside ⟨fun configures => configures.of_eq frame.protocolConfig,
      congrFun mints mint, circulating mint, congrFun frame.splTokenAccount vault, frame.splMint⟩
  | instruction i =>
    have wraps : i.wraps = true := wrapping.1
    have signs : ∀ key ∈ i.signers, key ≠ mintAuthority P := fun key signs =>
      (wrapping.2 key signs).1
    cases i with
    | wrap ctx => exact wrap_backed backed (signs _ List.mem_cons_self) step
    | unwrapTokens ctx => exact unwrapTokens_backed backed (signs _ List.mem_cons_self) step
    | config i => exact configure_backed backed real step
    | agent i =>
      cases i with
      | createAgentMandate ctx =>
        exact createAgentMandate_backed backed (signs _ List.mem_cons_self) step
      | drainAgentMandate ctx =>
        exact drainAgentMandate_backed backed (signs _ List.mem_cons_self) step
      | revokeAgentMandate ctx =>
        exact revokeAgentMandate_backed backed (signs _ List.mem_cons_self) step
      | _ => cases wraps
    | _ => cases wraps

theorem burn_holder {account authority : Pubkey} {amount : UInt64} {held : TokenAccount}
    (found : w.tokenAccount account = some held) (own : held.mint = mint)
    (owner : held.owner = authority) (minted : (w.mint mint).isSome = true)
    (enough : amount ≤ held.amount) : ∃ w', burn w account mint authority amount = .ok w' := by
  obtain ⟨m, stored⟩ := Option.isSome_iff_exists.mp minted
  simp only [burn, orHost, orError_bind_eq_ok, require_bind_eq_ok, pure_eq_ok]
  exact ⟨_, held, found, m, stored, own, enough, .inr owner, rfl⟩

theorem splTransferChecked_vault {usdcAccount : Pubkey} {amount : UInt64} {decimals : UInt8}
    {account receiver : TokenAccount} (found : w.splTokenAccount vault = some account)
    (owner : account.owner = mintAuthority P) (own : account.mint = classic)
    (present : w.splTokenAccount usdcAccount = some receiver) (same : receiver.mint = classic)
    (known : w.splMint classic = some decimals) (enough : amount ≤ account.amount)
    (room : account.amount.toNat + receiver.amount.toNat < 2 ^ 64) :
    ∃ w', splTransferChecked w vault classic usdcAccount (mintAuthority P) amount decimals =
      .ok w' := by
  have less := Checked.le_iff.mp enough
  have sum : Checked.addU64 receiver.amount amount = some (receiver.amount + amount) := by
    rw [Checked.addU64_eq_some, UInt64.toNat_add, Nat.mod_eq_of_lt]
    omega
  by_cases apart : vault = usdcAccount
  · refine ⟨w, ?_⟩
    simp only [splTransferChecked, orHost, orError_bind_eq_ok, require_bind_eq_ok, if_pos apart]
    exact ⟨account, found, receiver, present, enough, own.trans same.symm, own,
      decimals, known, rfl,
      owner, rfl⟩
  · simp only [splTransferChecked, orHost, orError_bind_eq_ok, require_bind_eq_ok, if_neg apart,
      pure_eq_ok]
    exact ⟨_, account, found, receiver, present, enough, own.trans same.symm, own,
      decimals, known, rfl,
      owner, _, sum, rfl⟩

theorem Backed.unwraps {user address usdcAccount : Pubkey} {amount : UInt64}
    {held receiver : TokenAccount} (backed : Backed P mint vault classic w donated)
    (found : w.tokenAccount address = some held) (own : held.mint = mint)
    (owner : held.owner = user) (positive : 0 < amount) (enough : amount ≤ held.amount)
    (present : w.splTokenAccount usdcAccount = some receiver) (mine : receiver.owner = user)
    (same : receiver.mint = classic)
    (room : w.splBalance vault + receiver.amount.toNat < 2 ^ 64) :
    ∃ w', unwrapTokens P w ⟨user, ⟨classic, mint, usdcAccount, address, vault⟩, amount⟩ =
      .ok w' := by
  obtain ⟨account, there, named, held_⟩ := backed.holder
  obtain ⟨config, configured, wrapped, vaulted, version⟩ := backed.config
  have part := held_le_circulating found own
  have less := Checked.le_iff.mp enough
  have more := Checked.lt_iff.mp positive
  have sound := backed.sound
  have whole := backed.backed
  have balance : w.splBalance vault = account.amount.toNat := by
    rw [World.splBalance, there]
    rfl
  have known := backed.decimals (by omega)
  obtain ⟨burned, gone⟩ := burn_holder found own owner backed.minted enough
  have frame := (burn_frame gone).1
  have paid : amount ≤ account.amount := Checked.le_iff.mpr (by omega)
  obtain ⟨w', transferred⟩ := splTransferChecked_vault (P := P) (w := burned)
    ((congrFun frame.splTokenAccount vault).trans there) held_ named
    ((congrFun frame.splTokenAccount usdcAccount).trans present) same
    ((congrFun frame.splMint classic).trans known) paid (by omega)
  refine ⟨w', ?_⟩
  have valid : validateUsdcAccount w ⟨classic, mint, usdcAccount, address, vault⟩ user
      (.host .constraintRaw) = .ok () := by
    simp only [validateUsdcAccount, orHost, orError_bind_eq_ok, require_bind_eq_ok, require_eq_ok]
    refine ⟨?_, receiver, present, mine, same⟩
    rw [known]
    rfl
  have loaded : loadProtocolConfig w = .ok (.current config) := by
    rw [loadProtocolConfig, configured]
    exact require_bind_eq_ok.mpr ⟨version, rfl⟩
  unfold unwrapTokens
  refine bind_eq_ok.mpr ⟨held, orError_eq_ok.mpr found, ?_⟩
  refine require_bind_eq_ok.mpr ⟨own, require_bind_eq_ok.mpr ⟨owner, ?_⟩⟩
  refine bind_eq_ok.mpr ⟨(), valid, require_bind_eq_ok.mpr ⟨?_, ?_⟩⟩
  · rw [there]
    rfl
  · refine bind_eq_ok.mpr ⟨.current config, loaded, ?_⟩
    refine require_bind_eq_ok.mpr ⟨wrapped.symm, require_bind_eq_ok.mpr ⟨vaulted.symm, ?_⟩⟩
    exact bind_eq_ok.mpr ⟨burned, gone, transferred⟩

/-- However wrapped tokens are made, moved and redeemed, the vault of a wrapped mint holds its
supply and what was donated to it, and every holder finds there what it can unwrap. -/
theorem wrapping_backed {w₀ : World} {ctx : InitWrappedMint}
    (ledger : w₀.supply ctx.wrappedUsdcMint = w₀.circulating ctx.wrappedUsdcMint)
    (signed : Signable P ctx.wrappedUsdcMint) (created : initWrappedMint P w₀ ctx = .ok w₁)
    (run : WrappingRun P ctx.wrappedUsdcMint (ctx.wrappingVault P)
      (w₁, w₁.splBalance (ctx.wrappingVault P)) (w, donated)) :
    w.supply ctx.wrappedUsdcMint ≤ w.splBalance (ctx.wrappingVault P) ∧
    (w.splBalance (ctx.wrappingVault P) = w.supply ctx.wrappedUsdcMint ↔ donated = 0) ∧
    ∀ address held, w.tokenAccount address = some held → held.mint = ctx.wrappedUsdcMint →
      held.amount.toNat ≤ w.splBalance (ctx.wrappingVault P) ∧
      ∀ usdcAccount receiver, w.splTokenAccount usdcAccount = some receiver →
        receiver.mint = ctx.splUsdcMint → receiver.owner = held.owner →
        w.splBalance (ctx.wrappingVault P) + receiver.amount.toNat < 2 ^ 64 →
        ∀ amount, 0 < amount → amount ≤ held.amount → ∃ w', unwrapTokens P w {
          user := held.owner
          accounts := ⟨ctx.splUsdcMint, ctx.wrappedUsdcMint, usdcAccount, address,
            ctx.wrappingVault P⟩
          amount := amount } = .ok w' := by
  have backed : Backed P ctx.wrappedUsdcMint (ctx.wrappingVault P) ctx.splUsdcMint w donated := by
    refine run.invariant (fun w donated => Backed P ctx.wrappedUsdcMint (ctx.wrappingVault P)
      ctx.splUsdcMint w donated) (initWrappedMint_backed ledger created) ?_
    intro w donated a w' backed step wrapping
    exact backed.step signed.2 wrapping step
  have whole := backed.backed
  refine ⟨by omega, by omega, fun address held found own => ⟨?_, ?_⟩⟩
  · have part := held_le_circulating found own
    rw [← backed.sound] at part
    omega
  · intro usdcAccount receiver present classicMint mine room amount positive enough
    exact backed.unwraps found own rfl positive enough present mine classicMint room

open Deployment

def applyToken (P : Platform) (w : World) : TokenAction → Option World
  | .instruction i => (executeProtocol P w i).toOption
  | .transfer accounts amount decimals => (transferChecked P w accounts amount decimals).toOption
  | .splTransfer source classicMint destination authority amount decimals =>
    (splTransferChecked w source classicMint destination authority amount decimals).toOption
  | .beside => none

theorem applyToken_step {a : TokenAction} (applied : applyToken P w a = some w') :
    TokenStep P mint vault w a w' := by
  cases a with
  | beside => cases applied
  | _ => exact toOption_eq_some.mp applied

def donationScript : List TokenAction :=
  [.instruction (.agent (.createAgentMandate { agentOffer with wrappingVault := wrappedVault })),
    .splTransfer ownerClassic classicMint wrappedVault subscriber 7 6]

theorem wrapping_backed_donated : ∃ w₁ w : World,
    initWrappedMint platform unwrappedWorld wrappedOffer = .ok w₁ ∧
    WrappingRun platform mintA wrappedVault (w₁, 0) (w, 7) ∧ w.holds .token2022 agentPayer = 500 ∧
    w.supply mintA ≤ w.splBalance wrappedVault ∧
    ¬w.splBalance wrappedVault = w.supply mintA ∧ 500 ≤ w.splBalance wrappedVault := by
  have played : (initWrappedMint platform unwrappedWorld wrappedOffer).toOption.any (fun w₁ =>
      w₁.splBalance wrappedVault = 0 && (play (applyToken platform) (watchDonations wrappedVault)
        (WrappingOnly platform) (w₁, 0) donationScript).any fun x => x.2 = 7 &&
          (x.1.tokenAccount agentPayer).any fun account =>
            account.mint = mintA && account.amount = 500) = true := by
    decide +kernel
  simp only [Option.any_eq_true, toOption_eq_some, Bool.and_eq_true, decide_eq_true_eq] at played
  obtain ⟨w₁, created, none, ⟨w, donated⟩, script, given, account, found, own, amount⟩ := played
  obtain rfl : donated = 7 := given
  have run : WrappingRun platform mintA wrappedVault (w₁, 0) (w, 7) :=
    play_run (fun _ _ _ => applyToken_step) script
  have ledger : unwrappedWorld.supply mintA = unwrappedWorld.circulating mintA := by
    have nothing : unwrappedWorld.circulating mintA = 0 := total_eq_zero fun _ => rfl
    rw [nothing]
    rfl
  have signed : Signable platform mintA := by decide
  have holds : w.holds .token2022 agentPayer = 500 := by
    rw [World.holds, World.held, found, Option.map_some, Option.getD_some, amount]
    rfl
  rw [← none] at run
  obtain ⟨backed, exactly, found_⟩ := wrapping_backed ledger signed created run
  obtain ⟨enough, _⟩ := found_ agentPayer account found own
  rw [none] at run
  rw [amount] at enough
  exact ⟨w₁, w, created, run, holds, backed, fun same => absurd (exactly.mp same) (by decide),
    enough⟩

end VelaProtocol
