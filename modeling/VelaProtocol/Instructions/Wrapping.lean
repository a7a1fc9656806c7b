import VelaProtocol.Token

/-! Wrapping classic tokens: what is deposited in the vault is minted as a Token-2022 token, and
what is burned is released again.
The vault belongs to the mint authority, a derived address only the program signs for. -/
namespace VelaProtocol

open Guard

def usdcDecimals : UInt8 := 6

def anchorProtocolConfig (w : World) : Result ProtocolConfig :=
  match w.protocolConfig with
  | some (.current config) => .ok config
  | some (.legacy _) => .error (.host .accountDidNotDeserialize)
  | none => .error (.host .accountNotInitialized)

def mintAuthority (P : Platform) : Pubkey := (P.findProgramAddress .mintAuthority).1

/-- `transfer_checked` of the classic token program -/
def splTransferChecked (w : World) (source mint destination authority : Pubkey) (amount : UInt64)
    (decimals : UInt8) : Result World := do
  let payer ← orHost (w.splTokenAccount source) .accountNotInitialized
  let receiver ← orHost (w.splTokenAccount destination) .accountNotInitialized
  require (amount ≤ payer.amount) (.host .insufficientFunds)
  require (payer.mint = receiver.mint) (.host .mintMismatch)
  require (payer.mint = mint) (.host .mintMismatch)
  let mintDecimals ← orHost (w.splMint mint) .invalidMint
  require (decimals = mintDecimals) (.host .mintDecimalsMismatch)
  require (payer.owner = authority) (.host .ownerMismatch)
  if source = destination then return w
  else do
    let received ← orHost (Checked.addU64 receiver.amount amount) .tokenOverflow
    return { w with
      splTokenAccount := Function.update
        (Function.update w.splTokenAccount source
          (some { payer with amount := payer.amount - amount }))
        destination (some { receiver with amount := received }) }

def World.splBalance (w : World) (address : Pubkey) : Nat :=
  ((w.splTokenAccount address).map fun account => account.amount.toNat).getD 0

def SplOnly (w w' : World) : Prop := w' = { w with splTokenAccount := w'.splTokenAccount }

structure SplPaid (w : World) (source destination authority : Pubkey) (amount : UInt64)
    (w' : World) : Prop where
  only : SplOnly w w'
  owner : ∃ account, w.splTokenAccount source = some account ∧ account.owner = authority
  others : ∀ address, address ≠ destination → w'.splBalance address ≤ w.splBalance address
  received : source ≠ destination →
    w'.splBalance destination = w.splBalance destination + amount.toNat

theorem splTransferChecked_eq_ok {w w' : World} {source mint destination authority : Pubkey}
    {amount : UInt64} {decimals : UInt8}
    (h : splTransferChecked w source mint destination authority amount decimals = .ok w') :
    SplPaid w source destination authority amount w' := by
  simp only [splTransferChecked, orHost, orError_bind_eq_ok, require_bind_eq_ok] at h
  obtain ⟨payer, found, receiver, present, funds, _, _, _, _, _, owner, h⟩ := h
  split at h
  · rename_i same
    cases h
    refine ⟨rfl, ⟨payer, found, owner⟩, fun _ _ => Nat.le_refl _, ?_⟩
    intro apart
    exact absurd same apart
  · rename_i apart
    simp only [bind_eq_ok, orError_eq_ok, pure_eq_ok] at h
    obtain ⟨received, sum, rfl⟩ := h
    refine ⟨rfl, ⟨payer, found, owner⟩, ?_, ?_⟩
    · intro address other
      by_cases paying : address = source
      · subst paying
        have left : (payer.amount - amount).toNat ≤ payer.amount.toNat := by
          rw [UInt64.toNat_sub_of_le _ _ funds]
          exact Nat.sub_le _ _
        simpa only [World.splBalance, Function.update_of_ne other, Function.update_self, found,
          Option.map_some, Option.getD_some] using left
      · simp only [World.splBalance, Function.update_of_ne other, Function.update_of_ne paying]
        exact Nat.le_refl _
    · intro _
      simp only [World.splBalance, Function.update_self, present, Option.map_some,
        Option.getD_some, Checked.addU64_eq_some.mp sum]

structure WrappingAccounts where
  splUsdcMint : Pubkey
  wrappedUsdcMint : Pubkey
  usdcAccount : Pubkey
  wrappedAccount : Pubkey
  wrappingVault : Pubkey
  deriving DecidableEq

/-- Classic tokens go into the vault and as many wrapped ones are minted. -/
def deposit (P : Platform) (w : World) (accounts : WrappingAccounts) (payer : Pubkey)
    (amount : UInt64) : Result World := do
  let w ← splTransferChecked w accounts.usdcAccount accounts.splUsdcMint accounts.wrappingVault
    payer amount usdcDecimals
  mintTo w accounts.wrappedUsdcMint accounts.wrappedAccount (mintAuthority P) amount

/-- Wrapped tokens are burned and as many classic ones leave the vault. -/
def withdraw (P : Platform) (w : World) (accounts : WrappingAccounts) (owner : Pubkey)
    (amount : UInt64) : Result World := do
  let w ← burn w accounts.wrappedAccount accounts.wrappedUsdcMint owner amount
  splTransferChecked w accounts.wrappingVault accounts.splUsdcMint accounts.usdcAccount
    (mintAuthority P) amount usdcDecimals

def validateUsdcAccount (w : World) (accounts : WrappingAccounts) (owner : Pubkey)
    (mismatch : Error) : Result Unit := do
  require ((w.splMint accounts.splUsdcMint).isSome) (.host .accountNotInitialized)
  let account ← orHost (w.splTokenAccount accounts.usdcAccount) .accountNotInitialized
  require (account.owner = owner) (.host .constraintRaw)
  require (account.mint = accounts.splUsdcMint) mismatch

def validateVault (P : Platform) (w : World) (accounts : WrappingAccounts) : Result Unit := do
  let vault ← orHost (w.splTokenAccount accounts.wrappingVault) .accountNotInitialized
  check (vault.mint = accounts.splUsdcMint) .usdcMintMismatch
  check (vault.owner = mintAuthority P) .vaultMismatch

structure Wrap where
  subscriber : Pubkey
  accounts : WrappingAccounts
  /-- owner of the account minted into, the subscriber or a mandate -/
  destinationAuthority : Pubkey
  amount : UInt64

def wrap (P : Platform) (w : World) (ctx : Wrap) : Result World := do
  let accounts := ctx.accounts
  validateUsdcAccount w accounts ctx.subscriber (.host .constraintRaw)
  let destination ← orHost (w.tokenAccount accounts.wrappedAccount) .accountNotInitialized
  require (destination.mint = accounts.wrappedUsdcMint) (.host .constraintTokenMint)
  validateVault P w accounts
  let config ← loadProtocolConfig w
  check (config.wrappedUsdcMint ≠ Pubkey.default) .wrappedMintNotInitialized
  check (accounts.wrappedUsdcMint = config.wrappedUsdcMint) .usdcMintMismatch
  check (accounts.wrappingVault = config.wrappingVault) .vaultMismatch
  check (destination.owner = ctx.destinationAuthority) .transferNotAuthorized
  deposit P w accounts ctx.subscriber ctx.amount

structure Unwrap where
  user : Pubkey
  accounts : WrappingAccounts
  amount : UInt64

def unwrapTokens (P : Platform) (w : World) (ctx : Unwrap) : Result World := do
  let accounts := ctx.accounts
  let source ← orHost (w.tokenAccount accounts.wrappedAccount) .accountNotInitialized
  require (source.mint = accounts.wrappedUsdcMint) (.host .constraintTokenMint)
  require (source.owner = ctx.user) (.host .constraintTokenOwner)
  validateUsdcAccount w accounts ctx.user (.host .constraintRaw)
  require ((w.splTokenAccount accounts.wrappingVault).isSome) (.host .accountNotInitialized)
  let config ← loadProtocolConfig w
  check (accounts.wrappedUsdcMint = config.wrappedUsdcMint) .usdcMintMismatch
  check (accounts.wrappingVault = config.wrappingVault) .vaultMismatch
  withdraw P w accounts ctx.user ctx.amount

end VelaProtocol
