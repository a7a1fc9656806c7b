import VelaProtocol.Supply

/-! Tokens are conserved by the whole program, and wrapped ones stay backed whatever else runs:
subscriptions, charges, plan changes, streams and agents in any order. -/
namespace VelaProtocol

open Guard Monitored

variable {P : Platform} {w w₁ w' : World} {mint vault classic : Pubkey} {donated : Nat}

abbrev BookedHistory (P : Platform) : World → World → Prop :=
  Relation.ReflTransGen fun w w' =>
    ∃ a, ProtocolStep P w a w' ∧ (a = .outside → Booked w w')

theorem protocolStep_booked {a : ProtocolAction} (step : ProtocolStep P w a w')
    (outside : a = .outside → Booked w w') : Booked w w' := by
  cases a with
  | instruction i => exact protocol_booked w' step
  | tick clock =>
    obtain ⟨_, rfl⟩ := step
    exact .of_eq rfl rfl (.refl _)
  | outside => exact outside rfl

/-- A mint keeps its decimals, its authorities and its hook, an account its mint and its owner; and
if the accounts of a mint add up to its supply they always will. -/
theorem supply_conserved {key : Pubkey} {m : Mint} (found : w.mint key = some m)
    (balanced : w.supply key = w.circulating key) (history : BookedHistory P w w') :
    w'.supply key = w'.circulating key ∧
      (∃ supply, w'.mint key = some { m with supply := supply }) ∧
      AccountsStay w.tokenAccount w'.tokenAccount ∧
      AccountsStay w.splTokenAccount w'.splTokenAccount := by
  have booked : Booked w w' := by
    induction history with
    | refl => exact .refl w
    | tail _ last ih =>
      obtain ⟨a, step, outside⟩ := last
      exact ih.trans (protocolStep_booked step outside)
  exact ⟨booked.sound key balanced, booked.mints key m found, booked.accounts, booked.coins⟩

structure Solvent (P : Platform) (mint vault classic : Pubkey) (w : World) : Prop where
  backed : ∃ donated, Backed P mint vault classic w donated
  minter : ∃ m, w.mint mint = some m ∧ m.mintAuthority = some (mintAuthority P)

/-- What other programs may do: give to the vault, move and burn wrapped tokens, and make classic
mints. -/
structure Spares (mint vault : Pubkey) (w w' : World) : Prop where
  config : Configures mint vault w → Configures mint vault w'
  minted : ∀ m, w.mint mint = some m → ∃ supply, w'.mint mint = some { m with supply := supply }
  burned : ∃ burned, w.supply mint = w'.supply mint + burned ∧
    w.circulating mint = w'.circulating mint + burned
  holder : ∀ account, w.splTokenAccount vault = some account → ∃ after,
    w'.splTokenAccount vault = some after ∧ after.mint = account.mint ∧
      after.owner = account.owner ∧ account.amount ≤ after.amount
  splMint : ∀ classic decimals, w.splMint classic = some decimals →
    w'.splMint classic = some decimals

theorem splBalance_eq {account : TokenAccount} (found : w.splTokenAccount vault = some account) :
    w.splBalance vault = account.amount.toNat := by
  rw [World.splBalance, found]
  rfl

theorem Backed.spared (backed : Backed P mint vault classic w donated)
    (spares : Spares mint vault w w') : ∃ more, Backed P mint vault classic w' more := by
  obtain ⟨account, present, own, owner⟩ := backed.holder
  obtain ⟨after, found, same, kept, more⟩ := spares.holder account present
  obtain ⟨burned, supply, circulating⟩ := spares.burned
  have sound := backed.sound
  have whole := backed.backed
  have enough := Checked.le_iff.mp more
  rw [splBalance_eq present] at whole
  refine ⟨donated + burned + (after.amount.toNat - account.amount.toNat), ?_⟩
  constructor
  · exact spares.config backed.config
  · obtain ⟨m, minted⟩ := Option.isSome_iff_exists.mp backed.minted
    obtain ⟨_, stays⟩ := spares.minted m minted
    rw [stays, Option.isSome_some]
  · omega
  · exact ⟨after, found, same.trans own, kept.trans owner⟩
  · rw [splBalance_eq found]
    omega
  · exact fun some => spares.splMint classic _ (backed.decimals (by omega))

theorem Backed.burned {account authority : Pubkey} {amount : UInt64}
    (backed : Backed P mint vault classic w donated)
    (gone : burn w account mint authority amount = .ok w') :
    Backed P mint vault classic w' (donated + amount.toNat) := by
  obtain ⟨supply, circulating, stored⟩ := burn_supplied gone backed.sound
  have frame := (burn_frame gone).1
  have sound := backed.sound
  have whole := backed.backed
  have balance : w'.splBalance vault = w.splBalance vault := by
    rw [World.splBalance, World.splBalance, frame.splTokenAccount]
  constructor
  · exact backed.config.of_eq frame.protocolConfig
  · exact stored
  · omega
  · rw [frame.splTokenAccount]
    exact backed.holder
  · omega
  · rw [frame.splMint]
    exact fun more => backed.decimals (by omega)

theorem Backed.other {credential : Pubkey} {m : Mint} {before : TokenAccount} {amount : UInt64}
    {address : Pubkey} (backed : Backed P mint vault classic w donated)
    (other : mint ≠ credential) (only : TokenOnly w w')
    (mints : w'.mint = Function.update w.mint credential (some m))
    (held : w.tokenAccount address = some before) (own : before.mint = credential)
    (tokens : w'.tokenAccount =
      Function.update w.tokenAccount address (some { before with amount := amount })) :
    Backed P mint vault classic w' donated := by
  refine backed.beside ⟨fun configures => configures.of_eq only.protocolConfig, ?_, ?_,
    congrFun only.splTokenAccount vault, only.splMint⟩
  · rw [mints, Function.update_of_ne other]
  · have written : w'.circulating mint + _ = _ := circulating_update _ tokens
    simpa only [held, Totals.cell_some, TokenAccount.amountOf, own, if_neg (Ne.symm other),
      Nat.add_zero] using written

theorem Solvent.issued {credential : Pubkey} (apart : Uncredentialed P (mintAuthority P))
    (solvent : Solvent P mint vault classic w) (issued : CredentialIssued P w credential w') :
    ∃ donated, Backed P mint vault classic w' donated := by
  obtain ⟨donated, backed⟩ := solvent.backed
  obtain ⟨m, found, minter⟩ := solvent.minter
  obtain ⟨w₁, w₂, account, authority, first, last, signs, minted⟩ := issued.minted
  have only := (mintTo_frame minted).1
  simp only [mintTo, orHost, orError_bind_eq_ok, require_bind_eq_ok, pure_eq_ok] at minted
  obtain ⟨before, held, own, stored, there, own_authority, _, _, _, _, same⟩ := minted
  have other : mint ≠ credential := by
    rintro rfl
    obtain rfl := Option.some.inj (found.symm.trans ((congrFun first.mint mint).symm.trans there))
    exact signs.ne apart (Option.some.inj (own_authority.symm.trans minter))
  refine ⟨donated, Backed.beside ?_ last.beside⟩
  exact (backed.beside first.beside).other other only (by rw [← same]) held own
    (by rw [← same])

theorem Backed.revoked {credential signer : Pubkey}
    (backed : Backed P mint vault classic w donated)
    (revoked : CredentialRevoked P w credential signer w') :
    ∃ donated, Backed P mint vault classic w' donated := by
  obtain ⟨w₁, account, authority, gone, last, _⟩ := revoked.burned
  by_cases same : mint = credential
  · subst same
    exact ⟨_, (backed.burned gone).beside last.beside⟩
  · have only := (burn_frame gone).1
    simp only [burn, orHost, orError_bind_eq_ok, require_bind_eq_ok, pure_eq_ok] at gone
    obtain ⟨before, held, m, _, own, _, _, form⟩ := gone
    have burned : Backed P mint vault classic w₁ donated :=
      backed.other same only (by rw [← form]) held own (by rw [← form])
    exact ⟨donated, burned.beside last.beside⟩

theorem Solvent.executed {i : ProtocolInstruction} (apart : Uncredentialed P (mintAuthority P))
    (real : mint ≠ Pubkey.default) (signed : ∀ key ∈ i.signers, Signable P key)
    (solvent : Solvent P mint vault classic w) (h : executeProtocol P w i = .ok w') :
    Solvent P mint vault classic w' := by
  obtain ⟨donated, backed⟩ := solvent.backed
  constructor
  · by_cases wraps : i.wraps = true
    · exact ⟨_, backed.step (a := .instruction i) real ⟨wraps, signed⟩ h⟩
    · have conserved (conserves : Conserves w w') :
          ∃ donated, Backed P mint vault classic w' donated :=
        ⟨donated, backed.beside conserves.beside⟩
      cases i with
      | billing i =>
        by_cases other : i.credentialed = false
        · exact conserved (billing_conserves other h)
        · cases i with
          | subscribe ctx => exact solvent.issued apart (subscribe_issued w' h)
          | cancel ctx => exact backed.revoked (cancel_revoked w' h)
          | adminCancel ctx => exact backed.revoked (adminCancel_revoked w' h)
          | _ => exact absurd rfl other
      | streaming i => exact conserved (streaming_conserves w' h)
      | agent i =>
        cases i with
        | agentPull ctx => exact conserved (agentPull_conserves w' h)
        | adjustAgentMandate ctx => exact conserved (adjustAgentMandate_conserves w' h)
        | pauseAgentMandate ctx => exact conserved (pauseAgentMandate_conserves w' h)
        | resumeAgentMandate ctx => exact conserved (resumeAgentMandate_conserves w' h)
        | _ => exact absurd rfl wraps
      | _ => exact absurd rfl wraps
  · obtain ⟨m, found, minter⟩ := solvent.minter
    obtain ⟨supply, stays⟩ := (protocol_booked w' h).mints mint m found
    exact ⟨_, stays, minter⟩

/-- Nobody signs for the mint authority or the system program, and other programs spare the
vault. -/
def SparesVault (P : Platform) (mint vault : Pubkey) (_ : Unit) (w : World) (a : ProtocolAction)
    (w' : World) : Prop :=
  match a with
  | .instruction i => ∀ key ∈ i.signers, Signable P key
  | .tick _ => True
  | .outside => Spares mint vault w w'

abbrev SolventRun (P : Platform) (mint vault : Pubkey) : World × Unit → World × Unit → Prop :=
  Run (ProtocolStep P) (fun _ _ _ _ => ()) (SparesVault P mint vault)

theorem Solvent.step {a : ProtocolAction} (apart : Uncredentialed P (mintAuthority P))
    (real : mint ≠ Pubkey.default) (solvent : Solvent P mint vault classic w)
    (step : ProtocolStep P w a w')
    (spares : SparesVault P mint vault () w a w') : Solvent P mint vault classic w' := by
  cases a with
  | instruction i => exact solvent.executed apart real spares step
  | tick clock =>
    obtain ⟨_, rfl⟩ := step
    obtain ⟨donated, backed⟩ := solvent.backed
    exact ⟨⟨donated, backed.beside (.of_eq rfl rfl rfl rfl rfl)⟩, solvent.minter⟩
  | outside =>
    have spared : Spares mint vault w w' := spares
    obtain ⟨donated, backed⟩ := solvent.backed
    refine ⟨backed.spared spared, ?_⟩
    obtain ⟨m, found, minter⟩ := solvent.minter
    obtain ⟨_, stays⟩ := spared.minted m found
    exact ⟨_, stays, minter⟩

theorem initWrappedMint_minted {ctx : InitWrappedMint} (h : initWrappedMint P w ctx = .ok w') :
    w'.mint ctx.wrappedUsdcMint = some (wrappedMint P) := by
  iterate 5 obtain ⟨_, _, h⟩ := bind_eq_ok.mp h
  obtain ⟨created, making, h⟩ := bind_eq_ok.mp h
  obtain ⟨_, making⟩ := require_bind_eq_ok.mp making
  cases making
  cases h
  exact Function.update_self _ _ _

/-- Whatever the program does in any order, beside programs that spare the vault: it holds at least
the supply of the wrapped mint, so every holder can unwrap all it has. -/
theorem protocol_solvent {ctx : InitWrappedMint} (apart : Uncredentialed P (mintAuthority P))
    (ledger : w.supply ctx.wrappedUsdcMint = w.circulating ctx.wrappedUsdcMint)
    (real : ctx.wrappedUsdcMint ≠ Pubkey.default) (created : initWrappedMint P w ctx = .ok w₁)
    (run : SolventRun P ctx.wrappedUsdcMint (ctx.wrappingVault P) (w₁, ()) (w', ())) :
    w'.supply ctx.wrappedUsdcMint ≤ w'.splBalance (ctx.wrappingVault P) ∧
    ∀ address held, w'.tokenAccount address = some held → held.mint = ctx.wrappedUsdcMint →
      0 < held.amount → ∀ usdcAccount receiver, w'.splTokenAccount usdcAccount = some receiver →
        receiver.mint = ctx.splUsdcMint → receiver.owner = held.owner →
        w'.splBalance (ctx.wrappingVault P) + receiver.amount.toNat < 2 ^ 64 →
        ∃ redeemed, unwrapTokens P w' {
          user := held.owner
          accounts := ⟨ctx.splUsdcMint, ctx.wrappedUsdcMint, usdcAccount, address,
            ctx.wrappingVault P⟩
          amount := held.amount } = .ok redeemed := by
  have start : Solvent P ctx.wrappedUsdcMint (ctx.wrappingVault P) ctx.splUsdcMint w₁ :=
    ⟨⟨_, initWrappedMint_backed ledger created⟩, _, initWrappedMint_minted created, rfl⟩
  have solvent : Solvent P ctx.wrappedUsdcMint (ctx.wrappingVault P) ctx.splUsdcMint w' := by
    refine run.invariant (fun w _ => Solvent P ctx.wrappedUsdcMint (ctx.wrappingVault P)
      ctx.splUsdcMint w) start ?_
    intro w _ a w' solvent step spares
    exact solvent.step apart real step spares
  obtain ⟨donated, backed⟩ := solvent.backed
  have whole := backed.backed
  refine ⟨by omega, fun address held found own positive usdcAccount receiver present classicMint
    mine room => ?_⟩
  exact backed.unwraps found own rfl positive (UInt64.le_refl _) present mine classicMint room

open Deployment

def OwnStep (P : Platform) (_ : Unit) (_ : World) (a : ProtocolAction) (_ : World) : Prop :=
  match a with
  | .instruction i => ∀ key ∈ i.signers, Signable P key
  | .tick _ => True
  | .outside => False

instance (P : Platform) (g : Unit) (w : World) (a : ProtocolAction) (w' : World) :
    Decidable (OwnStep P g w a w') :=
  match a with
  | .instruction i => List.decidableBAll (fun key => Signable P key) i.signers
  | .tick _ => isTrue trivial
  | .outside => isFalse id

theorem OwnStep.spares {g : Unit} {a : ProtocolAction} (own : OwnStep P g w a w') :
    SparesVault P mint vault g w a w' := by
  cases a with
  | instruction i => exact own
  | tick clock => trivial
  | outside => exact own.elim

def freshWorld : World :=
  { unwrappedWorld with
    mint := fun key => if key = credentialMint then some merchantCredential else none }

theorem freshWorld_circulating (key : Pubkey) : freshWorld.circulating key = 0 :=
  Totals.total_eq_zero fun _ => rfl

def freshScript : List ProtocolAction :=
  [.instruction (.agent (.createAgentMandate { agentOffer with wrappingVault := wrappedVault })),
    ofBilling (offerFlat 0 100 3600 0 12 mintA), ofBilling subscribeFlat,
    ofBilling cancelBySubscriber]

theorem freshScript_played : ∃ w₁ w : World,
    initWrappedMint platform freshWorld wrappedOffer = .ok w₁ ∧
    play (applyProtocol platform) (fun _ _ _ _ => ()) (OwnStep platform) (w₁, ()) freshScript =
      some (w, ()) ∧ (w.mint mintA).map Mint.supply = some 500 := by
  have played : (initWrappedMint platform freshWorld wrappedOffer).toOption.any (fun w₁ =>
      (play (applyProtocol platform) (fun _ _ _ _ => ()) (OwnStep platform) (w₁, ())
        freshScript).any fun x => (x.1.mint mintA).any fun m => m.supply = 500) = true := by
    decide +kernel
  simp only [Option.any_eq_true, toOption_eq_some, decide_eq_true_eq] at played
  obtain ⟨w₁, created, ⟨w, _⟩, script, m, found, supply⟩ := played
  exact ⟨w₁, w, created, script, by rw [found, Option.map_some, supply]⟩

theorem uncredentialed_of_value {k : Pubkey}
    (apart : k.toNat < 103 * 2 ^ 20 ∨ 105 * 2 ^ 40 ≤ k.toNat) : Uncredentialed platform k := by
  have other (seeds : Seeds) (own : ∃ m, seeds = .merchant m ∨
      (∃ n, seeds = .plan m n) ∨ ∃ n, seeds = .usagePlan m n) :
      (platform.findProgramAddress seeds).1 ≠ k := by
    rintro rfl
    obtain ⟨m, rfl | ⟨n, rfl⟩ | ⟨n, rfl⟩⟩ := own
    all_goals
      simp only [platform, findProgramAddress, derived, List.foldl_cons, List.foldl_nil,
        BitVec.toNat_ofNat] at apart
      omega
  refine ⟨fun m => other _ ⟨m, .inl rfl⟩, fun plan => other _ ?_⟩
  cases plan with
  | flat p => exact ⟨_, .inr (.inl ⟨_, rfl⟩)⟩
  | legacyFlat p => exact ⟨_, .inr (.inl ⟨_, rfl⟩)⟩
  | usage p => exact ⟨_, .inr (.inr ⟨_, rfl⟩)⟩
  | legacyUsage p => exact ⟨_, .inr (.inr ⟨_, rfl⟩)⟩

theorem freshWorld_ledger : freshWorld.supply mintA = freshWorld.circulating mintA := by
  rw [freshWorld_circulating]
  rfl

theorem protocol_solvent_fresh : ∃ w₁ w : World,
    initWrappedMint platform freshWorld wrappedOffer = .ok w₁ ∧
    SolventRun platform mintA wrappedVault (w₁, ()) (w, ()) ∧ w.supply mintA = 500 ∧
    w.supply mintA ≤ w.splBalance wrappedVault := by
  obtain ⟨w₁, w, created, script, supply⟩ := freshScript_played
  have run : SolventRun platform mintA wrappedVault (w₁, ()) (w, ()) :=
    (play_run (fun _ _ _ => applyProtocol_step) script).weaken fun _ _ _ _ => OwnStep.spares
  have value : w.supply mintA = 500 := by
    obtain ⟨m, found, same⟩ := Option.map_eq_some_iff.mp supply
    rw [supply_of_mint found, same]
    rfl
  have solvent := protocol_solvent (uncredentialed_of_value (.inl (by decide))) freshWorld_ledger
    (by decide) created run
  exact ⟨w₁, w, created, run, value, solvent.1⟩

theorem supply_conserved_fresh : ∃ w₁ w : World,
    initWrappedMint platform freshWorld wrappedOffer = .ok w₁ ∧ BookedHistory platform w₁ w ∧
      w.mint mintA = some { wrappedMint platform with supply := 500 } ∧
      w.circulating mintA = 500 := by
  obtain ⟨w₁, w, created, script, supply⟩ := freshScript_played
  have run := play_run (fun _ _ _ => applyProtocol_step) script
  have history : BookedHistory platform w₁ w := by
    refine run.invariant (fun v _ => BookedHistory platform w₁ v) .refl ?_
    intro v _ a v' history step own
    refine history.tail ⟨a, step, ?_⟩
    rintro rfl
    exact own.elim
  have balanced := (initWrappedMint_backed freshWorld_ledger created).sound
  obtain ⟨sound, ⟨amount, minted⟩, _⟩ :=
    supply_conserved (initWrappedMint_minted created) balanced history
  have value : amount = 500 := by
    rw [show w.mint mintA = _ from minted, Option.map_some, Option.some.injEq] at supply
    exact supply
  subst value
  have total : w.supply mintA = 500 := supply_of_mint minted
  exact ⟨w₁, w, created, history, minted, sound.symm.trans total⟩

end VelaProtocol
