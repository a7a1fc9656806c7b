import VelaProtocol.Properties.Solvency

/-! What a holder who signs nothing cannot lose. Nothing in the program takes tokens out of an
account whose owner is no address the program derives, whatever the parties of other mandates,
streams and agents do. -/
namespace VelaProtocol

open Guard Monitored

variable {P : Platform} {w w₁ w' : World} {k : Pubkey}

/-- A key of its own, derived from no seeds. -/
def Ordinary (P : Platform) (k : Pubkey) : Prop :=
  ∀ seeds, (P.findProgramAddress seeds).1 ≠ k

theorem Ordinary.uncredentialed (ordinary : Ordinary P k) : Uncredentialed P k :=
  ⟨fun _ => ordinary _, fun _ => ordinary _⟩

def World.delegate (w : World) (mint : Pubkey) : Option Pubkey :=
  (w.mint mint).bind Mint.permanentDelegate

theorem validateLoadedMandateAddress_derived {key : Pubkey} {loaded : LoadedMandateAccount}
    (h : validateLoadedMandateAddress P key loaded = .ok ()) :
    ∃ seeds, key = (P.findProgramAddress seeds).1 := by
  unfold validateLoadedMandateAddress at h
  cases loaded with
  | legacy mandate => exact ⟨_, require_eq_ok.mp h⟩
  | current mandate =>
    rcases require_eq_ok.mp h with v2 | legacy
    · exact ⟨_, v2⟩
    · exact ⟨_, legacy⟩

theorem executePull_derived {ctx : ExecutePull} (h : executePull P w ctx = .ok w') :
    ∃ seeds, ctx.mandate = (P.findProgramAddress seeds).1 := by
  obtain ⟨s, prepared, _⟩ := bind_eq_ok.mp h
  obtain ⟨pull, checked, _⟩ := bind_eq_ok.mp prepared
  obtain ⟨⟨config, plan, loaded, token⟩, load, _⟩ := bind_eq_ok.mp checked
  iterate 8 obtain ⟨_, _, load⟩ := bind_eq_ok.mp load
  obtain ⟨mandate, valid, _⟩ := bind_eq_ok.mp load
  obtain ⟨_, _, _, _, address⟩ := loadValidMandate_eq_ok valid
  exact validateLoadedMandateAddress_derived address

theorem updateMandatePlan_derived {ctx : UpdateMandatePlan}
    (h : updateMandatePlan P w ctx = .ok w') :
    ∃ seeds, ctx.mandate = (P.findProgramAddress seeds).1 := by
  obtain ⟨s, checked, _⟩ := bind_eq_ok.mp h
  iterate 6 obtain ⟨_, _, checked⟩ := bind_eq_ok.mp checked
  obtain ⟨loaded, _, checked⟩ := bind_eq_ok.mp checked
  obtain ⟨_, checked⟩ := require_bind_eq_ok.mp checked
  obtain ⟨_, address, _⟩ := bind_eq_ok.mp checked
  exact validateLoadedMandateAddress_derived address

theorem streaming_derived {i : StreamInstruction} (h : executeStreaming P w i = .ok w') :
    ∃ seeds, i.stream = (P.findProgramAddress seeds).1 := by
  by_cases created : ∃ ctx, i = .createStreamMandate ctx
  · obtain ⟨ctx, rfl⟩ := created
    obtain ⟨_, _, spec⟩ := createStreamMandate_eq_ok h
    exact ⟨_, spec.address⟩
  · obtain ⟨_, _, _, _, spec⟩ := call_called (fun ctx same => created ⟨ctx, same⟩) h
    exact ⟨_, spec.address⟩

theorem openAgentMandate_derived {ctx : AgentControl} {loaded : LoadedAgentMandate}
    (h : openAgentMandate P w ctx = .ok loaded) :
    ∃ seeds, ctx.agentMandate = (P.findProgramAddress seeds).1 := by
  obtain ⟨_, derived, _⟩ := bind_eq_ok.mp h
  exact ⟨_, require_eq_ok.mp derived⟩

theorem agent_derived {i : AgentInstruction} (h : executeAgent P w i = .ok w') :
    ∃ seeds, i.mandate = (P.findProgramAddress seeds).1 := by
  cases i with
  | createAgentMandate ctx =>
    obtain ⟨_, _, h⟩ := bind_eq_ok.mp h
    obtain ⟨_, derived, _⟩ := bind_eq_ok.mp h
    exact ⟨_, require_eq_ok.mp derived⟩
  | agentPull ctx =>
    obtain ⟨_, _, h⟩ := bind_eq_ok.mp h
    obtain ⟨_, derived, _⟩ := bind_eq_ok.mp h
    exact ⟨_, require_eq_ok.mp derived⟩
  | adjustAgentMandate ctx =>
    iterate 4 obtain ⟨_, _, h⟩ := bind_eq_ok.mp h
    obtain ⟨_, valid, _⟩ := bind_eq_ok.mp h
    exact openAgentMandate_derived valid
  | pauseAgentMandate ctx =>
    obtain ⟨_, valid, _⟩ := bind_eq_ok.mp h
    exact openAgentMandate_derived valid
  | resumeAgentMandate ctx =>
    obtain ⟨_, valid, _⟩ := bind_eq_ok.mp h
    exact openAgentMandate_derived valid
  | drainAgentMandate ctx =>
    obtain ⟨_, _, h⟩ := bind_eq_ok.mp h
    obtain ⟨_, valid, _⟩ := bind_eq_ok.mp h
    exact openAgentMandate_derived valid
  | revokeAgentMandate ctx =>
    obtain ⟨_, _, h⟩ := bind_eq_ok.mp h
    obtain ⟨_, valid, _⟩ := bind_eq_ok.mp h
    exact openAgentMandate_derived valid

def Instruction.payer : Instruction → Option Pubkey
  | .executePull ctx => some ctx.mandate
  | .updateMandatePlan ctx => some ctx.mandate
  | _ => none

def ProtocolInstruction.payer : ProtocolInstruction → Option Pubkey
  | .billing i => i.payer
  | .streaming i => some i.stream
  | .agent i => some i.mandate
  | _ => none

theorem payer_derived {i : ProtocolInstruction} (h : executeProtocol P w i = .ok w')
    (pays : k ∈ i.payer) : ∃ seeds, k = (P.findProgramAddress seeds).1 := by
  cases i with
  | billing i =>
    cases i with
    | executePull ctx => exact Option.some.inj pays ▸ executePull_derived h
    | updateMandatePlan ctx => exact Option.some.inj pays ▸ updateMandatePlan_derived h
    | _ => cases pays
  | streaming i => exact Option.some.inj pays ▸ streaming_derived h
  | agent i => exact Option.some.inj pays ▸ agent_derived h
  | _ => cases pays

theorem Ordinary.not_payer {i : ProtocolInstruction} (ordinary : Ordinary P k)
    (h : executeProtocol P w i = .ok w') : k ∉ i.payer := by
  intro pays
  obtain ⟨seeds, address⟩ := payer_derived h pays
  exact ordinary seeds address.symm

theorem billing_kept {i : Instruction} (unpaid : k ∉ i.payer)
    (burns : (∀ ctx, i ≠ .cancel ctx) ∧ ∀ ctx, i ≠ .adminCancel ctx)
    (h : execute P w i = .ok w') : Keeps k w w' := by
  have unmoved {r : Result World} (frame : Ensures r (Unmoved w)) (ok : r = .ok w') :
      Keeps k w w' := (frame w' ok).keeps k
  cases i with
  | createPlan ctx => exact unmoved createPlan_unmoved h
  | createUsagePlan ctx => exact unmoved createUsagePlan_unmoved h
  | updatePlan ctx => exact unmoved updatePlan_unmoved h
  | updateUsagePlan ctx => exact unmoved updateUsagePlan_unmoved h
  | migratePlan plan => exact unmoved migratePlan_unmoved h
  | subscribe ctx => exact subscribe_keeps w' h
  | cancel ctx => exact absurd rfl (burns.1 ctx)
  | adminCancel ctx => exact absurd rfl (burns.2 ctx)
  | closeMandate ctx => exact unmoved closeMandate_unmoved h
  | migrateMandate ctx => exact unmoved migrateMandate_unmoved h
  | updateMandate ctx => exact unmoved updateMandate_unmoved h
  | updateMandatePlan ctx =>
    exact (updateMandatePlan_only w' h).2 k fun same => unpaid (congrArg some same.symm)
  | schedulePlanChange ctx => exact unmoved schedulePlanChange_unmoved h
  | cancelPlanChange ctx => exact unmoved cancelPlanChange_unmoved h
  | requestValidation ctx => exact unmoved requestValidation_unmoved h
  | validateMandateCallback ctx => exact unmoved validateMandateCallback_unmoved h
  | submitUsageReport ctx => exact unmoved submitUsageReport_unmoved h
  | requestUsageComputation ctx => exact unmoved requestUsageComputation_unmoved h
  | usageChargeCallback ctx => exact unmoved usageChargeCallback_unmoved h
  | executePull ctx =>
    exact (executePull_only w' h).2 k fun same => unpaid (congrArg some same.symm)
  | requestBillingRecord ctx => exact unmoved requestBillingRecord_unmoved h
  | recordBillingEventCallback ctx => exact unmoved recordBillingEventCallback_unmoved h

theorem AgentReturned.kept {ctx : AgentExit} (returned : AgentReturned P w ctx w')
    (other : k ≠ ctx.agentMandate) (vault : k ≠ mintAuthority P) : Keeps k w w' := by
  cases returned with
  | empty keeps => exact keeps k
  | paid keeps back => exact keeps k other vault

theorem agent_kept {i : AgentInstruction} (other : k ≠ i.mandate) (vault : k ≠ mintAuthority P)
    (unsigned : k ∉ i.signers) (h : executeAgent P w i = .ok w') : Keeps k w w' := by
  cases i with
  | createAgentMandate ctx =>
    have other : k ≠ ctx.authority := fun same => unsigned (same ▸ List.mem_cons_self)
    exact createAgentMandate_keeps other w' h
  | agentPull ctx => exact agentPull_keeps other w' h
  | adjustAgentMandate ctx => exact adjustAgentMandate_keeps w' h
  | pauseAgentMandate ctx => exact pauseAgentMandate_keeps w' h
  | resumeAgentMandate ctx => exact resumeAgentMandate_keeps w' h
  | drainAgentMandate ctx => exact (drainAgentMandate_returned h).kept other vault
  | revokeAgentMandate ctx => exact (revokeAgentMandate_returned h).kept other vault

def Holds (k : Pubkey) (coin : Coin) (a mint : Pubkey) (amount : UInt64) (w : World) : Prop :=
  ∃ account, w.held coin a = some account ∧ account.owner = k ∧ account.mint = mint ∧
    amount ≤ account.amount

/-- A mint that is there, whose permanent delegate, if it has one, is neither a merchant nor a plan:
these revoke credentials. -/
structure Undelegated (P : Platform) (coin : Coin) (mint : Pubkey) (w : World) : Prop where
  minted : coin = .token2022 → (w.mint mint).isSome = true
  apart : coin = .token2022 → ∀ d, w.delegate mint = some d → Uncredentialed P d

theorem Booked.delegate {mint : Pubkey} (booked : Booked w w')
    (minted : (w.mint mint).isSome = true) : w'.delegate mint = w.delegate mint := by
  obtain ⟨m, found⟩ := Option.isSome_iff_exists.mp minted
  obtain ⟨supply, after⟩ := booked.mints mint m found
  rw [World.delegate, World.delegate, found, after]
  rfl

theorem Booked.undelegated {coin : Coin} {mint : Pubkey} (booked : Booked w w')
    (undelegated : Undelegated P coin mint w) : Undelegated P coin mint w' := by
  constructor
  · intro token
    obtain ⟨m, found⟩ := Option.isSome_iff_exists.mp (undelegated.minted token)
    obtain ⟨supply, after⟩ := booked.mints mint m found
    rw [after, Option.isSome_some]
  · intro token d
    rw [booked.delegate (undelegated.minted token)]
    exact undelegated.apart token d

theorem Booked.holds {coin : Coin} {a mint : Pubkey} {amount : UInt64} (booked : Booked w w')
    (keeps : Keeps k w w') (holds : Holds k coin a mint amount w) :
    Holds k coin a mint amount w' := by
  obtain ⟨account, found, owner, own, enough⟩ := holds
  obtain ⟨after, present, still, more⟩ := keeps.held coin a account found owner
  refine ⟨after, present, still, ?_, UInt64.le_trans enough more⟩
  cases coin with
  | token2022 =>
    obtain ⟨amount, same⟩ := booked.accounts a account found
    obtain rfl := Option.some.inj (present.symm.trans same)
    exact own
  | classic =>
    obtain ⟨amount, same⟩ := booked.coins a account found
    obtain rfl := Option.some.inj (present.symm.trans same)
    exact own

theorem CredentialRevoked.holds {credential signer a mint : Pubkey} {coin : Coin} {amount : UInt64}
    (revoked : CredentialRevoked P w credential signer w') (apart : Uncredentialed P k)
    (unsigned : k ≠ signer) (idle : ∀ d, w.delegate mint = some d → d ≠ signer)
    (undelegated : Undelegated P coin mint w) (holds : Holds k coin a mint amount w) :
    Holds k coin a mint amount w' := by
  obtain ⟨w₁, account, authority, gone, last, tokens, _, signs⟩ := revoked.burned
  obtain ⟨mine, found, owner, own, enough⟩ := holds
  have classic : w'.splTokenAccount = w.splTokenAccount :=
    last.splTokenAccount.trans (burn_frame gone).1.splTokenAccount
  cases coin with
  | classic => exact ⟨mine, (congrFun classic a).trans found, owner, own, enough⟩
  | token2022 =>
    simp only [burn, orHost, orError_bind_eq_ok, require_bind_eq_ok, pure_eq_ok] at gone
    obtain ⟨source, held, m, there, named, _, allowed, rfl⟩ := gone
    have away : a ≠ account := by
      rintro rfl
      obtain rfl := Option.some.inj (held.symm.trans found)
      obtain rfl : credential = mint := named.symm.trans own
      rcases allowed with delegated | owned
      · have delegate : w.delegate credential = some authority := by
          rw [World.delegate, there]
          exact delegated
        rcases signs with signed | minter
        · exact idle authority delegate signed
        · exact minter.ne (undelegated.apart rfl authority delegate) rfl
      · rcases signs with signed | minter
        · exact unsigned (owner.symm.trans (owned.trans signed))
        · exact minter.ne apart (owned.symm.trans owner)
    refine ⟨mine, ?_, owner, own, enough⟩
    have same : w'.tokenAccount a = w.tokenAccount a := by
      rw [tokens]
      exact Function.update_of_ne away _ _
    exact same.trans found

/-- Accounts of `k` in the mint lose nothing, and nothing is paid in its name. -/
structure Unharmed (k : Pubkey) (coin : Coin) (mint : Pubkey) (w w' : World) : Prop where
  holds : ∀ a amount, Holds k coin a mint amount w → Holds k coin a mint amount w'
  transfersBy : w'.transfersBy k = w.transfersBy k

theorem Keeps.unharmed {coin : Coin} {mint : Pubkey} (keeps : Keeps k w w')
    (booked : Booked w w') : Unharmed k coin mint w w' :=
  ⟨fun _ _ holds => booked.holds keeps holds, keeps.transfersBy⟩

theorem instruction_unharmed {i : ProtocolInstruction} {coin : Coin} {mint : Pubkey}
    (unpaid : k ∉ i.payer) (vault : k ≠ mintAuthority P) (apart : Uncredentialed P k)
    (unsigned : k ∉ i.signers) (idle : ∀ d, w.delegate mint = some d → d ∉ i.signers)
    (undelegated : Undelegated P coin mint w) (h : executeProtocol P w i = .ok w') :
    Unharmed k coin mint w w' := by
  have kept (keeps : Keeps k w w') : Unharmed k coin mint w w' :=
    keeps.unharmed (protocol_booked w' h)
  cases i with
  | billing i =>
    have revoked {ctx : Cancel} (signs : ctx.authority ∈ i.signers)
        (revoked : CredentialRevoked P w ctx.credentialMint ctx.authority w') :
        Unharmed k coin mint w w' := by
      constructor
      · intro a amount holds
        refine revoked.holds apart (fun same => unsigned (same ▸ signs)) ?_ undelegated holds
        exact fun d delegate same => idle d delegate (same ▸ signs)
      · obtain ⟨_, _, _, _, _, _, transfers, _⟩ := revoked.burned
        exact transfers k
    by_cases cancels : ∃ ctx, i = .cancel ctx
    · obtain ⟨ctx, rfl⟩ := cancels
      exact revoked List.mem_cons_self (cancel_revoked w' h)
    · by_cases revokes : ∃ ctx, i = .adminCancel ctx
      · obtain ⟨ctx, rfl⟩ := revokes
        exact revoked List.mem_cons_self (adminCancel_revoked w' h)
      · apply kept
        exact billing_kept unpaid ⟨fun ctx same => cancels ⟨ctx, same⟩,
          fun ctx same => revokes ⟨ctx, same⟩⟩ h
  | streaming i => exact kept (streaming_only h k fun same => unpaid (congrArg some same.symm))
  | agent i =>
    exact kept (agent_kept (fun same => unpaid (congrArg some same.symm)) vault unsigned h)
  | config i => exact kept (configure_keeps w' h).2
  | wrap ctx =>
    have other : k ≠ ctx.subscriber := fun same => unsigned (same ▸ List.mem_cons_self)
    exact kept (wrap_keeps other w' h)
  | unwrapTokens ctx =>
    have other : k ≠ ctx.user := fun same => unsigned (same ▸ List.mem_cons_self)
    exact kept (unwrapTokens_keeps other vault w' h)

/-- The holder and the permanent delegate of the mint sign nothing, and other programs take no
tokens from the holder and keep the books. -/
def Untroubled (k mint : Pubkey) (_ : Unit) (w : World) (a : ProtocolAction) (w' : World) : Prop :=
  match a with
  | .instruction i => k ∉ i.signers ∧ ∀ d, w.delegate mint = some d → d ∉ i.signers
  | .tick _ => True
  | .outside => Keeps k w w' ∧ Booked w w'

abbrev UntroubledRun (P : Platform) (k mint : Pubkey) : World × Unit → World × Unit → Prop :=
  Run (ProtocolStep P) (fun _ _ _ _ => ()) (Untroubled k mint)

theorem untroubled_booked {mint : Pubkey} {action : ProtocolAction}
    (step : ProtocolStep P w action w') (untroubled : Untroubled k mint () w action w') :
    Booked w w' := by
  apply protocolStep_booked step
  rintro rfl
  exact untroubled.2

theorem wallet_step {coin : Coin} {mint : Pubkey} {action : ProtocolAction}
    (ordinary : Ordinary P k) (undelegated : Undelegated P coin mint w)
    (step : ProtocolStep P w action w') (untroubled : Untroubled k mint () w action w') :
    Unharmed k coin mint w w' := by
  have booked := untroubled_booked step untroubled
  cases action with
  | tick clock =>
    obtain ⟨_, rfl⟩ := step
    have keeps : Keeps k w { w with clock := clock } := .of_eq rfl rfl rfl
    exact keeps.unharmed booked
  | outside => exact untroubled.1.unharmed booked
  | instruction i =>
    exact instruction_unharmed (ordinary.not_payer step) (Ne.symm (ordinary .mintAuthority))
      ordinary.uncredentialed untroubled.1 untroubled.2 undelegated step

/-- Whatever the others do, an account of a holder who signs nothing keeps its owner and its mint
and loses no token. -/
theorem wallet_safe {coin : Coin} {a mint : Pubkey} {amount : UInt64} (ordinary : Ordinary P k)
    (undelegated : Undelegated P coin mint w) (holds : Holds k coin a mint amount w)
    (run : UntroubledRun P k mint (w, ()) (w', ())) : Holds k coin a mint amount w' := by
  have safe : Undelegated P coin mint w' ∧ Holds k coin a mint amount w' := by
    refine run.invariant
      (fun w _ => Undelegated P coin mint w ∧ Holds k coin a mint amount w) ⟨undelegated, holds⟩ ?_
    rintro w _ action w' ⟨undelegated, holds⟩ step untroubled
    exact ⟨(untroubled_booked step untroubled).undelegated undelegated,
      (wallet_step ordinary undelegated step untroubled).holds a amount holds⟩
  exact safe.2

open Deployment

theorem merchant_ordinary : Ordinary platform merchant := by
  intro seeds same
  have value : (platform.findProgramAddress seeds).1.toNat = 3 := by
    rw [same]
    rfl
  cases seeds
  all_goals
    simp only [platform, findProgramAddress, derived, List.foldl_cons, List.foldl_nil,
      BitVec.toNat_ofNat] at value
    omega

def silentlyRuns (k mint : Pubkey) (w : World) : ProtocolAction → Bool
  | .instruction i => !i.signers.contains k && (w.delegate mint).all fun d => !i.signers.contains d
  | .tick _ => true
  | .outside => false

theorem silentlyRuns_untroubled {k mint : Pubkey} {a : ProtocolAction}
    (runs : silentlyRuns k mint w a = true) : Untroubled k mint () w a w' := by
  cases a with
  | tick clock => trivial
  | outside => cases runs
  | instruction i =>
    simp only [silentlyRuns, Bool.and_eq_true, Bool.not_eq_true', List.contains_eq_mem,
      decide_eq_false_iff_not, Option.all_eq_true] at runs
    exact ⟨runs.1, fun d same => runs.2 d same⟩

theorem undelegated_of_mint {mint : Pubkey} {coin : Coin} {m : Mint} (found : w.mint mint = some m)
    (own : m.permanentDelegate = none) : Undelegated P coin mint w := by
  refine ⟨fun _ => by rw [found, Option.isSome_some], fun _ d delegate => ?_⟩
  rw [World.delegate, found, Option.bind_some, own] at delegate
  cases delegate

theorem wallet_safe_merchant : ∃ w w' : World,
    Holds merchant .token2022 (receiver mintA) mintA 40 w ∧
    UntroubledRun platform merchant mintA (w, ()) (w', ()) ∧ w'.agentMandateAt agentMandate ≠ none ∧
    Holds merchant .token2022 (receiver mintA) mintA 40 w' := by
  have played : (play (applyProtocol platform) (fun _ _ _ _ => ()) Any
      (agentWorld 0, ()) [fundAgent, ofAgent (pullForMerchant 40)]).any (fun x =>
        (x.1.tokenAccount (receiver mintA)).any (fun account =>
          account.owner = merchant && account.mint = mintA && decide (40 ≤ account.amount)) &&
        x.1.mint mintA = some { billingMint with
          mintAuthority := some (findProgramAddress .mintAuthority).1
          supply := 2000000500 } &&
        (play (applyProtocol platform) (fun _ _ _ _ => ())
          (fun _ w a _ => silentlyRuns merchant mintA w a = true) x
          [ofAgent (tickAgent 86400), ofAgent (pullForMerchant 50), ofAgent revokeAgent]).any
            fun y => (y.1.agentMandateAt agentMandate).isSome) = true := by
    decide +kernel
  simp only [Option.any_eq_true, Bool.and_eq_true, decide_eq_true_eq] at played
  obtain ⟨⟨w, _⟩, _, ⟨⟨account, found, ⟨owner, own⟩, enough⟩, minted⟩, ⟨w', _⟩, script, stored⟩ :=
    played
  have holds : Holds merchant .token2022 (receiver mintA) mintA 40 w :=
    ⟨account, found, owner, own, enough⟩
  have run : UntroubledRun platform merchant mintA (w, ()) (w', ()) :=
    (play_run (fun _ _ _ => applyProtocol_step) script).weaken fun _ _ _ _ =>
      silentlyRuns_untroubled
  refine ⟨w, w', holds, run, ?_,
    wallet_safe merchant_ordinary (undelegated_of_mint minted rfl) holds run⟩
  intro none
  rw [none] at stored
  cases stored

end VelaProtocol
