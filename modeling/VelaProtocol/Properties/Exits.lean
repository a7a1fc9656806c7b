import VelaProtocol.Properties.Accrual
import VelaProtocol.Properties.Agreement

/-! When the subscriber can pause or cancel a running stream: exactly when the settlement an exit
folds in is skipped or can be paid. -/
namespace VelaProtocol

open Guard

variable {P : Platform} {w w' : World} {s mid : StreamMandate} {now : Int64} {amount : UInt64}

def StreamMandate.settlementDue (s : StreamMandate) (now : Int64) : Nat :=
  min (s.gross now) s.remaining

/-- An exit can go through: the seconds since the last settlement fit their type, and the minimum
interval is still running or what is due is in the account and fits the total. -/
def StreamMandate.ExitClear (s : StreamMandate) (now : Int64) (balance : UInt64) : Prop :=
  now.toInt - s.lastSettledTs.toInt < 2 ^ 63 ∧
    (now.toInt < s.lastSettledTs.toInt + s.minSettleInterval.toNat ∨
      s.settlementDue now ≤ balance.toNat ∧
        s.totalStreamed.toNat + s.settlementDue now < 2 ^ 64)

theorem elapsedSinceSettle_of (sofar : s.lastSettledTs.toInt ≤ now.toInt)
    (short : now.toInt - s.lastSettledTs.toInt < 2 ^ 63) :
    ∃ elapsed, elapsedSinceSettle s now = .ok elapsed ∧
      elapsed.toInt = now.toInt - s.lastSettledTs.toInt := by
  obtain ⟨elapsed, fits⟩ := Checked.exists_toI64 (n := now.toInt - s.lastSettledTs.toInt)
    ⟨by omega, short⟩
  have value : elapsed.toInt = now.toInt - s.lastSettledTs.toInt := Checked.toI64_eq_some.mp fits
  have nonneg : 0 ≤ elapsed.toInt := by omega
  refine ⟨elapsed, ?_, value⟩
  simp only [elapsedSinceSettle, check, orVela, bind_eq_ok, orError_eq_ok, require_eq_ok,
    pure_eq_ok, exists_const, Checked.le_iff_int]
  exact ⟨elapsed, fits, nonneg, rfl⟩

theorem settleBeforeCancel_active (active : s.status = .active) :
    settleBeforeCancel s now = settleBeforePause s now := by
  simp only [settleBeforeCancel, settleBeforePause, active, true_and]

theorem settleBeforePause_iff (active : s.status = .active) (sound : StreamSound s now.toInt) :
    settleBeforePause s now = .ok (mid, amount) ↔
      now.toInt - s.lastSettledTs.toInt < 2 ^ 63 ∧
        (now.toInt < s.lastSettledTs.toInt + s.minSettleInterval.toNat ∧ mid = s ∧ amount = 0 ∨
          Accrued s now amount mid) := by
  constructor
  · intro settled
    simp only [settleBeforePause, bind_eq_ok] at settled
    obtain ⟨elapsed, measured, settled⟩ := settled
    obtain ⟨value, sofar⟩ := elapsedSinceSettle_eq_ok measured
    have bound := (Checked.toInt_bounds elapsed).2
    refine ⟨by omega, ?_⟩
    split at settled
    · exact .inr (sound.accrued active settled)
    · cases settled
      exact .inl ⟨by omega, rfl, rfl⟩
  · rintro ⟨short, settlement⟩
    obtain ⟨elapsed, measured, value⟩ := elapsedSinceSettle_of sound.settled short
    simp only [settleBeforePause, measured, ok_bind]
    rcases settlement with ⟨early, rfl, rfl⟩ | accrued
    · rw [if_neg (by omega)]
      rfl
    · have due := accrued.due
      rw [if_pos (by omega)]
      exact accrued.settles

theorem accrued_of_fits (active : s.status = .active) (sound : StreamSound s now.toInt)
    (short : now.toInt - s.lastSettledTs.toInt < 2 ^ 63)
    (due : s.lastSettledTs.toInt + s.minSettleInterval.toNat ≤ now.toInt)
    (fits : s.totalStreamed.toNat + s.settlementDue now < 2 ^ 64) :
    ∃ mid amount, Accrued s now amount mid := by
  have running : s.pausedAt = none := by
    cases since : s.pausedAt with
    | none => rfl
    | some pausedAt =>
      have paused := sound.pausedAt.mp (by rw [since]; rfl)
      exact absurd (active.symm.trans paused) nofun
  have small : s.settlementDue now < 2 ^ 64 := by omega
  have payable : (UInt64.ofNat (s.settlementDue now)).toNat = s.settlementDue now :=
    UInt64.toNat_ofNat_of_lt' small
  have total : (UInt64.ofNat (s.totalStreamed.toNat + s.settlementDue now)).toNat =
      s.totalStreamed.toNat + s.settlementDue now := UInt64.toNat_ofNat_of_lt' fits
  exact ⟨_, _, active, running, short, due, sound.capped, payable, _, by rw [total, payable], rfl⟩

/-- The right accounts for an exit by the subscriber, the protocol not paused and the token
enabled; the two balances are part of one supply. -/
structure ExitReady (P : Platform) (w : World) (s : StreamMandate) (ctx : StreamControl)
    (source destination : TokenAccount) (config : ProtocolConfig) (tokenConfig : TokenConfig)
    (mint : Mint) : Prop where
  signer : ctx.authority = s.subscriber
  configured : w.protocolConfig = some (.current config)
  configVersion : config.version = currentAccountVersion
  unpaused : config.paused = false
  hook : config.transferHookProgramId = transferHookProgramId
  hookAccount : ctx.accounts.hookProgram = transferHookProgramId
  vaultAccount : ctx.accounts.wrappingVault = config.wrappingVault
  mintAccount : ctx.accounts.wrappedUsdcMint = s.mint
  approvalAccount : ctx.accounts.pullApproval = (P.findProgramAddress (.approval ctx.mandate)).1
  tokenAccount : ctx.accounts.tokenConfig = .registered
  registered : w.tokenConfig s.mint = some tokenConfig
  registeredMint : tokenConfig.mint = s.mint
  enabled : tokenConfig.enabled = true
  rail : tokenConfig.billingRail = .transferHook
  mintFound : w.mint s.mint = some mint
  mintDecimals : tokenConfig.decimals = mint.decimals
  transferable : mint.nonTransferable = false
  mintHook : mint.transferHookProgramId = some transferHookProgramId
  sourceFound : w.tokenAccount ctx.accounts.subscriberWrappedAccount = some source
  sourceMint : source.mint = s.mint
  sourceOwner : source.owner = ctx.mandate
  destinationFound : w.tokenAccount ctx.accounts.merchantWrappedAccount = some destination
  destinationMint : destination.mint = s.mint
  destinationOwner : destination.owner = s.merchant
  supply : source.amount.toNat + destination.amount.toNat < 2 ^ 64

structure Addressed (P : Platform) (k : Pubkey) (s : StreamMandate) : Prop where
  version : s.version = currentAccountVersion
  address : k = (P.findProgramAddress s.seeds).1
  bump : s.bump = (P.findProgramAddress s.seeds).2

theorem Addressed.same {k : Pubkey} {after : StreamMandate} (addressed : Addressed P k s)
    (deal : s.SameDeal after) : Addressed P k after := by
  have seeds : after.seeds = s.seeds := by
    rw [StreamMandate.seeds, deal.subscriber, deal.merchant, deal.mandateIndex]
    rfl
  constructor
  · exact deal.version.trans addressed.version
  · rw [seeds]
    exact addressed.address
  · rw [seeds, deal.bump]
    exact addressed.bump

theorem StreamOpened.addressed {ctx : CreateStreamMandate} {state : MerchantState}
    (spec : StreamOpened P w ctx w' state s) : Addressed P ctx.mandate s := by
  have initial := spec.initial
  have address := spec.address
  subst initial
  exact ⟨rfl, address, rfl⟩

section Ready

variable {ctx : StreamControl} {source destination : TokenAccount} {config : ProtocolConfig}
  {tokenConfig : TokenConfig} {mint : Mint}
  (ready : ExitReady P w s ctx source destination config tokenConfig mint)
include ready

theorem ExitReady.apart (other : s.merchant ≠ ctx.mandate) :
    ctx.accounts.subscriberWrappedAccount ≠ ctx.accounts.merchantWrappedAccount := by
  intro same
  have found := ready.sourceFound
  rw [same, ready.destinationFound] at found
  obtain rfl := Option.some.inj found
  exact other (ready.destinationOwner.symm.trans ready.sourceOwner)

theorem ExitReady.loads : loadProtocolConfig w = .ok (.current config) := by
  rw [loadProtocolConfig, ready.configured]
  simp only [require_bind_eq_ok, pure_eq_ok]
  exact ⟨ready.configVersion, trivial⟩

theorem ExitReady.opens (found : w.stream ctx.mandate = some s)
    (addressed : Addressed P ctx.mandate s) :
    openStream P w ctx = .ok (.current config, s) := by
  have deployed : transferHookProgramId ≠ Pubkey.default := by decide
  have hook : (LoadedProtocolConfig.current config).hookProgramId = transferHookProgramId :=
    ready.hook
  have valid : validateStreamTransferAccounts w ctx.accounts = .ok () := by
    simp only [validateStreamTransferAccounts, ready.loads, ok_bind, check, require_bind_eq_ok,
      require_eq_ok, hook]
    exact ⟨ready.unpaused, deployed, ready.hookAccount, ready.vaultAccount⟩
  have loaded : loadStreamMandate w ctx.mandate = .ok s := by
    rw [loadStreamMandate, found]
    simp only [require_bind_eq_ok, pure_eq_ok]
    exact ⟨addressed.version, trivial⟩
  simp only [openStream, valid, ready.loads, loaded, ok_bind, validateStreamMandateAddress, check,
    require_bind_eq_ok, pure_eq_ok]
  exact ⟨addressed.address, ready.mintAccount, trivial⟩

theorem ExitReady.hooked (found : w.stream ctx.mandate = some s)
    (accrued : Accrued s now amount mid) (clock : w.clock.unixTimestamp = now) :
    executeHook P w mint (ctx.accounts.transfer ctx.mandate) amount = .ok () := by
  have allows : Hook.StreamAllows w.clock.unixTimestamp s amount := by
    rw [clock, accrued.allows_iff]
    exact UInt64.le_refl _
  simp only [executeHook, ready.mintHook, require_bind_eq_ok]
  refine ⟨ready.hookAccount.symm, ?_⟩
  rw [if_pos trivial]
  have mint_eq := ready.mintAccount
  refine handlerTransferHook_eq_ok.mpr ⟨config, tokenConfig, source, destination, ?_,
    .inr (.inr ?_)⟩
  · exact {
      configured := ready.configured
      program := ready.hook
      registered := by rw [StreamTransferAccounts.transfer, mint_eq]; exact ready.registered
      registeredMint := ready.registeredMint.trans mint_eq.symm
      enabled := ready.enabled
      rail := ready.rail
      sourceFound := ready.sourceFound
      destinationFound := ready.destinationFound
      sourceMint := ready.sourceMint.trans mint_eq.symm
      destinationMint := ready.destinationMint.trans mint_eq.symm
      sourceOwner := ready.sourceOwner
      vault := fun _ => ready.vaultAccount }
  · have branch : hookAuthority w ctx.mandate amount = hookStream w s amount := by
      rw [hookAuthority, found]
    exact branch.trans (hookStream_eq_ok.mpr allows)

theorem ExitReady.transfers (found : w.stream ctx.mandate = some s)
    (addressed : Addressed P ctx.mandate s) (other : s.merchant ≠ ctx.mandate)
    (accrued : Accrued s now amount mid) (clock : w.clock.unixTimestamp = now)
    (funds : amount ≤ source.amount) :
    ∃ paid, invokeStreamTransfer P w ctx.accounts ctx.mandate s.merchant amount s.seeds s.bump =
      .ok paid := by
  have mint_eq := ready.mintAccount
  have supply := ready.supply
  have enough := Checked.le_iff.mp funds
  have fits : Checked.addU64 destination.amount amount = some (destination.amount + amount) :=
    if_pos (by omega)
  have valid : validateToken2022TransferAccounts w ctx.accounts.subscriberWrappedAccount
      ctx.accounts.merchantWrappedAccount ctx.accounts.wrappedUsdcMint ctx.mandate s.merchant =
        .ok () := by
    simp only [validateToken2022TransferAccounts, check, orVela, ready.sourceFound,
      ready.destinationFound, orError_some, ok_bind, require_bind_eq_ok, require_eq_ok]
    exact ⟨ready.sourceMint.trans mint_eq.symm, ready.destinationMint.trans mint_eq.symm,
      ready.sourceOwner, ready.destinationOwner⟩
  have decimals : ctx.accounts.tokenConfig.decimals w ctx.accounts.wrappedUsdcMint =
      some mint.decimals := by
    rw [ready.tokenAccount, mint_eq, TokenConfigArgument.decimals, ready.registered,
      Option.map_some, ready.mintDecimals]
  have signs : P.createProgramAddress s.seeds s.bump = some ctx.mandate := by
    rw [addressed.bump, P.create_find, ← addressed.address]
  let accounts := ctx.accounts.transfer ctx.mandate
  have mintFound : w.mint accounts.mint = some mint := by
    show w.mint ctx.accounts.wrappedUsdcMint = some mint
    rw [mint_eq]
    exact ready.mintFound
  have sourceMint : source.mint = accounts.mint := ready.sourceMint.trans mint_eq.symm
  have destinationMint : destination.mint = accounts.mint :=
    ready.destinationMint.trans mint_eq.symm
  have owner : source.owner = accounts.authority := ready.sourceOwner
  obtain ⟨paid, moved⟩ := transferChecked_of ready.sourceFound ready.destinationFound funds
    sourceMint destinationMint mintFound ready.transferable owner (ready.apart other) fits
    (ready.hooked found accrued clock)
  have slots : HookSlots P w ctx.accounts ctx.mandate := fun _ _ =>
    ⟨ready.approvalAccount, ready.tokenAccount⟩
  refine ⟨paid, ?_⟩
  simp only [invokeStreamTransfer, invokeTransferCheckedWithHook, orVela, valid, decimals,
    orError_some, ok_bind, bind_eq_ok, pure_eq_ok]
  exact ⟨paid, ⟨(), require_of _ signs, moved⟩, (), require_of _ slots, rfl⟩

theorem ExitReady.pays_iff (found : w.stream ctx.mandate = some s)
    (addressed : Addressed P ctx.mandate s) (other : s.merchant ≠ ctx.mandate)
    (accrued : Accrued s now amount mid) (clock : w.clock.unixTimestamp = now) :
    (∃ paid, payStream P w ctx.accounts ctx.mandate mid amount = .ok paid) ↔
      amount ≤ source.amount := by
  obtain ⟨total, last, form⟩ := (Settling.booked accrued).form
  have merchant : mid.merchant = s.merchant := by rw [form]; rfl
  have seeds : mid.seeds = s.seeds := by rw [form]; rfl
  have bump : mid.bump = s.bump := by rw [form]; rfl
  rw [payStream, merchant, seeds, bump]
  by_cases positive : 0 < amount
  · rw [if_pos positive]
    constructor
    · rintro ⟨paid, h⟩
      obtain ⟨_, _, h⟩ := bind_eq_ok.mp h
      obtain ⟨decimals, _, h⟩ := bind_eq_ok.mp h
      obtain ⟨paid, invoked, _⟩ := bind_eq_ok.mp h
      obtain ⟨_, moved⟩ := require_bind_eq_ok.mp invoked
      exact transferChecked_funds ready.sourceFound moved
    · exact ready.transfers found addressed other accrued clock
  · rw [if_neg positive]
    constructor
    · intro _
      rw [UInt64.le_zero_iff.mp (UInt64.not_lt.mp positive), Checked.le_iff]
      exact Nat.zero_le _
    · intro _
      exact ⟨w, rfl⟩

theorem ExitReady.settles_iff (found : w.stream ctx.mandate = some s)
    (addressed : Addressed P ctx.mandate s) (other : s.merchant ≠ ctx.mandate)
    (active : s.status = .active) (sound : StreamSound s w.clock.unixTimestamp.toInt) :
    (∃ mid amount paid, settleBeforePause s w.clock.unixTimestamp = .ok (mid, amount) ∧
        payStream P w ctx.accounts ctx.mandate mid amount = .ok paid) ↔
      s.ExitClear w.clock.unixTimestamp source.amount := by
  constructor
  · rintro ⟨mid, amount, paid, settled, pays⟩
    obtain ⟨short, ⟨early, _, _⟩ | accrued⟩ := (settleBeforePause_iff active sound).mp settled
    · exact ⟨short, .inl early⟩
    · have funds := (ready.pays_iff found addressed other accrued rfl).mp ⟨paid, pays⟩
      have payable : amount.toNat = s.settlementDue w.clock.unixTimestamp := accrued.payable
      have total := (Settling.booked accrued).total
      have bound := mid.totalStreamed.toNat_lt
      refine ⟨short, .inr ⟨?_, ?_⟩⟩
      · rw [← payable]
        exact Checked.le_iff.mp funds
      · omega
  · rintro ⟨short, clear⟩
    by_cases early : w.clock.unixTimestamp.toInt <
        s.lastSettledTs.toInt + s.minSettleInterval.toNat
    · exact ⟨s, 0, w, (settleBeforePause_iff active sound).mpr ⟨short, .inl ⟨early, rfl, rfl⟩⟩, rfl⟩
    · obtain ⟨enough, fits⟩ := clear.resolve_left early
      obtain ⟨mid, amount, accrued⟩ :=
        accrued_of_fits active sound short (not_lt.mp early) fits
      have funds : amount ≤ source.amount := by
        have payable : amount.toNat = s.settlementDue w.clock.unixTimestamp := accrued.payable
        rw [Checked.le_iff, payable]
        exact enough
      obtain ⟨paid, pays⟩ := (ready.pays_iff found addressed other accrued rfl).mpr funds
      exact ⟨mid, amount, paid, (settleBeforePause_iff active sound).mpr ⟨short, .inr accrued⟩,
        pays⟩

theorem ExitReady.pause_iff (found : w.stream ctx.mandate = some s)
    (addressed : Addressed P ctx.mandate s) (active : s.status = .active) :
    (∃ w', pauseStream P w ctx = .ok w') ↔
      ∃ mid amount paid, settleBeforePause s w.clock.unixTimestamp = .ok (mid, amount) ∧
        payStream P w ctx.accounts ctx.mandate mid amount = .ok paid := by
  have allowed : ctx.authority = s.subscriber ∨ ctx.authority = s.merchant := .inl ready.signer
  have running : s.status ≠ .paused := by rw [active]; exact nofun
  have open_ : s.status ≠ .cancelled := by rw [active]; exact nofun
  simp only [pauseStream, ready.opens found addressed, ok_bind, check, bind_eq_ok,
    require_eq_ok, pure_eq_ok, exists_const, allowed, running, open_, ne_eq, not_false_eq_true,
    true_and]
  constructor
  · rintro ⟨_, ⟨mid, amount⟩, settled, paid, pays, _⟩
    exact ⟨mid, amount, paid, settled, pays⟩
  · rintro ⟨mid, amount, paid, settled, pays⟩
    exact ⟨_, (mid, amount), settled, paid, pays, rfl⟩

theorem ExitReady.cancel_iff (found : w.stream ctx.mandate = some s)
    (addressed : Addressed P ctx.mandate s) (active : s.status = .active) :
    (∃ w', cancelStream P w ctx = .ok w') ↔
      ∃ mid amount paid, settleBeforePause s w.clock.unixTimestamp = .ok (mid, amount) ∧
        payStream P w ctx.accounts ctx.mandate mid amount = .ok paid := by
  have allowed : ctx.authority = s.subscriber ∨ ctx.authority = s.merchant := .inl ready.signer
  have open_ : s.status ≠ .cancelled := by rw [active]; exact nofun
  simp only [cancelStream, ready.opens found addressed, ok_bind, check, bind_eq_ok,
    require_eq_ok, pure_eq_ok, exists_const, allowed, open_, ne_eq, not_false_eq_true, true_and,
    settleBeforeCancel_active active]
  constructor
  · rintro ⟨_, ⟨mid, amount⟩, settled, paid, pays, _⟩
    exact ⟨mid, amount, paid, settled, pays⟩
  · rintro ⟨mid, amount, paid, settled, pays⟩
    exact ⟨_, (mid, amount), settled, paid, pays, rfl⟩

end Ready

/-- In any run, the subscriber can pause and can cancel a running stream exactly when the minimum
interval since the last settlement is still running or what is due is there to be paid. -/
theorem exits_succeed_iff {w₀ w₁ : World} {offer : CreateStreamMandate} {ctx : StreamControl}
    {source destination : TokenAccount} {config : ProtocolConfig} {tokenConfig : TokenConfig}
    {mint : Mint} (signed : MerchantsSign P w) (created : createStreamMandate P w offer = .ok w₀)
    (run : StreamRun P w₀ w₁) (key : ctx.mandate = offer.mandate)
    (found : w₁.stream ctx.mandate = some s) (active : s.status = .active)
    (ready : ExitReady P w₁ s ctx source destination config tokenConfig mint) :
    ((∃ w', pauseStream P w₁ ctx = .ok w') ↔
        s.ExitClear w₁.clock.unixTimestamp source.amount) ∧
      ((∃ w', cancelStream P w₁ ctx = .ok w') ↔
        s.ExitClear w₁.clock.unixTimestamp source.amount) := by
  obtain ⟨state, s₀, spec⟩ := createStreamMandate_eq_ok created
  obtain ⟨s₁, streaming, advanced⟩ := (Streaming.of_opened signed spec).run run
  rw [← key] at streaming
  obtain rfl := Option.some.inj (streaming.found.symm.trans found)
  have addressed : Addressed P ctx.mandate s₁ := by
    rw [key]
    exact spec.addressed.same advanced.deal
  have settles := ready.settles_iff found addressed streaming.merchant_ne active streaming.sound
  exact ⟨(ready.pause_iff found addressed active).trans settles,
    (ready.cancel_iff found addressed active).trans settles⟩

open Deployment

def ExitState (w : World) (s : StreamMandate) (funds : UInt64) : Prop :=
  w.protocolConfig = some (.current config) ∧ w.tokenConfig mintA = some (tokenConfig mintA) ∧
    w.mint mintA = some billingMint ∧ w.tokenAccount streamPayer = some ⟨mintA, stream, funds⟩ ∧
    w.tokenAccount (receiver mintA) = some ⟨mintA, merchant, 0⟩ ∧
    s.subscriber = subscriber ∧ s.merchant = merchant ∧ s.mint = mintA

instance (w : World) (s : StreamMandate) (funds : UInt64) : Decidable (ExitState w s funds) :=
  inferInstanceAs (Decidable (_ ∧ _))

theorem ExitState.ready {funds : UInt64} (state : ExitState w s funds) :
    ExitReady platform w s (control subscriber) ⟨mintA, stream, funds⟩ ⟨mintA, merchant, 0⟩ config
      (tokenConfig mintA) billingMint := by
  obtain ⟨configured, registered, mintFound, funded, paidInto, signer, receives, mint⟩ := state
  have supply := funds.toNat_lt
  constructor
  case signer => exact signer.symm
  case configured => exact configured
  case registered => rw [mint]; exact registered
  case mintFound => rw [mint]; exact mintFound
  case sourceFound => exact funded
  case destinationFound => exact paidInto
  case destinationOwner => exact receives.symm
  case supply => exact supply
  all_goals first | rfl | exact mint.symm

theorem exits_succeed_iff_funded : ∃ (w₁ : World) (s : StreamMandate),
    w₁.stream stream = some s ∧ s.settlementDue 60 = 600 ∧
      ((∃ w', pauseStream platform w₁ (control subscriber) = .ok w') ↔ s.ExitClear 60 600) := by
  have played : (createStreamMandate platform (streamWorld 0 600) (streamOffer none)).toOption.any
      (fun w₀ => (Monitored.play applyStreamAction (fun g _ _ _ => g) Monitored.Any (w₀, ())
        [tickStream 60]).any fun x => (x.1.stream stream).any fun s =>
          decide (ExitState x.1 s 600 ∧ x.1.clock.unixTimestamp = 60 ∧ s.status = .active ∧
            s.settlementDue 60 = 600)) = true := by
    decide +kernel
  obtain ⟨w₀, ⟨w₁, _⟩, created, run, ends⟩ := stream_script played
  simp only [Option.any_eq_true, decide_eq_true_eq] at ends
  obtain ⟨s, found, state, time, active, due⟩ := ends
  have ready : ExitReady platform w₁ s (control subscriber) ⟨mintA, stream, 600⟩
      ⟨mintA, merchant, 0⟩ config (tokenConfig mintA) billingMint := state.ready
  have reached : StreamRun platform w₀ w₁ := run.forget
  have key : (control subscriber).mandate = (streamOffer none).mandate := rfl
  have here : w₁.stream (control subscriber).mandate = some s := found
  have exits := exits_succeed_iff (streamWorld_merchantsSign 0 600) created reached key here
    active ready
  have time : w₁.clock.unixTimestamp = 60 := time
  rw [time] at exits
  exact ⟨w₁, s, found, due, exits.1⟩

/-- After a minute 600 is due from an account that holds 100: the subscriber can neither pause nor
cancel. -/
theorem exits_blocked : ¬∀ (P : Platform) (w w₀ w₁ : World) (offer : CreateStreamMandate)
    (ctx : StreamControl) (s : StreamMandate) (source destination : TokenAccount)
    (config : ProtocolConfig) (tokenConfig : TokenConfig) (mint : Mint), MerchantsSign P w →
      createStreamMandate P w offer = .ok w₀ → StreamRun P w₀ w₁ → ctx.mandate = offer.mandate →
      w₁.stream ctx.mandate = some s → s.status = .active →
      ExitReady P w₁ s ctx source destination config tokenConfig mint →
      (∃ w', pauseStream P w₁ ctx = .ok w') ∧ ∃ w', cancelStream P w₁ ctx = .ok w' := by
  intro exits
  have played : (createStreamMandate platform (streamWorld 0 100) (streamOffer none)).toOption.any
      (fun w₀ => (Monitored.play applyStreamAction (fun g _ _ _ => g) Monitored.Any (w₀, ())
        [tickStream 60]).any fun x => (x.1.stream stream).any fun s =>
          decide (ExitState x.1 s 100 ∧ s.status = .active ∧
            (pauseStream platform x.1 (control subscriber)).toOption.isNone ∧
            (cancelStream platform x.1 (control subscriber)).toOption.isNone)) = true := by
    decide +kernel
  obtain ⟨w₀, ⟨w₁, _⟩, created, run, ends⟩ := stream_script played
  simp only [Option.any_eq_true, decide_eq_true_eq] at ends
  obtain ⟨s, found, state, active, pauseFails, _⟩ := ends
  have ready : ExitReady platform w₁ s (control subscriber) ⟨mintA, stream, 100⟩
      ⟨mintA, merchant, 0⟩ config (tokenConfig mintA) billingMint := state.ready
  have reached : StreamRun platform w₀ w₁ := run.forget
  obtain ⟨⟨w', paused⟩, _⟩ := exits platform _ w₀ w₁ (streamOffer none) (control subscriber) s _ _
    _ _ _ (streamWorld_merchantsSign 0 100) created reached rfl found active ready
  rw [paused] at pauseFails
  cases pauseFails

end VelaProtocol
