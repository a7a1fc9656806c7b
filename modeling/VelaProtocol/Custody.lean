import VelaProtocol.Frames
import VelaProtocol.Protocol

/-! Who can lose tokens: what every instruction of the program does to the token accounts of an
address that nobody signs for. -/
namespace VelaProtocol

open Guard

variable {P : Platform} {w w₁ w' : World} {k key : Pubkey}

/-- The accounts `k` owns stay its own and lose nothing, and it has signed no transfer. -/
structure Keeps (k : Pubkey) (w w' : World) : Prop where
  held : ∀ coin a account, w.held coin a = some account → account.owner = k →
    ∃ after, w'.held coin a = some after ∧ after.owner = k ∧ account.amount ≤ after.amount
  transfersBy : w'.transfersBy k = w.transfersBy k

def OnlyPays (key : Pubkey) (w w' : World) : Prop := ∀ k, k ≠ key → Keeps k w w'

structure Burned (w w' : World) : Prop where
  owner : ∀ coin a account, w.held coin a = some account →
    ∃ after, w'.held coin a = some after ∧ after.owner = account.owner
  gains : ∀ coin a, w'.holds coin a ≤ w.holds coin a
  transfersBy : ∀ k, w'.transfersBy k = w.transfersBy k

structure Returned (w : World) (owner : Pubkey) (w' : World) : Prop where
  gains : ∀ coin a, w.holds coin a < w'.holds coin a → coin = .classic ∧
    ∃ account, w.splTokenAccount a = some account ∧ account.owner = owner
  transfersBy : ∀ k, w'.transfersBy k = w.transfersBy k

theorem Keeps.trans (first : Keeps k w w₁) (second : Keeps k w₁ w') : Keeps k w w' := by
  constructor
  · intro coin a account found owner
    obtain ⟨between, found₁, owner₁, more⟩ := first.held coin a account found owner
    obtain ⟨after, found₂, owner₂, more₂⟩ := second.held coin a between found₁ owner₁
    exact ⟨after, found₂, owner₂, UInt64.le_trans more more₂⟩
  · exact second.transfersBy.trans first.transfersBy

theorem Keeps.holds {coin : Coin} {a : Pubkey} {account : TokenAccount} (keeps : Keeps k w w')
    (found : w.held coin a = some account) (owner : account.owner = k) :
    w.holds coin a ≤ w'.holds coin a := by
  obtain ⟨after, present, _, more⟩ := keeps.held coin a account found owner
  simpa only [World.holds, found, present, Option.map_some, Option.getD_some] using
    Checked.le_iff.mp more

theorem Keeps.of_eq (tokens : w'.tokenAccount = w.tokenAccount)
    (coins : w'.splTokenAccount = w.splTokenAccount)
    (transfers : w'.transfersBy k = w.transfersBy k) : Keeps k w w' := by
  refine ⟨fun coin a account found owner => ⟨account, ?_, owner, UInt64.le_refl _⟩, transfers⟩
  cases coin with
  | token2022 => exact (congrFun tokens a).trans found
  | classic => exact (congrFun coins a).trans found

theorem Keeps.refl (k : Pubkey) (w : World) : Keeps k w w := .of_eq rfl rfl rfl

theorem Unmoved.keeps (same : Unmoved w w') (k : Pubkey) : Keeps k w w' :=
  .of_eq same.tokenAccount same.splTokenAccount (same.transfersBy k)

theorem Keeps.emit (keeps : Keeps k w w') {e : LogEntry} (neutral : e.neutral = true) :
    Keeps k w (w'.emit e) :=
  keeps.trans (.of_eq rfl rfl ((SameMoney.of_entry rfl neutral).transfersBy k))

theorem Keeps.of_update {a : Pubkey} {after : TokenAccount}
    (tokens : w'.tokenAccount = Function.update w.tokenAccount a (some after))
    (coins : w'.splTokenAccount = w.splTokenAccount)
    (transfers : w'.transfersBy k = w.transfersBy k)
    (safe : ∀ account, w.tokenAccount a = some account → account.owner = k →
      after.owner = k ∧ account.amount ≤ after.amount) : Keeps k w w' := by
  refine ⟨fun coin b account found owner => ?_, transfers⟩
  cases coin with
  | classic => exact ⟨account, (congrFun coins b).trans found, owner, UInt64.le_refl _⟩
  | token2022 =>
    by_cases same : b = a
    · subst same
      obtain ⟨kept, more⟩ := safe account found owner
      exact ⟨after, by rw [World.held, tokens, Function.update_self], kept, more⟩
    · refine ⟨account, ?_, owner, UInt64.le_refl _⟩
      rw [World.held, tokens, Function.update_of_ne same]
      exact found

theorem Keeps.of_update_classic {a : Pubkey} {after : TokenAccount}
    (tokens : w'.tokenAccount = w.tokenAccount)
    (coins : w'.splTokenAccount = Function.update w.splTokenAccount a (some after))
    (transfers : w'.transfersBy k = w.transfersBy k)
    (safe : ∀ account, w.splTokenAccount a = some account → account.owner = k →
      after.owner = k ∧ account.amount ≤ after.amount) : Keeps k w w' := by
  refine ⟨fun coin b account found owner => ?_, transfers⟩
  cases coin with
  | token2022 => exact ⟨account, (congrFun tokens b).trans found, owner, UInt64.le_refl _⟩
  | classic =>
    by_cases same : b = a
    · subst same
      obtain ⟨kept, more⟩ := safe account found owner
      exact ⟨after, by rw [World.held, coins, Function.update_self], kept, more⟩
    · refine ⟨account, ?_, owner, UInt64.le_refl _⟩
      rw [World.held, coins, Function.update_of_ne same]
      exact found

theorem addU64_le {a b sum : UInt64} (added : Checked.addU64 a b = some sum) : a ≤ sum := by
  have value : sum.toNat = a.toNat + b.toNat := Checked.addU64_eq_some.mp added
  rw [Checked.le_iff]
  omega

theorem createIdempotent_keeps {owner mint : Pubkey} :
    Ensures (createIdempotent P w owner mint) (Keeps k w) := by
  intro w' h
  simp only [createIdempotent] at h
  split at h
  · simp only [require_bind_eq_ok, pure_eq_ok] at h
    obtain ⟨_, _, rfl⟩ := h
    exact .refl k w
  · rename_i vacant
    simp only [orHost, orError_bind_eq_ok, pure_eq_ok] at h
    obtain ⟨_, _, rfl⟩ := h
    refine .of_update rfl rfl rfl fun account found => ?_
    cases vacant.symm.trans found

theorem mintTo_keeps {mint account authority : Pubkey} {amount : UInt64} :
    Ensures (mintTo w mint account authority amount) (Keeps k w) := by
  intro w' h
  simp only [mintTo, orHost, orError_bind_eq_ok, require_bind_eq_ok, pure_eq_ok] at h
  obtain ⟨before, found, _, _, _, _, _, _, received, sum, rfl⟩ := h
  refine .of_update rfl rfl rfl fun stored present owner => ?_
  obtain rfl := Option.some.inj (found.symm.trans present)
  exact ⟨owner, addU64_le sum⟩

theorem burn_keeps {account mint authority : Pubkey} {amount : UInt64}
    (other : ∀ source, w.tokenAccount account = some source → source.owner ≠ k) :
    Ensures (burn w account mint authority amount) (Keeps k w) := by
  intro w' h
  simp only [burn, orHost, orError_bind_eq_ok, require_bind_eq_ok, pure_eq_ok] at h
  obtain ⟨source, found, _, _, _, _, _, rfl⟩ := h
  refine .of_update rfl rfl rfl fun stored present owner => ?_
  exact absurd owner (other stored present)

theorem burn_burned {account mint authority : Pubkey} {amount : UInt64} :
    Ensures (burn w account mint authority amount) (Burned w) := by
  intro w' h
  simp only [burn, orHost, orError_bind_eq_ok, require_bind_eq_ok, pure_eq_ok] at h
  obtain ⟨source, found, _, _, _, funds, _, rfl⟩ := h
  have less : (source.amount - amount).toNat ≤ source.amount.toNat := by
    rw [UInt64.toNat_sub_of_le _ _ funds]
    exact Nat.sub_le _ _
  constructor
  · intro coin a stored present
    cases coin with
    | classic => exact ⟨stored, present, rfl⟩
    | token2022 =>
      by_cases same : a = account
      · subst same
        obtain rfl := Option.some.inj (found.symm.trans present)
        exact ⟨_, Function.update_self _ _ _, rfl⟩
      · exact ⟨stored, (Function.update_of_ne same _ _).trans present, rfl⟩
  · intro coin a
    cases coin with
    | classic => exact Nat.le_refl _
    | token2022 =>
      by_cases same : a = account
      · subst same
        simpa only [World.holds, World.held, Function.update_self, found, Option.map_some,
          Option.getD_some] using less
      · simp only [World.holds, World.held, Function.update_of_ne same, Nat.le_refl]
  · exact fun _ => rfl

theorem transferChecked_only {accounts : TransferAccounts} {amount : UInt64} {decimals : UInt8} :
    Ensures (transferChecked P w accounts amount decimals) fun w' =>
      TokenOnly w w' ∧ OnlyPays accounts.authority w w' := by
  intro w' h
  have spec := transferChecked_eq_ok h
  refine ⟨spec.frame, fun k other => ?_⟩
  have quiet := spec.moved.transfersBy_of_ne other
  simp only [transferChecked, orHost, orError_bind_eq_ok, require_bind_eq_ok] at h
  obtain ⟨source, found, destination, present, _, _, _, _, _, _, _, owner, h⟩ := h
  split at h
  · cases h
    exact .refl k w
  · rename_i different
    simp only [bind_eq_ok, orError_eq_ok, pure_eq_ok] at h
    obtain ⟨received, sum, ⟨⟩, _, rfl⟩ := h
    -- the source first, then the destination
    let paid : World := { w with
      tokenAccount := Function.update w.tokenAccount accounts.source
        (some { source with amount := source.amount - amount }) }
    refine Keeps.trans (?_ : Keeps k w paid) ?_
    · refine .of_update rfl rfl rfl fun stored there mine => ?_
      obtain rfl := Option.some.inj (found.symm.trans there)
      exact absurd (mine.symm.trans owner) other
    · refine .of_update rfl rfl quiet fun stored there mine => ?_
      have unpaid : paid.tokenAccount accounts.destination = w.tokenAccount accounts.destination :=
        Function.update_of_ne (Ne.symm different) _ _
      obtain rfl := Option.some.inj (present.symm.trans (unpaid.symm.trans there))
      exact ⟨mine, addU64_le sum⟩

theorem invokeTransfer_only {accounts : TransferAccounts} {amount : UInt64} {decimals : UInt8}
    {seeds : Seeds} {bump : UInt8} :
    Ensures (invokeTransferCheckedWithHook P w accounts amount decimals seeds bump) fun w' =>
      TokenOnly w w' ∧ OnlyPays accounts.authority w w' :=
  .skip fun _ => transferChecked_only

theorem splTransferChecked_keeps {source mint destination authority : Pubkey} {amount : UInt64}
    {decimals : UInt8} (other : k ≠ authority) :
    Ensures (splTransferChecked w source mint destination authority amount decimals)
      (Keeps k w) := by
  intro w' h
  simp only [splTransferChecked, orHost, orError_bind_eq_ok, require_bind_eq_ok] at h
  obtain ⟨payer, found, receiver, present, _, _, _, _, _, _, owner, h⟩ := h
  split at h
  · cases h
    exact .refl k w
  · rename_i different
    simp only [bind_eq_ok, orError_eq_ok, pure_eq_ok] at h
    obtain ⟨received, sum, rfl⟩ := h
    let paid : World := { w with
      splTokenAccount := Function.update w.splTokenAccount source
        (some { payer with amount := payer.amount - amount }) }
    refine Keeps.trans (?_ : Keeps k w paid) ?_
    · refine .of_update_classic rfl rfl rfl fun stored there mine => ?_
      obtain rfl := Option.some.inj (found.symm.trans there)
      exact absurd (mine.symm.trans owner) other
    · refine .of_update_classic rfl rfl rfl fun stored there mine => ?_
      have unpaid : paid.splTokenAccount destination = w.splTokenAccount destination :=
        Function.update_of_ne (Ne.symm different) _ _
      obtain rfl := Option.some.inj (present.symm.trans (unpaid.symm.trans there))
      exact ⟨mine, addU64_le sum⟩

theorem deposit_keeps {accounts : WrappingAccounts} {payer : Pubkey} {amount : UInt64}
    (other : k ≠ payer) : Ensures (deposit P w accounts payer amount) (Keeps k w) :=
  .bind (splTransferChecked_keeps other) fun _ paid =>
    mintTo_keeps.mono fun _ minted => paid.trans minted

theorem withdraw_keeps {accounts : WrappingAccounts} {owner : Pubkey} {amount : UInt64}
    (other : ∀ source, w.tokenAccount accounts.wrappedAccount = some source → source.owner ≠ k)
    (vault : k ≠ mintAuthority P) : Ensures (withdraw P w accounts owner amount) (Keeps k w) :=
  .bind (burn_keeps other) fun _ burned =>
    (splTransferChecked_keeps vault).mono fun _ paid => burned.trans paid

theorem withdraw_returned {accounts : WrappingAccounts} {owner receiver : Pubkey} {amount : UInt64}
    (receives : ∃ account, w.splTokenAccount accounts.usdcAccount = some account ∧
      account.owner = receiver) :
    Ensures (withdraw P w accounts owner amount) (Returned w receiver) := by
  intro w' h
  obtain ⟨burned, gone, transferred⟩ := bind_eq_ok.mp h
  have less := burn_burned _ gone
  have unpaid : burned.splTokenAccount = w.splTokenAccount := (burn_frame gone).1.splTokenAccount
  have paid := splTransferChecked_eq_ok transferred
  have only := paid.only
  constructor
  · intro coin a more
    cases coin with
    | token2022 =>
      have same : w'.holds .token2022 a = burned.holds .token2022 a := by rw [only]; rfl
      have bound := less.gains .token2022 a
      omega
    | classic =>
      refine ⟨rfl, ?_⟩
      by_cases there : a = accounts.usdcAccount
      · exact there ▸ receives
      · have bound : w'.holds .classic a ≤ burned.holds .classic a := paid.others a there
        have before := less.gains .classic a
        omega
  · intro k
    have quiet : w'.transfersBy k = burned.transfersBy k := by rw [only]; rfl
    exact quiet.trans (less.transfersBy k)

theorem ensureVault_keeps {ctx : InitWrappedMint} :
    Ensures (w.ensureVault P ctx) fun w' => Configured w w' ∧ Keeps k w w' := by
  intro w' h
  unfold World.ensureVault at h
  split at h
  · simp only [require_bind_eq_ok, pure_eq_ok] at h
    obtain ⟨_, _, rfl⟩ := h
    exact ⟨.of_eq ⟨rfl, rfl⟩ rfl rfl rfl, .refl k w⟩
  · rename_i vacant
    cases h
    refine ⟨.of_eq ⟨rfl, rfl⟩ rfl rfl rfl, .of_update_classic rfl rfl rfl ?_⟩
    intro account found
    cases vacant.symm.trans found

theorem Configured.trans (first : Configured w w₁) (second : Configured w₁ w') :
    Configured w w' where
  toUntouched := first.toUntouched.trans second.toUntouched
  clock := second.clock.trans first.clock
  mandate := second.mandate.trans first.mandate
  counter merchant := (first.counter merchant).trans (second.counter merchant)

theorem initWrappedMint_keeps {ctx : InitWrappedMint} :
    Ensures (initWrappedMint P w ctx) fun w' => Configured w w' ∧ Keeps k w w' := by
  refine .skip fun _ => .bind (ensureVault_keeps (k := k)) fun w₁ vault => ?_
  iterate 3 refine .skip fun _ => ?_
  refine .bind createMint_only fun w₂ only => .of_pure ?_
  rw [only]
  exact ⟨vault.1.trans (.of_eq ⟨rfl, rfl⟩ rfl rfl rfl), vault.2.trans (.of_eq rfl rfl rfl)⟩

theorem configure_keeps {i : ConfigInstruction} :
    Ensures (configure P w i) fun w' => Configured w w' ∧ Keeps k w w' := by
  have unmoved {r : Result World} (h : Ensures r fun w' => Configured w w' ∧ Unmoved w w') :
      Ensures r fun w' => Configured w w' ∧ Keeps k w w' :=
    h.mono fun _ same => ⟨same.1, same.2.keeps k⟩
  cases i with
  | initConfig ctx => exact unmoved initConfig_unmoved
  | updateConfig ctx => exact unmoved updateConfig_unmoved
  | pauseProtocol admin => exact unmoved pauseProtocol_unmoved
  | unpauseProtocol admin => exact unmoved unpauseProtocol_unmoved
  | initKeeperConfig ctx => exact unmoved initKeeperConfig_unmoved
  | updateKeeperConfig ctx => exact unmoved updateKeeperConfig_unmoved
  | initTokenConfig ctx => exact unmoved initTokenConfig_unmoved
  | updateTokenConfig ctx => exact unmoved updateTokenConfig_unmoved
  | initWrappedMint ctx => exact initWrappedMint_keeps
  | initMerchantCredential ctx => exact unmoved initMerchantCredential_unmoved
  | initCompDef circuit ctx => exact unmoved initCompDef_unmoved

theorem settleProration_only {ctx : UpdateMandatePlan} {s : PlanSwitch} {delta : Int} :
    Ensures (settleProration P w ctx s delta) fun result =>
      Untouched w result.1 ∧ OnlyPays ctx.mandate w result.1 := by
  refine .ite (fun _ => ?_) fun _ => .ite (fun _ => ?_) fun _ => ?_
  · refine .bind (R := fun paid => Untouched w paid ∧ OnlyPays ctx.mandate w paid) ?_
      fun _ paid => .of_pure paid
    refine .skip fun _ => .skip fun _ => .bind (.skip fun _ => invokeTransfer_only) ?_
    rintro paid ⟨only, keeps⟩
    exact .of_pure ⟨only.untouched.trans ⟨rfl, rfl⟩, fun k other =>
      (keeps k other).trans (.of_eq rfl rfl rfl)⟩
  · refine .skip fun _ => .skip fun _ => .of_pure ⟨⟨rfl, rfl⟩, fun k _ => ?_⟩
    exact .of_eq rfl rfl rfl
  · exact .of_pure ⟨⟨rfl, rfl⟩, fun k _ => .refl k w⟩

theorem updateMandatePlan_only {ctx : UpdateMandatePlan} :
    Ensures (updateMandatePlan P w ctx) fun w' =>
      Untouched w w' ∧ OnlyPays ctx.mandate w w' := by
  refine .skip fun s => .ite (fun _ => .of_pure ⟨⟨rfl, rfl⟩, fun k _ => .refl k w⟩) fun _ => ?_
  refine .skip fun _ => .skip fun _ => .bind settleProration_only ?_
  rintro ⟨paid, mandate⟩ ⟨untouched, keeps⟩
  refine .of_pure ⟨Untouched.trans ?_ (untouched.trans ⟨rfl, rfl⟩), fun k other => ?_⟩
  · exact ⟨rfl, rfl⟩
  · refine Keeps.trans ?_ ((keeps k other).trans ?_)
    · exact .of_eq rfl rfl rfl
    · exact .of_eq rfl rfl rfl

theorem updateMandatePlan_live {ctx : UpdateMandatePlan} (h : updateMandatePlan P w ctx = .ok w') :
    w.unpaused ∧ ∃ mandate, w.currentMandate ctx.mandate = some mandate ∧
      mandate.status = .active := by
  obtain ⟨s, checked, _⟩ := bind_eq_ok.mp h
  have spec := checkPlanSwitch_eq_ok checked
  refine ⟨⟨s.config, spec.config, ?_⟩, s.mandate, spec.found, spec.active⟩
  obtain ⟨_, _, checked⟩ := bind_eq_ok.mp checked
  obtain ⟨config, _, checked⟩ := bind_eq_ok.mp checked
  obtain ⟨open_, checked⟩ := require_bind_eq_ok.mp checked
  iterate 15 obtain ⟨_, _, checked⟩ := bind_eq_ok.mp checked
  cases checked
  exact open_

theorem finishPull_unmoved (w : World) (ctx : ExecutePull) (periodStart : Int64)
    (report : Option Pubkey) (mint : Pubkey) (change : Option (Pubkey × Pubkey × Int64)) :
    Unmoved w ((w.markUsageReportSettled ctx.mandate periodStart report).emitAutoApplied ctx mint
      change) := by
  cases report <;> cases change <;> exact ⟨⟨rfl, rfl⟩, rfl, rfl, fun _ => rfl⟩

theorem closeApproval_unmoved (w : World) (mandate : Pubkey) :
    Unmoved w (w.closeApproval mandate) := ⟨⟨rfl, rfl⟩, rfl, rfl, fun _ => rfl⟩

theorem executePull_only {ctx : ExecutePull} :
    Ensures (executePull P w ctx) fun w' => Untouched w w' ∧ OnlyPays ctx.mandate w w' := by
  refine .skip fun s => ?_
  refine .bind (R := fun paid => Untouched w paid ∧ OnlyPays ctx.mandate w paid) ?_ ?_
  · refine .ite (fun _ => .skip fun _ => ?_) fun _ => ?_
    · exact invokeTransfer_only.mono fun paid spec => ⟨spec.1.untouched, spec.2⟩
    · exact .of_pure ⟨⟨rfl, rfl⟩, fun k _ => .refl k w⟩
  · rintro paid ⟨untouched, keeps⟩
    refine .skip fun mandate => .of_pure ?_
    have finished := finishPull_unmoved
      (paid.writeMandate ctx.mandate mandate s.pull.loaded.isLegacy) ctx s.pull.period.1
      s.usageReport s.pull.config.wrappedUsdcMint s.terms.autoAppliedChange
    have written : Unmoved paid (paid.writeMandate ctx.mandate mandate s.pull.loaded.isLegacy) :=
      ⟨⟨rfl, rfl⟩, rfl, rfl, fun _ => rfl⟩
    have closed := (written.trans finished).trans (closeApproval_unmoved _ ctx.mandate)
    exact ⟨untouched.trans closed.toUntouched,
      fun k other => (keeps k other).trans (closed.keeps k)⟩

theorem executePull_live {ctx : ExecutePull} (h : executePull P w ctx = .ok w') :
    w.unpaused ∧ ∃ mandate, w.currentMandate ctx.mandate = some mandate ∧
      mandate.status = .active := by
  obtain ⟨s, prepared, _⟩ := bind_eq_ok.mp h
  obtain ⟨pull, checked, _⟩ := bind_eq_ok.mp prepared
  have spec := checkPull_eq_ok checked
  refine ⟨?_, pull.mandate, spec.found, spec.active⟩
  obtain ⟨loaded, load, _⟩ := bind_eq_ok.mp checked
  obtain ⟨_, _, load⟩ := bind_eq_ok.mp load
  obtain ⟨_, _, load⟩ := bind_eq_ok.mp load
  obtain ⟨config, found, load⟩ := bind_eq_ok.mp load
  obtain ⟨open_, _⟩ := require_bind_eq_ok.mp load
  exact ⟨config, loadProtocolConfig_eq_ok found, open_⟩

inductive Live (w : World) (k : Pubkey) : Prop
  | mandate (m : VelaMandate) (found : w.currentMandate k = some m) (active : m.status = .active)
  | stream (s : StreamMandate) (found : w.stream k = some s) (running : s.status ≠ .cancelled)
  | agent (m : AgentMandate) (found : w.agentMandateAt k = some m)

/-- What one instruction signed by `signers` does to the accounts of an address it does not sign
for: they are safe, tokens only disappear, a live one is charged, or an agent mandate's owner takes
its tokens back. -/
inductive Flow (w : World) (signers : List Pubkey) (k : Pubkey) (w' : World) : Prop
  | kept (keeps : Keeps k w w')
  | burned (burned : Burned w w')
  | charged (unpaused : w.unpaused) (live : Live w k)
  | returned (m : AgentMandate) (found : w.agentMandateAt k = some m)
      (signed : m.authority ∈ signers) (returned : Returned w m.authority w')

theorem Flow.of_only {signers : List Pubkey} (only : OnlyPays key w w') (unpaused : w.unpaused)
    (live : Live w key) : Flow w signers k w' := by
  by_cases same : k = key
  · exact .charged unpaused (same ▸ live)
  · exact .kept (only k same)

theorem Burned.unmoved (burned : Burned w w₁) (same : Unmoved w₁ w') : Burned w w' := by
  have held : ∀ coin, w'.held coin = w₁.held coin := by
    intro coin
    cases coin with
    | token2022 => exact same.tokenAccount
    | classic => exact same.splTokenAccount
  constructor
  · intro coin a account found
    rw [held coin]
    exact burned.owner coin a account found
  · intro coin a
    rw [World.holds, held coin]
    exact burned.gains coin a
  · exact fun k => (same.transfersBy k).trans (burned.transfersBy k)

theorem subscribe_keeps {ctx : Subscribe} : Ensures (subscribe P w ctx) (Keeps k w) := by
  unfold subscribe
  iterate 12 refine .skip fun _ => ?_
  refine .bind (createIdempotent_keeps (k := k)) fun w₁ opened => ?_
  iterate 3 refine .skip fun _ => ?_
  refine .bind (mintTo_keeps (k := k)) fun w₂ minted => ?_
  iterate 2 refine .skip fun _ => ?_
  exact .of_pure ((opened.trans minted).trans (.of_eq rfl rfl rfl))

theorem cancel_burned {ctx : Cancel} : Ensures (cancel P w ctx) (Burned w) := by
  unfold cancel
  iterate 5 refine .skip fun _ => ?_
  refine .bind burn_burned fun w₁ burned => .of_pure (burned.unmoved ?_)
  exact ⟨⟨rfl, rfl⟩, rfl, rfl, fun _ => rfl⟩

theorem adminCancel_burned {ctx : Cancel} : Ensures (adminCancel P w ctx) (Burned w) := by
  unfold adminCancel
  iterate 7 refine .skip fun _ => ?_
  refine .bind burn_burned fun w₁ burned => .of_pure (burned.unmoved ?_)
  exact ⟨⟨rfl, rfl⟩, rfl, rfl, fun _ => rfl⟩

theorem billing_flow {i : Instruction} (h : execute P w i = .ok w') :
    Untouched w w' ∧ ∀ k, Flow w i.signers k w' := by
  have unmoved {r : Result World} (frame : Ensures r (Unmoved w)) (ok : r = .ok w') :
      Untouched w w' ∧ ∀ k, Flow w i.signers k w' :=
    ⟨(frame w' ok).toUntouched, fun k => .kept ((frame w' ok).keeps k)⟩
  cases i with
  | createPlan ctx => exact unmoved createPlan_unmoved h
  | createUsagePlan ctx => exact unmoved createUsagePlan_unmoved h
  | updatePlan ctx => exact unmoved updatePlan_unmoved h
  | updateUsagePlan ctx => exact unmoved updateUsagePlan_unmoved h
  | migratePlan plan => exact unmoved migratePlan_unmoved h
  | subscribe ctx => exact ⟨subscribe_untouched w' h, fun _ => .kept (subscribe_keeps w' h)⟩
  | cancel ctx => exact ⟨cancel_untouched w' h, fun _ => .burned (cancel_burned w' h)⟩
  | adminCancel ctx =>
    exact ⟨adminCancel_untouched w' h, fun _ => .burned (adminCancel_burned w' h)⟩
  | closeMandate ctx => exact unmoved closeMandate_unmoved h
  | migrateMandate ctx => exact unmoved migrateMandate_unmoved h
  | updateMandate ctx => exact unmoved updateMandate_unmoved h
  | updateMandatePlan ctx =>
    obtain ⟨unpaused, mandate, found, active⟩ := updateMandatePlan_live h
    obtain ⟨untouched, only⟩ := updateMandatePlan_only w' h
    exact ⟨untouched, fun _ => .of_only only unpaused (.mandate mandate found active)⟩
  | schedulePlanChange ctx => exact unmoved schedulePlanChange_unmoved h
  | cancelPlanChange ctx => exact unmoved cancelPlanChange_unmoved h
  | requestValidation ctx => exact unmoved requestValidation_unmoved h
  | validateMandateCallback ctx => exact unmoved validateMandateCallback_unmoved h
  | submitUsageReport ctx => exact unmoved submitUsageReport_unmoved h
  | requestUsageComputation ctx => exact unmoved requestUsageComputation_unmoved h
  | usageChargeCallback ctx => exact unmoved usageChargeCallback_unmoved h
  | executePull ctx =>
    obtain ⟨unpaused, mandate, found, active⟩ := executePull_live h
    obtain ⟨untouched, only⟩ := executePull_only w' h
    exact ⟨untouched, fun _ => .of_only only unpaused (.mandate mandate found active)⟩
  | requestBillingRecord ctx => exact unmoved requestBillingRecord_unmoved h
  | recordBillingEventCallback ctx => exact unmoved recordBillingEventCallback_unmoved h

theorem writeStreamMandate_keeps (w : World) (key : Pubkey) (s : StreamMandate) (k : Pubkey) :
    Keeps k w (w.writeStreamMandate key s) := .of_eq rfl rfl rfl

theorem invokeStreamTransfer_only {accounts : StreamTransferAccounts} {merchant : Pubkey}
    {amount : UInt64} {seeds : Seeds} {bump : UInt8} :
    Ensures (invokeStreamTransfer P w accounts key merchant amount seeds bump) (OnlyPays key w) :=
  .skip fun _ => .skip fun _ => .bind invokeTransfer_only fun _ spec =>
    .skip fun _ => .of_pure spec.2

theorem payStream_only {accounts : StreamTransferAccounts} {s : StreamMandate} {amount : UInt64} :
    Ensures (payStream P w accounts key s amount) (OnlyPays key w) :=
  .ite (fun _ => invokeStreamTransfer_only) fun _ => .of_pure fun k _ => .refl k w

theorem executeStream_only {ctx : ExecuteStream} :
    Ensures (executeStream P w ctx) (OnlyPays ctx.streamMandate w) := by
  unfold executeStream
  iterate 10 refine .skip fun _ => ?_
  refine .skip ?_
  rintro ⟨settled, amount⟩
  refine .ite (fun _ => .of_pure fun k _ => .of_eq rfl rfl rfl) fun _ => ?_
  refine .bind invokeStreamTransfer_only fun paid only => .of_pure fun k other => ?_
  exact (only k other).trans (.of_eq rfl rfl rfl)

theorem pauseStream_only {ctx : StreamControl} :
    Ensures (pauseStream P w ctx) (OnlyPays ctx.mandate w) := by
  refine .skip ?_
  rintro ⟨config, mandate⟩
  iterate 3 refine .skip fun _ => ?_
  refine .skip ?_
  rintro ⟨settled, amount⟩
  refine .bind payStream_only fun paid only => .of_pure fun k other => ?_
  exact (only k other).trans (.of_eq rfl rfl rfl)

theorem cancelStream_only {ctx : StreamControl} :
    Ensures (cancelStream P w ctx) (OnlyPays ctx.mandate w) := by
  refine .skip ?_
  rintro ⟨config, mandate⟩
  iterate 2 refine .skip fun _ => ?_
  refine .skip ?_
  rintro ⟨settled, amount⟩
  refine .bind payStream_only fun paid only => .of_pure fun k other => ?_
  exact (only k other).trans (.of_eq rfl rfl rfl)

theorem resumeStream_only {ctx : ResumeStream} :
    Ensures (resumeStream P w ctx) (OnlyPays ctx.mandate w) := by
  unfold resumeStream
  iterate 8 refine .skip fun _ => ?_
  exact .of_pure fun k _ => .of_eq rfl rfl rfl

theorem updateStreamRate_only {ctx : UpdateStreamRate} :
    Ensures (updateStreamRate P w ctx) (OnlyPays ctx.mandate w) := by
  refine .skip ?_
  rintro ⟨config, mandate⟩
  iterate 5 refine .skip fun _ => ?_
  refine .skip ?_
  rintro ⟨settled, amount⟩
  refine .bind payStream_only fun paid only => .skip fun _ => .skip fun _ => .of_pure ?_
  intro k other
  refine Keeps.emit (.emit (.emit ((only k other).trans ?_) rfl) rfl) rfl
  exact writeStreamMandate_keeps paid ctx.mandate _ k

theorem streaming_only {i : StreamInstruction} (h : executeStreaming P w i = .ok w') :
    OnlyPays i.stream w w' := by
  cases i with
  | createStreamMandate ctx =>
    obtain ⟨_, _, spec⟩ := createStreamMandate_eq_ok h
    have written := spec.written
    exact fun k _ => .of_eq written.tokenAccount written.splTokenAccount
      (written.money.transfersBy k)
  | executeStream ctx => exact executeStream_only w' h
  | pauseStream ctx => exact pauseStream_only w' h
  | resumeStream ctx => exact resumeStream_only w' h
  | updateStreamRate ctx => exact updateStreamRate_only w' h
  | cancelStream ctx => exact cancelStream_only w' h

theorem StreamChange.running {now : Int64} {signer : Pubkey} {s after : StreamMandate}
    {i : StreamInstruction} {amount : UInt64} (change : StreamChange now signer s i amount after)
    (positive : 0 < amount) : s.status ≠ .cancelled := by
  cases change with
  | executed settled =>
    rcases settleAccruedInPlace_eq_ok.mp settled with ⟨_, _, zero⟩ | accrued
    · exact absurd positive (by rw [zero]; decide)
    · rw [accrued.active]
      decide
  | paused active _ =>
    rw [active]
    decide
  | resumed pausedAt paused _ _ =>
    rw [paused]
    decide
  | rerated active _ _ _ _ =>
    rw [active]
    decide
  | cancelled running _ => exact running

theorem streaming_flow {i : StreamInstruction} (k : Pubkey)
    (h : executeStreaming P w i = .ok w') : Flow w i.signers k w' := by
  have only := streaming_only h
  by_cases created : ∃ ctx, i = .createStreamMandate ctx
  · obtain ⟨ctx, rfl⟩ := created
    obtain ⟨_, _, spec⟩ := createStreamMandate_eq_ok h
    have written := spec.written
    exact .kept (.of_eq written.tokenAccount written.splTokenAccount (written.money.transfersBy k))
  · obtain ⟨signer, before, after, amount, spec⟩ :=
      call_called (fun ctx same => created ⟨ctx, same⟩) h
    obtain ⟨accounts, paid, payment, written, _⟩ := spec.effect
    cases payment with
    | nothing zero unchanged =>
      subst unchanged
      exact .kept (.of_eq written.tokenAccount written.splTokenAccount
        (written.money.transfersBy k))
    | transfer positive unpaused done =>
      exact .of_only only unpaused (.stream before spec.found (spec.change.running positive))

theorem createAgentMandate_keeps {ctx : CreateAgentMandate} (other : k ≠ ctx.authority) :
    Ensures (createAgentMandate P w ctx) (Keeps k w) := by
  unfold createAgentMandate
  iterate 3 refine .skip fun _ => ?_
  refine .bind (createIdempotent_keeps (k := k)) fun funded opened => ?_
  iterate 7 refine .skip fun _ => ?_
  refine .bind (deposit_keeps (k := k) other) fun deposited paid => .of_pure ?_
  refine opened.trans (Keeps.trans ?_ (paid.trans (.of_eq rfl rfl rfl)))
  exact .of_eq rfl rfl rfl

theorem writeAgentMandate_keeps {key : Pubkey} {m : AgentMandate} {legacy : Bool} :
    Ensures (w.writeAgentMandate key m legacy) (Keeps k w) :=
  .skip fun _ => .ite (fun _ => .skip fun _ => .of_pure (.of_eq rfl rfl rfl)) fun _ =>
    .skip fun _ => .of_pure (.of_eq rfl rfl rfl)

theorem payService_only {ctx : AgentPull} {bump : UInt8} :
    Ensures (payService P w ctx bump) (OnlyPays ctx.agentMandate w) := by
  refine .skip fun _ => .bind invokeTransfer_only fun paid spec => .skip fun _ => .of_pure ?_
  intro k other
  refine Keeps.trans ?_ ((spec.2 k other).trans ?_)
  · exact .of_eq rfl rfl rfl
  · exact .of_eq rfl rfl rfl

theorem agentPull_keeps {ctx : AgentPull} (other : k ≠ ctx.agentMandate) :
    Ensures (agentPull P w ctx) (Keeps k w) := by
  unfold agentPull
  iterate 16 refine .skip fun _ => ?_
  refine .bind payService_only fun paid only => ?_
  refine .bind (writeAgentMandate_keeps (k := k)) fun written wrote => .of_pure ?_
  exact ((only k other).trans wrote).trans (.of_eq rfl rfl rfl)

theorem agentPull_unpaused {ctx : AgentPull} (h : agentPull P w ctx = .ok w') : w.unpaused := by
  obtain ⟨config, found, h⟩ := bind_eq_ok.mp h
  iterate 10 obtain ⟨_, _, h⟩ := bind_eq_ok.mp h
  obtain ⟨open_, h⟩ := require_bind_eq_ok.mp h
  refine ⟨.current config, ?_, open_⟩
  unfold anchorProtocolConfig at found
  split at found
  · rename_i stored
    cases found
    exact stored
  · cases found
  · cases found

theorem validateAgentExit_owner {ctx : AgentExit} {amount : UInt64}
    (h : validateAgentExit P w ctx = .ok amount) :
    (∀ source, w.tokenAccount ctx.accounts.wrappedAccount = some source →
      source.owner = ctx.agentMandate) ∧
    ∃ account, w.splTokenAccount ctx.accounts.usdcAccount = some account ∧
      account.owner = ctx.authority := by
  obtain ⟨config, _, h⟩ := bind_eq_ok.mp h
  obtain ⟨token, mine, h⟩ := bind_eq_ok.mp h
  obtain ⟨_, valid, _⟩ := bind_eq_ok.mp h
  constructor
  · simp only [mandateTokenAccount, orHost, orError_bind_eq_ok, require_bind_eq_ok] at mine
    obtain ⟨stored, found, _, owner, _⟩ := mine
    intro source present
    obtain rfl := Option.some.inj (found.symm.trans present)
    exact owner
  · simp only [validateUsdcAccount, orHost, orError_bind_eq_ok, require_bind_eq_ok] at valid
    obtain ⟨_, account, found, owner, _⟩ := valid
    exact ⟨account, found, owner⟩

inductive AgentReturned (P : Platform) (w : World) (ctx : AgentExit) (w' : World) : Prop
  | empty (keeps : ∀ k, Keeps k w w')
  | paid (keeps : ∀ k, k ≠ ctx.agentMandate → k ≠ mintAuthority P → Keeps k w w')
      (returned : Returned w ctx.authority w')

theorem returnFunds_returned {ctx : AgentExit} {amount : UInt64} {bump : UInt8}
    (own : ∀ source, w.tokenAccount ctx.accounts.wrappedAccount = some source →
      source.owner = ctx.agentMandate)
    (receives : ∃ account, w.splTokenAccount ctx.accounts.usdcAccount = some account ∧
      account.owner = ctx.authority) :
    Ensures (returnFunds P w ctx amount bump) (AgentReturned P w ctx) := by
  refine .ite (fun _ => .skip fun _ => ?_) fun _ => .of_pure (.empty fun k => .refl k w)
  intro w' h
  refine .paid (fun k other vault => ?_) (withdraw_returned receives w' h)
  exact withdraw_keeps (fun source found same => other (same.symm.trans (own source found))) vault
    w' h

theorem AgentReturned.unmoved {ctx : AgentExit} (returned : AgentReturned P w ctx w₁)
    (tokens : w'.tokenAccount = w₁.tokenAccount)
    (coins : w'.splTokenAccount = w₁.splTokenAccount)
    (transfers : ∀ k, w'.transfersBy k = w₁.transfersBy k) : AgentReturned P w ctx w' := by
  cases returned with
  | empty keeps => exact .empty fun k => (keeps k).trans (.of_eq tokens coins (transfers k))
  | paid keeps back =>
    refine .paid (fun k other vault => ?_) ⟨fun coin a more => ?_, fun k => ?_⟩
    · exact (keeps k other vault).trans (.of_eq tokens coins (transfers k))
    · refine back.gains coin a (lt_of_lt_of_eq more ?_)
      cases coin with
      | token2022 => rw [World.holds, World.holds, World.held, World.held, tokens]
      | classic => rw [World.holds, World.holds, World.held, World.held, coins]
    · exact (transfers k).trans (back.transfersBy k)

theorem drainAgentMandate_returned {ctx : AgentExit}
    (h : drainAgentMandate P w ctx = .ok w') : AgentReturned P w ctx w' := by
  obtain ⟨amount, valid, h⟩ := bind_eq_ok.mp h
  obtain ⟨own, receives⟩ := validateAgentExit_owner valid
  obtain ⟨loaded, _, h⟩ := bind_eq_ok.mp h
  obtain ⟨drained, returned, h⟩ := bind_eq_ok.mp h
  cases h
  exact (returnFunds_returned own receives _ returned).unmoved rfl rfl fun _ => rfl

theorem revokeAgentMandate_returned {ctx : AgentExit}
    (h : revokeAgentMandate P w ctx = .ok w') : AgentReturned P w ctx w' := by
  obtain ⟨amount, valid, h⟩ := bind_eq_ok.mp h
  obtain ⟨own, receives⟩ := validateAgentExit_owner valid
  obtain ⟨loaded, _, h⟩ := bind_eq_ok.mp h
  obtain ⟨_, h⟩ := require_bind_eq_ok.mp h
  obtain ⟨drained, returned, h⟩ := bind_eq_ok.mp h
  obtain ⟨written, wrote, h⟩ := bind_eq_ok.mp h
  cases h
  have back := returnFunds_returned own receives _ returned
  simp only [World.writeAgentMandate, orHost, orError_bind_eq_ok] at wrote
  obtain ⟨account, _, wrote⟩ := wrote
  split at wrote
  · obtain ⟨_, wrote⟩ := require_bind_eq_ok.mp wrote
    cases wrote
    exact back.unmoved rfl rfl fun _ => rfl
  · obtain ⟨_, wrote⟩ := require_bind_eq_ok.mp wrote
    cases wrote
    exact back.unmoved rfl rfl fun _ => rfl

theorem openAgentMandate_authority {ctx : AgentControl} {loaded : LoadedAgentMandate}
    (h : openAgentMandate P w ctx = .ok loaded) :
    w.agentMandateAt ctx.agentMandate = some loaded.intoCurrent ∧
      loaded.intoCurrent.authority = ctx.authority := by
  obtain ⟨found, _, authority, _⟩ := loadAgentMandate_eq_ok (openAgentMandate_eq_ok h)
  exact ⟨found, authority⟩

theorem AgentReturned.flow {ctx : AgentExit} {m : AgentMandate}
    (returned : AgentReturned P w ctx w') (vault : k ≠ mintAuthority P)
    (found : w.agentMandateAt ctx.agentMandate = some m) (authority : m.authority = ctx.authority) :
    Flow w [ctx.authority] k w' := by
  cases returned with
  | empty keeps => exact .kept (keeps k)
  | paid keeps back =>
    by_cases same : k = ctx.agentMandate
    · subst same
      exact .returned m found (by rw [authority]; exact List.mem_cons_self) (authority ▸ back)
    · exact .kept (keeps k same vault)

theorem adjustAgentMandate_keeps {ctx : AdjustAgentMandate} :
    Ensures (adjustAgentMandate P w ctx) (Keeps k w) := by
  unfold adjustAgentMandate
  iterate 8 refine .skip fun _ => ?_
  exact .bind (writeAgentMandate_keeps (k := k)) fun _ wrote => .of_pure (wrote.emit rfl)

theorem pauseAgentMandate_keeps {ctx : AgentControl} :
    Ensures (pauseAgentMandate P w ctx) (Keeps k w) :=
  .skip fun _ => .skip fun _ => .bind (writeAgentMandate_keeps (k := k)) fun _ wrote =>
    .of_pure (wrote.emit rfl)

theorem resumeAgentMandate_keeps {ctx : AgentControl} :
    Ensures (resumeAgentMandate P w ctx) (Keeps k w) :=
  .skip fun _ => .skip fun _ => .bind (writeAgentMandate_keeps (k := k)) fun _ wrote =>
    .of_pure (wrote.emit rfl)

theorem agent_flow {i : AgentInstruction} (unsigned : k ∉ i.signers)
    (vault : k ≠ mintAuthority P) (h : executeAgent P w i = .ok w') :
    Flow w i.signers k w' := by
  cases i with
  | createAgentMandate ctx =>
    have other : k ≠ ctx.authority := fun same => unsigned (same ▸ List.mem_cons_self)
    exact .kept (createAgentMandate_keeps other w' h)
  | agentPull ctx =>
    obtain ⟨before, _, spec⟩ := agentPull_eq_ok h
    refine .of_only (fun k other => agentPull_keeps other w' h) (agentPull_unpaused h) ?_
    exact .agent before spec.found
  | adjustAgentMandate ctx => exact .kept (adjustAgentMandate_keeps w' h)
  | pauseAgentMandate ctx => exact .kept (pauseAgentMandate_keeps w' h)
  | resumeAgentMandate ctx => exact .kept (resumeAgentMandate_keeps w' h)
  | drainAgentMandate ctx =>
    obtain ⟨_, _, rest⟩ := bind_eq_ok.mp h
    obtain ⟨_, opened, _⟩ := bind_eq_ok.mp rest
    obtain ⟨found, authority⟩ := openAgentMandate_authority opened
    exact (drainAgentMandate_returned h).flow vault found authority
  | revokeAgentMandate ctx =>
    obtain ⟨_, _, rest⟩ := bind_eq_ok.mp h
    obtain ⟨_, opened, _⟩ := bind_eq_ok.mp rest
    obtain ⟨found, authority⟩ := openAgentMandate_authority opened
    exact (revokeAgentMandate_returned h).flow vault found authority

theorem wrap_keeps {ctx : Wrap} (other : k ≠ ctx.subscriber) :
    Ensures (wrap P w ctx) (Keeps k w) := by
  unfold wrap
  iterate 9 refine .skip fun _ => ?_
  exact deposit_keeps other

theorem unwrapTokens_keeps {ctx : Unwrap} (other : k ≠ ctx.user) (vault : k ≠ mintAuthority P) :
    Ensures (unwrapTokens P w ctx) (Keeps k w) := by
  intro w' h
  obtain ⟨source, found, h⟩ := bind_eq_ok.mp h
  obtain ⟨_, h⟩ := require_bind_eq_ok.mp h
  obtain ⟨owner, h⟩ := require_bind_eq_ok.mp h
  iterate 5 obtain ⟨_, _, h⟩ := bind_eq_ok.mp h
  refine withdraw_keeps (fun stored present same => ?_) vault w' h
  obtain rfl := Option.some.inj ((orError_eq_ok.mp found).symm.trans present)
  exact other (same.symm.trans owner)

theorem protocol_flow {i : ProtocolInstruction} (unsigned : k ∉ i.signers)
    (vault : k ≠ mintAuthority P) (h : executeProtocol P w i = .ok w') :
    Flow w i.signers k w' := by
  cases i with
  | billing i => exact (billing_flow h).2 k
  | streaming i => exact streaming_flow k h
  | agent i => exact agent_flow unsigned vault h
  | config i => exact .kept (configure_keeps w' h).2
  | wrap ctx =>
    have other : k ≠ ctx.subscriber := fun same => unsigned (same ▸ List.mem_cons_self)
    exact .kept (wrap_keeps other w' h)
  | unwrapTokens ctx =>
    have other : k ≠ ctx.user := fun same => unsigned (same ▸ List.mem_cons_self)
    exact .kept (unwrapTokens_keeps other vault w' h)

end VelaProtocol
