import VelaProtocol.Properties.Identities
import VelaProtocol.Properties.Wallets

/-! Where tokens can go. A mandate and a stream pay their merchant and nobody else, an agent
mandate the services its owner listed, and what an account of theirs loses is what they paid. -/
namespace VelaProtocol

open Guard Monitored

variable {P : Platform} {w w₁ w' : World} {k mint : Pubkey} {receives : Pubkey → Prop}
  {new newer : List TokenTransfer}

def takenFrom (a : Pubkey) (transfers : List TokenTransfer) : Nat :=
  ((transfers.filter fun t => t.source = a).map fun t => t.amount.toNat).sum

theorem takenFrom_append (a : Pubkey) :
    takenFrom a (newer ++ new) = takenFrom a newer + takenFrom a new := by
  simp [takenFrom]

/-- Between two states `k` paid payees only, and its accounts in the mint lost no more than that. -/
structure PaysOnly (k mint : Pubkey) (receives : Pubkey → Prop) (w : World)
    (new : List TokenTransfer) (w' : World) : Prop where
  log : w'.transfersBy k = new ++ w.transfersBy k
  payees : ∀ t ∈ new, ∃ account, w'.tokenAccount t.destination = some account ∧
    account.mint = t.mint ∧ receives account.owner
  left : ∀ a account, w.tokenAccount a = some account → account.owner = k → account.mint = mint →
    ∃ after, w'.tokenAccount a = some after ∧
      account.amount.toNat ≤ after.amount.toNat + takenFrom a new

theorem Keeps.pays (keeps : Keeps k w w') : PaysOnly k mint receives w [] w' := by
  constructor
  case log => simpa using keeps.transfersBy
  case payees => simp
  case left =>
    intro a account found owner _
    obtain ⟨after, present, _, more⟩ := keeps.held .token2022 a account found owner
    exact ⟨after, present, Checked.le_iff.mp more⟩

theorem PaysOnly.trans (first : PaysOnly k mint receives w new w₁)
    (second : PaysOnly k mint receives w₁ newer w')
    (before : AccountsStay w.tokenAccount w₁.tokenAccount)
    (after : AccountsStay w₁.tokenAccount w'.tokenAccount) :
    PaysOnly k mint receives w (newer ++ new) w' := by
  constructor
  case log => rw [second.log, first.log, List.append_assoc]
  case payees =>
    intro t member
    rcases List.mem_append.mp member with late | early
    · exact second.payees t late
    · obtain ⟨account, found, own, paid⟩ := first.payees t early
      obtain ⟨amount, still⟩ := after _ account found
      exact ⟨{ account with amount := amount }, still, own, paid⟩
  case left =>
    intro a account found owner own
    obtain ⟨middle, between, kept⟩ := first.left a account found owner own
    obtain ⟨amount, same⟩ := before a account found
    obtain rfl := Option.some.inj (between.symm.trans same)
    obtain ⟨last, present, kept'⟩ := second.left a _ between owner own
    refine ⟨last, present, ?_⟩
    rw [takenFrom_append]
    omega

theorem PaysOnly.congr {v v' : World} (pays : PaysOnly k mint receives w new w')
    (start : v.tokenAccount = w.tokenAccount ∧ v.transfersBy k = w.transfersBy k)
    (finish : v'.tokenAccount = w'.tokenAccount ∧ v'.transfersBy k = w'.transfersBy k) :
    PaysOnly k mint receives v new v' := by
  constructor
  case log => rw [finish.2, start.2, pays.log]
  case payees => rw [finish.1]; exact pays.payees
  case left => rw [start.1, finish.1]; exact pays.left

variable (mint receives) in
theorem Moved.pays {accounts : TransferAccounts} {amount : UInt64}
    (moved : Moved w accounts amount w') (stay : AccountsStay w.tokenAccount w'.tokenAccount)
    (receiver : ∃ account, w.tokenAccount accounts.destination = some account ∧
      account.mint = accounts.mint ∧ receives account.owner) :
    ∃ new, PaysOnly accounts.authority mint receives w new w' := by
  cases moved with
  | nothing same unchanged =>
    subst unchanged
    exact ⟨[], (Keeps.refl _ _).pays⟩
  | tokens different log paid received others =>
    refine ⟨[⟨accounts.mint, accounts.source, accounts.destination, accounts.authority, amount⟩],
      ?_, ?_, ?_⟩
    · rw [transfersBy_of_transfer accounts.authority log, if_pos rfl, List.singleton_append]
    · intro t member
      obtain rfl := List.mem_singleton.mp member
      obtain ⟨account, found, own, pays⟩ := receiver
      obtain ⟨now, still⟩ := stay _ account found
      exact ⟨{ account with amount := now }, still, own, pays⟩
    · intro a account found _ _
      obtain ⟨now, still⟩ := stay a account found
      refine ⟨_, still, ?_⟩
      have before : w.balance a = account.amount.toNat := by simp [World.balance, found]
      have after : w'.balance a = now.toNat := by simp [World.balance, still]
      by_cases source : accounts.source = a
      · subst source
        simp only [takenFrom, decide_true, List.filter_cons_of_pos, List.filter_nil,
          List.map_cons, List.map_nil, List.sum_cons, List.sum_nil]
        omega
      · by_cases destination : accounts.destination = a
        · subst destination
          show account.amount.toNat ≤ now.toNat + _
          omega
        · have same := others a (Ne.symm source) (Ne.symm destination)
          rw [found, still] at same
          obtain same := congrArg TokenAccount.amount (Option.some.inj same)
          exact Nat.le_add_right_of_le (le_of_eq (congrArg UInt64.toNat same).symm)

variable (mint) in
theorem Paid.pays {accounts : TransferAccounts} {merchant : Pubkey} {amount : UInt64}
    (paid : Paid w accounts merchant amount w')
    (stay : AccountsStay w.tokenAccount w'.tokenAccount) :
    ∃ new, PaysOnly accounts.authority mint (· = merchant) w new w' :=
  paid.moved.pays mint _ stay paid.destination

variable (mint) in
theorem executePull_pays {ctx : ExecutePull} (h : executePull P w ctx = .ok w') :
    ∃ m, w.currentMandate ctx.mandate = some m ∧
      ∃ new, PaysOnly ctx.mandate mint (· = m.merchant) w new w' := by
  obtain ⟨s, after, spec⟩ := executePull_eq_ok h
  obtain ⟨paid, payment, tokens, money⟩ := spec.paid
  have stay := (executePull_conserves w' h).accounts
  refine ⟨s.pull.mandate, spec.checked.pull.found, ?_⟩
  rw [← spec.checked.terms.keeps.1]
  cases payment with
  | covered zero unchanged =>
    subst unchanged
    exact ⟨[], (Keeps.refl _ paid).pays.congr ⟨rfl, rfl⟩ ⟨tokens, money.transfersBy _⟩⟩
  | paid positive done =>
    obtain ⟨new, pays⟩ := done.pays mint (tokens ▸ stay)
    exact ⟨new, pays.congr ⟨rfl, rfl⟩ ⟨tokens, money.transfersBy _⟩⟩

variable (mint) in
theorem updateMandatePlan_pays {ctx : UpdateMandatePlan} (h : updateMandatePlan P w ctx = .ok w') :
    ∃ m, w.currentMandate ctx.mandate = some m ∧
      ∃ new, PaysOnly ctx.mandate mint (· = m.merchant) w new w' := by
  obtain ⟨s, checked, h⟩ := bind_eq_ok.mp h
  refine ⟨s.mandate, (checkPlanSwitch_eq_ok checked).found, ?_⟩
  split at h
  · cases h
    exact ⟨[], (Keeps.refl _ w).pays⟩
  · obtain ⟨delta, _, h⟩ := bind_eq_ok.mp h
    obtain ⟨_, _, h⟩ := bind_eq_ok.mp h
    obtain ⟨⟨settled, priced⟩, settling, h⟩ := bind_eq_ok.mp h
    cases h
    unfold settleProration at settling
    split at settling
    · -- only an upgrade moves tokens
      obtain ⟨paid, charged, settling⟩ := bind_eq_ok.mp settling
      cases settling
      obtain ⟨amount, _, charged⟩ := bind_eq_ok.mp charged
      obtain ⟨_, _, charged⟩ := bind_eq_ok.mp charged
      obtain ⟨moved, invoked, charged⟩ := bind_eq_ok.mp charged
      cases charged
      obtain ⟨_, valid, invoked⟩ := bind_eq_ok.mp invoked
      have stay := (invokeTransfer_conserves moved invoked).accounts
      obtain ⟨new, pays⟩ := (paid_of valid invoked).pays mint stay
      exact ⟨new, pays.congr ⟨rfl, rfl⟩ ⟨rfl, rfl⟩⟩
    · split at settling
      · obtain ⟨_, _, settling⟩ := bind_eq_ok.mp settling
        obtain ⟨_, _, settling⟩ := bind_eq_ok.mp settling
        cases settling
        exact ⟨[], (Keeps.refl _ w).pays.congr ⟨rfl, rfl⟩ ⟨rfl, rfl⟩⟩
      · cases settling
        exact ⟨[], (Keeps.refl _ w).pays.congr ⟨rfl, rfl⟩ ⟨rfl, rfl⟩⟩

variable (mint) in
theorem StreamCalled.pays {i : StreamInstruction} {signer : Pubkey} {before after : StreamMandate}
    {amount : UInt64} (spec : StreamCalled P w i signer w' before after amount)
    (stay : AccountsStay w.tokenAccount w'.tokenAccount) :
    ∃ new, PaysOnly i.stream mint (· = before.merchant) w new w' := by
  obtain ⟨accounts, paid, payment, written, _⟩ := spec.effect
  have finish := And.intro written.tokenAccount (written.money.transfersBy i.stream)
  cases payment with
  | nothing zero unchanged =>
    subst unchanged
    exact ⟨[], (Keeps.refl _ paid).pays.congr ⟨rfl, rfl⟩ finish⟩
  | transfer positive unpaused done =>
    obtain ⟨new, pays⟩ := done.pays mint (written.tokenAccount ▸ stay)
    exact ⟨new, pays.congr ⟨rfl, rfl⟩ finish⟩

/-- A used address whose mandate or stream, if any is left, pays `p`. -/
structure Entitled (P : Platform) (k p : Pubkey) (w : World) (opened : List Seeds) : Prop where
  placed : Placed P w opened
  used : Used P opened k
  mandate : ∀ m, w.currentMandate k = some m → m.merchant = p
  stream : ∀ s, w.stream k = some s → s.merchant = p
  agent : w.agentMandateAt k = none

theorem protocol_merchant {a : ProtocolAction} {m : VelaMandate} (step : ProtocolStep P w a w')
    (present : w'.currentMandate k = some m) :
    ¬w.stores k .mandate ∨ ∃ before, w.currentMandate k = some before ∧
      before.merchant = m.merchant := by
  obtain ⟨account, there, rfl⟩ := Option.map_eq_some_iff.mp present
  cases protocol_originates step k account there with
  | kept before found same =>
    refine .inr ⟨before.contents.intoCurrent, ?_, same.merchant.symm⟩
    simp [World.currentMandate, found]
  | opened m vacant layout version address =>
    left
    simp [World.stores, World.currentMandate, vacant]

theorem StreamChange.merchant {now : Int64} {signer : Pubkey} {s after : StreamMandate}
    {i : StreamInstruction} {amount : UInt64} (change : StreamChange now signer s i amount after) :
    after.merchant = s.merchant := by
  cases change with
  | executed settled => exact (settle_terms settled).1
  | paused active settled => exact settled.merchant
  | resumed pausedAt paused since later => rfl
  | rerated active consent positive settled bounded => exact (settle_terms settled).1
  | cancelled running settled => exact settled.merchant

theorem protocol_stream_merchant {a : ProtocolAction} {s : StreamMandate}
    (step : ProtocolStep P w a w') (present : w'.stream k = some s) :
    ¬w.stores k .stream ∨ ∃ before, w.stream k = some before ∧ before.merchant = s.merchant := by
  by_cases streaming : ∃ i, a = .instruction (.streaming i)
  · obtain ⟨i, rfl⟩ := streaming
    have step : StreamStep P w (.instruction i) w' := step
    generalize called : StreamAction.call k (.instruction i) = call
    cases called ▸ streamStepAt k step with
    | apart same => exact .inr ⟨s, same.stream ▸ present, rfl⟩
    | opened ctx state stream key spec =>
      left
      obtain rfl := key
      simp [World.stores, spec.vacant.stream]
    | called i signer before after amount key spec =>
      obtain rfl := key
      obtain rfl := Option.some.inj (spec.written.symm.trans present)
      exact .inr ⟨before, spec.found, spec.change.merchant.symm⟩
  · have same := protocol_stream step fun i is => streaming ⟨i, is⟩
    exact .inr ⟨s, same ▸ present, rfl⟩

theorem Entitled.step {p : Pubkey} {opened : List Seeds} {a : ProtocolAction}
    (entitled : Entitled P k p w opened) (step : ProtocolStep P w a w')
    (lawful : Lawful P opened w a w') : Entitled P k p w' (watchSeeds opened w a w') := by
  obtain ⟨placed, used, mandate, stream, agent⟩ := entitled
  have settled (kind : Custody) (absent : ¬w.stores k kind) : ¬w'.stores k kind :=
    fun stored => placed.appears kind step lawful absent stored used
  constructor
  case placed => exact placed.step (protocol_population step) lawful
  case used => exact used.step
  case mandate =>
    intro m present
    rcases protocol_merchant step present with absent | ⟨before, found, same⟩
    · exact absurd (Option.isSome_iff_exists.mpr ⟨m, present⟩) (settled .mandate absent)
    · exact same.symm.trans (mandate before found)
  case stream =>
    intro s present
    rcases protocol_stream_merchant step present with absent | ⟨before, found, same⟩
    · exact absurd (Option.isSome_iff_exists.mpr ⟨s, present⟩) (settled .stream absent)
    · exact same.symm.trans (stream before found)
  case agent =>
    have absent : ¬w.stores k .agentMandate := by simp [World.stores, agent]
    exact Option.not_isSome_iff_eq_none.mp (settled .agentMandate absent)

theorem Unharmed.pays (unharmed : Unharmed k .token2022 mint w w') :
    PaysOnly k mint receives w [] w' := by
  constructor
  case log => exact unharmed.transfersBy
  case payees => simp
  case left =>
    intro a account found owner own
    obtain ⟨after, present, _, _, more⟩ :=
      unharmed.holds a account.amount ⟨account, found, owner, own, UInt64.le_refl _⟩
    exact ⟨after, present, Checked.le_iff.mp more⟩

/-- A run in which nothing but what the program does touches the tokens of `k` in the mint. -/
abbrev PayeeRun (P : Platform) (k mint : Pubkey) :
    World × List Seeds → World × List Seeds → Prop :=
  Run (ProtocolStep P) watchSeeds fun opened w a w' =>
    Lawful P opened w a w' ∧ Untroubled k mint () w a w'

theorem Entitled.pays {p : Pubkey} {opened : List Seeds} {a : ProtocolAction}
    (entitled : Entitled P k p w opened) (apart : Uncredentialed P k)
    (undelegated : Undelegated P .token2022 mint w) (step : ProtocolStep P w a w')
    (lawful : Lawful P opened w a w') (untroubled : Untroubled k mint () w a w') :
    ∃ new, PaysOnly k mint (· = p) w new w' := by
  cases a with
  | tick clock =>
    obtain ⟨_, rfl⟩ := step
    exact ⟨[], (Keeps.refl k w).pays.congr ⟨rfl, rfl⟩ ⟨rfl, rfl⟩⟩
  | outside => exact ⟨[], untroubled.1.pays⟩
  | instruction i =>
    by_cases pays : k ∈ i.payer
    · cases i with
      | billing i =>
        cases i with
        | executePull ctx =>
          obtain rfl := Option.some.inj pays
          obtain ⟨m, found, paid⟩ := executePull_pays mint step
          exact entitled.mandate m found ▸ paid
        | updateMandatePlan ctx =>
          obtain rfl := Option.some.inj pays
          obtain ⟨m, found, paid⟩ := updateMandatePlan_pays mint step
          exact entitled.mandate m found ▸ paid
        | _ => cases pays
      | streaming i =>
        obtain rfl := Option.some.inj pays
        by_cases created : ∃ ctx, i = .createStreamMandate ctx
        · obtain ⟨ctx, rfl⟩ := created
          obtain ⟨_, _, spec⟩ := createStreamMandate_eq_ok step
          exact ⟨[], (Keeps.refl _ w).pays.congr ⟨rfl, rfl⟩
            ⟨spec.written.tokenAccount, spec.written.money.transfersBy _⟩⟩
        · obtain ⟨_, before, _, _, spec⟩ := call_called (fun ctx same => created ⟨ctx, same⟩) step
          have stay := (streaming_conserves w' step).accounts
          exact entitled.stream before spec.found ▸ spec.pays mint stay
      | agent i =>
        obtain rfl := Option.some.inj pays
        by_cases created : ∃ ctx, i = .createAgentMandate ctx
        · obtain ⟨ctx, rfl⟩ := created
          obtain ⟨m, spec⟩ := createAgentMandate_eq_ok step
          have stored := (entitled.step step lawful).agent
          rw [spec.stored] at stored
          simp [AgentInstruction.mandate] at stored
        · obtain ⟨before, _, spec⟩ := agent_called (fun ctx same => created ⟨ctx, same⟩) step
          cases entitled.agent.symm.trans spec.found
      | _ => cases pays
    · exact ⟨[], (instruction_unharmed pays (entitled.placed.not_vault entitled.used) apart
        untroubled.1 untroubled.2 undelegated step).pays⟩

def World.payee (w : World) (k : Pubkey) : Option Pubkey :=
  ((w.currentMandate k).map VelaMandate.merchant).or ((w.stream k).map StreamMandate.merchant)

theorem Placed.entitled {p : Pubkey} {opened : List Seeds} (placed : Placed P w opened)
    (pays : w.payee k = some p) : Entitled P k p w opened := by
  have other (kind kind' : Custody) (stored : w.stores k kind) (differ : kind ≠ kind') :
      ¬w.stores k kind' :=
    fun present => differ (placed.one_kind (placed.held k kind stored) present)
  rcases Option.or_eq_some_iff.mp pays with mandate | ⟨_, stream⟩
  · obtain ⟨m, found, rfl⟩ := Option.map_eq_some_iff.mp mandate
    have stored : w.stores k .mandate := Option.isSome_iff_exists.mpr ⟨m, found⟩
    refine ⟨placed, placed.used stored, ?_, ?_, ?_⟩
    · intro m' present
      rw [Option.some.inj (found.symm.trans present)]
    · intro s present
      exact absurd (Option.isSome_iff_exists.mpr ⟨s, present⟩)
        (other .mandate .stream stored (by decide))
    · exact Option.not_isSome_iff_eq_none.mp (other .mandate .agentMandate stored (by decide))
  · obtain ⟨s, found, rfl⟩ := Option.map_eq_some_iff.mp stream
    have stored : w.stores k .stream := Option.isSome_iff_exists.mpr ⟨s, found⟩
    refine ⟨placed, placed.used stored, ?_, ?_, ?_⟩
    · intro m present
      exact absurd (Option.isSome_iff_exists.mpr ⟨m, present⟩)
        (other .stream .mandate stored (by decide))
    · intro s' present
      rw [Option.some.inj (found.symm.trans present)]
    · exact Option.not_isSome_iff_eq_none.mp (other .stream .agentMandate stored (by decide))

/-- Whatever anybody does, and also after it is closed, what a mandate or a stream ever pays goes
to the merchant it was opened for, and its accounts lose nothing else. -/
theorem pays_merchant_only {p : Pubkey} {opened opened' : List Seeds} (placed : Placed P w opened)
    (pays : w.payee k = some p) (apart : Uncredentialed P k)
    (undelegated : Undelegated P .token2022 mint w)
    (run : PayeeRun P k mint (w, opened) (w', opened')) :
    ∃ new, PaysOnly k mint (· = p) w new w' ∧ AccountsStay w.tokenAccount w'.tokenAccount := by
  have safe : Entitled P k p w' opened' ∧ Undelegated P .token2022 mint w' ∧
      ∃ new, PaysOnly k mint (· = p) w new w' ∧ AccountsStay w.tokenAccount w'.tokenAccount := by
    refine run.invariant (fun v opened => Entitled P k p v opened ∧
      Undelegated P .token2022 mint v ∧ ∃ new, PaysOnly k mint (· = p) w new v ∧
        AccountsStay w.tokenAccount v.tokenAccount) ?_ ?_
    · exact ⟨placed.entitled pays, undelegated, [], (Keeps.refl k w).pays, .refl _⟩
    · rintro v opened a v' ⟨entitled, undelegated, old, sofar, stay⟩ step ⟨lawful, untroubled⟩
      have booked := untroubled_booked step untroubled
      obtain ⟨new, pays⟩ := entitled.pays apart undelegated step lawful untroubled
      exact ⟨entitled.step step lawful, booked.undelegated undelegated, new ++ old,
        sofar.trans pays stay booked.accounts, stay.trans booked.accounts⟩
  exact safe.2.2

def AgentMandate.lists (m : AgentMandate) (service : Pubkey) : Prop :=
  ∃ limit ∈ m.services, limit.service = service

theorem AgentSpent.lists {m after : AgentMandate} {service other : Pubkey} {amount : UInt64}
    {now : Int64} (spent : AgentSpent m service amount now after) (listed : after.lists other) :
    m.lists other := by
  obtain ⟨index, limit, found, _, used, _, services⟩ := spent.booked
  obtain ⟨after', member, rfl⟩ := listed
  rw [services] at member
  rcases List.mem_or_eq_of_mem_set member with kept | changed
  · obtain ⟨j, inside, same⟩ := List.mem_iff_getElem.mp kept
    rw [List.getElem_modify] at same
    split at same
    · subst same
      exact ⟨_, List.getElem_mem _, (ServiceLimit.resetIfNeeded_terms _ now).1.symm⟩
    · subst same
      exact ⟨_, List.getElem_mem _, rfl⟩
  · subst changed
    exact ⟨limit, List.mem_of_getElem? found, (ServiceLimit.resetIfNeeded_terms limit now).1.symm⟩

theorem writeAgentMandate_tokens {key : Pubkey} {m : AgentMandate} {legacy : Bool} :
    Ensures (w.writeAgentMandate key m legacy) fun w' =>
      w'.tokenAccount = w.tokenAccount ∧ w'.transfersBy k = w.transfersBy k :=
  .skip fun _ => .ite (fun _ => .skip fun _ => .of_pure ⟨rfl, rfl⟩) fun _ =>
    .skip fun _ => .of_pure ⟨rfl, rfl⟩

variable (mint) in
theorem agentPull_pays {ctx : AgentPull} (h : agentPull P w ctx = .ok w') :
    ∃ m after, w.agentMandateAt ctx.agentMandate = some m ∧
      w'.agentMandateAt ctx.agentMandate = some after ∧ after.authority = m.authority ∧
      (∀ service, after.lists service → m.lists service) ∧
      ∃ new, PaysOnly ctx.agentMandate mint m.lists w new w' := by
  have stay := (agentPull_conserves w' h).accounts
  obtain ⟨config, _, h⟩ := bind_eq_ok.mp h
  obtain ⟨_, _, h⟩ := bind_eq_ok.mp h
  obtain ⟨source, _, h⟩ := bind_eq_ok.mp h
  obtain ⟨receiver, receives, h⟩ := bind_eq_ok.mp h
  obtain ⟨own, h⟩ := require_bind_eq_ok.mp h
  iterate 4 obtain ⟨_, _, h⟩ := bind_eq_ok.mp h
  obtain ⟨loaded, load, h⟩ := bind_eq_ok.mp h
  obtain ⟨_, active, h⟩ := bind_eq_ok.mp h
  iterate 3 obtain ⟨_, _, h⟩ := bind_eq_ok.mp h
  obtain ⟨spent, booked, h⟩ := bind_eq_ok.mp h
  obtain ⟨_, _, h⟩ := bind_eq_ok.mp h
  obtain ⟨paid, transferred, h⟩ := bind_eq_ok.mp h
  obtain ⟨written, wrote, h⟩ := bind_eq_ok.mp h
  cases h
  have spec := AgentMandate.spend_eq_ok booked
  have service := payService_eq_ok transferred
  have change : AgentChange w loaded.intoCurrent (.agentPull ctx) spent :=
    .pulled ctx receiver spent (orError_eq_ok.mp receives) (checkAgentActive_eq_ok active) spec
  have called := agentCalled_of (i := .agentPull ctx) load change ⟨spec.version, spec.reserved⟩
    service.toCoinsOnly wrote
  have stored : written.agentMandateAt ctx.agentMandate = some spent := by
    rw [called.stored]
    exact Function.update_self _ _ _
  have listed : loaded.intoCurrent.lists receiver.owner := by
    obtain ⟨index, limit, found, named, _⟩ := spec.booked
    exact ⟨limit, List.mem_of_getElem? found, named⟩
  refine ⟨loaded.intoCurrent, spent, called.found, stored, (AgentMandate.spend_parties booked).1,
    fun _ => spec.lists, ?_⟩
  obtain ⟨approving, moved, before, quiet, transfer, after, log⟩ := service.moved
  obtain ⟨tokens, transfers⟩ := writeAgentMandate_tokens written wrote
  have stay' : AccountsStay approving.tokenAccount moved.tokenAccount := by
    rw [before, ← after, ← tokens]
    exact stay
  obtain ⟨new, pays⟩ := transfer.pays mint loaded.intoCurrent.lists stay'
    ⟨receiver, by rw [before]; exact orError_eq_ok.mp receives, own, listed⟩
  refine ⟨new, pays.congr ⟨before.symm, ?_⟩ ⟨tokens.trans after, ?_⟩⟩
  · exact ((SameMoney.of_log quiet).transfersBy _).symm
  · exact transfers.trans ((SameMoney.of_log log).transfersBy _)

theorem agent_unsigned {i : AgentInstruction} {m : AgentMandate}
    (h : executeAgent P w i = .ok w') (found : w.agentMandateAt i.mandate = some m)
    (unsigned : m.authority ∉ i.signers) : ∃ ctx, i = .agentPull ctx := by
  have refused {ctx : AgentControl} {loaded : LoadedAgentMandate}
      (opened : openAgentMandate P w ctx = .ok loaded) (same : i.mandate = ctx.agentMandate)
      (signs : ctx.authority ∈ i.signers) : ∃ ctx, i = .agentPull ctx := by
    obtain ⟨here, authority⟩ := openAgentMandate_authority opened
    obtain rfl := Option.some.inj ((same ▸ found).symm.trans here)
    exact absurd (authority ▸ signs) unsigned
  cases i with
  | createAgentMandate ctx =>
    obtain ⟨_, spec⟩ := createAgentMandate_eq_ok h
    simp [World.agentMandateAt, AgentInstruction.mandate, spec.vacant.agentMandate] at found
  | agentPull ctx => exact ⟨ctx, rfl⟩
  | adjustAgentMandate ctx =>
    iterate 4 obtain ⟨_, _, h⟩ := bind_eq_ok.mp h
    obtain ⟨_, opened, _⟩ := bind_eq_ok.mp h
    exact refused opened rfl List.mem_cons_self
  | pauseAgentMandate ctx =>
    obtain ⟨_, opened, _⟩ := bind_eq_ok.mp h
    exact refused opened rfl List.mem_cons_self
  | resumeAgentMandate ctx =>
    obtain ⟨_, opened, _⟩ := bind_eq_ok.mp h
    exact refused opened rfl List.mem_cons_self
  | drainAgentMandate ctx =>
    obtain ⟨_, _, h⟩ := bind_eq_ok.mp h
    obtain ⟨_, opened, _⟩ := bind_eq_ok.mp h
    exact refused opened rfl List.mem_cons_self
  | revokeAgentMandate ctx =>
    obtain ⟨_, _, h⟩ := bind_eq_ok.mp h
    obtain ⟨_, opened, _⟩ := bind_eq_ok.mp h
    exact refused opened rfl List.mem_cons_self

theorem agentMandate_elsewhere {a : ProtocolAction} (step : ProtocolStep P w a w')
    (other : ∀ i, a = .instruction (.agent i) → k ≠ i.mandate) :
    w'.agentMandateAt k = w.agentMandateAt k := by
  by_cases agent : ∃ i, a = .instruction (.agent i)
  · obtain ⟨i, rfl⟩ := agent
    have other := other i rfl
    by_cases created : ∃ ctx, i = .createAgentMandate ctx
    · obtain ⟨ctx, rfl⟩ := created
      obtain ⟨_, spec⟩ := createAgentMandate_eq_ok step
      rw [spec.stored]
      exact Function.update_of_ne other _ _
    · obtain ⟨_, _, spec⟩ := agent_called (fun ctx same => created ⟨ctx, same⟩) step
      rw [spec.stored]
      exact Function.update_of_ne other _ _
  · rw [World.agentMandateAt, World.agentMandateAt,
      protocol_agentMandate step fun i is => agent ⟨i, is⟩]

/-- The agent mandate at `k` still has the owner of `m` and no service `m` does not list. -/
structure Serving (P : Platform) (k : Pubkey) (m : AgentMandate) (w : World)
    (opened : List Seeds) : Prop where
  placed : Placed P w opened
  listed : ∃ current, w.agentMandateAt k = some current ∧ current.authority = m.authority ∧
    ∀ service, current.lists service → m.lists service

/-- The owner of an agent mandate signs nothing, and nothing but what the program does touches the
mandate's tokens in the mint. -/
abbrev ServiceRun (P : Platform) (k mint : Pubkey) (m : AgentMandate) :
    World × List Seeds → World × List Seeds → Prop :=
  Run (ProtocolStep P) watchSeeds fun opened w a w' =>
    Lawful P opened w a w' ∧ Untroubled k mint () w a w' ∧
      ∀ i, a = .instruction i → m.authority ∉ i.signers

theorem agent_payer {i : ProtocolInstruction} {opened : List Seeds} {m : AgentMandate}
    (placed : Placed P w opened) (found : w.agentMandateAt k = some m)
    (h : executeProtocol P w i = .ok w') (pays : k ∈ i.payer) :
    ∃ j, i = .agent j ∧ k = j.mandate := by
  have stored : w.stores k .agentMandate := Option.isSome_iff_exists.mpr ⟨m, found⟩
  have no_other (kind : Custody) (other : w.stores k kind) : kind = .agentMandate :=
    (placed.one_kind (placed.held k .agentMandate stored) other).symm
  cases i with
  | billing i =>
    cases i with
    | executePull ctx =>
      obtain rfl := Option.some.inj pays
      obtain ⟨m, present, _⟩ := executePull_pays ctx.mandate h
      cases no_other .mandate (Option.isSome_iff_exists.mpr ⟨m, present⟩)
    | updateMandatePlan ctx =>
      obtain rfl := Option.some.inj pays
      obtain ⟨m, present, _⟩ := updateMandatePlan_pays ctx.mandate h
      cases no_other .mandate (Option.isSome_iff_exists.mpr ⟨m, present⟩)
    | _ => cases pays
  | streaming i =>
    obtain rfl := Option.some.inj pays
    by_cases created : ∃ ctx, i = .createStreamMandate ctx
    · obtain ⟨ctx, rfl⟩ := created
      obtain ⟨_, _, spec⟩ := createStreamMandate_eq_ok h
      have gone : w.agentMandate ctx.mandate = none := spec.vacant.agentMandate
      rw [World.agentMandateAt, StreamInstruction.stream, gone] at found
      cases found
    · obtain ⟨_, before, _, _, spec⟩ := call_called (fun ctx is => created ⟨ctx, is⟩) h
      cases no_other .stream (Option.isSome_iff_exists.mpr ⟨before, spec.found⟩)
  | agent i => exact ⟨i, rfl, (Option.some.inj pays).symm⟩
  | _ => cases pays

theorem Serving.step {m : AgentMandate} {opened : List Seeds} {a : ProtocolAction}
    (serving : Serving P k m w opened) (apart : Uncredentialed P k)
    (undelegated : Undelegated P .token2022 mint w) (step : ProtocolStep P w a w')
    (lawful : Lawful P opened w a w') (untroubled : Untroubled k mint () w a w')
    (unsigned : ∀ i, a = .instruction i → m.authority ∉ i.signers) :
    (∃ new, PaysOnly k mint m.lists w new w') ∧ Serving P k m w' (watchSeeds opened w a w') := by
  obtain ⟨placed, current, found, authority, listed⟩ := serving
  have placed' := placed.step (protocol_population step) lawful
  have stored : w.stores k .agentMandate := Option.isSome_iff_exists.mpr ⟨current, found⟩
  by_cases pulled : ∃ i, a = .instruction (.agent i) ∧ k = i.mandate
  · obtain ⟨i, rfl, rfl⟩ := pulled
    have unsigned : current.authority ∉ i.signers := authority ▸ unsigned _ rfl
    obtain ⟨ctx, rfl⟩ := agent_unsigned step found unsigned
    obtain ⟨before, after, here, there, owner, fewer, new, pays⟩ :=
      agentPull_pays mint step
    obtain rfl := Option.some.inj (found.symm.trans here)
    refine ⟨⟨new, pays.log, fun t member => ?_, pays.left⟩, placed', after, there,
      owner.trans authority, fun service more => listed service (fewer service more)⟩
    obtain ⟨account, held, own, paid⟩ := pays.payees t member
    exact ⟨account, held, own, listed _ paid⟩
  · have same := agentMandate_elsewhere (k := k) step fun i is mine => pulled ⟨i, is, mine⟩
    refine ⟨⟨[], ?_⟩, placed', current, same ▸ found, authority, listed⟩
    cases a with
    | tick clock =>
      obtain ⟨_, rfl⟩ := step
      exact (Keeps.refl k w).pays.congr ⟨rfl, rfl⟩ ⟨rfl, rfl⟩
    | outside => exact untroubled.1.pays
    | instruction i =>
      have unpaid : k ∉ i.payer := fun pays => by
        obtain ⟨j, rfl, mine⟩ := agent_payer placed found step pays
        exact pulled ⟨j, rfl, mine⟩
      exact (instruction_unharmed unpaid (placed.not_vault (placed.used stored)) apart
        untroubled.1 untroubled.2 undelegated step).pays

/-- As long as the owner of an agent mandate signs nothing, whoever has the agent's key can pay the
services the owner listed and nobody else, and the mandate loses nothing else. -/
theorem agent_pays_listed {m : AgentMandate} {opened opened' : List Seeds}
    (placed : Placed P w opened) (found : w.agentMandateAt k = some m) (apart : Uncredentialed P k)
    (undelegated : Undelegated P .token2022 mint w)
    (run : ServiceRun P k mint m (w, opened) (w', opened')) :
    ∃ new, PaysOnly k mint m.lists w new w' ∧ AccountsStay w.tokenAccount w'.tokenAccount := by
  have safe : Serving P k m w' opened' ∧ Undelegated P .token2022 mint w' ∧
      ∃ new, PaysOnly k mint m.lists w new w' ∧ AccountsStay w.tokenAccount w'.tokenAccount := by
    refine run.invariant (fun v opened => Serving P k m v opened ∧ Undelegated P .token2022 mint v ∧
      ∃ new, PaysOnly k mint m.lists w new v ∧ AccountsStay w.tokenAccount v.tokenAccount) ?_ ?_
    · exact ⟨⟨placed, m, found, rfl, fun _ => id⟩, undelegated, [], (Keeps.refl k w).pays, .refl _⟩
    · rintro v opened a v' ⟨serving, undelegated, old, sofar, stay⟩ step
        ⟨lawful, untroubled, unsigned⟩
      have booked := untroubled_booked step untroubled
      obtain ⟨⟨new, pays⟩, serving'⟩ :=
        serving.step apart undelegated step lawful untroubled unsigned
      exact ⟨serving', booked.undelegated undelegated, new ++ old,
        sofar.trans pays stay booked.accounts, stay.trans booked.accounts⟩
  exact safe.2.2

section Witnesses
open Deployment

theorem pays_merchant_only_charged : ∃ w w' : World, ∃ opened opened' new,
    w.payee mandate = some merchant ∧
      PayeeRun platform mandate mintA (w, opened) (w', opened') ∧
      PaysOnly mandate mintA (· = merchant) w new w' ∧ takenFrom (payer mintA) new = 100 := by
  have played : (play (applyProtocol platform) watchSeeds Plain (world 0, [])
      ([offerFlat 0 100 3600 0 12 mintA, subscribeFlat].map ofBilling)).any (fun x =>
        decide (x.1.payee mandate = some merchant) && x.1.mint mintA = some billingMint &&
        decide (x.1.transfersBy mandate = []) &&
        (play (applyProtocol platform) watchSeeds
          (fun opened w a w' => Plain opened w a w' ∧ silentlyRuns mandate mintA w a = true) x
          ([tick 3600, requestFlat (flatPlan 0) 3600 1, answerFlat 3600 1 true,
            pull (flatPlan 0) mintA [], cancelBySubscriber].map ofBilling)).any fun y =>
              decide (takenFrom (payer mintA) (y.1.transfersBy mandate) = 100)) = true := by
    decide +kernel
  simp only [Option.any_eq_true, Bool.and_eq_true, decide_eq_true_eq] at played
  obtain ⟨⟨w, opened⟩, script, ⟨⟨pays, minted⟩, quiet⟩, ⟨w', opened'⟩, rest, taken⟩ := played
  have placed := (protocol_script script).placed (placed_empty rfl rfl rfl)
  have run : PayeeRun platform mandate mintA (w, opened) (w', opened') :=
    (play_run (fun _ _ _ => applyProtocol_step) rest).weaken fun _ _ _ _ allowed =>
      ⟨allowed.1.lawful, silentlyRuns_untroubled allowed.2⟩
  obtain ⟨new, only, _⟩ := pays_merchant_only placed pays
    (uncredentialed_of_value (.inr (by decide))) (undelegated_of_mint minted rfl) run
  refine ⟨w, w', opened, opened', new, pays, run, only, ?_⟩
  have log : w'.transfersBy mandate = new := by simpa [quiet] using only.log
  rw [← log]
  exact taken

theorem agent_pays_listed_twice : ∃ w w' : World, ∃ opened opened' m new,
    w.agentMandateAt agentMandate = some m ∧
      ServiceRun platform agentMandate mintA m (w, opened) (w', opened') ∧
      PaysOnly agentMandate mintA m.lists w new w' ∧ takenFrom agentPayer new = 90 := by
  have played : (play (applyProtocol platform) watchSeeds Plain (agentWorld 0, [])
      [fundAgent]).any (fun x =>
        (x.1.agentMandateAt agentMandate).any (fun m => decide (m.authority = subscriber)) &&
        (x.1.mint mintA).any (fun m => decide (m.permanentDelegate = none)) &&
        decide (x.1.transfersBy agentMandate = []) &&
        (play (applyProtocol platform) watchSeeds
          (fun opened w a w' => Plain opened w a w' ∧
            silentlyRuns agentMandate mintA w a = true ∧ subscriber ∉ actionSigners a) x
          [ofAgent (pullForMerchant 40), ofAgent (tickAgent 86400),
            ofAgent (pullForMerchant 50)]).any fun y =>
              decide (takenFrom agentPayer (y.1.transfersBy agentMandate) = 90)) = true := by
    decide +kernel
  simp only [Option.any_eq_true, Bool.and_eq_true, decide_eq_true_eq] at played
  obtain ⟨⟨w, opened⟩, script, ⟨⟨⟨m, found, owner⟩, ⟨mint, minted, free⟩⟩, quiet⟩,
    ⟨w', opened'⟩, rest, taken⟩ := played
  have placed := (protocol_script script).placed (placed_empty rfl rfl rfl)
  have run : ServiceRun platform agentMandate mintA m (w, opened) (w', opened') := by
    refine (play_run (fun _ _ _ => applyProtocol_step) rest).weaken fun _ _ a _ allowed => ?_
    refine ⟨allowed.1.lawful, silentlyRuns_untroubled allowed.2.1, ?_⟩
    rintro i rfl
    exact owner ▸ allowed.2.2
  obtain ⟨new, only, _⟩ := agent_pays_listed placed found
    (uncredentialed_of_value (.inr (by decide))) (undelegated_of_mint minted free) run
  refine ⟨w, w', opened, opened', m, new, found, run, only, ?_⟩
  have log : w'.transfersBy agentMandate = new := by simpa [quiet] using only.log
  rw [← log]
  exact taken

end Witnesses

end VelaProtocol
