import VelaProtocol.Addresses
import VelaProtocol.Deployment.Protocol

/-! What happens to tokens prepaid into an account of a mandate or a stream once it is over: the
program never signs for its address again. -/
namespace VelaProtocol

open Monitored

variable {P : Platform} {w w' : World} {a : ProtocolAction} {opened : List Seeds} {k b : Pubkey}
  {coin : Coin}

/-- A mandate or a stream has ended there, or the account of a mandate is gone, closed or
migrated. -/
inductive Retired (P : Platform) (w : World) (opened : List Seeds) (k : Pubkey) : Prop
  | ended (m : VelaMandate) (found : w.currentMandate k = some m)
      (finished : m.status = .cancelled ∨ m.status = .expired)
  | cancelled (s : StreamMandate) (found : w.stream k = some s) (finished : s.status = .cancelled)
  | removed (seeds : Seeds) (used : seeds ∈ opened) (own : seeds.custody = some .mandate)
      (address : (P.findProgramAddress seeds).1 = k) (gone : w.mandate k = none)

def Delivers (w w' : World) (coin : Coin) (b : Pubkey) : Prop :=
  w'.holds coin b < w.holds coin b ∧ ∃ coin' c, w.holds coin' c < w'.holds coin' c

/-- Some sequence of instructions, whoever signs them, ends in one that pays out of the account. -/
def Recoverable (P : Platform) (w : World) (opened : List Seeds) (coin : Coin) (b : Pubkey) :
    Prop :=
  ∃ x i w', ProtocolRun P (w, opened) x ∧ Lawful P x.2 x.1 (.instruction i) w' ∧
    executeProtocol P x.1 i = .ok w' ∧ Delivers x.1 w' coin b

theorem Retired.used (placed : Placed P w opened) (retired : Retired P w opened k) :
    ∃ kind ≠ .agentMandate, ∃ seeds ∈ opened, seeds.custody = some kind ∧
      (P.findProgramAddress seeds).1 = k := by
  cases retired with
  | ended m found finished =>
    exact ⟨.mandate, by decide, placed.held k .mandate (by rw [World.stores, found]; rfl)⟩
  | cancelled s found finished =>
    exact ⟨.stream, by decide, placed.held k .stream (by rw [World.stores, found]; rfl)⟩
  | removed seeds used own address gone =>
    exact ⟨.mandate, by decide, seeds, used, own, address⟩

theorem Retired.dead (placed : Placed P w opened) (retired : Retired P w opened k) :
    Dead P w opened k := by
  obtain ⟨kind, notAgent, used⟩ := retired.used placed
  obtain ⟨seeds, mem, own, address⟩ := used
  have used : ∃ seeds ∈ opened, seeds.custody = some kind ∧ (P.findProgramAddress seeds).1 = k :=
    ⟨seeds, mem, own, address⟩
  have mandateHere (m : VelaMandate) (found : w.currentMandate k = some m) :
      w.stores k .mandate := by
    rw [World.stores, found]
    rfl
  have streamHere (s : StreamMandate) (found : w.stream k = some s) : w.stores k .stream := by
    rw [World.stores, found]
    rfl
  refine ⟨⟨seeds, mem, address⟩, fun live => ?_⟩
  cases live with
  | agent m found =>
    have here : w.stores k .agentMandate := by
      rw [World.stores, found]
      rfl
    exact notAgent (placed.one_kind used here)
  | mandate m found active =>
    cases retired with
    | ended m' found' finished =>
      obtain rfl := Option.some.inj (found.symm.trans found')
      rw [active] at finished
      exact absurd finished (by decide)
    | cancelled s found' finished =>
      have first := placed.held k .stream (streamHere s found')
      exact absurd (placed.one_kind first (mandateHere m found)) (by decide)
    | removed seeds' used' own' address' gone =>
      rw [World.currentMandate, gone] at found
      cases found
  | stream s found running =>
    cases retired with
    | ended m found' finished =>
      have first := placed.held k .mandate (mandateHere m found')
      exact absurd (placed.one_kind first (streamHere s found)) (by decide)
    | cancelled s' found' finished =>
      obtain rfl := Option.some.inj (found.symm.trans found')
      exact running finished
    | removed seeds' used' own' address' gone =>
      have first : ∃ seeds ∈ opened, seeds.custody = some .mandate ∧
          (P.findProgramAddress seeds).1 = k := ⟨seeds', used', own', address'⟩
      exact absurd (placed.one_kind first (streamHere s found)) (by decide)

structure Stranded (P : Platform) (w : World) (opened : List Seeds) (k : Pubkey) (coin : Coin)
    (b : Pubkey) : Prop where
  placed : Placed P w opened
  dead : Dead P w opened k
  owner : ∃ account, w.held coin b = some account ∧ account.owner = k

theorem Stranded.flow {i : ProtocolInstruction} (stranded : Stranded P w opened k coin b)
    (lawful : Lawful P opened w (.instruction i) w') (ok : executeProtocol P w i = .ok w') :
    Keeps k w w' ∨ Burned w w' := by
  cases lawful_flow stranded.placed lawful stranded.dead.used ok with
  | kept keeps => exact .inl keeps
  | burned burned => exact .inr burned
  | charged unpaused live => exact absurd live stranded.dead.finished
  | returned m found signed returned => exact absurd (.agent m found) stranded.dead.finished

theorem Stranded.step (stranded : Stranded P w opened k coin b) (step : ProtocolStep P w a w')
    (lawful : Lawful P opened w a w') : Stranded P w' (watchSeeds opened w a w') k coin b := by
  have population := protocol_population step
  refine ⟨stranded.placed.step population lawful,
    stranded.dead.step stranded.placed population lawful, ?_⟩
  obtain ⟨account, found, owner⟩ := stranded.owner
  cases a with
  | instruction i =>
    rcases stranded.flow lawful step with keeps | burned
    · obtain ⟨after, present, kept, _⟩ := keeps.held coin b account found owner
      exact ⟨after, present, kept⟩
    · obtain ⟨after, present, kept⟩ := burned.owner coin b account found
      exact ⟨after, present, kept.trans owner⟩
  | tick clock =>
    obtain ⟨_, rfl⟩ := step
    cases coin <;> exact ⟨account, found, owner⟩
  | outside =>
    have custody : InCustody P account.owner :=
      owner ▸ stranded.placed.inCustody stranded.dead.used
    obtain ⟨after, present, kept⟩ := step.custody coin b account found custody
    exact ⟨after, present, kept.trans owner⟩

theorem Stranded.not_recoverable (stranded : Stranded P w opened k coin b) :
    ¬Recoverable P w opened coin b := by
  rintro ⟨⟨v, opened'⟩, i, v', run, lawful, ok, less, coin', c, more⟩
  have later : Stranded P v opened' k coin b :=
    run.invariant (fun v opened => Stranded P v opened k coin b) stranded
      fun _ _ _ _ stranded step lawful => stranded.step step lawful
  obtain ⟨account, found, owner⟩ := later.owner
  rcases later.flow lawful ok with keeps | burned
  · exact absurd (keeps.holds found owner) (Nat.not_le.mpr less)
  · exact absurd (burned.gains coin' c) (Nat.not_le.mpr more)

open Deployment

/-- A subscriber subscribes, prepays into an account of the mandate and cancels: what is left there
never comes back. -/
theorem cancelled_prepayment_lost : ∃ w : World, ∃ opened : List Seeds, ∃ m : VelaMandate,
    ProtocolRun platform (agentWorld 0, []) (w, opened) ∧ w.currentMandate mandate = some m ∧
      m.status = .cancelled ∧ (w.tokenAccount (payer mintA)).map TokenAccount.owner = some mandate ∧
      0 < w.holds .token2022 (payer mintA) ∧
      ¬Recoverable platform w opened .token2022 (payer mintA) := by
  have played : (play (applyProtocol platform) watchSeeds Plain (agentWorld 0, [])
      [ofBilling (offerFlat 0 100 3600 0 12 mintA), ofBilling subscribeFlat, wrapToMandate 500,
        ofBilling cancelBySubscriber]).any (fun x =>
          (x.1.currentMandate mandate).any (fun m => m.status = .cancelled) &&
          (x.1.tokenAccount (payer mintA)).any (fun account => account.owner = mandate) &&
          decide (0 < x.1.holds .token2022 (payer mintA))) = true := by
    decide +kernel
  simp only [Option.any_eq_true, Bool.and_eq_true, decide_eq_true_eq] at played
  obtain ⟨⟨w, opened⟩, script, ⟨⟨m, found, finished⟩, account, paid, owner⟩, funds⟩ := played
  have run := protocol_script script
  have placed := run.placed (placed_empty rfl rfl rfl)
  have dead := Retired.dead placed (.ended m found (.inl finished))
  have stranded : Stranded platform w opened mandate .token2022 (payer mintA) :=
    ⟨placed, dead, account, paid, owner⟩
  refine ⟨w, opened, m, run, found, finished, ?_, funds, stranded.not_recoverable⟩
  rw [paid, Option.map_some, owner]

/-- Once a mandate or a stream is over, no sequence of instructions ever pays out of an account
it owns. -/
theorem prepaid_stranded {x : World × List Seeds} {account : TokenAccount}
    (start : Placed P x.1 x.2) (reachable : ProtocolRun P x (w, opened))
    (retired : Retired P w opened k) (found : w.held coin b = some account)
    (owner : account.owner = k) : ¬Recoverable P w opened coin b := by
  have placed : Placed P w opened := reachable.placed start
  have stranded : Stranded P w opened k coin b :=
    ⟨placed, retired.dead placed, account, found, owner⟩
  exact stranded.not_recoverable

theorem prepaid_stranded_stream : ∃ w : World, ∃ opened : List Seeds,
    ProtocolRun platform (streamWorld 0 1000, []) (w, opened) ∧
      w.holds .token2022 streamPayer = 1000 ∧
      ¬Recoverable platform w opened .token2022 streamPayer := by
  have played : (play (applyProtocol platform) watchSeeds Plain (streamWorld 0 1000, [])
      [offerStream, cancelStreamBySubscriber]).any (fun x =>
        (x.1.stream stream).any (fun s => s.status = .cancelled) &&
        (x.1.tokenAccount streamPayer).any (fun account => account.owner = stream) &&
        decide (x.1.holds .token2022 streamPayer = 1000)) = true := by
    decide +kernel
  simp only [Option.any_eq_true, Bool.and_eq_true, decide_eq_true_eq] at played
  obtain ⟨⟨w, opened⟩, script, ⟨⟨s, found, finished⟩, account, paid, owner⟩, funds⟩ := played
  have run := protocol_script script
  have start : Placed platform (streamWorld 0 1000) [] := placed_empty rfl rfl rfl
  have held : w.held .token2022 streamPayer = some account := paid
  exact ⟨w, opened, run, funds, prepaid_stranded start run (.cancelled s found finished) held owner⟩

end VelaProtocol
