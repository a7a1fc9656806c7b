import VelaProtocol.Addresses
import VelaProtocol.Deployment.Protocol

/-! The emergency pause: while it lasts nothing leaves a mandate, a stream or an agent mandate but
back to the owner of an agent mandate, and what returns funds to users does not look at it. -/
namespace VelaProtocol

open Guard Monitored

variable {P : Platform} {w w' : World} {opened : List Seeds} {k : Pubkey}

def World.isPaused (w : World) : Prop :=
  ∃ config, w.protocolConfig = some config ∧ config.paused = true

theorem World.isPaused.not_unpaused (paused : w.isPaused) : ¬w.unpaused := by
  rintro ⟨config, found, running⟩
  obtain ⟨stored, present, held⟩ := paused
  obtain rfl := Option.some.inj (found.symm.trans present)
  rw [running] at held
  cases held

def WhilePaused (P : Platform) (opened : List Seeds) (w : World) (a : ProtocolAction)
    (w' : World) : Prop :=
  w.isPaused ∧ Lawful P opened w a w'

theorem Flow.paused {signers : List Pubkey} (flow : Flow w signers k w') (paused : w.isPaused) :
    w'.transfersBy k = w.transfersBy k ∧
    ∀ coin a account, w.held coin a = some account → account.owner = k →
      w'.holds coin a < w.holds coin a →
      ∀ coin' b, w.holds coin' b < w'.holds coin' b →
        coin' = .classic ∧ ∃ m receiver, w.agentMandateAt k = some m ∧ m.authority ∈ signers ∧
          w.splTokenAccount b = some receiver ∧ receiver.owner = m.authority := by
  cases flow with
  | kept keeps =>
    refine ⟨keeps.transfersBy, fun coin a account found owner less => ?_⟩
    exact absurd (keeps.holds found owner) (Nat.not_le.mpr less)
  | burned burned =>
    refine ⟨burned.transfersBy k, fun _ _ _ _ _ _ coin b more => ?_⟩
    exact absurd (burned.gains coin b) (Nat.not_le.mpr more)
  | charged unpaused live => exact absurd unpaused paused.not_unpaused
  | returned m found signed returned =>
    refine ⟨returned.transfersBy k, fun _ _ _ _ _ _ coin b more => ?_⟩
    obtain ⟨classic, receiver, present, owner⟩ := returned.gains coin b more
    exact ⟨classic, m, receiver, found, signed, present, owner⟩

theorem paused_run {x y : World × List Seeds}
    (run : Run (ProtocolStep P) watchSeeds (WhilePaused P) x y) (placed : Placed P x.1 x.2)
    (used : ∃ seeds ∈ x.2, (P.findProgramAddress seeds).1 = k) :
    y.1.transfersBy k = x.1.transfersBy k := by
  let kept := fun (v : World) (opened : List Seeds) => Placed P v opened ∧
    (∃ seeds ∈ opened, (P.findProgramAddress seeds).1 = k) ∧ v.transfersBy k = x.1.transfersBy k
  have all : kept y.1 y.2 := by
    refine run.invariant kept ⟨placed, used, rfl⟩ ?_
    rintro v opened a v' ⟨placed, used, same⟩ step ⟨paused, lawful⟩
    refine ⟨placed.step (protocol_population step) lawful, ?_, Eq.trans ?_ same⟩
    · obtain ⟨seeds, mem, address⟩ := used
      exact ⟨seeds, List.mem_append_right _ mem, address⟩
    · cases a with
      | instruction i => exact ((lawful_flow placed lawful used step).paused paused).1
      | tick clock =>
        obtain ⟨_, rfl⟩ := step
        rfl
      | outside => exact (SameMoney.of_log step.log).transfersBy k
  exact all.2.2

def LoadedProtocolConfig.withPause (b : Bool) : LoadedProtocolConfig → LoadedProtocolConfig
  | .legacy c => .legacy { c with paused := b }
  | .current c => .current { c with paused := b }

def World.withPause (w : World) (b : Bool) : World :=
  { w with protocolConfig := w.protocolConfig.map (LoadedProtocolConfig.withPause b) }

/-- What pays users back: the two exits of agent mandates and unwrapping. -/
def ProtocolInstruction.returnsFunds : ProtocolInstruction → Bool
  | .agent (.drainAgentMandate _) => true
  | .agent (.revokeAgentMandate _) => true
  | .unwrapTokens _ => true
  | _ => false

/-- The same result but for the flag. -/
def ButPause (b : Bool) (w v : World) : Prop := v = w.withPause b

theorem anchorProtocolConfig_follows (w : World) (b : Bool) :
    Follows (anchorProtocolConfig w) (anchorProtocolConfig (w.withPause b)) fun c d =>
      d = { c with paused := b } := by
  intro c h
  unfold anchorProtocolConfig at h
  split at h
  · rename_i config found
    cases h
    refine ⟨_, ?_, rfl⟩
    rw [anchorProtocolConfig, World.withPause, found]
    rfl
  · cases h
  · cases h

theorem loadProtocolConfig_follows (w : World) (b : Bool) :
    Follows (loadProtocolConfig w) (loadProtocolConfig (w.withPause b)) fun c d =>
      d = c.withPause b := by
  intro c h
  unfold loadProtocolConfig at h
  split at h
  · cases h
  · rename_i config found
    cases h
    refine ⟨_, ?_, rfl⟩
    rw [loadProtocolConfig, World.withPause, found]
    rfl
  · rename_i config found
    obtain ⟨version, h⟩ := require_bind_eq_ok.mp h
    cases h
    refine ⟨_, ?_, rfl⟩
    rw [loadProtocolConfig, World.withPause, found]
    exact require_bind_eq_ok.mpr ⟨version, rfl⟩

theorem burn_follows (w : World) (b : Bool) {account mint authority : Pubkey} {amount : UInt64} :
    Follows (burn w account mint authority amount)
      (burn (w.withPause b) account mint authority amount) (ButPause b) := by
  unfold burn
  iterate 5 refine .skip fun _ => ?_
  exact .of_pure rfl

theorem splTransferChecked_follows (w : World) (b : Bool)
    {source mint destination authority : Pubkey} {amount : UInt64} {decimals : UInt8} :
    Follows (splTransferChecked w source mint destination authority amount decimals)
      (splTransferChecked (w.withPause b) source mint destination authority amount decimals)
      (ButPause b) := by
  unfold splTransferChecked
  iterate 8 refine .skip fun _ => ?_
  refine .ite (fun _ => .of_pure rfl) fun _ => ?_
  exact .skip fun _ => .of_pure rfl

theorem withdraw_follows (w : World) (b : Bool) {accounts : WrappingAccounts} {owner : Pubkey}
    {amount : UInt64} :
    Follows (withdraw P w accounts owner amount) (withdraw P (w.withPause b) accounts owner amount)
      (ButPause b) := by
  refine .bind (burn_follows w b) fun burned other same => ?_
  subst same
  exact splTransferChecked_follows burned b

theorem validateAgentExit_follows (w : World) (b : Bool) {ctx : AgentExit} :
    Follows (validateAgentExit P w ctx) (validateAgentExit P (w.withPause b) ctx) Eq := by
  refine .bind (anchorProtocolConfig_follows w b) fun config other same => ?_
  subst same
  iterate 5 refine .skip fun _ => ?_
  exact .of_pure rfl

theorem returnFunds_follows (w : World) (b : Bool) {ctx : AgentExit} {amount : UInt64}
    {bump : UInt8} :
    Follows (returnFunds P w ctx amount bump) (returnFunds P (w.withPause b) ctx amount bump)
      (ButPause b) :=
  .ite (fun _ => .skip fun _ => withdraw_follows w b) fun _ => .of_pure rfl

theorem writeAgentMandate_follows (w : World) (b : Bool) {key : Pubkey} {m : AgentMandate}
    {legacy : Bool} :
    Follows (w.writeAgentMandate key m legacy) ((w.withPause b).writeAgentMandate key m legacy)
      (ButPause b) :=
  .skip fun _ => .ite (fun _ => .skip fun _ => .of_pure rfl) fun _ => .skip fun _ => .of_pure rfl

theorem drainAgentMandate_follows (w : World) (b : Bool) {ctx : AgentExit} :
    Follows (drainAgentMandate P w ctx) (drainAgentMandate P (w.withPause b) ctx) (ButPause b) := by
  refine .bind (validateAgentExit_follows w b) fun amount other same => ?_
  subst same
  refine .skip fun loaded => ?_
  refine .bind (returnFunds_follows w b) fun drained other same => ?_
  subst same
  exact .of_pure rfl

theorem revokeAgentMandate_follows (w : World) (b : Bool) {ctx : AgentExit} :
    Follows (revokeAgentMandate P w ctx) (revokeAgentMandate P (w.withPause b) ctx)
      (ButPause b) := by
  refine .bind (validateAgentExit_follows w b) fun amount other same => ?_
  subst same
  iterate 2 refine .skip fun _ => ?_
  refine .bind (returnFunds_follows w b) fun drained other same => ?_
  subst same
  refine .bind (writeAgentMandate_follows drained b) fun written other same => ?_
  subst same
  exact .of_pure rfl

theorem unwrapTokens_follows (w : World) (b : Bool) {ctx : Unwrap} :
    Follows (unwrapTokens P w ctx) (unwrapTokens P (w.withPause b) ctx) (ButPause b) := by
  unfold unwrapTokens
  iterate 5 refine .skip fun _ => ?_
  refine .bind (loadProtocolConfig_follows w b) fun config other same => ?_
  subst same
  refine .bind (S := Eq) ?_ fun _ _ _ => .bind (S := Eq) ?_ fun _ _ _ => withdraw_follows w b
  · cases config <;> exact .refl _
  · cases config <;> exact .refl _

theorem exits_follow {i : ProtocolInstruction} (returns : i.returnsFunds = true) (w : World)
    (b : Bool) : Follows (executeProtocol P w i) (executeProtocol P (w.withPause b) i)
      (ButPause b) := by
  cases i with
  | agent i =>
    cases i with
    | drainAgentMandate ctx => exact drainAgentMandate_follows w b
    | revokeAgentMandate ctx => exact revokeAgentMandate_follows w b
    | _ => cases returns
  | unwrapTokens ctx => exact unwrapTokens_follows w b
  | _ => cases returns

theorem World.isPaused.withPause (paused : w.isPaused) :
    (w.withPause false).withPause true = w := by
  obtain ⟨config, found, held⟩ := paused
  have same : (config.withPause false).withPause true = config := by
    cases config with
    | legacy c =>
      have held : c.paused = true := held
      show LoadedProtocolConfig.legacy { c with paused := true } = .legacy c
      rw [← held]
    | current c =>
      have held : c.paused = true := held
      show LoadedProtocolConfig.current { c with paused := true } = .current c
      rw [← held]
  have stored : (w.protocolConfig.map (LoadedProtocolConfig.withPause false)).map
      (LoadedProtocolConfig.withPause true) = w.protocolConfig := by
    rw [found]
    exact congrArg some same
  exact congrArg (fun c => { w with protocolConfig := c }) stored

theorem exit_iff {i : ProtocolInstruction} (returns : i.returnsFunds = true)
    (paused : w.isPaused) : (∃ w', executeProtocol P w i = .ok w') ↔
      ∃ w', executeProtocol P (w.withPause false) i = .ok w' := by
  constructor
  · rintro ⟨w', ok⟩
    obtain ⟨v, ok', _⟩ := exits_follow returns w false w' ok
    exact ⟨v, ok'⟩
  · rintro ⟨v, ok⟩
    obtain ⟨w', ok', _⟩ := exits_follow returns (w.withPause false) true v ok
    rw [paused.withPause] at ok'
    exact ⟨w', ok'⟩

/-- In every reachable paused state no instruction moves tokens out of a token account of a
mandate, a stream or an agent mandate, but back to the owner of the agent mandate, who signs; no
charge is made until the protocol is unpaused; and what returns funds goes on as before. -/
theorem pause_complete {x : World × List Seeds} {kind : Custody} (start : Placed P x.1 x.2)
    (reachable : ProtocolRun P x (w, opened)) (paused : w.isPaused) (stored : w.stores k kind) :
    (∀ i w', Lawful P opened w (.instruction i) w' → executeProtocol P w i = .ok w' →
      ∀ coin a account, w.held coin a = some account → account.owner = k →
        w'.holds coin a < w.holds coin a →
        ∀ coin' b, w.holds coin' b < w'.holds coin' b →
          coin' = .classic ∧ ∃ m receiver, w.agentMandateAt k = some m ∧ m.authority ∈ i.signers ∧
            w.splTokenAccount b = some receiver ∧ receiver.owner = m.authority) ∧
    (∀ y, Run (ProtocolStep P) watchSeeds (WhilePaused P) (w, opened) y →
      y.1.transfersBy k = w.transfersBy k) ∧
    ∀ i : ProtocolInstruction, i.returnsFunds = true →
      ((∃ w', executeProtocol P w i = .ok w') ↔
        ∃ w', executeProtocol P (w.withPause false) i = .ok w') := by
  have placed : Placed P w opened := reachable.placed start
  have used : ∃ seeds ∈ opened, (P.findProgramAddress seeds).1 = k := by
    obtain ⟨seeds, mem, _, address⟩ := placed.held k kind stored
    exact ⟨seeds, mem, address⟩
  refine ⟨fun i w' lawful ok => ?_, fun y run => ?_, fun i returns => ?_⟩
  · exact ((lawful_flow placed lawful used ok).paused paused).2
  · exact paused_run run placed used
  · exact exit_iff returns paused

open Deployment

theorem pause_complete_drained : ∃ w w' : World, ∃ opened : List Seeds,
    ProtocolRun platform (agentWorld 0, []) (w, opened) ∧ w.isPaused ∧
      executeProtocol platform w drainByOwner = .ok w' ∧
      w'.holds .token2022 agentPayer < w.holds .token2022 agentPayer ∧
      w.holds .classic ownerClassic < w'.holds .classic ownerClassic ∧
      ∃ m receiver, w.agentMandateAt agentMandate = some m ∧
        m.authority ∈ drainByOwner.signers ∧ w.splTokenAccount ownerClassic = some receiver ∧
        receiver.owner = m.authority := by
  have played : (play (applyProtocol platform) watchSeeds Plain (agentWorld 0, [])
      [fundAgent, pauseByAdmin]).any (fun x =>
        x.1.protocolConfig.any (fun config => config.paused) &&
        (x.1.agentMandateAt agentMandate).isSome &&
        (x.1.tokenAccount agentPayer).any (fun account => account.owner = agentMandate) &&
        (executeProtocol platform x.1 drainByOwner).toOption.any fun v =>
          decide (Plain x.2 x.1 (.instruction drainByOwner) v ∧
            v.holds .token2022 agentPayer < x.1.holds .token2022 agentPayer ∧
            x.1.holds .classic ownerClassic < v.holds .classic ownerClassic)) = true := by
    decide +kernel
  simp only [Option.any_eq_true, Bool.and_eq_true, toOption_eq_some, decide_eq_true_eq] at played
  obtain ⟨⟨w, opened⟩, script, ⟨⟨⟨config, found, flag⟩, stored⟩, account, payer,
    owner⟩, w', drained,
    plain, less, more⟩ := played
  have run := protocol_script script
  have paused : w.isPaused := ⟨config, found, flag⟩
  have start : Placed platform (agentWorld 0) [] := placed_empty rfl rfl rfl
  have stores : w.stores agentMandate .agentMandate := stored
  have complete := pause_complete start run paused stores
  obtain ⟨_, returned⟩ := complete.1 drainByOwner w' plain.lawful drained .token2022 agentPayer
    account payer owner less .classic ownerClassic more
  exact ⟨w, w', opened, run, paused, drained, less, more, returned⟩

end VelaProtocol
