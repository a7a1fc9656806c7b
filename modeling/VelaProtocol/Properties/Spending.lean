import VelaProtocol.Deployment.Agents
import VelaProtocol.Lib.Windows

/-! What an agent can spend: within every limit after each pull, and in any day at most twice the
daily limit. -/
namespace VelaProtocol

variable {P : Platform} {w w' : World} {k : Pubkey} {m before after : AgentMandate}
  {i : AgentInstruction} {service : Pubkey} {amount : UInt64} {now : Int64}

/-- No counter is above its limit, and the services are few and different. -/
structure AgentSound (m : AgentMandate) : Prop where
  lifetime : m.totalSpent ≤ m.lifetimeCap
  daily : m.dailySpent ≤ m.dailyLimit
  services : ∀ s ∈ m.services, s.dailySpent ≤ s.dailyLimit
  count : m.services.length ≤ agentMandateMaxServices
  distinct : (m.services.map ServiceLimit.service).Nodup

theorem ServiceLimit.reset_within {s : ServiceLimit} (within : s.dailySpent ≤ s.dailyLimit) :
    (s.resetIfNeeded now).dailySpent ≤ (s.resetIfNeeded now).dailyLimit := by
  unfold ServiceLimit.resetIfNeeded
  split
  · exact Checked.le_iff.mpr (Nat.zero_le _)
  · exact within

theorem AgentSpent.services_map (spent : AgentSpent m service amount now after) :
    after.services.map ServiceLimit.service = m.services.map ServiceLimit.service := by
  obtain ⟨index, limit, found, _, total, _, booked⟩ := spent.booked
  rw [booked]
  apply List.ext_getElem?
  intro j
  rw [List.getElem?_map, List.getElem?_map, List.getElem?_set, List.length_modify,
    List.getElem?_modify]
  by_cases here : index = j
  · subst here
    have inside : index < m.services.length := (List.getElem?_eq_some_iff.mp found).1
    rw [if_pos rfl, if_pos inside, found, Option.map_some, Option.map_some]
    exact congrArg some (limit.resetIfNeeded_terms now).1
  · rw [if_neg here]
    cases m.services[j]? with
    | none => rfl
    | some other => simp only [Option.map_eq_map, Option.map_some, if_neg here]

theorem AgentSpent.services_within (spent : AgentSpent m service amount now after)
    (within : ∀ s ∈ m.services, s.dailySpent ≤ s.dailyLimit) :
    ∀ s ∈ after.services, s.dailySpent ≤ s.dailyLimit := by
  obtain ⟨index, limit, found, _, total, fits, booked⟩ := spent.booked
  rw [booked]
  intro s present
  rcases List.mem_or_eq_of_mem_set present with untouched | rfl
  · obtain ⟨j, there⟩ := List.mem_iff_getElem?.mp untouched
    rw [List.getElem?_modify] at there
    obtain ⟨old, at_j, rfl⟩ := Option.map_eq_some_iff.mp there
    have old_within := within old (List.mem_of_getElem? at_j)
    split
    · exact ServiceLimit.reset_within old_within
    · exact old_within
  · rw [(limit.resetIfNeeded_terms now).2]
    exact fits

theorem AgentSpent.listed (spent : AgentSpent m service amount now after) :
    service ∈ m.services.map ServiceLimit.service := by
  obtain ⟨index, limit, found, named, _⟩ := spent.booked
  exact List.mem_map.mpr ⟨limit, List.mem_of_getElem? found, named⟩

theorem AgentSpent.sound (spent : AgentSpent m service amount now after) (sound : AgentSound m) :
    AgentSound after := by
  have same := spent.services_map
  constructor
  · rw [spent.lifetimeCap]
    exact spent.lifetime
  · rw [spent.dailyLimit]
    exact spent.dailyFits
  · exact spent.services_within sound.services
  · have length := congrArg List.length same
    rw [List.length_map, List.length_map] at length
    rw [length]
    exact sound.count
  · rw [same]
    exact sound.distinct

theorem adjustService_eq_ok {old : List ServiceLimit} {input : ServiceLimitInput}
    {limit : ServiceLimit} (h : adjustService old now input = .ok limit) :
    limit.service = input.service ∧ limit.dailySpent ≤ limit.dailyLimit := by
  obtain ⟨fits, h⟩ := Guard.require_bind_eq_ok.mp h
  cases h
  exact ⟨rfl, fits⟩

theorem adjusted_names {old new : List ServiceLimit} {inputs : List ServiceLimitInput}
    (each : List.Forall₂ (fun input limit => adjustService old now input = .ok limit) inputs new) :
    new.map ServiceLimit.service = inputs.map ServiceLimitInput.service := by
  induction each with
  | nil => rfl
  | cons adjusted _ ih =>
    rw [List.map_cons, List.map_cons, ih, (adjustService_eq_ok adjusted).1]

theorem ServicesReplaced.sound {old new : List ServiceLimit} {inputs : List ServiceLimitInput}
    (replaced : ServicesReplaced now old inputs new) :
    (∀ s ∈ new, s.dailySpent ≤ s.dailyLimit) ∧ new.length ≤ agentMandateMaxServices ∧
      (new.map ServiceLimit.service).Nodup := by
  have names := adjusted_names replaced.each
  refine ⟨?_, ?_, ?_⟩
  · intro s present
    obtain ⟨j, there⟩ := List.mem_iff_getElem?.mp present
    obtain ⟨inside, at_j⟩ := List.getElem?_eq_some_iff.mp there
    have length := replaced.each.length_eq
    have adjusted := replaced.each.get (i := j) (by omega) inside
    rw [List.get_eq_getElem, List.get_eq_getElem, at_j] at adjusted
    exact (adjustService_eq_ok adjusted).2
  · rw [← replaced.each.length_eq]
    exact replaced.count
  · rw [names]
    exact (List.pairwise_map.mpr replaced.distinct)

theorem AgentChange.sound (change : AgentChange w before i after) (sound : AgentSound before) :
    AgentSound after := by
  cases change with
  | pulled ctx receiver _ receives active spent => exact spent.sound sound
  | adjusted ctx limited _ running limits services =>
    obtain ⟨daily, lifetime, form⟩ := adjustLimits_eq_ok limits
    have limited_sound : AgentSound limited := by
      subst form
      constructor
      · cases next : ctx.lifetimeCap with
        | none => exact sound.lifetime
        | some cap => exact lifetime cap next
      · cases next : ctx.dailyLimit with
        | none => exact sound.daily
        | some limit => exact daily limit next
      · exact sound.services
      · exact sound.count
      · exact sound.distinct
    rcases adjustServices_eq_ok services with ⟨_, rfl⟩ | ⟨inputs, new, _, replaced, rfl⟩
    · exact limited_sound
    · obtain ⟨within, count, distinct⟩ := replaced.sound
      exact ⟨limited_sound.lifetime, limited_sound.daily, within, count, distinct⟩
  | paused ctx active =>
    exact ⟨sound.lifetime, sound.daily, sound.services, sound.count, sound.distinct⟩
  | resumed ctx paused =>
    exact ⟨sound.lifetime, sound.daily, sound.services, sound.count, sound.distinct⟩
  | drained ctx => exact sound
  | revoked ctx running =>
    exact ⟨sound.lifetime, sound.daily, sound.services, sound.count, sound.distinct⟩

theorem AgentOpened.sound {ctx : CreateAgentMandate} (spec : AgentOpened w ctx w' m) :
    AgentSound m := by
  obtain ⟨bump, rfl⟩ := spec.initial
  have names : (initialAgentMandate ctx w.clock.unixTimestamp bump).services.map
      ServiceLimit.service = ctx.services.map ServiceLimitInput.service :=
    List.map_map
  constructor
  · exact Checked.le_iff.mpr (Nat.zero_le _)
  · exact Checked.le_iff.mpr (Nat.zero_le _)
  · intro s present
    obtain ⟨entry, _, rfl⟩ := List.mem_map.mp present
    exact Checked.le_iff.mpr (Nat.zero_le _)
  · exact le_of_eq_of_le (List.length_map _) spec.count
  · rw [names]
    exact List.pairwise_map.mpr spec.distinct

def dayWindow : Int := 86400

def AgentMandate.counter (m : AgentMandate) : Windows.Counter :=
  ⟨m.dailyLastReset.toInt, m.dailySpent.toNat⟩

theorem AgentMandate.resetDailyIfNeeded_counter (m : AgentMandate) (now : Int64) :
    (m.resetDailyIfNeeded now).counter = m.counter.roll dayWindow now.toInt := by
  have window : agentDailyResetWindowSeconds.toInt = dayWindow := rfl
  have due := Checked.le_satSubI64 (a := now) (b := m.dailyLastReset)
    (c := agentDailyResetWindowSeconds) (by decide)
  rw [window] at due
  unfold AgentMandate.resetDailyIfNeeded Windows.Counter.roll
  by_cases finished : dayWindow ≤ now.toInt - m.dailyLastReset.toInt
  · rw [if_pos (due.mpr finished),
        if_pos (show dayWindow ≤ now.toInt - m.counter.start from finished)]
    rfl
  · rw [if_neg (mt due.mp finished),
        if_neg (show ¬dayWindow ≤ now.toInt - m.counter.start from finished)]

theorem AgentSpent.counter (spent : AgentSpent m service amount now after) :
    after.counter = ⟨(m.counter.roll dayWindow now.toInt).start,
      (m.counter.roll dayWindow now.toInt).spent + amount.toNat⟩ := by
  rw [← m.resetDailyIfNeeded_counter, AgentMandate.counter, spent.dailyReset, spent.daily]
  rfl

theorem AgentChange.counter (change : AgentChange w before i after)
    (noPull : ∀ ctx, i ≠ .agentPull ctx) : after.counter = before.counter := by
  cases change with
  | pulled ctx receiver _ receives active spent => exact absurd rfl (noPull ctx)
  | adjusted ctx limited _ running limits services =>
    obtain ⟨_, _, form⟩ := adjustLimits_eq_ok limits
    rcases adjustServices_eq_ok services with ⟨_, rfl⟩ | ⟨inputs, new, _, replaced, rfl⟩
    · rw [form]
      rfl
    · rw [form]
      rfl
  | paused ctx active => rfl
  | resumed ctx paused => rfl
  | drained ctx => rfl
  | revoked ctx running => rfl

theorem AgentChange.total (change : AgentChange w before i after)
    (noPull : ∀ ctx, i ≠ .agentPull ctx) : after.totalSpent = before.totalSpent := by
  cases change with
  | pulled ctx receiver _ receives active spent => exact absurd rfl (noPull ctx)
  | adjusted ctx limited _ running limits services =>
    obtain ⟨_, _, form⟩ := adjustLimits_eq_ok limits
    rcases adjustServices_eq_ok services with ⟨_, rfl⟩ | ⟨inputs, new, _, replaced, rfl⟩
    · rw [form]
    · rw [form]
  | paused ctx active => rfl
  | resumed ctx paused => rfl
  | drained ctx => rfl
  | revoked ctx running => rfl

structure BookedPull where
  time : Int
  service : Pubkey
  amount : UInt64
  dailyLimit : UInt64
  services : List Pubkey

def BookedPull.draw (p : BookedPull) : Windows.Draw := ⟨p.time, p.amount.toNat, p.dailyLimit.toNat⟩

def pullRecord (w : World) (ctx : AgentPull) : Option BookedPull := do
  let m ← w.agentMandateAt ctx.agentMandate
  let receiver ← w.tokenAccount ctx.serviceWrappedAccount
  return ⟨w.clock.unixTimestamp.toInt, receiver.owner, ctx.amount, m.dailyLimit,
    m.services.map ServiceLimit.service⟩

def recordPulls (k : Pubkey) (pulls : List BookedPull) (w : World) (a : AgentAction)
    (_ : World) : List BookedPull :=
  match a.call k with
  | some (.agentPull ctx) => (pullRecord w ctx).toList ++ pulls
  | _ => pulls

def pulledTotal (pulls : List BookedPull) : Nat := (pulls.map fun p => p.amount.toNat).sum

/-- What was pulled from `a` to the end of a day later. -/
def pulledFrom (pulls : List BookedPull) (a : Int) : Nat :=
  Windows.spent (fun x => decide (a ≤ x) && decide (x ≤ a + dayWindow))
    (pulls.map BookedPull.draw)

structure AgentLedger (m : AgentMandate) (pulls : List BookedPull) (now : Int) : Prop where
  sound : AgentSound m
  total : m.totalSpent.toNat = pulledTotal pulls
  listed : ∀ p ∈ pulls, p.service ∈ p.services
  drawn : Windows.Drawn dayWindow m.counter (pulls.map BookedPull.draw)
  past : ∀ p ∈ pulls, p.time ≤ now
  began : m.dailyLastReset.toInt ≤ now

theorem AgentLedger.later {pulls : List BookedPull} {t t' : Int} (ledger : AgentLedger m pulls t)
    (le : t ≤ t') : AgentLedger m pulls t' :=
  ⟨ledger.sound, ledger.total, ledger.listed, ledger.drawn,
    fun p present => le_trans (ledger.past p present) le, le_trans ledger.began le⟩

theorem AgentOpened.ledger {ctx : CreateAgentMandate} (spec : AgentOpened w ctx w' m) :
    AgentLedger m [] w'.clock.unixTimestamp.toInt := by
  have sound := spec.sound
  obtain ⟨bump, rfl⟩ := spec.initial
  rw [spec.frame.clock]
  constructor
  · exact sound
  · rfl
  · exact nofun
  · exact .fresh _
  · exact nofun
  · exact le_refl _

theorem AgentLedger.pull {pulls : List BookedPull} {p : BookedPull}
    (ledger : AgentLedger m pulls now.toInt) (spent : AgentSpent m service amount now after)
    (record : p = ⟨now.toInt, service, amount, m.dailyLimit, m.services.map ServiceLimit.service⟩) :
    AgentLedger after (p :: pulls) now.toInt := by
  have counter := spent.counter
  have day : (0 : Int) < dayWindow := by decide
  have began : m.counter.start ≤ now.toInt := ledger.began
  have fits := Checked.le_iff.mp spent.dailyFits
  have taken : p.amount = amount := by rw [record]
  constructor
  · exact spent.sound ledger.sound
  · rw [spent.total, ledger.total, pulledTotal, pulledTotal, List.map_cons, List.sum_cons, taken]
    omega
  · intro q present
    rcases List.mem_cons.mp present with rfl | earlier
    · rw [record]
      exact spent.listed
    · exact ledger.listed q earlier
  · have value : after.dailySpent.toNat = (m.counter.roll dayWindow now.toInt).spent +
        amount.toNat := congrArg Windows.Counter.spent counter
    have earlier : ∀ d ∈ pulls.map BookedPull.draw, d.time ≤ now.toInt := by
      intro d present
      obtain ⟨q, recorded, rfl⟩ := List.mem_map.mp present
      exact ledger.past q recorded
    rw [counter, List.map_cons, record]
    exact .draw ⟨now.toInt, amount.toNat, m.dailyLimit.toNat⟩ ledger.drawn began earlier
      (le_of_eq_of_le value.symm fits)
  · intro q present
    rcases List.mem_cons.mp present with rfl | earlier
    · rw [record]
    · exact ledger.past q earlier
  · have start : after.dailyLastReset.toInt = (m.counter.roll dayWindow now.toInt).start :=
      congrArg Windows.Counter.start counter
    rw [start]
    exact (m.counter.roll_start day began).1

theorem AgentLedger.change {pulls : List BookedPull}
    (ledger : AgentLedger before pulls w.clock.unixTimestamp.toInt)
    (change : AgentChange w before i after) (noPull : ∀ ctx, i ≠ .agentPull ctx) :
    AgentLedger after pulls w.clock.unixTimestamp.toInt := by
  have counter := change.counter noPull
  constructor
  · exact change.sound ledger.sound
  · rw [change.total noPull]
    exact ledger.total
  · exact ledger.listed
  · rw [counter]
    exact ledger.drawn
  · exact ledger.past
  · have start : after.dailyLastReset.toInt = before.dailyLastReset.toInt :=
      congrArg Windows.Counter.start counter
    rw [start]
    exact ledger.began

theorem AgentChange.terminal (change : AgentChange w before i after)
    (revoked : before.status = .revoked) : after = before ∧ ∀ ctx, i ≠ .agentPull ctx := by
  cases change with
  | pulled ctx receiver _ receives active spent =>
    exact absurd (active.symm.trans revoked) nofun
  | adjusted ctx limited _ running limits services => exact absurd revoked running
  | paused ctx active => exact absurd (active.symm.trans revoked) nofun
  | resumed ctx paused => exact absurd (paused.symm.trans revoked) nofun
  | drained ctx => exact ⟨rfl, nofun⟩
  | revoked ctx running => exact absurd revoked running

structure Spending (k : Pubkey) (w : World) (pulls : List BookedPull) (m : AgentMandate) :
    Prop where
  found : w.agentMandateAt k = some m
  ledger : AgentLedger m pulls w.clock.unixTimestamp.toInt

theorem AgentOpened.not_present {ctx : CreateAgentMandate} (spec : AgentOpened w ctx w' after) :
    w.agentMandateAt ctx.agentMandate = none := by
  rw [World.agentMandateAt, spec.vacant.agentMandate]
  rfl

theorem recordPulls_none {pulls : List BookedPull} {a : AgentAction} (call : a.call k = none) :
    recordPulls k pulls w a w' = pulls := by
  rw [recordPulls, call]

theorem recordPulls_other {pulls : List BookedPull} {a : AgentAction} (call : a.call k = some i)
    (noPull : ∀ ctx, i ≠ .agentPull ctx) : recordPulls k pulls w a w' = pulls := by
  rw [recordPulls, call]
  cases i with
  | agentPull ctx => exact absurd rfl (noPull ctx)
  | _ => rfl

theorem recordPulls_pull {pulls : List BookedPull} {a : AgentAction} {ctx : AgentPull}
    {receiver : TokenAccount} (call : a.call k = some (.agentPull ctx))
    (found : w.agentMandateAt ctx.agentMandate = some before)
    (receives : w.tokenAccount ctx.serviceWrappedAccount = some receiver) :
    recordPulls k pulls w a w' = ⟨w.clock.unixTimestamp.toInt, receiver.owner, ctx.amount,
      before.dailyLimit, before.services.map ServiceLimit.service⟩ :: pulls := by
  rw [recordPulls, call]
  simp only [pullRecord, found, receives, Option.bind_eq_bind, Option.bind_some, Option.pure_def,
    Option.toList_some, List.cons_append, List.nil_append]

theorem Spending.step {pulls : List BookedPull} {a : AgentAction} (spending : Spending k w pulls m)
    (step : AgentStep P w a w') :
    ∃ m', Spending k w' (recordPulls k pulls w a w') m' ∧
      (m.status = .revoked → m' = m ∧ recordPulls k pulls w a w' = pulls) := by
  have classified := agentStepAt k step
  generalize call : a.call k = c at classified
  cases classified with
  | apart clock same =>
    rw [recordPulls_none call]
    refine ⟨m, ⟨same.trans spending.found, spending.ledger.later ?_⟩, fun _ => ⟨rfl, rfl⟩⟩
    exact Checked.le_iff_int.mp clock
  | opened ctx new key spec =>
    subst key
    exact absurd (spec.not_present.symm.trans spending.found) nofun
  | called i before after key spec =>
    subst key
    obtain rfl := Option.some.inj (spending.found.symm.trans spec.found)
    have stored : w'.agentMandateAt i.mandate = some after := by
      rw [spec.stored, Function.update_self]
    have clock := spec.frame.clock
    by_cases pull : ∃ ctx, i = .agentPull ctx
    · obtain ⟨ctx, rfl⟩ := pull
      have change := spec.change
      cases change with
      | pulled _ receiver _ receives active spent =>
        rw [recordPulls_pull call spec.found receives]
        refine ⟨after, ⟨stored, ?_⟩, ?_⟩
        · rw [clock]
          exact spending.ledger.pull spent rfl
        · intro revoked
          exact absurd (active.symm.trans revoked) nofun
    · have noPull : ∀ ctx, i ≠ .agentPull ctx := fun ctx same => pull ⟨ctx, same⟩
      rw [recordPulls_other call noPull]
      refine ⟨after, ⟨stored, ?_⟩, ?_⟩
      · rw [clock]
        exact spending.ledger.change spec.change noPull
      · intro revoked
        exact ⟨(spec.change.terminal revoked).1, rfl⟩

abbrev AgentRun (P : Platform) (k : Pubkey) :
    World × List BookedPull → World × List BookedPull → Prop :=
  Monitored.Run (AgentStep P) (recordPulls k) Monitored.Any

theorem Spending.run {x y : World × List BookedPull} (spending : Spending k x.1 x.2 m)
    (run : AgentRun P k x y) :
    ∃ m', Spending k y.1 y.2 m' ∧ (m.status = .revoked → m' = m ∧ y.2 = x.2) := by
  induction run with
  | refl => exact ⟨m, spending, fun _ => ⟨rfl, rfl⟩⟩
  | tail _ last ih =>
    obtain ⟨m₁, spending₁, terminal₁⟩ := ih
    obtain ⟨a, step, _, ghost⟩ := last
    obtain ⟨m₂, spending₂, terminal₂⟩ := spending₁.step step
    rw [ghost]
    refine ⟨m₂, spending₂, ?_⟩
    intro revoked
    obtain ⟨rfl, same⟩ := terminal₁ revoked
    obtain ⟨rfl, same'⟩ := terminal₂ revoked
    exact ⟨rfl, same'.trans same⟩

/-- From its creation on, in any run, a mandate keeps every counter within its limit and its total
is the sum of the pulls; every pull goes to a listed service, any day sees at most twice the
daily limit, and a revoked mandate pays nothing more. -/
theorem agent_spending {w₀ w₁ w₂ : World} {ctx : CreateAgentMandate} {pulls more : List BookedPull}
    (created : createAgentMandate P w ctx = .ok w₀)
    (first : AgentRun P ctx.agentMandate (w₀, []) (w₁, pulls))
    (rest : AgentRun P ctx.agentMandate (w₁, pulls) (w₂, more)) :
    ∃ m₁ m₂, w₁.agentMandateAt ctx.agentMandate = some m₁ ∧
      w₂.agentMandateAt ctx.agentMandate = some m₂ ∧ AgentSound m₁ ∧
      m₁.totalSpent.toNat = pulledTotal pulls ∧ (∀ p ∈ pulls, p.service ∈ p.services) ∧
      (∀ a limit, (∀ p ∈ pulls, a ≤ p.time → p.time ≤ a + dayWindow →
        p.dailyLimit.toNat ≤ limit) → pulledFrom pulls a ≤ 2 * limit) ∧
      (m₁.status = .revoked → m₂ = m₁ ∧ more = pulls) := by
  obtain ⟨m₀, spec⟩ := createAgentMandate_eq_ok created
  have found : w₀.agentMandateAt ctx.agentMandate = some m₀ := by
    rw [spec.stored, Function.update_self]
  have initial : Spending ctx.agentMandate w₀ [] m₀ := ⟨found, spec.ledger⟩
  obtain ⟨m₁, spending₁, _⟩ := Spending.run initial first
  obtain ⟨m₂, spending₂, terminal⟩ := Spending.run spending₁ rest
  have ledger := spending₁.ledger
  refine ⟨m₁, m₂, spending₁.found, spending₂.found, ledger.sound, ledger.total, ledger.listed, ?_,
    terminal⟩
  intro a limit below
  apply ledger.drawn.spent_le (by decide)
  intro d present late early
  obtain ⟨p, recorded, rfl⟩ := List.mem_map.mp present
  exact below p recorded late early

open Deployment

def agentLife : List AgentAction :=
  [tickAgent 86399, pullForMerchant 100, tickAgent 86400, pullForMerchant 60, revokeAgent]

theorem agent_spending_revoked : ∃ w₀ w₁ w₂ : World, ∃ pulls : List BookedPull,
    ∃ m : AgentMandate, AgentRun platform agentMandate (w₀, []) (w₁, pulls) ∧
      w₂.agentMandateAt agentMandate = some m ∧ m.status = .revoked ∧ pulledTotal pulls = 160 ∧
      m.totalSpent.toNat = 160 ∧ pulledFrom pulls 86399 ≤ 200 := by
  have played : (createAgentMandate platform (agentWorld 0) agentOffer).toOption.any
      (fun w₀ => (Monitored.play applyAgentAction (recordPulls agentMandate) Monitored.Any
        (w₀, []) agentLife).any fun x => (Monitored.play applyAgentAction
          (recordPulls agentMandate) Monitored.Any x [drainAgent, tickAgent 900000]).any fun _ =>
            decide (pulledTotal x.2 = 160 ∧ (∀ p ∈ x.2, p.dailyLimit.toNat ≤ 100) ∧
              (x.1.agentMandateAt agentMandate).map AgentMandate.status =
                some .revoked)) = true := by
    decide +kernel
  simp only [Option.any_eq_true, toOption_eq_some, decide_eq_true_eq,
    Option.map_eq_some_iff] at played
  obtain ⟨w₀, created, ⟨w₁, pulls⟩, life, ⟨w₂, more⟩, after, amount, below, m, found, revoked⟩ :=
    played
  have first := Monitored.play_run (fun _ _ _ => applyAgentAction_step) life
  have rest := Monitored.play_run (fun _ _ _ => applyAgentAction_step) after
  obtain ⟨m₁, m₂, found₁, found₂, sound, total, listed, window, terminal⟩ :=
    agent_spending created first rest
  obtain rfl := Option.some.inj (found.symm.trans found₁)
  obtain ⟨rfl, _⟩ := terminal revoked
  have amount : pulledTotal pulls = 160 := amount
  exact ⟨w₀, w₁, w₂, pulls, m₂, first, found₂, revoked, amount, total.trans amount,
    window 86399 100 fun p recorded _ _ => below p recorded⟩

end VelaProtocol
