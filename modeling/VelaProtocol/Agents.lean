import VelaProtocol.Instructions.AgentMandates
import VelaProtocol.Lib.Monitored

/-! The agent instructions as one transition system, watched at one mandate.
Everything else is an environment that leaves the agent mandates alone. -/
namespace VelaProtocol

open Guard

variable {P : Platform} {w w₁ w' : World} {k : Pubkey} {before after : AgentMandate}

structure AgentFrame (w w' : World) : Prop where
  clock : w'.clock = w.clock
  protocolConfig : w'.protocolConfig = w.protocolConfig
  keeperConfig : w'.keeperConfig = w.keeperConfig
  merchantState : w'.merchantState = w.merchantState
  tokenConfig : w'.tokenConfig = w.tokenConfig
  plan : w'.plan = w.plan
  mandate : w'.mandate = w.mandate
  stream : w'.stream = w.stream
  requestState : w'.requestState = w.requestState
  usageReport : w'.usageReport = w.usageReport
  billingEvent : w'.billingEvent = w.billingEvent

theorem AgentFrame.refl (w : World) : AgentFrame w w := by
  constructor <;> rfl

theorem AgentFrame.trans (first : AgentFrame w w₁) (second : AgentFrame w₁ w') :
    AgentFrame w w' := by
  constructor
  case clock => exact second.clock.trans first.clock
  case protocolConfig => exact second.protocolConfig.trans first.protocolConfig
  case keeperConfig => exact second.keeperConfig.trans first.keeperConfig
  case merchantState => exact second.merchantState.trans first.merchantState
  case tokenConfig => exact second.tokenConfig.trans first.tokenConfig
  case plan => exact second.plan.trans first.plan
  case mandate => exact second.mandate.trans first.mandate
  case stream => exact second.stream.trans first.stream
  case requestState => exact second.requestState.trans first.requestState
  case usageReport => exact second.usageReport.trans first.usageReport
  case billingEvent => exact second.billingEvent.trans first.billingEvent

theorem TokenOnly.agentFrame (only : TokenOnly w w') : AgentFrame w w' := by
  constructor
  case clock => exact only.clock
  case protocolConfig => exact only.protocolConfig
  case keeperConfig => exact only.keeperConfig
  case merchantState => exact only.merchantState
  case tokenConfig => exact only.tokenConfig
  case plan => exact only.plan
  case mandate => exact only.mandate
  case stream => exact only.stream
  case requestState => exact only.requestState
  case usageReport => exact only.usageReport
  case billingEvent => exact only.billingEvent

theorem SplOnly.agentFrame (only : SplOnly w w') : AgentFrame w w' := by
  rw [only]
  constructor <;> rfl

theorem AgentWritten.agentFrame {m : AgentMandate} (written : AgentWritten w k m w') :
    AgentFrame w w' := by
  rw [written.only]
  constructor <;> rfl

theorem AgentFrame.emit (frame : AgentFrame w w') (e : LogEntry) : AgentFrame w (w'.emit e) :=
  ⟨frame.clock, frame.protocolConfig, frame.keeperConfig, frame.merchantState, frame.tokenConfig,
    frame.plan, frame.mandate, frame.stream, frame.requestState, frame.usageReport,
    frame.billingEvent⟩

structure CoinsOnly (w w' : World) : Prop where
  frame : AgentFrame w w'
  agentMandate : w'.agentMandate = w.agentMandate

theorem CoinsOnly.mandates (only : CoinsOnly w w') : w'.agentMandateAt = w.agentMandateAt := by
  funext key
  rw [World.agentMandateAt, World.agentMandateAt, only.agentMandate]

theorem deposit_only {accounts : WrappingAccounts} {payer : Pubkey} {amount : UInt64}
    (h : deposit P w accounts payer amount = .ok w') : CoinsOnly w w' := by
  obtain ⟨paid, transferred, minted⟩ := bind_eq_ok.mp h
  have spl := (splTransferChecked_eq_ok transferred).only
  have tokens := (mintTo_frame minted).1
  refine ⟨spl.agentFrame.trans tokens.agentFrame, tokens.agentMandate.trans ?_⟩
  rw [spl]

theorem withdraw_only {accounts : WrappingAccounts} {owner : Pubkey} {amount : UInt64}
    (h : withdraw P w accounts owner amount = .ok w') : CoinsOnly w w' := by
  obtain ⟨burned, gone, transferred⟩ := bind_eq_ok.mp h
  have tokens := (burn_frame gone).1
  have spl := (splTransferChecked_eq_ok transferred).only
  refine ⟨tokens.agentFrame.trans spl.agentFrame, ?_⟩
  rw [spl]
  exact tokens.agentMandate

theorem returnFunds_only {ctx : AgentExit} {amount : UInt64} {bump : UInt8}
    (h : returnFunds P w ctx amount bump = .ok w') : CoinsOnly w w' := by
  unfold returnFunds at h
  split at h
  · exact withdraw_only (require_bind_eq_ok.mp h).2
  · cases h
    exact ⟨.refl w, rfl⟩

/-- The transfer of a pull, at a ledger that differs in the approval alone. -/
structure ServicePaid (P : Platform) (w : World) (ctx : AgentPull) (w' : World) : Prop
    extends CoinsOnly w w' where
  splTokenAccount : w'.splTokenAccount = w.splTokenAccount
  moved : ∃ approving paid, approving.tokenAccount = w.tokenAccount ∧ approving.log = w.log ∧
    Moved approving ((ctx.accounts P).transfer ctx.agentMandate) ctx.amount paid ∧
    w'.tokenAccount = paid.tokenAccount ∧ w'.log = paid.log

theorem payService_eq_ok {ctx : AgentPull} {bump : UInt8}
    (h : payService P w ctx bump = .ok w') : ServicePaid P w ctx w' := by
  obtain ⟨validUntil, _, h⟩ := bind_eq_ok.mp h
  obtain ⟨paid, invoked, h⟩ := bind_eq_ok.mp h
  obtain ⟨_, h⟩ := require_bind_eq_ok.mp h
  obtain ⟨_, transferred⟩ := require_bind_eq_ok.mp invoked
  have spec := transferChecked_eq_ok transferred
  have tokens := spec.frame
  cases h
  refine ⟨⟨?_, tokens.agentMandate⟩, tokens.splTokenAccount,
    ⟨_, paid, ?_, ?_, spec.moved, rfl, rfl⟩⟩
  rotate_left
  · rfl
  · rfl
  constructor
  case clock => exact tokens.clock
  case protocolConfig => exact tokens.protocolConfig
  case keeperConfig => exact tokens.keeperConfig
  case merchantState => exact tokens.merchantState
  case tokenConfig => exact tokens.tokenConfig
  case plan => exact tokens.plan
  case mandate => exact tokens.mandate
  case stream => exact tokens.stream
  case requestState => exact tokens.requestState
  case usageReport => exact tokens.usageReport
  case billingEvent => exact tokens.billingEvent

inductive AgentInstruction where
  | createAgentMandate (ctx : CreateAgentMandate)
  | agentPull (ctx : AgentPull)
  | adjustAgentMandate (ctx : AdjustAgentMandate)
  | pauseAgentMandate (ctx : AgentControl)
  | resumeAgentMandate (ctx : AgentControl)
  | drainAgentMandate (ctx : AgentExit)
  | revokeAgentMandate (ctx : AgentExit)

def executeAgent (P : Platform) (w : World) : AgentInstruction → Result World
  | .createAgentMandate ctx => createAgentMandate P w ctx
  | .agentPull ctx => agentPull P w ctx
  | .adjustAgentMandate ctx => adjustAgentMandate P w ctx
  | .pauseAgentMandate ctx => pauseAgentMandate P w ctx
  | .resumeAgentMandate ctx => resumeAgentMandate P w ctx
  | .drainAgentMandate ctx => drainAgentMandate P w ctx
  | .revokeAgentMandate ctx => revokeAgentMandate P w ctx

def AgentInstruction.mandate : AgentInstruction → Pubkey
  | .createAgentMandate ctx => ctx.agentMandate
  | .agentPull ctx => ctx.agentMandate
  | .adjustAgentMandate ctx => ctx.agentMandate
  | .pauseAgentMandate ctx => ctx.agentMandate
  | .resumeAgentMandate ctx => ctx.agentMandate
  | .drainAgentMandate ctx => ctx.agentMandate
  | .revokeAgentMandate ctx => ctx.agentMandate

inductive AgentChange (w : World) (before : AgentMandate) : AgentInstruction → AgentMandate → Prop
  | pulled (ctx : AgentPull) (receiver : TokenAccount) (after : AgentMandate)
      (receives : w.tokenAccount ctx.serviceWrappedAccount = some receiver)
      (active : before.status = .active)
      (spent : AgentSpent before receiver.owner ctx.amount w.clock.unixTimestamp after) :
      AgentChange w before (.agentPull ctx) after
  | adjusted (ctx : AdjustAgentMandate) (limited after : AgentMandate)
      (running : before.status ≠ .revoked) (limits : adjustLimits before ctx = .ok limited)
      (services : adjustServices limited w.clock.unixTimestamp ctx.services = .ok after) :
      AgentChange w before (.adjustAgentMandate ctx) after
  | paused (ctx : AgentControl) (active : before.status = .active) :
      AgentChange w before (.pauseAgentMandate ctx) (before.withStatus .paused)
  | resumed (ctx : AgentControl) (paused : before.status = .paused) :
      AgentChange w before (.resumeAgentMandate ctx) (before.withStatus .active)
  | drained (ctx : AgentExit) : AgentChange w before (.drainAgentMandate ctx) before
  | revoked (ctx : AgentExit) (running : before.status ≠ .revoked) :
      AgentChange w before (.revokeAgentMandate ctx) (before.withStatus .revoked)

structure AgentCalled (w : World) (i : AgentInstruction) (w' : World)
    (before after : AgentMandate) : Prop where
  found : w.agentMandateAt i.mandate = some before
  change : AgentChange w before i after
  stored : w'.agentMandateAt = Function.update w.agentMandateAt i.mandate (some after)
  frame : AgentFrame w w'

structure AgentOpened (w : World) (ctx : CreateAgentMandate) (w' : World) (m : AgentMandate) :
    Prop where
  vacant : Vacant w ctx.agentMandate
  count : ctx.services.length ≤ agentMandateMaxServices
  distinct : ctx.services.Pairwise fun a b => a.service ≠ b.service
  initial : ∃ bump, m = initialAgentMandate ctx w.clock.unixTimestamp bump
  stored : w'.agentMandateAt = Function.update w.agentMandateAt ctx.agentMandate (some m)
  frame : AgentFrame w w'

theorem createAgentMandate_eq_ok {ctx : CreateAgentMandate}
    (h : createAgentMandate P w ctx = .ok w') : ∃ m, AgentOpened w ctx w' m := by
  obtain ⟨config, _, h⟩ := bind_eq_ok.mp h
  obtain ⟨_, _, h⟩ := bind_eq_ok.mp h
  obtain ⟨_, _, h⟩ := bind_eq_ok.mp h
  obtain ⟨funded, opened, h⟩ := bind_eq_ok.mp h
  obtain ⟨_, h⟩ := require_bind_eq_ok.mp h
  obtain ⟨_, h⟩ := require_bind_eq_ok.mp h
  obtain ⟨_, _, h⟩ := bind_eq_ok.mp h
  obtain ⟨_, count, h⟩ := bind_eq_ok.mp h
  obtain ⟨_, h⟩ := require_bind_eq_ok.mp h
  obtain ⟨_, distinct, h⟩ := bind_eq_ok.mp h
  obtain ⟨_, refused, h⟩ := bind_eq_ok.mp h
  obtain ⟨deposited, paid, h⟩ := bind_eq_ok.mp h
  cases h
  have empty : w.dataIsEmpty ctx.agentMandate = true := by
    unfold refuseExisting at refused
    split at refused
    · rename_i empty
      exact empty
    · obtain ⟨_, _, refused⟩ := bind_eq_ok.mp refused
      cases refused
  have tokens := (createIdempotent_frame opened).1
  have coins := deposit_only paid
  have before : funded.agentMandateAt = w.agentMandateAt := by
    funext key
    rw [World.agentMandateAt, World.agentMandateAt, tokens.agentMandate]
  let m := initialAgentMandate ctx w.clock.unixTimestamp
    (P.findProgramAddress (.agentMandate ctx.authority ctx.agent)).2
  refine ⟨m, dataIsEmpty_vacant empty, require_eq_ok.mp count, require_eq_ok.mp distinct,
    ⟨_, rfl⟩, ?_, ?_⟩
  · have stored := coins.mandates
    rw [World.initializeAgentMandate, agentMandateAt_update, before] at stored
    exact stored
  · have created : AgentFrame funded (funded.initializeAgentMandate ctx.agentMandate m) := by
      constructor <;> rfl
    exact (tokens.agentFrame.trans (created.trans coins.frame)).emit _

theorem agentCalled_of {i : AgentInstruction} {authority agent : Pubkey}
    {loaded : LoadedAgentMandate}
    (load : loadAgentMandate P w i.mandate authority agent = .ok loaded)
    (change : AgentChange w loaded.intoCurrent i after)
    (layout : after.version = loaded.intoCurrent.version ∧
      after.reserved = loaded.intoCurrent.reserved)
    (coins : CoinsOnly w w₁)
    (written : w₁.writeAgentMandate i.mandate after loaded.isLegacy = .ok w') :
    AgentCalled w i w' loaded.intoCurrent after := by
  obtain ⟨found, _⟩ := loadAgentMandate_eq_ok load
  have spec := writeAgentMandate_eq_ok (fun legacy => by
    obtain ⟨version, reserved⟩ := LoadedAgentMandate.layout legacy
    exact ⟨layout.1.trans version, layout.2.trans reserved⟩) written
  refine ⟨found, change, ?_, coins.frame.trans spec.agentFrame⟩
  rw [spec.stored, coins.mandates]

theorem AgentCalled.emit {i : AgentInstruction} (called : AgentCalled w i w' before after)
    (e : LogEntry) : AgentCalled w i (w'.emit e) before after :=
  ⟨called.found, called.change, called.stored, called.frame.emit e⟩

theorem checkAgentActive_eq_ok {status : AgentMandateStatus} {u : Unit}
    (h : checkAgentActive status = .ok u) : status = .active := by
  cases status with
  | active => rfl
  | paused => cases h
  | revoked => cases h

theorem AgentMandate.spend_parties {m after : AgentMandate} {service : Pubkey} {amount : UInt64}
    {now : Int64} (h : m.spend service amount now = .ok after) :
    after.authority = m.authority ∧ after.agent = m.agent := by
  simp only [AgentMandate.spend, check, orVela, orError_bind_eq_ok, require_bind_eq_ok,
    pure_eq_ok, AgentMandate.resetService_daily] at h
  obtain ⟨_, _, _, _, _, _, _, _, _, _, _, _, _, _, _, rfl⟩ := h
  obtain ⟨spent, last, form⟩ := m.resetDailyIfNeeded_form now
  rw [form]
  exact ⟨rfl, rfl⟩

theorem agentPull_eq_ok {ctx : AgentPull} (h : agentPull P w ctx = .ok w') :
    ∃ before after, AgentCalled w (.agentPull ctx) w' before after := by
  obtain ⟨config, _, h⟩ := bind_eq_ok.mp h
  obtain ⟨_, _, h⟩ := bind_eq_ok.mp h
  obtain ⟨source, _, h⟩ := bind_eq_ok.mp h
  obtain ⟨receiver, receives, h⟩ := bind_eq_ok.mp h
  obtain ⟨_, h⟩ := require_bind_eq_ok.mp h
  obtain ⟨_, h⟩ := require_bind_eq_ok.mp h
  obtain ⟨_, h⟩ := require_bind_eq_ok.mp h
  obtain ⟨_, h⟩ := require_bind_eq_ok.mp h
  obtain ⟨_, h⟩ := require_bind_eq_ok.mp h
  obtain ⟨loaded, load, h⟩ := bind_eq_ok.mp h
  obtain ⟨_, active, h⟩ := bind_eq_ok.mp h
  obtain ⟨_, h⟩ := require_bind_eq_ok.mp h
  obtain ⟨_, h⟩ := require_bind_eq_ok.mp h
  obtain ⟨_, h⟩ := require_bind_eq_ok.mp h
  obtain ⟨spent, booked, h⟩ := bind_eq_ok.mp h
  obtain ⟨_, h⟩ := require_bind_eq_ok.mp h
  obtain ⟨paid, transferred, h⟩ := bind_eq_ok.mp h
  obtain ⟨written, wrote, h⟩ := bind_eq_ok.mp h
  cases h
  have spent_spec := AgentMandate.spend_eq_ok booked
  have change : AgentChange w loaded.intoCurrent (.agentPull ctx) spent :=
    .pulled ctx receiver spent (orError_eq_ok.mp receives) (checkAgentActive_eq_ok active)
      spent_spec
  exact ⟨_, _, (agentCalled_of (i := .agentPull ctx) load change
    ⟨spent_spec.version, spent_spec.reserved⟩ (payService_eq_ok transferred).toCoinsOnly
    wrote).emit _⟩

theorem openAgentMandate_eq_ok {ctx : AgentControl} {loaded : LoadedAgentMandate}
    (h : openAgentMandate P w ctx = .ok loaded) :
    loadAgentMandate P w ctx.agentMandate ctx.authority ctx.agent = .ok loaded := by
  obtain ⟨_, _, h⟩ := bind_eq_ok.mp h
  obtain ⟨opened, load, h⟩ := bind_eq_ok.mp h
  obtain ⟨_, h⟩ := require_bind_eq_ok.mp h
  cases h
  exact load

theorem pauseAgentMandate_eq_ok {ctx : AgentControl} (h : pauseAgentMandate P w ctx = .ok w') :
    ∃ before after, AgentCalled w (.pauseAgentMandate ctx) w' before after := by
  obtain ⟨loaded, opened, h⟩ := bind_eq_ok.mp h
  obtain ⟨active, h⟩ := require_bind_eq_ok.mp h
  obtain ⟨written, wrote, h⟩ := bind_eq_ok.mp h
  cases h
  exact ⟨_, _, (agentCalled_of (i := .pauseAgentMandate ctx) (openAgentMandate_eq_ok opened)
    (.paused ctx active) ⟨rfl, rfl⟩ ⟨.refl w, rfl⟩ wrote).emit _⟩

theorem resumeAgentMandate_eq_ok {ctx : AgentControl} (h : resumeAgentMandate P w ctx = .ok w') :
    ∃ before after, AgentCalled w (.resumeAgentMandate ctx) w' before after := by
  obtain ⟨loaded, opened, h⟩ := bind_eq_ok.mp h
  obtain ⟨paused, h⟩ := require_bind_eq_ok.mp h
  obtain ⟨written, wrote, h⟩ := bind_eq_ok.mp h
  cases h
  exact ⟨_, _, (agentCalled_of (i := .resumeAgentMandate ctx) (openAgentMandate_eq_ok opened)
    (.resumed ctx paused) ⟨rfl, rfl⟩ ⟨.refl w, rfl⟩ wrote).emit _⟩

theorem adjustLimits_eq_ok {ctx : AdjustAgentMandate}
    (h : adjustLimits before ctx = .ok after) :
    (∀ next ∈ ctx.dailyLimit, before.dailySpent ≤ next) ∧
      (∀ next ∈ ctx.lifetimeCap, before.totalSpent ≤ next) ∧
      after = { before with
        dailyLimit := ctx.dailyLimit.getD before.dailyLimit
        lifetimeCap := ctx.lifetimeCap.getD before.lifetimeCap
        minPullAmount := ctx.minPullAmount.getD before.minPullAmount
        minPullInterval := ctx.minPullInterval.getD before.minPullInterval } := by
  obtain ⟨daily, h⟩ := require_bind_eq_ok.mp h
  obtain ⟨lifetime, h⟩ := require_bind_eq_ok.mp h
  obtain ⟨_, h⟩ := require_bind_eq_ok.mp h
  exact ⟨daily, lifetime, (pure_eq_ok.mp h).symm⟩

structure ServicesReplaced (now : Int64) (old : List ServiceLimit)
    (inputs : List ServiceLimitInput) (new : List ServiceLimit) : Prop where
  count : inputs.length ≤ agentMandateMaxServices
  distinct : inputs.Pairwise fun a b => a.service ≠ b.service
  each : List.Forall₂ (fun input limit => adjustService old now input = .ok limit) inputs new

theorem adjustServices_eq_ok {now : Int64} {services : Option (List ServiceLimitInput)}
    (h : adjustServices before now services = .ok after) :
    services = none ∧ after = before ∨ ∃ inputs new, services = some inputs ∧
      ServicesReplaced now before.services inputs new ∧
      after = { before with services := new } := by
  cases services with
  | none =>
    cases h
    exact .inl ⟨rfl, rfl⟩
  | some inputs =>
    obtain ⟨_, count, h⟩ := bind_eq_ok.mp h
    obtain ⟨_, distinct, h⟩ := bind_eq_ok.mp h
    obtain ⟨new, mapped, h⟩ := bind_eq_ok.mp h
    cases h
    exact .inr ⟨inputs, new, rfl, ⟨require_eq_ok.mp count, require_eq_ok.mp distinct,
      mapM_eq_ok mapped⟩, rfl⟩

theorem adjustAgentMandate_eq_ok {ctx : AdjustAgentMandate}
    (h : adjustAgentMandate P w ctx = .ok w') :
    ∃ before after, AgentCalled w (.adjustAgentMandate ctx) w' before after := by
  obtain ⟨config, _, h⟩ := bind_eq_ok.mp h
  obtain ⟨token, _, h⟩ := bind_eq_ok.mp h
  obtain ⟨_, h⟩ := require_bind_eq_ok.mp h
  obtain ⟨_, h⟩ := require_bind_eq_ok.mp h
  obtain ⟨loaded, opened, h⟩ := bind_eq_ok.mp h
  obtain ⟨running, h⟩ := require_bind_eq_ok.mp h
  obtain ⟨limited, limits, h⟩ := bind_eq_ok.mp h
  obtain ⟨adjusted, services, h⟩ := bind_eq_ok.mp h
  obtain ⟨written, wrote, h⟩ := bind_eq_ok.mp h
  cases h
  obtain ⟨_, _, form⟩ := adjustLimits_eq_ok limits
  have layout : adjusted.version = loaded.intoCurrent.version ∧
      adjusted.reserved = loaded.intoCurrent.reserved := by
    rcases adjustServices_eq_ok services with ⟨_, same⟩ | ⟨_, _, _, _, same⟩
    · rw [same, form]
      exact ⟨rfl, rfl⟩
    · rw [same, form]
      exact ⟨rfl, rfl⟩
  exact ⟨_, _, (agentCalled_of (i := .adjustAgentMandate ctx) (openAgentMandate_eq_ok opened)
    (.adjusted ctx limited adjusted running limits services) layout ⟨.refl w, rfl⟩ wrote).emit _⟩

theorem drainAgentMandate_eq_ok {ctx : AgentExit} (h : drainAgentMandate P w ctx = .ok w') :
    ∃ before after, AgentCalled w (.drainAgentMandate ctx) w' before after := by
  obtain ⟨amount, _, h⟩ := bind_eq_ok.mp h
  obtain ⟨loaded, opened, h⟩ := bind_eq_ok.mp h
  obtain ⟨drained, returned, h⟩ := bind_eq_ok.mp h
  cases h
  have found := (loadAgentMandate_eq_ok (openAgentMandate_eq_ok opened)).1
  have coins := returnFunds_only returned
  refine ⟨loaded.intoCurrent, loaded.intoCurrent, found, .drained ctx, ?_, coins.frame.emit _⟩
  have unchanged : w.agentMandateAt =
      Function.update w.agentMandateAt ctx.agentMandate (some loaded.intoCurrent) := by
    rw [← found, Function.update_eq_self]
  exact coins.mandates.trans unchanged

theorem revokeAgentMandate_eq_ok {ctx : AgentExit} (h : revokeAgentMandate P w ctx = .ok w') :
    ∃ before after, AgentCalled w (.revokeAgentMandate ctx) w' before after := by
  obtain ⟨amount, _, h⟩ := bind_eq_ok.mp h
  obtain ⟨loaded, opened, h⟩ := bind_eq_ok.mp h
  obtain ⟨running, h⟩ := require_bind_eq_ok.mp h
  obtain ⟨drained, returned, h⟩ := bind_eq_ok.mp h
  obtain ⟨written, wrote, h⟩ := bind_eq_ok.mp h
  cases h
  exact ⟨_, _, (agentCalled_of (i := .revokeAgentMandate ctx) (openAgentMandate_eq_ok opened)
    (.revoked ctx running) ⟨rfl, rfl⟩ (returnFunds_only returned) wrote).emit _⟩

theorem agent_called {i : AgentInstruction} (notCreated : ∀ ctx, i ≠ .createAgentMandate ctx)
    (h : executeAgent P w i = .ok w') : ∃ before after, AgentCalled w i w' before after := by
  cases i with
  | createAgentMandate ctx => exact absurd rfl (notCreated ctx)
  | agentPull ctx => exact agentPull_eq_ok h
  | adjustAgentMandate ctx => exact adjustAgentMandate_eq_ok h
  | pauseAgentMandate ctx => exact pauseAgentMandate_eq_ok h
  | resumeAgentMandate ctx => exact resumeAgentMandate_eq_ok h
  | drainAgentMandate ctx => exact drainAgentMandate_eq_ok h
  | revokeAgentMandate ctx => exact revokeAgentMandate_eq_ok h

theorem agent_frame {i : AgentInstruction} (h : executeAgent P w i = .ok w') : AgentFrame w w' := by
  by_cases created : ∃ ctx, i = .createAgentMandate ctx
  · obtain ⟨ctx, rfl⟩ := created
    obtain ⟨_, spec⟩ := createAgentMandate_eq_ok h
    exact spec.frame
  · obtain ⟨_, _, spec⟩ := agent_called (fun ctx same => created ⟨ctx, same⟩) h
    exact spec.frame

structure AgentEnvironment (w w' : World) : Prop where
  clock : w.clock.unixTimestamp ≤ w'.clock.unixTimestamp
  agentMandate : w'.agentMandate = w.agentMandate

inductive AgentAction where
  | instruction (i : AgentInstruction)
  | tick (clock : Clock)
  | environment

def AgentStep (P : Platform) (w : World) (a : AgentAction) (w' : World) : Prop :=
  match a with
  | .instruction i => executeAgent P w i = .ok w'
  | .tick clock => w.clock.unixTimestamp ≤ clock.unixTimestamp ∧ w' = { w with clock := clock }
  | .environment => AgentEnvironment w w'

def AgentAction.call (k : Pubkey) : AgentAction → Option AgentInstruction
  | .instruction i => if i.mandate = k then some i else none
  | _ => none

/-- What a step does to the mandate at `k`, by the call it makes. -/
inductive AgentStepAt (k : Pubkey) (w w' : World) : Option AgentInstruction → Prop
  | apart (clock : w.clock.unixTimestamp ≤ w'.clock.unixTimestamp)
      (same : w'.agentMandateAt k = w.agentMandateAt k) : AgentStepAt k w w' none
  | opened (ctx : CreateAgentMandate) (m : AgentMandate) (key : ctx.agentMandate = k)
      (spec : AgentOpened w ctx w' m) : AgentStepAt k w w' (some (.createAgentMandate ctx))
  | called (i : AgentInstruction) (before after : AgentMandate) (key : i.mandate = k)
      (spec : AgentCalled w i w' before after) : AgentStepAt k w w' (some i)

theorem AgentFrame.later (frame : AgentFrame w w') :
    w.clock.unixTimestamp ≤ w'.clock.unixTimestamp := by
  rw [frame.clock]
  exact Int64.le_refl _

theorem agentStepAt {a : AgentAction} (k : Pubkey) (step : AgentStep P w a w') :
    AgentStepAt k w w' (a.call k) := by
  cases a with
  | instruction i =>
    by_cases created : ∃ ctx, i = .createAgentMandate ctx
    · obtain ⟨ctx, rfl⟩ := created
      obtain ⟨m, spec⟩ := createAgentMandate_eq_ok step
      by_cases key : (AgentInstruction.createAgentMandate ctx).mandate = k
      · rw [AgentAction.call, if_pos key]
        exact .opened ctx m key spec
      · rw [AgentAction.call, if_neg key]
        have other : k ≠ ctx.agentMandate := Ne.symm key
        refine .apart spec.frame.later ?_
        rw [spec.stored, Function.update_of_ne other]
    · obtain ⟨before, after, spec⟩ := agent_called (fun ctx same => created ⟨ctx, same⟩) step
      by_cases key : i.mandate = k
      · rw [AgentAction.call, if_pos key]
        exact .called i before after key spec
      · rw [AgentAction.call, if_neg key]
        refine .apart spec.frame.later ?_
        rw [spec.stored, Function.update_of_ne (Ne.symm key)]
  | tick clock =>
    obtain ⟨later, rfl⟩ := step
    exact .apart later rfl
  | environment =>
    refine .apart step.clock ?_
    rw [World.agentMandateAt, World.agentMandateAt, step.agentMandate]

end VelaProtocol
