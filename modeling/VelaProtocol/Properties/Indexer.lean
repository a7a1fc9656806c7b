import VelaProtocol.Deployment.Protocol
import VelaProtocol.Entries
import VelaProtocol.Lib.Replay
import VelaProtocol.Properties.Streams

/-! What can be told from the events alone: replaying those of a stream or of an agent mandate
gives its parties, its terms, its totals and its status, after any history of the program. -/
namespace VelaProtocol

open Guard Monitored Replay

variable {P : Platform} {w w₁ w' : World} {k key : Pubkey}

abbrev History (P : Platform) : World → World → Prop :=
  Relation.ReflTransGen fun w w' => ∃ a, ProtocolStep P w a w'

/-- What the events say about a stream. The last settlement is not among it: inside the minimum
interval an exit does not settle, and its event does not tell. -/
structure StreamView where
  subscriber : Pubkey
  merchant : Pubkey
  mint : Pubkey
  ratePerSecond : UInt64
  authorizedMaxRate : UInt64
  maxStreamed : Option UInt64
  minSettleInterval : UInt32
  totalStreamed : UInt64
  status : StreamStatus
  pausedAt : Option Int64
  deriving DecidableEq

def StreamMandate.view (s : StreamMandate) : StreamView where
  subscriber := s.subscriber
  merchant := s.merchant
  mint := s.mint
  ratePerSecond := s.ratePerSecond
  authorizedMaxRate := s.authorizedMaxRate
  maxStreamed := s.maxStreamed
  minSettleInterval := s.minSettleInterval
  totalStreamed := s.totalStreamed
  status := s.status
  pausedAt := s.pausedAt

def StreamCreated.view (e : StreamCreated) : StreamView where
  subscriber := e.subscriber
  merchant := e.merchant
  mint := e.mint
  ratePerSecond := e.ratePerSecond
  authorizedMaxRate := e.authorizedMaxRate
  maxStreamed := e.maxStreamed
  minSettleInterval := e.minSettleInterval
  totalStreamed := 0
  status := .active
  pausedAt := none

def StreamEvent.mandate : StreamEvent → Pubkey
  | .created e => e.mandate
  | .settled e => e.mandate
  | .paused e => e.mandate
  | .resumed e => e.mandate
  | .rateUpdated e => e.mandate
  | .cancelled e => e.mandate

def StreamView.follow (v : StreamView) : StreamEvent → StreamView
  | .created e => e.view
  | .settled e => { v with totalStreamed := e.totalStreamedAfter }
  | .paused e =>
    { v with
      totalStreamed := v.totalStreamed + e.finalSettleAmount
      status := .paused
      pausedAt := some e.pausedAt }
  | .resumed _ => { v with status := .active, pausedAt := none }
  | .rateUpdated e =>
    { v with
      ratePerSecond := e.newRatePerSecond
      authorizedMaxRate := e.newAuthorizedMaxRate
      totalStreamed := v.totalStreamed + e.finalSettleAmount }
  | .cancelled e =>
    { v with totalStreamed := e.totalStreamedFinal, status := .cancelled, pausedAt := none }

def followStream : Option StreamView → StreamEvent → Option StreamView
  | _, .created e => some e.view
  | v, e => v.map fun known => known.follow e

def LogEntry.streamEvent (k : Pubkey) : LogEntry → Option StreamEvent
  | .stream e => if e.mandate = k then some e else none
  | _ => none

def streamJournal (k : Pubkey) : Journal World StreamEvent (Option StreamView) :=
  .select World.log (LogEntry.streamEvent k) (fun w => (w.stream k).map StreamMandate.view)
    followStream

theorem streamEvent_blind {e : LogEntry} (other : e.kind ≠ .stream) : e.streamEvent k = none := by
  cases e with
  | stream e => exact absurd rfl other
  | _ => rfl

theorem Logs.stream_quiet {kinds : List LogKind} (logs : Logs kinds w w')
    (silent : LogKind.stream ∉ kinds) (same : w'.stream = w.stream) :
    (streamJournal k).Records w w' := by
  obtain ⟨new, log, known⟩ := logs
  refine .untold log (fun e member => streamEvent_blind fun kind => ?_) (by rw [same])
  exact silent (kind ▸ known e member)

theorem streamJournal_told {e : StreamEvent} {after : StreamMandate}
    (stream : w'.stream = Function.update w.stream e.mandate (some after))
    (log : w'.log = .stream e :: w.log)
    (tells : followStream ((w.stream e.mandate).map StreamMandate.view) e = some after.view) :
    (streamJournal k).Records w w' := by
  by_cases same : e.mandate = k
  · subst same
    refine .told log (if_pos rfl) ?_
    rw [stream, Function.update_self, Option.map_some, tells]
  · refine .untold (show w'.log = [.stream e] ++ w.log from log) ?_ ?_
    · exact fun l member => List.mem_singleton.mp member ▸ if_neg same
    · rw [stream, Function.update_of_ne (Ne.symm same)]

theorem streamJournal_silent {s after : StreamMandate} (found : w.stream key = some s)
    (stream : w'.stream = Function.update w.stream key (some after)) (log : w'.log = w.log)
    (view : after.view = s.view) : (streamJournal k).Records w w' := by
  refine .untold (show w'.log = [] ++ w.log from log)
    (fun _ member => absurd member List.not_mem_nil) ?_
  by_cases same : k = key
  · rw [stream, same, Function.update_self, found, Option.map_some, Option.map_some, view]
  · rw [stream, Function.update_of_ne same]

theorem Settling.view {s mid : StreamMandate} {now : Int64} {amount : UInt64}
    (settling : Settling s now amount mid) :
    mid.view = { s.view with totalStreamed := s.view.totalStreamed + amount } := by
  have total : mid.totalStreamed = s.totalStreamed + amount := by
    refine UInt64.toNat_inj.mp ?_
    rw [settling.total, UInt64.toNat_add, Nat.mod_eq_of_lt]
    exact settling.total ▸ Checked.toNat_lt mid.totalStreamed
  obtain ⟨booked, last, form⟩ := settling.form
  subst form
  rw [StreamMandate.view, StreamMandate.view, ← total]
  rfl

theorem createStreamMandate_told {ctx : CreateStreamMandate} :
    Ensures (createStreamMandate P w ctx) ((streamJournal k).Records w) := by
  intro w' h
  simp only [createStreamMandate, check, orVela, bind_eq_ok, orError_eq_ok, require_eq_ok,
    pure_eq_ok, exists_const] at h
  obtain ⟨state, _, _, config, _, _, _, _, _, _, _, _, _, _, counter, _, rfl⟩ := h
  exact streamJournal_told rfl rfl rfl

theorem Settling.view_total {s mid : StreamMandate} {now : Int64} {amount : UInt64}
    (settling : Settling s now amount mid) :
    { s.view with totalStreamed := mid.totalStreamed } = mid.view := by
  have total : mid.totalStreamed = s.view.totalStreamed + amount :=
    congrArg StreamView.totalStreamed settling.view
  rw [total, settling.view]

theorem invokeStreamTransfer_quiet {accounts : StreamTransferAccounts} {merchant : Pubkey}
    {amount : UInt64} {seeds : Seeds} {bump : UInt8} :
    Ensures (invokeStreamTransfer P w accounts key merchant amount seeds bump) fun paid =>
      (streamJournal k).Records w paid ∧ paid.stream = w.stream := by
  intro paid invoked
  have same := (invokeStreamTransfer_paid invoked).frame.stream
  exact ⟨(invokeStreamTransfer_logs paid invoked).stream_quiet (by decide) same, same⟩

theorem payStream_quiet {accounts : StreamTransferAccounts} {s : StreamMandate}
    {amount : UInt64} :
    Ensures (payStream P w accounts key s amount) fun paid =>
      (streamJournal k).Records w paid ∧ paid.stream = w.stream :=
  .ite (fun _ => invokeStreamTransfer_quiet) fun _ => .of_pure ⟨.refl w, rfl⟩

theorem executeStream_told {ctx : ExecuteStream} :
    Ensures (executeStream P w ctx) ((streamJournal k).Records w) := by
  intro w' h
  simp only [executeStream, validateStreamMandateAddress, check, bind_eq_ok, require_eq_ok,
    exists_const] at h
  obtain ⟨_, _, _, _, s, loaded, config, _, _, _, _, _, _, _, ⟨after, amount⟩, settled, h⟩ := h
  have found := loadStreamMandate_eq_ok loaded
  have settling := Settling.of_settled settled
  split at h
  · rename_i zero
    cases h
    have zero : amount = 0 := zero
    refine streamJournal_silent found rfl rfl ?_
    rw [settling.view, zero]
    exact congrArg (fun total => { s.view with totalStreamed := total }) (UInt64.add_zero _)
  · simp only [bind_eq_ok, pure_eq_ok] at h
    obtain ⟨paid, invoked, rfl⟩ := h
    obtain ⟨quiet, same⟩ := invokeStreamTransfer_quiet paid invoked
    refine quiet.trans (streamJournal_told rfl rfl ?_)
    rw [same]
    change followStream ((w.stream ctx.streamMandate).map StreamMandate.view) _ = _
    rw [found]
    exact congrArg some settling.view_total

theorem pauseStream_told {ctx : StreamControl} :
    Ensures (pauseStream P w ctx) ((streamJournal k).Records w) := by
  intro w' h
  simp only [pauseStream, check, bind_eq_ok, require_eq_ok, pure_eq_ok, exists_const] at h
  obtain ⟨⟨config, s⟩, opened, _, notPaused, notCancelled, ⟨after, amount⟩, settled, paid, payment,
    rfl⟩ := h
  obtain ⟨found, _, _⟩ := openStream_eq_ok opened
  have active : s.status = .active := by
    cases status : s.status with
    | active => rfl
    | paused => exact absurd status notPaused
    | cancelled => exact absurd status notCancelled
  have settling := (settleBeforePause_eq_ok active settled).settling
  obtain ⟨quiet, same⟩ := payStream_quiet paid payment
  refine quiet.trans (streamJournal_told rfl rfl ?_)
  change followStream ((paid.stream ctx.mandate).map StreamMandate.view) _ = _
  rw [same, found]
  have view := settling.view
  exact congrArg some (congrArg (fun v : StreamView =>
    { v with status := .paused, pausedAt := some w.clock.unixTimestamp }) view.symm)

theorem resumeStream_told {ctx : ResumeStream} :
    Ensures (resumeStream P w ctx) ((streamJournal k).Records w) := by
  intro w' h
  simp only [resumeStream, validateStreamMandateAddress, check, orVela, bind_eq_ok, orError_eq_ok,
    require_eq_ok, pure_eq_ok, exists_const] at h
  obtain ⟨s, loaded, _, _, _, _, pausedAt, _, duration, _, _, rfl⟩ := h
  refine streamJournal_told rfl rfl ?_
  change followStream ((w.stream ctx.mandate).map StreamMandate.view) _ = _
  rw [loadStreamMandate_eq_ok loaded]
  rfl

theorem cancelStream_told {ctx : StreamControl} :
    Ensures (cancelStream P w ctx) ((streamJournal k).Records w) := by
  intro w' h
  simp only [cancelStream, check, bind_eq_ok, require_eq_ok, pure_eq_ok, exists_const] at h
  obtain ⟨⟨config, s⟩, opened, _, _, ⟨after, amount⟩, settled, paid, payment, rfl⟩ := h
  obtain ⟨found, _, _⟩ := openStream_eq_ok opened
  have settling := (settleBeforeCancel_eq_ok settled).settling
  obtain ⟨quiet, same⟩ := payStream_quiet paid payment
  refine quiet.trans (streamJournal_told rfl rfl ?_)
  change followStream ((paid.stream ctx.mandate).map StreamMandate.view) _ = _
  rw [same, found]
  exact congrArg some (congrArg (fun v : StreamView =>
    { v with status := .cancelled, pausedAt := none }) settling.view_total)

theorem updateStreamRate_told {ctx : UpdateStreamRate} :
    Ensures (updateStreamRate P w ctx) ((streamJournal k).Records w) := by
  intro w' h
  simp only [updateStreamRate, check, orVela, bind_eq_ok, orError_eq_ok, require_eq_ok, pure_eq_ok,
    exists_const] at h
  obtain ⟨⟨config, s⟩, opened, _, _, _, _, _, ⟨after, amount⟩, settled, paid, payment, _,
    proration, _, rfl⟩ := h
  obtain ⟨found, _, _⟩ := openStream_eq_ok opened
  have settling := Settling.of_settled settled
  obtain ⟨quiet, same⟩ := payStream_quiet paid payment
  -- the two entries around the event are plan changes to the log, and no events of the stream
  have around (u : World) (e : LogEntry) (kind : e.kind = .change) :
      (streamJournal k).Records u (u.emit e) := by
    have logs : Logs [.change] u (u.emit e) := .entry rfl (kind ▸ List.mem_cons_self)
    exact logs.stream_quiet (by decide) rfl
  have initiated := around paid (.mandateUpgradeInitiated (rateUpgradeInitiated ctx
    (after.setRate ctx.newRate ctx.newAuthorizedMaxRate) config.wrappedUsdcMint proration
    w.clock.unixTimestamp)) rfl
  refine quiet.trans (initiated.trans (.trans ?_ (around _ (.mandateUpgradeFinalized _) rfl)))
  refine streamJournal_told rfl rfl ?_
  change followStream ((paid.stream ctx.mandate).map StreamMandate.view) _ = _
  rw [same, found]
  exact congrArg some (congrArg (fun v : StreamView =>
    { v with
      ratePerSecond := ctx.newRate.getD after.ratePerSecond
      authorizedMaxRate := ctx.newAuthorizedMaxRate.getD after.authorizedMaxRate })
    settling.view.symm)

theorem streaming_told {i : StreamInstruction} :
    Ensures (executeStreaming P w i) ((streamJournal k).Records w) := by
  cases i with
  | createStreamMandate ctx => exact createStreamMandate_told
  | executeStream ctx => exact executeStream_told
  | pauseStream ctx => exact pauseStream_told
  | resumeStream ctx => exact resumeStream_told
  | updateStreamRate ctx => exact updateStreamRate_told
  | cancelStream ctx => exact cancelStream_told

theorem stream_told {a : ProtocolAction} (step : ProtocolStep P w a w') :
    (streamJournal k).Records w w' := by
  cases a with
  | instruction i =>
    cases i with
    | billing i =>
      exact (billing_logs w' step).stream_quiet (by decide) (billing_flow step).1.stream
    | streaming i => exact streaming_told w' step
    | agent i => exact (agent_logs w' step).stream_quiet (by decide) (agent_frame step).stream
    | config i =>
      exact (configure_logs w' step).stream_quiet (by decide)
        (configure_keeps (k := Pubkey.default) w' step).1.stream
    | wrap ctx =>
      have logs : Logs [] w w' := .of_log (wrap_log w' step)
      exact logs.stream_quiet (by decide) (wrap_only step).frame.stream
    | unwrapTokens ctx =>
      have logs : Logs [] w w' := .of_log (unwrapTokens_log w' step)
      exact logs.stream_quiet (by decide) (unwrapTokens_only step).frame.stream
  | tick clock =>
    obtain ⟨_, rfl⟩ := step
    exact .quiet rfl rfl
  | outside =>
    have logs : Logs [] w w' := .of_log step.log
    exact logs.stream_quiet (by decide) step.stream

/-- Whatever happens, replaying the events about a stream from the start gives what is stored. -/
theorem stream_replayed (unknown : w.stream k = none)
    (unspoken : ∀ e ∈ w.log, e.streamEvent k = none) (history : History P w w') :
    (w'.stream k).map StreamMandate.view =
      replay followStream none (w'.log.filterMap (LogEntry.streamEvent k)) := by
  have start : (streamJournal k).Complete none w := by
    change (w.stream k).map StreamMandate.view =
      replay followStream none (w.log.filterMap (LogEntry.streamEvent k))
    rw [unknown, List.filterMap_eq_nil_iff.mpr unspoken]
    rfl
  refine start.run ?_ history
  rintro s s' ⟨a, step⟩
  exact stream_told step

open Deployment in
theorem stream_replayed_cancelled : ∃ w' s,
    History platform (streamWorld 0 100000) w' ∧ w'.stream stream = some s ∧
      s.status = .cancelled ∧ 0 < s.totalStreamed ∧
      some s.view = replay followStream none (w'.log.filterMap (LogEntry.streamEvent stream)) := by
  have played : (play (applyProtocol platform) watchSeeds Plain (streamWorld 0 100000, [])
      [offerStream, ofStreaming (tickStream 100), ofStreaming settleStream,
        ofStreaming (tickStream 200), ofStreaming (raiseBy merchant 20),
        ofStreaming (tickStream 300), ofStreaming (pauseBy subscriber),
        ofStreaming (tickStream 400), ofStreaming (resumeBy merchant),
        ofStreaming (tickStream 500), cancelStreamBySubscriber]).any (fun x =>
          (x.1.stream stream).any (fun s =>
            decide (s.status = .cancelled) && decide (0 < s.totalStreamed))) = true := by
    decide +kernel
  simp only [Option.any_eq_true, Bool.and_eq_true, decide_eq_true_eq] at played
  obtain ⟨⟨w', opened⟩, script, s, found, cancelled, positive⟩ := played
  have history : History platform (streamWorld 0 100000) w' := (protocol_script script).forget
  have replayed := stream_replayed (k := stream) rfl
    (fun _ member => absurd member List.not_mem_nil) history
  rw [found] at replayed
  exact ⟨w', s, history, found, cancelled, positive, replayed⟩

/-- What the events say about an agent mandate. Its services are only counted there. -/
structure AgentView where
  authority : Pubkey
  agent : Pubkey
  dailyLimit : UInt64
  lifetimeCap : UInt64
  dailySpent : UInt64
  totalSpent : UInt64
  status : AgentMandateStatus
  deriving DecidableEq

def AgentMandate.view (m : AgentMandate) : AgentView where
  authority := m.authority
  agent := m.agent
  dailyLimit := m.dailyLimit
  lifetimeCap := m.lifetimeCap
  dailySpent := m.dailySpent
  totalSpent := m.totalSpent
  status := m.status

def AgentMandateCreated.view (e : AgentMandateCreated) : AgentView where
  authority := e.authority
  agent := e.agent
  dailyLimit := e.dailyLimit
  lifetimeCap := e.lifetimeCap
  dailySpent := 0
  totalSpent := 0
  status := .active

def AgentEvent.mandate : AgentEvent → Pubkey
  | .created e => e.mandate
  | .pullExecuted e => e.mandate
  | .adjusted e => e.mandate
  | .paused e => e.mandate
  | .resumed e => e.mandate
  | .drained e => e.mandate
  | .revoked e => e.mandate

def AgentView.follow (v : AgentView) : AgentEvent → AgentView
  | .created e => e.view
  | .pullExecuted e => { v with dailySpent := e.dailySpent, totalSpent := e.totalSpent }
  | .adjusted e => { v with dailyLimit := e.dailyLimit, lifetimeCap := e.lifetimeCap }
  | .paused _ => { v with status := .paused }
  | .resumed _ => { v with status := .active }
  | .drained _ => v
  | .revoked _ => { v with status := .revoked }

def followAgent : Option AgentView → AgentEvent → Option AgentView
  | _, .created e => some e.view
  | v, e => v.map fun known => known.follow e

def LogEntry.agentEvent (k : Pubkey) : LogEntry → Option AgentEvent
  | .agent e => if e.mandate = k then some e else none
  | _ => none

def agentJournal (k : Pubkey) : Journal World AgentEvent (Option AgentView) :=
  .select World.log (LogEntry.agentEvent k) (fun w => (w.agentMandateAt k).map AgentMandate.view)
    followAgent

theorem agentEvent_blind {e : LogEntry} (other : e.kind ≠ .agent) : e.agentEvent k = none := by
  cases e with
  | agent e => exact absurd rfl other
  | _ => rfl

theorem Logs.agent_quiet {kinds : List LogKind} (logs : Logs kinds w w')
    (silent : LogKind.agent ∉ kinds) (same : w'.agentMandate = w.agentMandate) :
    (agentJournal k).Records w w' := by
  obtain ⟨new, log, known⟩ := logs
  refine .untold log (fun e member => agentEvent_blind fun kind => ?_) ?_
  · exact silent (kind ▸ known e member)
  · rw [World.agentMandateAt, World.agentMandateAt, same]

theorem agentJournal_told (key : Pubkey) {e : AgentEvent} {after : AgentMandate}
    (about : e.mandate = key)
    (stored : w'.agentMandateAt = Function.update w.agentMandateAt key (some after))
    (logs : Logs [.tokens] w w₁) (log : w'.log = .agent e :: w₁.log)
    (tells : followAgent ((w.agentMandateAt key).map AgentMandate.view) e = some after.view) :
    (agentJournal k).Records w w' := by
  subst about
  obtain ⟨new, before, known⟩ := logs
  have blind : ∀ l ∈ new, l.agentEvent k = none := fun l member => agentEvent_blind fun kind =>
    absurd (kind ▸ known l member) (by decide)
  by_cases same : e.mandate = k
  · subst same
    have quiet : (agentJournal e.mandate).Records w { w with log := w₁.log } :=
      .untold before blind rfl
    refine quiet.trans (.told log (if_pos rfl) ?_)
    rw [stored, Function.update_self, Option.map_some]
    exact tells.symm
  · have both : w'.log = (.agent e :: new) ++ w.log := by rw [log, before, List.cons_append]
    refine .untold both ?_ ?_
    · intro l member
      rcases List.mem_cons.mp member with rfl | older
      · exact if_neg same
      · exact blind l older
    · rw [stored, Function.update_of_ne (Ne.symm same)]

theorem agentJournal_called {i : AgentInstruction} {before after : AgentMandate} {e : AgentEvent}
    (called : AgentCalled w i w' before after) (about : e.mandate = i.mandate)
    (logs : Logs [.tokens] w w₁) (log : w'.log = .agent e :: w₁.log)
    (tells : before.view.follow e = after.view) (known : ∀ c, e ≠ .created c) :
    (agentJournal k).Records w w' := by
  refine agentJournal_told i.mandate about called.stored logs log ?_
  rw [called.found, ← tells]
  cases e with
  | created c => exact absurd rfl (known c)
  | _ => rfl

theorem createAgentMandate_told {ctx : CreateAgentMandate} :
    Ensures (createAgentMandate P w ctx) ((agentJournal k).Records w) := by
  intro w' h
  obtain ⟨m, opened⟩ := createAgentMandate_eq_ok h
  obtain ⟨bump, initial⟩ := opened.initial
  obtain ⟨config, _, h⟩ := bind_eq_ok.mp h
  obtain ⟨_, _, h⟩ := bind_eq_ok.mp h
  obtain ⟨_, _, h⟩ := bind_eq_ok.mp h
  obtain ⟨funded, created, h⟩ := bind_eq_ok.mp h
  iterate 7 obtain ⟨_, _, h⟩ := bind_eq_ok.mp h
  obtain ⟨deposited, paid, h⟩ := bind_eq_ok.mp h
  cases h
  have log : deposited.log = w.log := (deposit_log _ paid).trans (createIdempotent_frame created).2
  refine agentJournal_told ctx.agentMandate rfl opened.stored (.of_log log) rfl ?_
  rw [initial]
  rfl

theorem agentPull_told {ctx : AgentPull} :
    Ensures (agentPull P w ctx) ((agentJournal k).Records w) := by
  intro w' h
  obtain ⟨config, _, h⟩ := bind_eq_ok.mp h
  obtain ⟨_, _, h⟩ := bind_eq_ok.mp h
  obtain ⟨source, _, h⟩ := bind_eq_ok.mp h
  obtain ⟨receiver, receives, h⟩ := bind_eq_ok.mp h
  iterate 5 obtain ⟨_, _, h⟩ := bind_eq_ok.mp h
  obtain ⟨loaded, load, h⟩ := bind_eq_ok.mp h
  obtain ⟨_, active, h⟩ := bind_eq_ok.mp h
  iterate 3 obtain ⟨_, _, h⟩ := bind_eq_ok.mp h
  obtain ⟨spent, booked, h⟩ := bind_eq_ok.mp h
  obtain ⟨_, _, h⟩ := bind_eq_ok.mp h
  obtain ⟨paid, transferred, h⟩ := bind_eq_ok.mp h
  obtain ⟨written, wrote, h⟩ := bind_eq_ok.mp h
  cases h
  have spec := AgentMandate.spend_eq_ok booked
  have change : AgentChange w loaded.intoCurrent (.agentPull ctx) spent :=
    .pulled ctx receiver spent (orError_eq_ok.mp receives) (checkAgentActive_eq_ok active) spec
  have called := (agentCalled_of (i := .agentPull ctx) load change ⟨spec.version, spec.reserved⟩
    (payService_eq_ok transferred).toCoinsOnly wrote).emit
    (.agent (.pullExecuted (agentPullExecuted ctx receiver.owner spent
      (written.tokenAmount ctx.mandateWrappedAccount))))
  have logs := (payService_logs _ transferred).trans (.of_log (writeAgentMandate_log _ wrote))
  refine agentJournal_called called rfl logs rfl ?_ fun _ created => by cases created
  obtain ⟨authority, agent⟩ := AgentMandate.spend_parties booked
  simp only [AgentView.follow, AgentMandate.view, agentPullExecuted, authority, agent,
    spec.dailyLimit, spec.lifetimeCap, spec.status]

theorem pauseAgentMandate_told {ctx : AgentControl} :
    Ensures (pauseAgentMandate P w ctx) ((agentJournal k).Records w) := by
  intro w' h
  obtain ⟨loaded, opened, h⟩ := bind_eq_ok.mp h
  obtain ⟨active, h⟩ := require_bind_eq_ok.mp h
  obtain ⟨written, wrote, h⟩ := bind_eq_ok.mp h
  cases h
  have called := agentCalled_of (i := .pauseAgentMandate ctx) (openAgentMandate_eq_ok opened)
    (.paused ctx active) ⟨rfl, rfl⟩ ⟨.refl w, rfl⟩ wrote
  exact agentJournal_called (called.emit _) rfl (.of_log (writeAgentMandate_log _ wrote)) rfl rfl
    fun _ created => by cases created

theorem resumeAgentMandate_told {ctx : AgentControl} :
    Ensures (resumeAgentMandate P w ctx) ((agentJournal k).Records w) := by
  intro w' h
  obtain ⟨loaded, opened, h⟩ := bind_eq_ok.mp h
  obtain ⟨paused, h⟩ := require_bind_eq_ok.mp h
  obtain ⟨written, wrote, h⟩ := bind_eq_ok.mp h
  cases h
  have called := agentCalled_of (i := .resumeAgentMandate ctx) (openAgentMandate_eq_ok opened)
    (.resumed ctx paused) ⟨rfl, rfl⟩ ⟨.refl w, rfl⟩ wrote
  exact agentJournal_called (called.emit _) rfl (.of_log (writeAgentMandate_log _ wrote)) rfl rfl
    fun _ created => by cases created

theorem adjustAgentMandate_told {ctx : AdjustAgentMandate} :
    Ensures (adjustAgentMandate P w ctx) ((agentJournal k).Records w) := by
  intro w' h
  obtain ⟨config, _, h⟩ := bind_eq_ok.mp h
  obtain ⟨token, _, h⟩ := bind_eq_ok.mp h
  obtain ⟨_, h⟩ := require_bind_eq_ok.mp h
  obtain ⟨_, h⟩ := require_bind_eq_ok.mp h
  obtain ⟨loaded, opened, h⟩ := bind_eq_ok.mp h
  obtain ⟨running, h⟩ := require_bind_eq_ok.mp h
  obtain ⟨limited, limits, h⟩ := bind_eq_ok.mp h
  obtain ⟨adjusted, services, h⟩ := bind_eq_ok.mp h
  obtain ⟨written, wrote, h⟩ := bind_eq_ok.mp h
  cases h
  obtain ⟨_, _, form⟩ := adjustLimits_eq_ok limits
  have replaced : ∃ next, adjusted = { limited with services := next } := by
    rcases adjustServices_eq_ok services with ⟨_, same⟩ | ⟨_, next, _, _, same⟩
    · exact ⟨limited.services, same⟩
    · exact ⟨next, same⟩
  obtain ⟨next, rfl⟩ := replaced
  subst form
  have called := agentCalled_of (i := .adjustAgentMandate ctx) (openAgentMandate_eq_ok opened)
    (.adjusted ctx _ _ running limits services) ⟨rfl, rfl⟩ ⟨.refl w, rfl⟩ wrote
  exact agentJournal_called (called.emit _) rfl (.of_log (writeAgentMandate_log _ wrote)) rfl rfl
    fun _ created => by cases created

theorem drainAgentMandate_told {ctx : AgentExit} :
    Ensures (drainAgentMandate P w ctx) ((agentJournal k).Records w) := by
  intro w' h
  obtain ⟨before, after, called⟩ := drainAgentMandate_eq_ok h
  obtain ⟨amount, _, h⟩ := bind_eq_ok.mp h
  obtain ⟨loaded, opened, h⟩ := bind_eq_ok.mp h
  obtain ⟨drained, returned, h⟩ := bind_eq_ok.mp h
  cases h
  refine agentJournal_called called rfl (.of_log (returnFunds_log _ returned)) rfl ?_
    fun _ created => by cases created
  cases called.change
  rfl

theorem revokeAgentMandate_told {ctx : AgentExit} :
    Ensures (revokeAgentMandate P w ctx) ((agentJournal k).Records w) := by
  intro w' h
  obtain ⟨before, after, called⟩ := revokeAgentMandate_eq_ok h
  obtain ⟨amount, _, h⟩ := bind_eq_ok.mp h
  obtain ⟨loaded, opened, h⟩ := bind_eq_ok.mp h
  obtain ⟨_, h⟩ := require_bind_eq_ok.mp h
  obtain ⟨drained, returned, h⟩ := bind_eq_ok.mp h
  obtain ⟨written, wrote, h⟩ := bind_eq_ok.mp h
  cases h
  have log := (writeAgentMandate_log _ wrote).trans (returnFunds_log _ returned)
  refine agentJournal_called called rfl (.of_log log) rfl ?_ fun _ created => by cases created
  cases called.change
  rfl

theorem agent_told {i : AgentInstruction} :
    Ensures (executeAgent P w i) ((agentJournal k).Records w) := by
  cases i with
  | createAgentMandate ctx => exact createAgentMandate_told
  | agentPull ctx => exact agentPull_told
  | adjustAgentMandate ctx => exact adjustAgentMandate_told
  | pauseAgentMandate ctx => exact pauseAgentMandate_told
  | resumeAgentMandate ctx => exact resumeAgentMandate_told
  | drainAgentMandate ctx => exact drainAgentMandate_told
  | revokeAgentMandate ctx => exact revokeAgentMandate_told

theorem agentMandate_told {a : ProtocolAction} (step : ProtocolStep P w a w') :
    (agentJournal k).Records w w' := by
  cases a with
  | instruction i =>
    cases i with
    | billing i =>
      exact (billing_logs w' step).agent_quiet (by decide) (billing_flow step).1.agentMandate
    | streaming i =>
      exact (streaming_logs w' step).agent_quiet (by decide) (streaming_agentMandate step)
    | agent i => exact agent_told w' step
    | config i =>
      exact (configure_logs w' step).agent_quiet (by decide)
        (configure_keeps (k := Pubkey.default) w' step).1.agentMandate
    | wrap ctx =>
      have logs : Logs [] w w' := .of_log (wrap_log w' step)
      exact logs.agent_quiet (by decide) (wrap_only step).agentMandate
    | unwrapTokens ctx =>
      have logs : Logs [] w w' := .of_log (unwrapTokens_log w' step)
      exact logs.agent_quiet (by decide) (unwrapTokens_only step).agentMandate
  | tick clock =>
    obtain ⟨_, rfl⟩ := step
    exact .quiet rfl rfl
  | outside =>
    have logs : Logs [] w w' := .of_log step.log
    exact logs.agent_quiet (by decide) step.agentMandate

/-- Whatever happens, replaying the events about an agent mandate from the start gives what is
stored, also where it is stored in its old form. -/
theorem agentMandate_replayed (unknown : w.agentMandateAt k = none)
    (unspoken : ∀ e ∈ w.log, e.agentEvent k = none) (history : History P w w') :
    (w'.agentMandateAt k).map AgentMandate.view =
      replay followAgent none (w'.log.filterMap (LogEntry.agentEvent k)) := by
  have start : (agentJournal k).Complete none w := by
    change (w.agentMandateAt k).map AgentMandate.view =
      replay followAgent none (w.log.filterMap (LogEntry.agentEvent k))
    rw [unknown, List.filterMap_eq_nil_iff.mpr unspoken]
    rfl
  refine start.run ?_ history
  rintro s s' ⟨a, step⟩
  exact agentMandate_told step

open Deployment in
theorem agentMandate_replayed_revoked : ∃ w' m,
    History platform (agentWorld 0) w' ∧ w'.agentMandateAt agentMandate = some m ∧
      m.status = .revoked ∧ 0 < m.totalSpent ∧
      some m.view = replay followAgent none (w'.log.filterMap (LogEntry.agentEvent agentMandate))
    := by
  have played : (play (applyProtocol platform) watchSeeds Plain (agentWorld 0, [])
      [fundAgent, ofAgent (pullForMerchant 40), ofAgent (tickAgent 86400),
        ofAgent (pullForMerchant 50), ofAgent drainAgent, ofAgent revokeAgent]).any (fun x =>
          (x.1.agentMandateAt agentMandate).any (fun m =>
            decide (m.status = .revoked) && decide (0 < m.totalSpent))) = true := by
    decide +kernel
  simp only [Option.any_eq_true, Bool.and_eq_true, decide_eq_true_eq] at played
  obtain ⟨⟨w', opened⟩, script, m, found, revoked, positive⟩ := played
  have history : History platform (agentWorld 0) w' := (protocol_script script).forget
  have replayed := agentMandate_replayed (k := agentMandate) rfl
    (fun _ member => absurd member List.not_mem_nil) history
  rw [found] at replayed
  exact ⟨w', m, history, found, revoked, positive, replayed⟩

end VelaProtocol
