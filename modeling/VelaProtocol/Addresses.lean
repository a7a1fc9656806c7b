import VelaProtocol.Custody
import VelaProtocol.Requests
import VelaProtocol.Steps

/-! Where mandates, streams and agent mandates live: each at an address derived from its own
seeds, and no address is ever used for a second account. -/
namespace VelaProtocol

variable {P : Platform} {w w' : World} {a : ProtocolAction} {opened : List Seeds} {k : Pubkey}

/-- An account opened at the address of its seeds: a mandate under the next index of its merchant,
or another account where there was none. -/
inductive Opening (P : Platform) (w : World) (seeds : Seeds) (w' : World) : Prop
  | mandate (subscriber merchant : Pubkey) (next : seeds = w.nextMandateSeeds subscriber merchant)
      (bounded : w.mandateCounter merchant < 2 ^ 64)
      (counted : w'.mandateCounter merchant = w.mandateCounter merchant + 1)
  | other (kind : Custody) (own : seeds.custody = some kind) (other : kind ≠ .mandate)
      (vacant : ¬w.stores (P.findProgramAddress seeds).1 kind)
      (stored : w'.stores (P.findProgramAddress seeds).1 kind)

structure Population (P : Platform) (w : World) (a : ProtocolAction) (w' : World) : Prop where
  origin : ∀ k kind, w'.stores k kind → w.stores k kind ∨
    ∃ seeds, a.opens w = some seeds ∧ seeds.custody = some kind ∧
      (P.findProgramAddress seeds).1 = k
  live : ∀ k, Live w' k → Live w k ∨
    ∃ seeds, a.opens w = some seeds ∧ (P.findProgramAddress seeds).1 = k
  stays : ∀ k kind, kind ≠ .mandate → w.stores k kind → w'.stores k kind
  opening : ∀ seeds, a.opens w = some seeds → Opening P w seeds w'
  counter : ∀ merchant, w.mandateCounter merchant ≤ w'.mandateCounter merchant

theorem currentMandate_eq (same : w'.mandate = w.mandate) :
    w'.currentMandate = w.currentMandate := funext (currentMandate_congr same)

theorem agentMandateAt_eq (same : w'.agentMandate = w.agentMandate) :
    w'.agentMandateAt = w.agentMandateAt := by
  funext key
  rw [World.agentMandateAt, World.agentMandateAt, same]

theorem Population.of_called (same : w'.stores = w.stores) (live : ∀ k, Live w' k → Live w k)
    (counter : ∀ merchant, w.mandateCounter merchant ≤ w'.mandateCounter merchant)
    (opens : a.opens w = none) : Population P w a w' where
  origin _ _ stored := .inl (same ▸ stored)
  live k now := .inl (live k now)
  stays _ _ _ stored := same ▸ stored
  opening _ opening := absurd (opens.symm.trans opening) nofun
  counter := counter

theorem Population.of_opened {key : Pubkey} {seeds : Seeds} {kind : Custody}
    (opens : a.opens w = some seeds) (own : seeds.custody = some kind) (other : kind ≠ .mandate)
    (address : key = (P.findProgramAddress seeds).1) (vacant : ¬w.stores key kind)
    (stored : w'.stores key kind)
    (rest : ∀ k kind', k ≠ key ∨ kind' ≠ kind → (w'.stores k kind' ↔ w.stores k kind'))
    (live : ∀ k, k ≠ key → Live w' k → Live w k)
    (counter : ∀ merchant, w.mandateCounter merchant ≤ w'.mandateCounter merchant) :
    Population P w a w' := by
  constructor
  case origin =>
    intro k kind' now
    by_cases here : k = key ∧ kind' = kind
    · obtain ⟨rfl, rfl⟩ := here
      exact .inr ⟨seeds, opens, own, address.symm⟩
    · exact .inl ((rest k kind' (not_and_or.mp here)).mp now)
  case live =>
    intro k now
    by_cases here : k = key
    · exact .inr ⟨seeds, opens, here ▸ address.symm⟩
    · exact .inl (live k here now)
  case stays =>
    intro k kind' _ before
    by_cases here : k = key ∧ kind' = kind
    · obtain ⟨rfl, rfl⟩ := here
      exact stored
    · exact (rest k kind' (not_and_or.mp here)).mpr before
  case opening =>
    intro seeds' opening
    obtain rfl := Option.some.inj (opens.symm.trans opening)
    exact .other kind own other (address ▸ vacant) (address ▸ stored)
  case counter => exact counter

theorem MandateStep.active_before {call : Option MandateCall} {before after : VelaMandate}
    (step : MandateStep P k w w' call) (found : w.currentMandate k = some before)
    (present : w'.currentMandate k = some after) (active : after.status = .active) :
    before.status = .active := by
  have inert (same : Inert w w' k) : before.status = .active := by
    cases same with
    | gone absent => exact absurd (present.symm.trans absent) nofun
    | kept old new stored stays terms =>
      obtain rfl := Option.some.inj (found.symm.trans stored)
      obtain rfl := Option.some.inj (present.symm.trans stays)
      exact terms.live active
  have vacant (none : w.mandate k = none) : before.status = .active := by
    rw [World.currentMandate, none] at found
    cases found
  cases step with
  | inert same quiet requests => exact inert same
  | subscribed ctx plan mandate key spec => exact vacant (key ▸ spec.vacant)
  | migrated ctx old new key spec => exact vacant (key ▸ spec.vacant)
  | samePlan ctx s key checked plan unchanged =>
    obtain rfl := Option.some.inj (found.symm.trans (key ▸ checked.found))
    exact checked.active
  | switched ctx s delta priced key spec =>
    obtain rfl := Option.some.inj (found.symm.trans (key ▸ spec.checked.found))
    exact spec.checked.active
  | alreadyScheduled ctx s key checked unchanged =>
    obtain rfl := Option.some.inj (found.symm.trans (key ▸ checked.found))
    exact checked.active
  | scheduled ctx s nonce key checked changed written frame =>
    obtain rfl := Option.some.inj (found.symm.trans (key ▸ checked.found))
    exact checked.active
  | dropped ctx mandate key spec =>
    obtain rfl := Option.some.inj (found.symm.trans (key ▸ spec.found))
    obtain rfl := Option.some.inj (present.symm.trans (key ▸ spec.written))
    exact active
  | pulled ctx s next key spec =>
    obtain rfl := Option.some.inj (found.symm.trans (key ▸ spec.checked.pull.found))
    exact spec.checked.pull.active
  | requested ctx mandate plan key spec => exact inert (key ▸ spec.inert)
  | answered ctx mandate result key flat output spec => exact inert spec.inert

theorem billing_opens (i : Instruction) : ProtocolAction.opens w (.instruction (.billing i)) =
    (Action.instruction i).opens.map fun x => w.nextMandateSeeds x.1 x.2 := by
  cases i <;> rfl

theorem billing_population {i : Instruction} (h : execute P w i = .ok w') :
    Population P w (.instruction (.billing i)) w' := by
  have untouched := (billing_flow h).1
  have agents := agentMandateAt_eq untouched.agentMandate
  have step : Step P w (.instruction i) w' := h
  constructor
  case origin =>
    intro k kind stored
    cases kind with
    | mandate =>
      obtain ⟨after, present⟩ := Option.isSome_iff_exists.mp stored
      cases instruction_counted h present with
      | on before found counters => exact .inl (Option.isSome_iff_exists.mpr ⟨before, found⟩)
      | fresh vacant subscriber merchant opens address =>
        refine .inr ⟨w.nextMandateSeeds subscriber merchant, ?_, rfl, address.address.symm⟩
        rw [billing_opens, opens, Option.map_some]
    | stream => exact .inl (by simpa only [World.stores, untouched.stream] using stored)
    | agentMandate => exact .inl (by simpa only [World.stores, agents] using stored)
  case live =>
    intro k live
    cases live with
    | mandate after present active =>
      cases instruction_counted h present with
      | on before found counters =>
        have active := (instruction_mandateStep k h).active_before found present active
        exact .inl (.mandate before found active)
      | fresh vacant subscriber merchant opens address =>
        refine .inr ⟨w.nextMandateSeeds subscriber merchant, ?_, address.address.symm⟩
        rw [billing_opens, opens, Option.map_some]
    | stream s found running => exact .inl (.stream s (untouched.stream ▸ found) running)
    | agent m found => exact .inl (.agent m (agents ▸ found))
  case stays =>
    intro k kind other stored
    cases kind with
    | mandate => exact absurd rfl other
    | stream => simpa only [World.stores, untouched.stream] using stored
    | agentMandate => simpa only [World.stores, agents] using stored
  case opening =>
    intro seeds opens
    rw [billing_opens] at opens
    obtain ⟨⟨subscriber, merchant⟩, opening, rfl⟩ := Option.map_eq_some_iff.mp opens
    obtain ⟨key, address⟩ := opens_step step opening
    exact .mandate subscriber merchant rfl address.bounded address.counted
  case counter => exact (settingStep step).counter

theorem mandateCounter_update {merchant : Pubkey} {state : MerchantState} {counter : UInt64}
    (loaded : w.merchantState merchant = some (.current state))
    (written : w'.merchantState = Function.update w.merchantState merchant
      (some (.current { state with streamMandateCounter := counter }))) (other : Pubkey) :
    w.mandateCounter other ≤ w'.mandateCounter other := by
  by_cases same : other = merchant
  · subst same
    simp only [World.mandateCounter, written, Function.update_self, loaded, Option.map_some,
      Option.getD_some, LoadedMerchantState.intoCurrent, le_refl]
  · simp only [World.mandateCounter, written, Function.update_of_ne same, le_refl]

theorem StreamOpened.population {ctx : CreateStreamMandate} {state : MerchantState}
    {stream : StreamMandate} (spec : StreamOpened P w ctx w' state stream) :
    Population P w (.instruction (.streaming (.createStreamMandate ctx))) w' := by
  have mandates := currentMandate_eq spec.written.mandate
  have agents := agentMandateAt_eq spec.written.agentMandate
  have streams := spec.written.stream
  have seeds : stream.seeds =
      .stream ctx.subscriber state.merchant state.streamMandateCounter := by
    rw [spec.initial]
    rfl
  have address := spec.address
  rw [seeds] at address
  have opens : ProtocolAction.opens w (.instruction (.streaming (.createStreamMandate ctx))) =
      some (.stream ctx.subscriber state.merchant state.streamMandateCounter) := by
    rw [ProtocolAction.opens, World.nextStreamSeeds, spec.loaded]
    rfl
  refine .of_opened opens rfl (by decide) address ?_ ?_ ?_ ?_ ?_
  · rw [World.stores, spec.vacant.stream]
    decide
  · rw [World.stores, spec.created]
    rfl
  · intro k kind apart
    cases kind with
    | mandate => rw [World.stores, World.stores, mandates]
    | agentMandate => rw [World.stores, World.stores, agents]
    | stream =>
      have away : k ≠ ctx.mandate := apart.resolve_right (not_not.mpr rfl)
      rw [World.stores, World.stores, streams, Function.update_of_ne away]
  · intro k away live
    cases live with
    | mandate m found active => exact .mandate m (mandates ▸ found) active
    | agent m found => exact .agent m (agents ▸ found)
    | stream s found running =>
      rw [streams, Function.update_of_ne away] at found
      exact .stream s found running
  · obtain ⟨counter, _, merchants⟩ := spec.counted
    exact mandateCounter_update spec.loaded merchants

theorem StreamChange.running_before {now : Int64} {signer : Pubkey} {s after : StreamMandate}
    {i : StreamInstruction} {amount : UInt64} (change : StreamChange now signer s i amount after)
    (running : after.status ≠ .cancelled) : s.status ≠ .cancelled := by
  cases change with
  | executed settled =>
    rcases settleAccruedInPlace_eq_ok.mp settled with ⟨_, same, _⟩ | accrued
    · exact same ▸ running
    · rw [accrued.active]
      decide
  | paused active _ =>
    rw [active]
    decide
  | resumed pausedAt paused _ _ =>
    rw [paused]
    decide
  | rerated active _ _ _ _ =>
    rw [active]
    decide
  | cancelled before _ => exact before

theorem StreamCalled.population {i : StreamInstruction} {signer : Pubkey}
    {before after : StreamMandate} {amount : UInt64}
    (notCreated : ∀ ctx, i ≠ .createStreamMandate ctx)
    (spec : StreamCalled P w i signer w' before after amount) :
    Population P w (.instruction (.streaming i)) w' := by
  obtain ⟨accounts, paid, payment, written, merchants⟩ := spec.effect
  have paidFrame : paid.mandate = w.mandate ∧ paid.agentMandate = w.agentMandate := by
    cases payment with
    | nothing zero unchanged => exact unchanged ▸ ⟨rfl, rfl⟩
    | transfer positive unpaused done => exact ⟨done.frame.mandate, done.frame.agentMandate⟩
  have mandates := currentMandate_eq (written.mandate.trans paidFrame.1)
  have agents := agentMandateAt_eq (written.agentMandate.trans paidFrame.2)
  refine .of_called ?_ ?_ (mandateCounter_le_of_eq merchants) ?_
  · funext k kind
    cases kind with
    | mandate => rw [World.stores, World.stores, mandates]
    | agentMandate => rw [World.stores, World.stores, agents]
    | stream =>
      rw [World.stores, World.stores, spec.stream]
      by_cases here : k = i.stream
      · rw [here, Function.update_self, spec.found]
        rfl
      · rw [Function.update_of_ne here]
  · intro k live
    cases live with
    | mandate m found active => exact .mandate m (mandates ▸ found) active
    | agent m found => exact .agent m (agents ▸ found)
    | stream s found running =>
      by_cases here : k = i.stream
      · rw [here] at found ⊢
        obtain rfl := Option.some.inj (spec.written.symm.trans found)
        exact .stream before spec.found (spec.change.running_before running)
      · rw [spec.stream, Function.update_of_ne here] at found
        exact .stream s found running
  · cases i with
    | createStreamMandate ctx => exact absurd rfl (notCreated ctx)
    | _ => rfl

theorem streaming_population {i : StreamInstruction} (h : executeStreaming P w i = .ok w') :
    Population P w (.instruction (.streaming i)) w' := by
  by_cases created : ∃ ctx, i = .createStreamMandate ctx
  · obtain ⟨ctx, rfl⟩ := created
    obtain ⟨_, _, spec⟩ := createStreamMandate_eq_ok h
    exact spec.population
  · have notCreated : ∀ ctx, i ≠ .createStreamMandate ctx := fun ctx same => created ⟨ctx, same⟩
    obtain ⟨_, _, _, _, spec⟩ := call_called notCreated h
    exact spec.population notCreated

theorem AgentOpened.population {ctx : CreateAgentMandate} {m : AgentMandate}
    (address : ctx.agentMandate = (P.findProgramAddress (.agentMandate ctx.authority ctx.agent)).1)
    (spec : AgentOpened w ctx w' m) :
    Population P w (.instruction (.agent (.createAgentMandate ctx))) w' := by
  have mandates := currentMandate_eq spec.frame.mandate
  have streams := spec.frame.stream
  refine .of_opened rfl rfl (by decide) address ?_ ?_ ?_ ?_ (mandateCounter_le_of_eq
    spec.frame.merchantState)
  · rw [World.stores, World.agentMandateAt, spec.vacant.agentMandate]
    decide
  · rw [World.stores, spec.stored, Function.update_self]
    rfl
  · intro k kind apart
    cases kind with
    | mandate => rw [World.stores, World.stores, mandates]
    | stream => rw [World.stores, World.stores, streams]
    | agentMandate =>
      have away : k ≠ ctx.agentMandate := apart.resolve_right (not_not.mpr rfl)
      rw [World.stores, World.stores, spec.stored, Function.update_of_ne away]
  · intro k away live
    cases live with
    | mandate m found active => exact .mandate m (mandates ▸ found) active
    | stream s found running => exact .stream s (streams ▸ found) running
    | agent m found =>
      rw [spec.stored, Function.update_of_ne away] at found
      exact .agent m found

theorem AgentCalled.population {i : AgentInstruction} {before after : AgentMandate}
    (notCreated : ∀ ctx, i ≠ .createAgentMandate ctx)
    (spec : AgentCalled w i w' before after) : Population P w (.instruction (.agent i)) w' := by
  have mandates := currentMandate_eq spec.frame.mandate
  have streams := spec.frame.stream
  refine .of_called ?_ ?_ (mandateCounter_le_of_eq spec.frame.merchantState) ?_
  · funext k kind
    cases kind with
    | mandate => rw [World.stores, World.stores, mandates]
    | stream => rw [World.stores, World.stores, streams]
    | agentMandate =>
      rw [World.stores, World.stores, spec.stored]
      by_cases here : k = i.mandate
      · rw [here, Function.update_self, spec.found]
        rfl
      · rw [Function.update_of_ne here]
  · intro k live
    cases live with
    | mandate m found active => exact .mandate m (mandates ▸ found) active
    | stream s found running => exact .stream s (streams ▸ found) running
    | agent m found =>
      by_cases here : k = i.mandate
      · exact .agent before (here ▸ spec.found)
      · rw [spec.stored, Function.update_of_ne here] at found
        exact .agent m found
  · cases i with
    | createAgentMandate ctx => exact absurd rfl (notCreated ctx)
    | _ => rfl

theorem agent_population {i : AgentInstruction} (h : executeAgent P w i = .ok w') :
    Population P w (.instruction (.agent i)) w' := by
  by_cases created : ∃ ctx, i = .createAgentMandate ctx
  · obtain ⟨ctx, rfl⟩ := created
    obtain ⟨m, spec⟩ := createAgentMandate_eq_ok h
    obtain ⟨_, _, rest⟩ := Guard.bind_eq_ok.mp h
    obtain ⟨_, address, _⟩ := Guard.bind_eq_ok.mp rest
    exact spec.population (Guard.require_eq_ok.mp address)
  · have notCreated : ∀ ctx, i ≠ .createAgentMandate ctx := fun ctx same => created ⟨ctx, same⟩
    obtain ⟨_, _, spec⟩ := agent_called notCreated h
    exact spec.population notCreated

theorem Population.of_same (mandate : w'.mandate = w.mandate) (stream : w'.stream = w.stream)
    (agent : w'.agentMandate = w.agentMandate)
    (counter : ∀ merchant, w.mandateCounter merchant ≤ w'.mandateCounter merchant)
    (opens : a.opens w = none) : Population P w a w' := by
  have mandates := currentMandate_eq mandate
  have agents := agentMandateAt_eq agent
  refine .of_called ?_ ?_ counter opens
  · funext k kind
    cases kind with
    | mandate => rw [World.stores, World.stores, mandates]
    | stream => rw [World.stores, World.stores, stream]
    | agentMandate => rw [World.stores, World.stores, agents]
  · intro k live
    cases live with
    | mandate m found active => exact .mandate m (mandates ▸ found) active
    | stream s found running => exact .stream s (stream ▸ found) running
    | agent m found => exact .agent m (agents ▸ found)

theorem CoinsOnly.population (only : CoinsOnly w w') (opens : a.opens w = none) :
    Population P w a w' :=
  .of_same only.frame.mandate only.frame.stream only.agentMandate
    (mandateCounter_le_of_eq only.frame.merchantState) opens

theorem wrap_only {ctx : Wrap} (h : wrap P w ctx = .ok w') : CoinsOnly w w' := by
  unfold wrap at h
  iterate 9 obtain ⟨_, _, h⟩ := Guard.bind_eq_ok.mp h
  exact deposit_only h

theorem unwrapTokens_only {ctx : Unwrap} (h : unwrapTokens P w ctx = .ok w') : CoinsOnly w w' := by
  unfold unwrapTokens at h
  iterate 8 obtain ⟨_, _, h⟩ := Guard.bind_eq_ok.mp h
  exact withdraw_only h

theorem StreamPayment.agentMandate {accounts : StreamTransferAccounts} {merchant : Pubkey}
    {amount : UInt64} (payment : StreamPayment w accounts key merchant amount w') :
    w'.agentMandate = w.agentMandate := by
  cases payment with
  | nothing zero unchanged => rw [unchanged]
  | transfer positive unpaused done => exact done.frame.agentMandate

theorem streaming_agentMandate {i : StreamInstruction} (h : executeStreaming P w i = .ok w') :
    w'.agentMandate = w.agentMandate := by
  by_cases created : ∃ ctx, i = .createStreamMandate ctx
  · obtain ⟨ctx, rfl⟩ := created
    obtain ⟨_, _, spec⟩ := createStreamMandate_eq_ok h
    exact spec.written.agentMandate
  · obtain ⟨_, _, _, _, spec⟩ := call_called (fun ctx same => created ⟨ctx, same⟩) h
    obtain ⟨accounts, paid, payment, written, _⟩ := spec.effect
    exact written.agentMandate.trans payment.agentMandate

theorem protocol_stream (step : ProtocolStep P w a w')
    (other : ∀ i, a ≠ .instruction (.streaming i)) : w'.stream = w.stream := by
  cases a with
  | instruction i =>
    cases i with
    | billing i => exact (billing_flow step).1.stream
    | streaming i => exact absurd rfl (other i)
    | agent i => exact (agent_frame step).stream
    | config i => exact (configure_keeps (k := Pubkey.default) w' step).1.stream
    | wrap ctx => exact (wrap_only step).frame.stream
    | unwrapTokens ctx => exact (unwrapTokens_only step).frame.stream
  | tick clock =>
    obtain ⟨_, rfl⟩ := step
    rfl
  | outside => exact step.stream

theorem protocol_agentMandate (step : ProtocolStep P w a w')
    (other : ∀ i, a ≠ .instruction (.agent i)) : w'.agentMandate = w.agentMandate := by
  cases a with
  | instruction i =>
    cases i with
    | billing i => exact (billing_flow step).1.agentMandate
    | streaming i => exact streaming_agentMandate step
    | agent i => exact absurd rfl (other i)
    | config i => exact (configure_keeps (k := Pubkey.default) w' step).1.agentMandate
    | wrap ctx => exact (wrap_only step).agentMandate
    | unwrapTokens ctx => exact (unwrapTokens_only step).agentMandate
  | tick clock =>
    obtain ⟨_, rfl⟩ := step
    rfl
  | outside => exact step.agentMandate

theorem protocol_population (step : ProtocolStep P w a w') : Population P w a w' := by
  cases a with
  | instruction i =>
    cases i with
    | billing i => exact billing_population step
    | streaming i => exact streaming_population step
    | agent i => exact agent_population step
    | config i =>
      have same := (configure_keeps (k := Pubkey.default) w' step).1
      exact .of_same same.mandate same.stream same.agentMandate same.counter rfl
    | wrap ctx => exact (wrap_only step).population rfl
    | unwrapTokens ctx => exact (unwrapTokens_only step).population rfl
  | tick clock =>
    obtain ⟨_, rfl⟩ := step
    exact .of_same rfl rfl rfl (fun _ => le_refl _) rfl
  | outside =>
    exact .of_same step.mandate step.stream step.agentMandate
      (mandateCounter_le_of_eq step.merchantState) rfl

/-- Every account in custody lies at an address of seeds opened for its kind, mandates under
indices their merchants have counted past; streams and agent mandates never go away; and the
addresses used so far do not collide. -/
structure Placed (P : Platform) (w : World) (opened : List Seeds) : Prop where
  held : ∀ k kind, w.stores k kind →
    ∃ seeds ∈ opened, seeds.custody = some kind ∧ (P.findProgramAddress seeds).1 = k
  own : ∀ seeds ∈ opened, seeds.custody ≠ none
  below : ∀ subscriber merchant index, .mandate subscriber merchant index ∈ opened →
    index.toNat < w.mandateCounter merchant
  stays : ∀ seeds ∈ opened, ∀ kind, seeds.custody = some kind → kind ≠ .mandate →
    w.stores (P.findProgramAddress seeds).1 kind
  apart : AddressesDiffer P (.mintAuthority :: opened)

theorem Opening.own {seeds : Seeds} (opening : Opening P w seeds w') : seeds.custody ≠ none := by
  cases opening with
  | mandate subscriber merchant next bounded counted =>
    rw [next]
    exact nofun
  | other kind own other vacant stored =>
    rw [own]
    exact nofun

theorem Placed.fresh {seeds : Seeds} (placed : Placed P w opened)
    (opening : Opening P w seeds w') : seeds ∉ opened := by
  intro used
  cases opening with
  | mandate subscriber merchant next bounded counted =>
    rw [next] at used
    have below := placed.below _ _ _ used
    rw [UInt64.toNat_ofNat_of_lt' bounded] at below
    exact absurd below (lt_irrefl _)
  | other kind own other vacant stored => exact vacant (placed.stays seeds used kind own other)

theorem Placed.step (placed : Placed P w opened) (population : Population P w a w')
    (lawful : Lawful P opened w a w') : Placed P w' (watchSeeds opened w a w') := by
  constructor
  case held =>
    intro k kind stored
    rcases population.origin k kind stored with before | ⟨seeds, opens, own, address⟩
    · obtain ⟨seeds, used, own, address⟩ := placed.held k kind before
      exact ⟨seeds, List.mem_append_right _ used, own, address⟩
    · exact ⟨seeds, List.mem_append_left _ (Option.mem_toList.mpr opens), own, address⟩
  case own =>
    intro seeds used
    rcases List.mem_append.mp used with new | old
    · exact (population.opening seeds (Option.mem_toList.mp new)).own
    · exact placed.own seeds old
  case below =>
    intro subscriber merchant index used
    rcases List.mem_append.mp used with new | old
    · cases population.opening _ (Option.mem_toList.mp new) with
      | mandate subscriber' merchant' next bounded counted =>
        simp only [World.nextMandateSeeds, Seeds.mandate.injEq] at next
        obtain ⟨_, rfl, rfl⟩ := next
        rw [UInt64.toNat_ofNat_of_lt' bounded, counted]
        exact Nat.lt_succ_self _
      | other kind own other vacant stored =>
        cases own
        exact absurd rfl other
    · exact lt_of_lt_of_le (placed.below _ _ _ old) (population.counter merchant)
  case stays =>
    intro seeds used kind own other
    rcases List.mem_append.mp used with new | old
    · cases population.opening seeds (Option.mem_toList.mp new) with
      | mandate subscriber merchant next bounded counted =>
        rw [next] at own
        cases own
        exact absurd rfl other
      | other kind' own' other' vacant stored =>
        obtain rfl := Option.some.inj (own.symm.trans own')
        exact stored
    · exact population.stays _ kind other (placed.stays seeds old kind own other)
  case apart => exact lawful.2

theorem ProtocolRun.placed {x y : World × List Seeds} (run : ProtocolRun P x y)
    (start : Placed P x.1 x.2) : Placed P y.1 y.2 :=
  run.invariant (fun w opened => Placed P w opened) start fun _ _ _ _ placed step lawful =>
    placed.step (protocol_population step) lawful

/-- An address that was used and for which the program signs no payment any more. -/
structure Dead (P : Platform) (w : World) (opened : List Seeds) (k : Pubkey) : Prop where
  used : ∃ seeds ∈ opened, (P.findProgramAddress seeds).1 = k
  finished : ¬Live w k

theorem Dead.step (dead : Dead P w opened k) (placed : Placed P w opened)
    (population : Population P w a w') (lawful : Lawful P opened w a w') :
    Dead P w' (watchSeeds opened w a w') k := by
  obtain ⟨seeds, used, address⟩ := dead.used
  refine ⟨⟨seeds, List.mem_append_right _ used, address⟩, fun live => ?_⟩
  rcases population.live k live with before | ⟨seeds', opens, address'⟩
  · exact dead.finished before
  · have new : seeds' ∈ .mintAuthority :: watchSeeds opened w a w' :=
      List.mem_cons_of_mem _ (List.mem_append_left _ (Option.mem_toList.mpr opens))
    have old : seeds ∈ .mintAuthority :: watchSeeds opened w a w' :=
      List.mem_cons_of_mem _ (List.mem_append_right _ used)
    obtain rfl := lawful.2 seeds' new seeds old (address'.trans address.symm)
    exact placed.fresh (population.opening seeds' opens) used

theorem Placed.not_vault (placed : Placed P w opened)
    (used : ∃ seeds ∈ opened, (P.findProgramAddress seeds).1 = k) : k ≠ mintAuthority P := by
  obtain ⟨seeds, mem, address⟩ := used
  intro same
  have equal := placed.apart seeds (List.mem_cons_of_mem _ mem) .mintAuthority List.mem_cons_self
    (address.trans same)
  exact placed.own seeds mem (by rw [equal]; rfl)

theorem Placed.inCustody (placed : Placed P w opened)
    (used : ∃ seeds ∈ opened, (P.findProgramAddress seeds).1 = k) : InCustody P k := by
  obtain ⟨seeds, mem, address⟩ := used
  exact ⟨seeds, placed.own seeds mem, address⟩

theorem lawful_flow {i : ProtocolInstruction} (placed : Placed P w opened)
    (lawful : Lawful P opened w (.instruction i) w')
    (used : ∃ seeds ∈ opened, (P.findProgramAddress seeds).1 = k)
    (ok : executeProtocol P w i = .ok w') : Flow w i.signers k w' := by
  refine protocol_flow (fun signs => ?_) (placed.not_vault used) ok
  exact lawful.1 i rfl k signs (placed.inCustody used)

theorem Placed.one_kind {kind kind' : Custody} (placed : Placed P w opened)
    (first : ∃ seeds ∈ opened, seeds.custody = some kind ∧ (P.findProgramAddress seeds).1 = k)
    (second : w.stores k kind') : kind = kind' := by
  obtain ⟨seeds, used, own, address⟩ := first
  obtain ⟨seeds', used', own', address'⟩ := placed.held k kind' second
  have equal := placed.apart seeds (List.mem_cons_of_mem _ used) seeds'
    (List.mem_cons_of_mem _ used') (address.trans address'.symm)
  rw [equal] at own
  exact Option.some.inj (own.symm.trans own')

end VelaProtocol
