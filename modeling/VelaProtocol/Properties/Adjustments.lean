import Mathlib.Data.List.Forall2
import VelaProtocol.Deployment.Agents

/-! Adjusting the limits of an agent mandate: a new limit is judged against the spending on record,
a pull against what is left of it once windows that are over start again. -/
namespace VelaProtocol

open Guard

variable {P : Platform} {w w' : World} {ctx : AdjustAgentMandate} {loaded : LoadedAgentMandate}
  {m : AgentMandate} {now : Int64} {service : Pubkey}

/-- What a pull at `now` finds on the daily counter. -/
def AgentMandate.dailyCounted (m : AgentMandate) (now : Int64) : UInt64 :=
  (m.resetDailyIfNeeded now).dailySpent

/-- What a pull for a service at `now` finds on its counter. -/
def AgentMandate.serviceCounted (m : AgentMandate) (now : Int64) (service : Pubkey) : UInt64 :=
  ((m.findServiceIndex service).bind fun index =>
    (m.resetServiceDailyIfNeeded index now).services[index]?).elim 0 ServiceLimit.dailySpent

def AgentMandate.serviceLimit (m : AgentMandate) (service : Pubkey) : Option ServiceLimit :=
  m.services.find? fun limit => limit.service = service

def AgentMandate.serviceSpent (m : AgentMandate) (service : Pubkey) : UInt64 :=
  ((m.serviceLimit service).map ServiceLimit.dailySpent).getD 0

def WindowOver (since now : Int64) : Prop :=
  agentDailyResetWindowSeconds ≤ Checked.satSubI64 now since

instance (since now : Int64) : Decidable (WindowOver since now) :=
  inferInstanceAs (Decidable (_ ≤ _))

theorem dailyCounted_eq (m : AgentMandate) (now : Int64) :
    m.dailyCounted now = if WindowOver m.dailyLastReset now then 0 else m.dailySpent := by
  unfold AgentMandate.dailyCounted AgentMandate.resetDailyIfNeeded
  by_cases passed : WindowOver m.dailyLastReset now
  · rw [if_pos passed]
    exact congrArg AgentMandate.dailySpent (if_pos passed)
  · rw [if_neg passed]
    exact congrArg AgentMandate.dailySpent (if_neg passed)

theorem findIdx_modify {α : Type} (p : α → Bool) (f : α → α) (values : List α) :
    ((values.findIdx? p).bind fun index => (values.modify index f)[index]?) =
      (values.find? p).map f := by
  induction values with
  | nil => rfl
  | cons a rest ih =>
    rw [List.findIdx?_cons, List.find?_cons]
    cases p a with
    | true => rfl
    | false =>
      rw [← ih]
      cases rest.findIdx? p with
      | none => rfl
      | some index => simp

theorem serviceCounted_eq (m : AgentMandate) (now : Int64) (service : Pubkey) :
    m.serviceCounted now service = (m.serviceLimit service).elim 0 fun limit =>
      if WindowOver limit.lastReset now then 0 else limit.dailySpent := by
  have found := findIdx_modify (fun limit => decide (limit.service = service))
    (fun limit : ServiceLimit => limit.resetIfNeeded now) m.services
  unfold AgentMandate.serviceCounted AgentMandate.findServiceIndex
    AgentMandate.resetServiceDailyIfNeeded AgentMandate.serviceLimit
  rw [found]
  cases m.services.find? _ with
  | none => rfl
  | some limit =>
    simp only [Option.map_some, Option.elim_some, ServiceLimit.resetIfNeeded]
    by_cases passed : WindowOver limit.lastReset now
    · rw [if_pos passed]
      exact congrArg ServiceLimit.dailySpent (if_pos passed)
    · rw [if_neg passed]
      exact congrArg ServiceLimit.dailySpent (if_neg passed)

/-- Everything `adjust_agent_mandate` checks but the daily limits. -/
structure AdjustInOrder (P : Platform) (w : World) (ctx : AdjustAgentMandate)
    (loaded : LoadedAgentMandate) : Prop where
  config : ∃ config, anchorProtocolConfig w = .ok config ∧
    ctx.wrappedUsdcMint = config.wrappedUsdcMint
  token : ∃ token, mandateTokenAccount w ctx.mandateWrappedAccount ctx.wrappedUsdcMint
    ctx.agentMandate = .ok token
  updates : ctx.updates = true
  opened : openAgentMandate P w ctx.toAgentControl = .ok loaded
  live : loaded.intoCurrent.status ≠ .revoked
  lifetime : ∀ next ∈ ctx.lifetimeCap, loaded.intoCurrent.totalSpent ≤ next
  interval : ∀ next ∈ ctx.minPullInterval, 0 ≤ next
  count : ∀ inputs ∈ ctx.services, inputs.length ≤ agentMandateMaxServices
  distinct : ∀ inputs ∈ ctx.services, inputs.Pairwise fun a b => a.service ≠ b.service
  room : ∃ account, w.agentMandate ctx.agentMandate = some account ∧
    (if loaded.isLegacy then agentMandateV1Len else agentMandateLen)
      ((ctx.services.map List.length).getD loaded.intoCurrent.services.length) ≤ account.dataLen

/-- No new limit is below the spending on record. -/
structure AboveRecord (m : AgentMandate) (ctx : AdjustAgentMandate) : Prop where
  daily : ∀ limit ∈ ctx.dailyLimit, m.dailySpent ≤ limit
  services : ∀ inputs ∈ ctx.services, ∀ input ∈ inputs,
    m.serviceSpent input.service ≤ input.dailyLimit

theorem adjustService_ok_iff {input : ServiceLimitInput} :
    (∃ limit, adjustService m.services now input = .ok limit) ↔
      m.serviceSpent input.service ≤ input.dailyLimit := by
  simp only [adjustService, check, require_bind_eq_ok, exists_and_left]
  constructor
  · rintro ⟨above, _⟩
    exact above
  · intro above
    exact ⟨above, _, rfl⟩

theorem adjustServices_ok_iff (m : AgentMandate) (now : Int64) :
    (∃ after, adjustServices m now ctx.services = .ok after) ↔
    (∀ inputs ∈ ctx.services, inputs.length ≤ agentMandateMaxServices) ∧
      (∀ inputs ∈ ctx.services, inputs.Pairwise fun a b => a.service ≠ b.service) ∧
        ∀ inputs ∈ ctx.services, ∀ input ∈ inputs,
          m.serviceSpent input.service ≤ input.dailyLimit := by
  cases ctx.services with
  | none => exact ⟨fun _ => ⟨nofun, nofun, nofun⟩, fun _ => ⟨m, rfl⟩⟩
  | some inputs =>
    simp only [adjustServices, checkServiceCount, checkServicesDistinct, check, bind_eq_ok,
      require_eq_ok, Option.mem_some_iff, forall_eq', exists_const]
    constructor
    · rintro ⟨_, count, distinct, new, mapped, _⟩
      exact ⟨count, distinct, fun input mem =>
        adjustService_ok_iff.mp (mapM_ok_iff.mp ⟨new, mapped⟩ input mem)⟩
    · rintro ⟨count, distinct, above⟩
      obtain ⟨new, mapped⟩ := mapM_ok_iff.mpr fun input mem =>
        adjustService_ok_iff.mpr (above input mem)
      exact ⟨_, count, distinct, new, mapped, rfl⟩

theorem adjusted_count {after : AgentMandate} (h : adjustServices m now ctx.services = .ok after) :
    after.services.length = (ctx.services.map List.length).getD m.services.length := by
  rcases adjustServices_eq_ok h with ⟨none, rfl⟩ | ⟨inputs, new, some, replaced, rfl⟩
  · rw [none]
    rfl
  · rw [some]
    exact replaced.each.length_eq.symm

theorem writeAgentMandate_ok_iff {key : Pubkey} {legacy : Bool} :
    (∃ w', w.writeAgentMandate key m legacy = .ok w') ↔
      ∃ account, w.agentMandate key = some account ∧
        (if legacy then agentMandateV1Len else agentMandateLen) m.services.length ≤
        account.dataLen := by
  simp only [World.writeAgentMandate, orHost, orError_bind_eq_ok]
  cases legacy with
  | true =>
    simp only [if_true, require_bind_eq_ok, pure_eq_ok]
    constructor
    · rintro ⟨_, account, found, room, _⟩
      exact ⟨account, found, room⟩
    · rintro ⟨account, found, room⟩
      exact ⟨_, account, found, room, rfl⟩
  | false =>
    simp only [Bool.false_eq_true, if_false, require_bind_eq_ok, pure_eq_ok]
    constructor
    · rintro ⟨_, account, found, room, _⟩
      exact ⟨account, found, room⟩
    · rintro ⟨account, found, room⟩
      exact ⟨_, account, found, room, rfl⟩

theorem AdjustInOrder.of_ok (h : adjustAgentMandate P w ctx = .ok w') :
    ∃ loaded, AdjustInOrder P w ctx loaded ∧ AboveRecord loaded.intoCurrent ctx := by
  obtain ⟨config, configured, h⟩ := bind_eq_ok.mp h
  obtain ⟨token, held, h⟩ := bind_eq_ok.mp h
  obtain ⟨mint, h⟩ := require_bind_eq_ok.mp h
  obtain ⟨updates, h⟩ := require_bind_eq_ok.mp h
  obtain ⟨loaded, opened, h⟩ := bind_eq_ok.mp h
  obtain ⟨live, h⟩ := require_bind_eq_ok.mp h
  obtain ⟨limited, limits, h⟩ := bind_eq_ok.mp h
  obtain ⟨adjusted, services, h⟩ := bind_eq_ok.mp h
  obtain ⟨written, wrote, h⟩ := bind_eq_ok.mp h
  obtain ⟨daily, lifetime, rfl⟩ := adjustLimits_eq_ok limits
  obtain ⟨_, limits⟩ := require_bind_eq_ok.mp limits
  obtain ⟨_, limits⟩ := require_bind_eq_ok.mp limits
  obtain ⟨interval, _⟩ := require_bind_eq_ok.mp limits
  obtain ⟨count, distinct, above⟩ := (adjustServices_ok_iff _ _).mp ⟨adjusted, services⟩
  obtain ⟨account, found, room⟩ := writeAgentMandate_ok_iff.mp ⟨written, wrote⟩
  rw [adjusted_count services] at room
  exact ⟨loaded, ⟨⟨config, configured, mint⟩, ⟨token, held⟩, updates, opened, live, lifetime,
    interval, count, distinct, account, found, room⟩, daily, above⟩

theorem AdjustInOrder.accepted_iff (order : AdjustInOrder P w ctx loaded) :
    (∃ w', adjustAgentMandate P w ctx = .ok w') ↔ AboveRecord loaded.intoCurrent ctx := by
  constructor
  · rintro ⟨w', h⟩
    obtain ⟨other, checked, above⟩ := AdjustInOrder.of_ok h
    obtain rfl := Except.ok.inj (order.opened.symm.trans checked.opened)
    exact above
  · intro above
    obtain ⟨config, configured, mint⟩ := order.config
    obtain ⟨token, held⟩ := order.token
    let limited := { loaded.intoCurrent with
      dailyLimit := ctx.dailyLimit.getD loaded.intoCurrent.dailyLimit
      lifetimeCap := ctx.lifetimeCap.getD loaded.intoCurrent.lifetimeCap
      minPullAmount := ctx.minPullAmount.getD loaded.intoCurrent.minPullAmount
      minPullInterval := ctx.minPullInterval.getD loaded.intoCurrent.minPullInterval }
    have limits : adjustLimits loaded.intoCurrent ctx = .ok limited := by
      simp only [adjustLimits, check, require_bind_eq_ok, pure_eq_ok]
      exact ⟨above.daily, order.lifetime, order.interval, rfl⟩
    obtain ⟨adjusted, services⟩ := (adjustServices_ok_iff limited
      w.clock.unixTimestamp).mpr ⟨order.count, order.distinct, above.services⟩
    have room := order.room
    have count : (ctx.services.map List.length).getD loaded.intoCurrent.services.length =
        adjusted.services.length := (adjusted_count services).symm
    rw [count] at room
    obtain ⟨written, wrote⟩ := writeAgentMandate_ok_iff.mpr room
    simp only [adjustAgentMandate, check, bind_eq_ok, require_eq_ok, exists_const, pure_eq_ok]
    exact ⟨_, config, configured, token, held, mint, order.updates, loaded, order.opened,
      order.live, limited, limits, adjusted, services, written, wrote, rfl⟩

/-- No new limit is below what a pull at `now` counts as spent. -/
structure AboveCounted (m : AgentMandate) (now : Int64) (ctx : AdjustAgentMandate) : Prop where
  daily : ∀ limit ∈ ctx.dailyLimit, m.dailyCounted now ≤ limit
  services : ∀ inputs ∈ ctx.services, ∀ input ∈ inputs,
    m.serviceCounted now input.service ≤ input.dailyLimit

/-- The window of each new limit is running, or the limit is not below its counter either way. -/
structure RecordsCurrent (m : AgentMandate) (now : Int64) (ctx : AdjustAgentMandate) : Prop where
  daily : ∀ limit ∈ ctx.dailyLimit, ¬WindowOver m.dailyLastReset now ∨ m.dailySpent ≤ limit
  services : ∀ inputs ∈ ctx.services, ∀ input ∈ inputs, ∀ counter ∈ m.serviceLimit input.service,
    ¬WindowOver counter.lastReset now ∨ counter.dailySpent ≤ input.dailyLimit

theorem counted_le (m : AgentMandate) (now : Int64) :
    m.dailyCounted now ≤ m.dailySpent ∧
      ∀ service, m.serviceCounted now service ≤ m.serviceSpent service := by
  have least (spent : UInt64) : 0 ≤ spent := UInt64.zero_le
  constructor
  · rw [dailyCounted_eq]
    split
    · exact least _
    · exact UInt64.le_refl _
  · intro service
    rw [serviceCounted_eq, AgentMandate.serviceSpent]
    cases m.serviceLimit service with
    | none => exact UInt64.le_refl _
    | some counter =>
      show (if WindowOver counter.lastReset now then 0 else counter.dailySpent) ≤ counter.dailySpent
      split
      · exact least _
      · exact UInt64.le_refl _

theorem AboveRecord.counted (above : AboveRecord m ctx) (now : Int64) : AboveCounted m now ctx :=
  ⟨fun limit asked => UInt64.le_trans (counted_le m now).1 (above.daily limit asked),
    fun inputs asked input mem => UInt64.le_trans ((counted_le m now).2 input.service)
      (above.services inputs asked input mem)⟩

theorem aboveRecord_iff (counted : AboveCounted m now ctx) :
    AboveRecord m ctx ↔ RecordsCurrent m now ctx := by
  constructor
  · intro above
    refine ⟨fun limit asked => .inr (above.daily limit asked),
      fun inputs asked input mem counter listed => .inr ?_⟩
    have spent := above.services inputs asked input mem
    rw [AgentMandate.serviceSpent, Option.mem_def.mp listed] at spent
    exact spent
  · intro current
    refine ⟨fun limit asked => ?_, fun inputs asked input mem => ?_⟩
    · rcases current.daily limit asked with running | above
      · have enough := counted.daily limit asked
        rw [dailyCounted_eq, if_neg running] at enough
        exact enough
      · exact above
    · have enough := counted.services inputs asked input mem
      have each := current.services inputs asked input mem
      rw [serviceCounted_eq] at enough
      rw [AgentMandate.serviceSpent]
      cases listed : m.serviceLimit input.service with
      | none => exact UInt64.zero_le
      | some counter =>
        rw [listed] at enough
        rcases each counter listed with running | above
        · rw [Option.elim_some, if_neg running] at enough
          exact enough
        · exact above

/-- An adjustment never goes below what a pull would count, and it is judged by that alone exactly
when it is refused for it or the records it is judged by are current. -/
theorem adjustment_judged_iff (order : AdjustInOrder P w ctx loaded) :
    ((∃ w', adjustAgentMandate P w ctx = .ok w') →
      AboveCounted loaded.intoCurrent w.clock.unixTimestamp ctx) ∧
    (((∃ w', adjustAgentMandate P w ctx = .ok w') ↔
        AboveCounted loaded.intoCurrent w.clock.unixTimestamp ctx) ↔
      (AboveCounted loaded.intoCurrent w.clock.unixTimestamp ctx →
        RecordsCurrent loaded.intoCurrent w.clock.unixTimestamp ctx)) := by
  rw [order.accepted_iff]
  refine ⟨fun above => above.counted _, ?_⟩
  constructor
  · intro same counted
    exact (aboveRecord_iff counted).mp (same.mpr counted)
  · intro current
    exact ⟨fun above => above.counted _,
      fun counted => (aboveRecord_iff counted).mpr (current counted)⟩

open Deployment

def newDailyLimit (limit : UInt64) : AdjustAgentMandate where
  authority := subscriber
  agent := agent
  agentMandate := agentMandate
  mandateWrappedAccount := agentPayer
  wrappedUsdcMint := mintA
  dailyLimit := some limit
  lifetimeCap := none
  minPullAmount := none
  minPullInterval := none
  services := none

theorem AdjustInOrder.relimit {limit : UInt64}
    (order : AdjustInOrder P w (newDailyLimit limit) loaded) (other : UInt64) :
    AdjustInOrder P w (newDailyLimit other) loaded := by
  obtain ⟨config, token, _, opened, live, _, _, _, _, room⟩ := order
  exact ⟨config, token, rfl, opened, live, nofun, nofun, nofun, nofun, room⟩

def dayLater : Option World :=
  (createAgentMandate platform (agentWorld 0) agentOffer).toOption.bind fun created =>
    (applyAgentAction created (pullForMerchant 100)).bind fun pulled =>
      applyAgentAction pulled (tickAgent 86400)

theorem adjustment_judged_raised : ∃ (w : World) (loaded : LoadedAgentMandate),
    loaded.intoCurrent.dailySpent = 100 ∧
      ((∃ w', adjustAgentMandate platform w (newDailyLimit 100) = .ok w') ↔
        AboveCounted loaded.intoCurrent w.clock.unixTimestamp (newDailyLimit 100)) := by
  have later : dayLater.any (fun w =>
      (adjustAgentMandate platform w (newDailyLimit 100)).toOption.any fun _ =>
        (w.agentMandateAt agentMandate).map AgentMandate.dailySpent = some 100) = true := by
    decide +kernel
  simp only [Option.any_eq_true, toOption_eq_some, decide_eq_true_eq, Option.map_eq_some_iff]
    at later
  obtain ⟨w, _, w', adjusted, m, found, spent⟩ := later
  obtain ⟨loaded, order, _⟩ := AdjustInOrder.of_ok adjusted
  have stored := (loadAgentMandate_eq_ok (openAgentMandate_eq_ok order.opened)).1
  obtain rfl := Option.some.inj (found.symm.trans stored)
  refine ⟨w, loaded, spent, (adjustment_judged_iff order).2.mpr fun _ => ⟨?_, ?_⟩⟩
  · rintro limit ⟨⟩
    exact .inr (by rw [spent]; decide)
  · intro inputs given
    cases given

/-- A day after 100 were spent a limit of 50 is refused, although nothing counts any more. -/
theorem stale_spending_refuses : ¬∀ (P : Platform) (w : World) (ctx : AdjustAgentMandate)
    (loaded : LoadedAgentMandate), AdjustInOrder P w ctx loaded →
      ((∃ w', adjustAgentMandate P w ctx = .ok w') ↔
        AboveCounted loaded.intoCurrent w.clock.unixTimestamp ctx) := by
  intro judged
  have later : dayLater.any (fun w =>
      (adjustAgentMandate platform w (newDailyLimit 100)).toOption.any fun _ =>
        (adjustAgentMandate platform w (newDailyLimit 50)).toOption.isNone &&
          (w.agentMandateAt agentMandate).any fun m =>
            m.dailyCounted w.clock.unixTimestamp = 0) = true := by
    decide +kernel
  simp only [Option.any_eq_true, toOption_eq_some, Bool.and_eq_true, Option.isNone_iff_eq_none,
    decide_eq_true_eq] at later
  obtain ⟨w, _, w', adjusted, refused, m, found, counted⟩ := later
  obtain ⟨loaded, order, _⟩ := AdjustInOrder.of_ok adjusted
  have stored := (loadAgentMandate_eq_ok (openAgentMandate_eq_ok order.opened)).1
  obtain rfl := Option.some.inj (found.symm.trans stored)
  have above : AboveCounted loaded.intoCurrent w.clock.unixTimestamp (newDailyLimit 50) := by
    refine ⟨?_, nofun⟩
    rintro limit ⟨⟩
    rw [counted]
    exact UInt64.zero_le
  obtain ⟨w'', accepted⟩ := (judged platform w _ loaded (order.relimit 50)).mpr above
  rw [toOption_eq_some.mpr accepted] at refused
  cases refused

end VelaProtocol
