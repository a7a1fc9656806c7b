import VelaProtocol.Counters
import VelaProtocol.Deployment.Protocol
import VelaProtocol.Identity
import VelaProtocol.Leftovers

/-! No address serves two mandates or two streams, even one after the other, so nothing a closed
mandate leaves behind is ever accepted for another one. -/
namespace VelaProtocol

open Guard Monitored

variable {P : Platform} {w w' : World} {k : Pubkey}

theorem stores_of_load {loaded : LoadedMandateAccount}
    (load : loadValidMandate P w k = .ok loaded) : w.stores k .mandate := by
  rw [World.stores, loadValidMandate_currentMandate load]
  rfl

theorem stores_of_anchor {mandate : VelaMandate} (anchored : anchorVelaMandate w k = .ok mandate) :
    w.stores k .mandate := by
  obtain ⟨loaded, found, _⟩ := anchorVelaMandate_loaded anchored
  rw [World.stores, found]
  rfl

theorem stores_of_current {m : VelaMandate} (load : loadMandateAccount w k = .ok (.current m)) :
    w.stores k .mandate := by
  obtain ⟨account, found, _⟩ := loadMandateAccount_eq_ok load
  rw [World.stores, World.currentMandate, found]
  rfl

theorem names_stored {i : Instruction} (h : execute P w i = .ok w') (named : k ∈ i.mandates) :
    w.stores k .mandate ∨ w'.stores k .mandate := by
  have kept (stored : w.stores k .mandate) : w.stores k .mandate ∨ w'.stores k .mandate :=
    .inl stored
  cases i with
  | createPlan ctx => cases named
  | createUsagePlan ctx => cases named
  | updatePlan ctx => cases named
  | updateUsagePlan ctx => cases named
  | migratePlan plan => cases named
  | migrateMandate ctx =>
    obtain ⟨before, after, spec⟩ := migrateMandate_eq_ok h
    rcases List.mem_cons.mp named with rfl | new
    · rw [World.stores, spec.found]
      exact .inl rfl
    · rw [List.mem_singleton.mp new, World.stores, World.stores, spec.created]
      exact .inr rfl
  | subscribe ctx =>
    obtain rfl := List.mem_singleton.mp named
    obtain ⟨plan, mandate, spec⟩ := subscribe_eq_ok h
    rw [World.stores, World.stores, spec.created]
    exact .inr rfl
  | cancel ctx =>
    obtain rfl := List.mem_singleton.mp named
    obtain ⟨_, checked, _⟩ := bind_eq_ok.mp h
    obtain ⟨_, load, _⟩ := bind_eq_ok.mp checked
    exact kept (stores_of_load load)
  | adminCancel ctx =>
    obtain rfl := List.mem_singleton.mp named
    iterate 2 obtain ⟨_, _, h⟩ := bind_eq_ok.mp h
    obtain ⟨_, checked, _⟩ := bind_eq_ok.mp h
    obtain ⟨_, load, _⟩ := bind_eq_ok.mp checked
    exact kept (stores_of_load load)
  | closeMandate ctx =>
    obtain rfl := List.mem_singleton.mp named
    obtain ⟨_, load, _⟩ := bind_eq_ok.mp h
    exact kept (stores_of_load load)
  | updateMandate ctx =>
    obtain rfl := List.mem_singleton.mp named
    obtain ⟨_, _, h⟩ := bind_eq_ok.mp h
    obtain ⟨_, load, _⟩ := bind_eq_ok.mp h
    exact kept (stores_of_load load)
  | updateMandatePlan ctx =>
    obtain rfl := List.mem_singleton.mp named
    obtain ⟨s, checked, _⟩ := bind_eq_ok.mp h
    exact kept (stores_of_current (checkPlanSwitch_current checked))
  | schedulePlanChange ctx =>
    obtain rfl := List.mem_singleton.mp named
    obtain ⟨s, checked, _⟩ := bind_eq_ok.mp h
    exact kept (stores_of_current (checkScheduling_current checked))
  | cancelPlanChange ctx =>
    obtain rfl := List.mem_singleton.mp named
    obtain ⟨_, _, h⟩ := bind_eq_ok.mp h
    obtain ⟨loaded, load, h⟩ := bind_eq_ok.mp h
    obtain ⟨current, _⟩ := require_bind_eq_ok.mp h
    obtain ⟨m, rfl⟩ := isLegacy_eq_false current
    exact kept (stores_of_current load)
  | requestValidation ctx =>
    obtain rfl := List.mem_singleton.mp named
    obtain ⟨_, checked, _⟩ := bind_eq_ok.mp h
    obtain ⟨_, load, _⟩ := bind_eq_ok.mp checked
    exact kept (stores_of_load load)
  | validateMandateCallback ctx =>
    obtain rfl := List.mem_singleton.mp named
    obtain ⟨_, anchored, _⟩ := bind_eq_ok.mp h
    exact kept (stores_of_anchor anchored)
  | submitUsageReport ctx =>
    obtain rfl := List.mem_singleton.mp named
    obtain ⟨_, _, h⟩ := bind_eq_ok.mp h
    obtain ⟨_, load, _⟩ := bind_eq_ok.mp h
    exact kept (stores_of_load load)
  | requestUsageComputation ctx =>
    obtain rfl := List.mem_singleton.mp named
    obtain ⟨_, checked, _⟩ := bind_eq_ok.mp h
    iterate 3 obtain ⟨_, _, checked⟩ := bind_eq_ok.mp checked
    obtain ⟨_, load, _⟩ := bind_eq_ok.mp checked
    exact kept (stores_of_load load)
  | usageChargeCallback ctx =>
    obtain rfl := List.mem_singleton.mp named
    obtain ⟨_, anchored, _⟩ := bind_eq_ok.mp h
    exact kept (stores_of_anchor anchored)
  | executePull ctx =>
    obtain rfl := List.mem_singleton.mp named
    obtain ⟨s, prepared, _⟩ := bind_eq_ok.mp h
    obtain ⟨account, found, _⟩ :=
      loadMandateAccount_eq_ok (checkPull_load (prepareSettlement_pull prepared).1)
    refine kept ?_
    rw [World.stores, World.currentMandate, found]
    rfl
  | requestBillingRecord ctx =>
    obtain rfl := List.mem_singleton.mp named
    obtain ⟨_, _, h⟩ := bind_eq_ok.mp h
    obtain ⟨_, checked, _⟩ := bind_eq_ok.mp h
    obtain ⟨_, load, _⟩ := bind_eq_ok.mp checked
    exact kept (stores_of_load load)
  | recordBillingEventCallback ctx =>
    obtain rfl := List.mem_singleton.mp named
    obtain ⟨_, anchored, _⟩ := bind_eq_ok.mp h
    exact kept (stores_of_anchor anchored)

/-- An address at which something was ever opened is an address of opened seeds. -/
def Used (P : Platform) (opened : List Seeds) (k : Pubkey) : Prop :=
  ∃ seeds ∈ opened, (P.findProgramAddress seeds).1 = k

theorem Placed.appears {a : ProtocolAction} {opened : List Seeds} (kind : Custody)
    (placed : Placed P w opened) (step : ProtocolStep P w a w') (lawful : Lawful P opened w a w')
    (absent : ¬w.stores k kind) (stored : w'.stores k kind) : ¬Used P opened k := by
  rintro ⟨seeds, used, address⟩
  have population := protocol_population step
  rcases population.origin k kind stored with before | ⟨seeds', opens, _, address'⟩
  · exact absent before
  · have new : seeds' ∈ .mintAuthority :: ((a.opens w).toList ++ opened) :=
      List.mem_cons_of_mem _ (List.mem_append_left _ (Option.mem_toList.mpr opens))
    have old : seeds ∈ .mintAuthority :: ((a.opens w).toList ++ opened) :=
      List.mem_cons_of_mem _ (List.mem_append_right _ used)
    obtain rfl := lawful.2 seeds' new seeds old (address'.trans address.symm)
    exact placed.fresh (population.opening seeds' opens) used

theorem Used.step {a : ProtocolAction} {opened : List Seeds} (used : Used P opened k) :
    Used P (watchSeeds opened w a w') k := by
  obtain ⟨seeds, mem, address⟩ := used
  exact ⟨seeds, List.mem_append_right _ mem, address⟩

theorem Used.grows {x y : World × List Seeds} (used : Used P x.2 k) (run : ProtocolRun P x y) :
    Used P y.2 k :=
  run.invariant (fun _ opened => Used P opened k) used fun _ _ _ _ used _ _ => used.step

theorem Placed.used {opened : List Seeds} {kind : Custody} (placed : Placed P w opened)
    (stored : w.stores k kind) : Used P opened k := by
  obtain ⟨seeds, mem, _, address⟩ := placed.held k kind stored
  exact ⟨seeds, mem, address⟩

/-- A later state has at a used address the mandate that was there, or none. -/
structure Lasting (P : Platform) (before : MandateAccount) (k : Pubkey) (w : World)
    (opened : List Seeds) : Prop where
  placed : Placed P w opened
  used : Used P opened k
  same : ∀ after, w.mandate k = some after → SameIdentity before.contents after.contents

theorem Lasting.step {before : MandateAccount} {opened : List Seeds} {a : ProtocolAction}
    (lasting : Lasting P before k w opened) (step : ProtocolStep P w a w')
    (lawful : Lawful P opened w a w') : Lasting P before k w' (watchSeeds opened w a w') := by
  obtain ⟨placed, used, same⟩ := lasting
  refine ⟨placed.step (protocol_population step) lawful, used.step, fun after present => ?_⟩
  cases protocol_originates step k after present with
  | kept old found identity => exact (same old found).trans identity
  | opened m vacant layout version address =>
    refine absurd used (placed.appears .mandate step lawful ?_ ?_)
    · rw [World.stores, World.currentMandate, vacant]
      decide
    · rw [World.stores, World.currentMandate, present]
      rfl

structure IdentitiesKept (P : Platform) (v w : World) (opened : List Seeds) : Prop where
  mandateCounter : ∀ merchant, v.mandateCounter merchant ≤ w.mandateCounter merchant
  streamCounter : ∀ merchant, v.streamCounter merchant ≤ w.streamCounter merchant
  /-- an address that holds a mandate at both ends holds the same one -/
  same : ∀ k before after, v.mandate k = some before → w.mandate k = some after →
    SameIdentity before.contents after.contents
  /-- what the next step opens lies where nothing lay at `v` -/
  fresh : ∀ a w' k kind, ProtocolStep P w a w' → Lawful P opened w a w' → ¬w.stores k kind →
    w'.stores k kind → ∀ kind', ¬v.stores k kind'
  /-- nothing a closed mandate left behind is accepted, or even looked at, by a step that
  succeeds -/
  leftovers : ∀ k i w', v.stores k .mandate → ¬w.stores k .mandate →
    Lawful P opened w (.instruction (.billing i)) w' → execute P w i = .ok w' →
    k ∉ i.mandates ∧ execute P (w.forget k) i = .ok (w'.forget k)

/-- No address serves two mandates or two streams, and no merchant's counters go back. -/
theorem identity_never_reused {x : World × List Seeds} {v : World} {opened opened' : List Seeds}
    (start : Placed P x.1 x.2) (before : ProtocolRun P x (v, opened))
    (later : ProtocolRun P (v, opened) (w, opened')) : IdentitiesKept P v w opened' := by
  have placed : Placed P v opened := before.placed start
  have placed' : Placed P w opened' := later.placed placed
  have fresh : ∀ a w' k kind, ProtocolStep P w a w' → Lawful P opened' w a w' →
      ¬w.stores k kind → w'.stores k kind → ∀ kind', ¬v.stores k kind' := by
    intro a w' k kind step lawful absent stored kind' old
    exact placed'.appears _ step lawful absent stored ((placed.used old).grows later)
  constructor
  case mandateCounter =>
    intro merchant
    refine later.invariant (fun w _ => v.mandateCounter merchant ≤ w.mandateCounter merchant)
      (le_refl _) fun _ _ _ _ counted step _ => ?_
    exact counted.trans ((protocol_population step).counter merchant)
  case streamCounter =>
    intro merchant
    refine later.invariant (fun w _ => v.streamCounter merchant ≤ w.streamCounter merchant)
      (le_refl _) fun _ _ _ _ counted step _ => ?_
    exact counted.trans (protocol_streams step merchant)
  case same =>
    intro k old new found present
    have stored : v.stores k .mandate := by
      rw [World.stores, World.currentMandate, found]
      rfl
    have lasting : Lasting P old k v opened := by
      refine ⟨placed, placed.used stored, fun after here => ?_⟩
      obtain rfl := Option.some.inj (found.symm.trans here)
      exact .refl _
    exact (later.invariant (Lasting P old k) lasting fun _ _ _ _ holds step lawful =>
      holds.step step lawful).same new present
  case fresh => exact fresh
  case leftovers =>
    intro k i w' old closed lawful ok
    have apart : k ∉ i.mandates := by
      intro named
      rcases names_stored ok named with here | opens
      · exact closed here
      · exact fresh (.instruction (.billing i)) w' k .mandate ok lawful closed opens .mandate old
    refine ⟨apart, ?_⟩
    rw [execute_forget apart, ok]
    rfl

section Witness
open Deployment

def closeBySubscriber : ProtocolAction :=
  .instruction (.billing (.closeMandate {
    authority := subscriber
    subscriber := subscriber
    mandate := mandate }))

theorem identity_never_reused_closed : ∃ v w opened, v.stores mandate .mandate ∧
    ¬w.stores mandate .mandate ∧ w.mandateCounter merchant = 1 ∧
      IdentitiesKept platform v w opened := by
  have played : (play (applyProtocol platform) watchSeeds Plain (world 0, [])
      ([offerFlat 0 100 3600 0 12 mintA, subscribeFlat].map ofBilling)).any (fun x =>
        (x.1.currentMandate mandate).isSome &&
        (play (applyProtocol platform) watchSeeds Plain x
          [ofBilling cancelBySubscriber, closeBySubscriber]).any fun y =>
            !(y.1.currentMandate mandate).isSome && decide (y.1.mandateCounter merchant = 1)) =
      true := by
    decide +kernel
  simp only [Option.any_eq_true, Bool.and_eq_true, decide_eq_true_eq, Bool.not_eq_true'] at played
  obtain ⟨⟨v, opened⟩, script, stored, ⟨w, opened'⟩, rest, gone, counted⟩ := played
  have start : Placed platform (world 0) [] := placed_empty rfl rfl rfl
  refine ⟨v, w, opened', stored, ?_, counted,
    identity_never_reused start (protocol_script script) (protocol_script rest)⟩
  rw [World.stores, gone]
  decide

end Witness

end VelaProtocol
