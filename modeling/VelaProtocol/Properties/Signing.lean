import VelaProtocol.Deployment.Protocol
import VelaProtocol.Identity

/-! A mandate can always sign for its own token account: the seeds a pull or a plan change picks
derive its address, whatever plans it went through. -/
namespace VelaProtocol

open Guard Monitored

variable {P : Platform} {w w₀ w' : World} {k : Pubkey}

structure Derives (P : Platform) (seeds : Seeds) (bump : UInt8) (k : Pubkey) : Prop where
  find : P.findProgramAddress seeds = (k, bump)
  create : P.createProgramAddress seeds bump = some k

theorem Derives.of_find {seeds : Seeds} {bump : UInt8}
    (find : P.findProgramAddress seeds = (k, bump)) : Derives P seeds bump k := by
  refine ⟨find, ?_⟩
  have create := P.create_find seeds
  rwa [find] at create

/-- A mandate at the address of the seeds its layout signs with. -/
structure SelfAddressed (P : Platform) (k : Pubkey) (loaded : LoadedMandateAccount) : Prop where
  version : loaded.intoCurrent.version = currentAccountVersion
  seeds : Derives P (billingSeeds loaded.intoCurrent loaded.isLegacy) loaded.intoCurrent.bump k

/-- What the program found when it was deployed: mandates of the layout before it, each at the
address its subscriber and plan derive. -/
def Inherited (P : Platform) (w : World) : Prop :=
  ∀ k account, w.mandate k = some account → ∃ old, account.contents = .legacy old ∧
    P.findProgramAddress (.legacyMandate old.subscriber old.plan) = (k, old.bump)

theorem SameIdentity.selfAddressed {before after : LoadedMandateAccount}
    (same : SameIdentity before after) (addressed : SelfAddressed P k before) :
    SelfAddressed P k after := by
  refine ⟨same.version addressed.version, ?_⟩
  have seeds : billingSeeds after.intoCurrent after.isLegacy =
      billingSeeds before.intoCurrent before.isLegacy := by
    rw [billingSeeds, billingSeeds, same.layout]
    cases legacy : before.isLegacy with
    | true => simp only [if_true, same.subscriber, same.plan legacy]
    | false =>
      simp only [Bool.false_eq_true, if_false, VelaMandate.signerSeeds, same.subscriber,
        same.merchant, same.mandateIndex]
  rw [seeds, same.bump]
  exact addressed.seeds

theorem Origin.selfAddressed {loaded : LoadedMandateAccount} (origin : Origin P w k loaded)
    (all : ∀ k account, w.mandate k = some account → SelfAddressed P k account.contents) :
    SelfAddressed P k loaded := by
  cases origin with
  | kept before found same => exact same.selfAddressed (all k before found)
  | opened m vacant layout version address =>
    rw [layout]
    exact ⟨version, .of_find address⟩

theorem reachable_selfAddressed (start : Inherited P w₀)
    (run : Relation.ReflTransGen (fun v v' => ∃ a, ProtocolStep P v a v') w₀ w) :
    ∀ k account, w.mandate k = some account → SelfAddressed P k account.contents := by
  induction run with
  | refl =>
    intro k account found
    obtain ⟨old, layout, address⟩ := start k account found
    rw [layout]
    exact ⟨rfl, .of_find address⟩
  | tail _ last ih =>
    obtain ⟨a, step⟩ := last
    intro k account found
    exact (protocol_originates step k account found).selfAddressed ih

theorem SelfAddressed.loads {account : MandateAccount} (found : w.mandate k = some account)
    (addressed : SelfAddressed P k account.contents) :
    loadValidMandate P w k = .ok account.contents := by
  obtain ⟨version, seeds⟩ := addressed
  have load : loadMandateAccount w k = .ok account.contents := by
    simp only [loadMandateAccount, found]
    cases layout : account.contents with
    | legacy old => rfl
    | current m =>
      rw [layout] at version
      exact require_bind_eq_ok.mpr ⟨version, rfl⟩
  refine bind_eq_ok.mpr ⟨_, load, bind_eq_ok.mpr ⟨(), ?_, rfl⟩⟩
  have address := (congrArg Prod.fst seeds.find).symm
  cases layout : account.contents with
  | legacy old =>
    rw [layout] at address
    exact require_of _ address
  | current m =>
    rw [layout] at address
    exact require_of _ (.inl address)

theorem loaded_unique {loaded : LoadedMandateAccount} {account : MandateAccount}
    (found : w.mandate k = some account) (load : loadMandateAccount w k = .ok loaded) :
    loaded = account.contents := by
  obtain ⟨stored, present, rfl, _⟩ := loadMandateAccount_eq_ok load
  rw [Option.some.inj (present.symm.trans found)]

theorem SelfAddressed.signs_pull {account : MandateAccount} {ctx : ExecutePull} {s : Settlement}
    (found : w.mandate k = some account) (addressed : SelfAddressed P k account.contents)
    (key : ctx.mandate = k) (prepared : prepareSettlement P w ctx = .ok s) :
    Derives P (billingSeeds s.terms.mandate s.pull.loaded.isLegacy) s.terms.mandate.bump k := by
  obtain ⟨checked, terms⟩ := prepareSettlement_pull prepared
  have read : s.pull.loaded = account.contents := loaded_unique found (key ▸ checkPull_load checked)
  have billed : s.terms.mandate.Rewrites s.pull.loaded := terms.rewrites
  have same := billed.sameIdentity
  have kept : SelfAddressed P k (mandateLayout s.terms.mandate s.pull.loaded.isLegacy) :=
    same.selfAddressed (read ▸ addressed)
  cases layout : s.pull.loaded.isLegacy with
  | true =>
    rw [layout] at kept
    exact kept.seeds
  | false =>
    rw [layout] at kept
    exact kept.seeds

theorem SelfAddressed.signs_change {account : MandateAccount} {ctx : UpdateMandatePlan}
    {s : PlanSwitch}
    (found : w.mandate k = some account) (addressed : SelfAddressed P k account.contents)
    (key : ctx.mandate = k) (checked : checkPlanSwitch P w ctx = .ok s) :
    Derives P s.mandate.signerSeeds s.mandate.bump k := by
  have read : .current s.mandate = account.contents :=
    loaded_unique found (key ▸ checkPlanSwitch_current checked)
  rw [← read] at addressed
  exact addressed.seeds

/-- The mandate at `k` passes the checks of every instruction and its own seeds sign for it. -/
structure SignsForItself (P : Platform) (w : World) (k : Pubkey) (loaded : LoadedMandateAccount) :
    Prop where
  loads : loadValidMandate P w k = .ok loaded
  pull : ∀ ctx s, ctx.mandate = k → prepareSettlement P w ctx = .ok s →
    Derives P (billingSeeds s.terms.mandate s.pull.loaded.isLegacy) s.terms.mandate.bump k
  change : ∀ ctx s, ctx.mandate = k → checkPlanSwitch P w ctx = .ok s →
    Derives P s.mandate.signerSeeds s.mandate.bump k

def WhileStored (P : Platform) (k : Pubkey) : World → World → Prop :=
  Relation.ReflTransGen fun v v' => (∃ a, ProtocolStep P v a v') ∧ (v'.mandate k).isSome = true

theorem whileStored_identity {account : MandateAccount} (found : w.mandate k = some account)
    (run : WhileStored P k w w') :
    ∃ after, w'.mandate k = some after ∧ SameIdentity account.contents after.contents := by
  induction run with
  | refl => exact ⟨account, found, .refl _⟩
  | tail _ last ih =>
    obtain ⟨before, stored, same⟩ := ih
    obtain ⟨⟨a, step⟩, stays⟩ := last
    obtain ⟨after, present⟩ := Option.isSome_iff_exists.mp stays
    refine ⟨after, present, ?_⟩
    cases protocol_originates step k after present with
    | kept old found same' =>
      rw [Option.some.inj (found.symm.trans stored)] at same'
      exact same.trans same'
    | opened m vacant layout version address => exact absurd (stored.symm.trans vacant) nofun

/-- Whatever happened since deployment, a stored mandate is accepted at its address, signs for it,
and keeps the identity it has for as long as its account lives. -/
theorem mandate_signs_for_itself {account : MandateAccount} (start : Inherited P w₀)
    (run : Relation.ReflTransGen (fun v v' => ∃ a, ProtocolStep P v a v') w₀ w)
    (stored : w.mandate k = some account) :
    SignsForItself P w k account.contents ∧
      ∀ w', WhileStored P k w w' → ∃ after, w'.mandate k = some after ∧
        SameIdentity account.contents after.contents := by
  have addressed := reachable_selfAddressed start run k account stored
  refine ⟨⟨addressed.loads stored, ?_, ?_⟩, fun w' later => whileStored_identity stored later⟩
  · exact fun ctx s key prepared => addressed.signs_pull stored key prepared
  · exact fun ctx s key checked => addressed.signs_change stored key checked

section Witness
open Deployment

theorem mandate_signs_for_itself_switched : ∃ w account,
    w.mandate mandate = some account ∧ account.contents.intoCurrent.plan = flatPlan 1 ∧
      SignsForItself platform w mandate account.contents := by
  have played : (play (applyProtocol platform) watchSeeds Plain (world 0, [])
      ([offerFlat 0 100 3600 0 12 mintA, offerFlat 1 50 3600 0 12 mintA, subscribeFlat,
        switch subscriber (flatPlan 1) mintA].map ofBilling)).any (fun x =>
        (x.1.mandate mandate).any fun account =>
          decide (account.contents.intoCurrent.plan = flatPlan 1)) = true := by
    decide +kernel
  simp only [Option.any_eq_true, decide_eq_true_eq] at played
  obtain ⟨⟨w, opened⟩, script, account, stored, plan⟩ := played
  have start : Inherited platform (world 0) := by
    intro k account stored
    cases stored
  have run := (protocol_script script).forget
  exact ⟨w, account, stored, plan, (mandate_signs_for_itself start run stored).1⟩

end Witness

end VelaProtocol
