import Mathlib.Data.FinEnum
import Mathlib.Data.Set.Card
import VelaProtocol.Credentials
import VelaProtocol.Properties.Signing

/-! A subscriber who holds, for every credential mint, one credential for each active mandate that
resolves to it can cancel every one of them. -/
namespace VelaProtocol

open Guard Monitored

section Departures

variable {P : Platform} {w w' : World} {k key subscriber credential : Pubkey}

def World.credentialOf (P : Platform) (w : World) (planKey : Pubkey) : Option Pubkey :=
  (loadPlanAccount P w planKey).toOption.map fun plan =>
    resolveMerchantCredentialMint w plan.merchant plan.credentialMint

theorem credentialOf_of_load {plan : LoadedPlanAccount}
    (load : loadPlanAccount P w key = .ok plan) :
    w.credentialOf P key =
      some (resolveMerchantCredentialMint w plan.merchant plan.credentialMint) := by
  rw [World.credentialOf, load]
  rfl

theorem credentialOf_eq_some (resolved : w.credentialOf P key = some credential) :
    ∃ plan, loadPlanAccount P w key = .ok plan ∧
      resolveMerchantCredentialMint w plan.merchant plan.credentialMint = credential := by
  obtain ⟨plan, loaded, same⟩ := Option.map_eq_some_iff.mp resolved
  exact ⟨plan, toOption_eq_some.mp loaded, same⟩

theorem resolve_congr {merchant mint : Pubkey}
    (same : w'.merchantCredential merchant = w.merchantCredential merchant) :
    resolveMerchantCredentialMint w' merchant mint =
      resolveMerchantCredentialMint w merchant mint := by
  rw [resolve_merchantCredential, resolve_merchantCredential, same]

theorem credentialOf_kept {plan : LoadedPlanAccount} (terms : CredentialTerms P w w')
    (load : loadPlanAccount P w key = .ok plan) :
    w'.credentialOf P key = w.credentialOf P key := by
  obtain ⟨after, loaded, same⟩ := terms.plans key plan load
  rw [credentialOf_of_load load, credentialOf_of_load loaded, same.merchant, same.credentialMint,
    resolve_congr (congrFun terms.merchants _)]

/-- The active mandates of a subscriber that are cancelled with this credential. -/
def World.heldBack (P : Platform) (w : World) (subscriber credential : Pubkey) : Set Pubkey :=
  {k | ∃ m, w.currentMandate k = some m ∧ m.subscriber = subscriber ∧ m.status = .active ∧
    w.credentialOf P m.plan = some credential}

def Planned (P : Platform) (w : World) (m : VelaMandate) : Prop :=
  ∃ plan, loadPlanAccount P w m.plan = .ok plan ∧ plan.billingType = m.billingType ∧
    plan.merchant = m.merchant

theorem Planned.kept {m : VelaMandate} (planned : Planned P w m) (terms : CredentialTerms P w w') :
    Planned P w' m := by
  obtain ⟨plan, load, billingType, merchant⟩ := planned
  obtain ⟨after, loaded, same⟩ := terms.plans _ plan load
  exact ⟨after, loaded, same.billingType.trans billingType, same.merchant.trans merchant⟩

theorem Planned.of_same {m after : VelaMandate} (planned : Planned P w m)
    (plan : after.plan = m.plan) (billingType : after.billingType = m.billingType)
    (merchant : after.merchant = m.merchant) : Planned P w after := by
  rw [Planned, plan, billingType, merchant]
  exact planned

def World.nextPlan (w : World) (m : VelaMandate) : Option MandateCall → Pubkey
  | some (.updateMandatePlan ctx) => ctx.newPlan
  | some (.executePull _) =>
    if m.changeDue w.clock.unixTimestamp then m.pendingNewPlan else m.plan
  | _ => m.plan

structure Continues (P : Platform) (w : World) (call : Option MandateCall)
    (before after : VelaMandate) : Prop where
  subscriber : after.subscriber = before.subscriber
  merchant : after.merchant = before.merchant
  plan : after.plan = w.nextPlan before call
  planned : Planned P w before → Planned P w after
  live : after.status = .active → before.status = .active

theorem Continues.of_terms {call : Option MandateCall} {before after : VelaMandate}
    (terms : before.SameTerms after) (stays : w.nextPlan before call = before.plan) :
    Continues P w call before after := by
  have plan : after.plan = before.plan := by rw [terms.rest]
  have merchant : after.merchant = before.merchant := by rw [terms.rest]
  refine ⟨by rw [terms.rest], merchant, plan.trans stays.symm, fun planned => ?_, terms.live⟩
  exact planned.of_same plan (by rw [terms.rest]) merchant

theorem Inert.continues {call : Option MandateCall} {after : VelaMandate} (inert : Inert w w' k)
    (present : w'.currentMandate k = some after)
    (stays : ∀ before, w.nextPlan before call = before.plan) :
    ∃ before, w.currentMandate k = some before ∧ Continues P w call before after := by
  cases inert with
  | gone lost => exact absurd (present.symm.trans lost) nofun
  | kept before _ found still terms =>
    obtain rfl := Option.some.inj (still.symm.trans present)
    exact ⟨before, found, .of_terms terms (stays before)⟩

theorem prepareSettlement_merchant {ctx : ExecutePull} {s : Settlement}
    (h : prepareSettlement P w ctx = .ok s) (due : s.pull.mandate.changeDue w.clock.unixTimestamp) :
    s.terms.plan.merchant = s.pull.mandate.merchant := by
  obtain ⟨pull, _, h⟩ := bind_eq_ok.mp h
  obtain ⟨report, _, h⟩ := bind_eq_ok.mp h
  obtain ⟨terms, applied, h⟩ := bind_eq_ok.mp h
  iterate 3 obtain ⟨_, _, h⟩ := bind_eq_ok.mp h
  cases h
  unfold applyPending at applied
  rw [if_pos due] at applied
  obtain ⟨pending, load, applied⟩ := bind_eq_ok.mp applied
  cases applied
  obtain ⟨_, _, load⟩ := bind_eq_ok.mp load
  obtain ⟨_, _, load⟩ := bind_eq_ok.mp load
  obtain ⟨_, _, load⟩ := bind_eq_ok.mp load
  obtain ⟨merchant, load⟩ := require_bind_eq_ok.mp load
  iterate 3 obtain ⟨_, _, load⟩ := bind_eq_ok.mp load
  cases load
  exact merchant

theorem executePull_continues {ctx : ExecutePull} (h : executePull P w ctx = .ok w') :
    ∃ before after, w.currentMandate ctx.mandate = some before ∧
      w'.currentMandate ctx.mandate = some after ∧
      Continues P w (some (.executePull ctx)) before after := by
  obtain ⟨s, after, spec, prepared, _⟩ := executePull_advances h
  have active := spec.checked.pull.active
  have rest := spec.advanced.rest
  refine ⟨s.pull.mandate, after, spec.checked.pull.found, spec.written, ?_⟩
  cases spec.checked.terms with
  | asIs undue mandate_eq plan_eq =>
    have same : after.subscriber = s.pull.mandate.subscriber ∧
        after.merchant = s.pull.mandate.merchant ∧ after.plan = s.pull.mandate.plan ∧
        after.billingType = s.pull.mandate.billingType := by
      rw [rest, mandate_eq]
      exact ⟨rfl, rfl, rfl, rfl⟩
    obtain ⟨subscriber, merchant, plan, billingType⟩ := same
    refine ⟨subscriber, merchant, plan.trans (if_neg undue).symm,
      fun planned => ?_, fun _ => active⟩
    exact planned.of_same plan billingType merchant
  | switched applied mandate_eq =>
    have same : after.subscriber = s.pull.mandate.subscriber ∧
        after.merchant = s.pull.mandate.merchant ∧ after.plan = s.pull.mandate.pendingNewPlan ∧
        after.billingType = s.terms.plan.billingType := by
      rw [rest, mandate_eq]
      exact ⟨rfl, rfl, rfl, rfl⟩
    obtain ⟨subscriber, merchant, plan, billingType⟩ := same
    refine ⟨subscriber, merchant, plan.trans (if_pos applied.due).symm,
      fun _ => ?_, fun _ => active⟩
    refine ⟨s.terms.plan, plan ▸ applied.loaded, billingType.symm, ?_⟩
    exact (prepareSettlement_merchant prepared applied.due).trans merchant.symm

def MandateCall.opens : MandateCall → Bool
  | .subscribe _ => true
  | .migrateMandate _ => true
  | _ => false

theorem instruction_continues {i : Instruction} {after : VelaMandate}
    (h : execute P w i = .ok w')
    (other : ∀ c ∈ Action.call k (.instruction i), c.opens = false)
    (present : w'.currentMandate k = some after) :
    ∃ before, w.currentMandate k = some before ∧
      Continues P w (Action.call k (.instruction i)) before after := by
  have step := instruction_mandateStep k h
  generalize called : Action.call k (.instruction i) = call at step other
  cases step with
  | inert same quiet requests => exact same.continues present fun _ => rfl
  | subscribed ctx plan created key spec => exact absurd (other _ rfl) nofun
  | migrated ctx before after key spec => exact absurd (other _ rfl) nofun
  | samePlan ctx s key checked plan unchanged =>
    subst unchanged
    obtain rfl := Option.some.inj (checked.found.symm.trans (key ▸ present))
    exact ⟨s.mandate, present, rfl, rfl, plan, id, id⟩
  | switched ctx s delta priced key spec =>
    obtain rfl := Option.some.inj (spec.written.symm.trans (key ▸ present))
    have same : priced.subscriber = s.mandate.subscriber ∧
        priced.merchant = s.mandate.merchant := by
      rw [spec.settled.rest]
      exact ⟨rfl, rfl⟩
    refine ⟨s.mandate, key ▸ spec.checked.found, same.1, same.2, rfl, fun _ => ?_,
      fun _ => spec.checked.active⟩
    exact ⟨s.newPlan, spec.checked.newPlan, rfl, spec.checked.merchant.trans same.2.symm⟩
  | alreadyScheduled ctx s key checked unchanged =>
    subst unchanged
    exact ⟨after, present, rfl, rfl, rfl, id, id⟩
  | scheduled ctx s nonce key checked changed written frame =>
    obtain rfl := Option.some.inj (written.symm.trans present)
    exact ⟨s.mandate, key ▸ checked.found, rfl, rfl, rfl, id, id⟩
  | dropped ctx mandate key spec =>
    obtain rfl := Option.some.inj (spec.written.symm.trans (key ▸ present))
    exact ⟨mandate, key ▸ spec.found, rfl, rfl, rfl, id, id⟩
  | pulled ctx s next key spec =>
    have pull : i = .executePull ctx := by
      cases i <;> simp only [Action.call, Option.ite_none_right_eq_some, Option.some.injEq,
        reduceCtorEq, MandateCall.executePull.injEq, and_false] at called
      rw [called.2]
    subst pull
    obtain ⟨before, last, found, written, continues⟩ := executePull_continues h
    obtain rfl := Option.some.inj (written.symm.trans (key ▸ present))
    exact ⟨before, key ▸ found, continues⟩
  | requested ctx mandate plan key spec =>
    exact Inert.continues (key ▸ spec.inert) present fun _ => rfl
  | answered ctx mandate result key flat output spec =>
    exact spec.inert.continues present fun _ => rfl

/-- Every credential that is handed out stays with its holder. -/
structure Minted (P : Platform) (w : World) : Prop where
  merchants : ∀ merchant, w.merchantCredential merchant ≠ Pubkey.default →
    Untransferable w (w.merchantCredential merchant)
  plans : ∀ key credential, w.credentialOf P key = some credential → Untransferable w credential

theorem Minted.kept (minted : Minted P w) (terms : CredentialTerms P w w') : Minted P w' where
  merchants merchant set := by
    rw [terms.merchants] at set ⊢
    exact terms.mints _ (minted.merchants merchant set)
  plans key credential resolved := by
    obtain ⟨after, load, same⟩ := credentialOf_eq_some resolved
    rw [resolve_congr (congrFun terms.merchants _)] at same
    refine terms.mints _ ?_
    cases terms.offered key after load with
    | kept before loaded alike =>
      rw [alike.merchant, alike.credentialMint] at same
      exact minted.plans key credential (same ▸ credentialOf_of_load loaded)
    | new set offers =>
      rw [resolve_merchantCredential, if_pos set] at same
      exact same ▸ minted.merchants _ set

/-- Each mandate lies at its own address and is on a plan that fits it, and the subscriber holds a
credential for each active one. -/
structure Provided (P : Platform) (w : World) (subscriber : Pubkey) : Prop where
  addressed : ∀ k account, w.mandate k = some account → SelfAddressed P k account.contents
  planned : ∀ k m, w.currentMandate k = some m → m.status = .active → Planned P w m
  minted : Minted P w
  enough : ∀ credential,
    (w.heldBack P subscriber credential).ncard ≤ w.credentials P subscriber credential

/-- The call leaves a mandate of the subscriber on a plan with the same credential. -/
def KeepsCredentialMint (P : Platform) (subscriber : Pubkey) (w : World) (k : Pubkey)
    (call : MandateCall) :
    Prop :=
  ∀ m ∈ w.currentMandate k, m.subscriber = subscriber →
    w.credentialOf P (w.nextPlan m (some call)) = w.credentialOf P m.plan

theorem billing_terms {i : Instruction} (h : execute P w i = .ok w') : CredentialTerms P w w' := by
  by_cases credentialed : i.credentialed = true
  · cases i with
    | subscribe ctx =>
      obtain ⟨_, _, spec⟩ := subscribe_minted h
      exact spec.terms
    | cancel ctx =>
      obtain ⟨_, _, spec⟩ := cancel_debited h
      exact spec.terms
    | adminCancel ctx =>
      obtain ⟨_, _, spec⟩ := adminCancel_debited h
      exact spec.terms
    | _ => cases credentialed
  · exact (billing_undisturbed (Bool.eq_false_iff.mpr credentialed) h).toCredentialTerms

section Step

variable {i : Instruction} (provided : Provided P w subscriber) (h : execute P w i = .ok w')
  (keeps : OnEveryMandate (KeepsCredentialMint P subscriber) w (.instruction i))

include provided h

theorem planned_after {after : VelaMandate}
    (other : ∀ c ∈ Action.call k (.instruction i), c.opens = false)
    (present : w'.currentMandate k = some after) (active : after.status = .active) :
    Planned P w' after := by
  obtain ⟨before, found, continues⟩ := instruction_continues h other present
  have planned := provided.planned k before found (continues.live active)
  exact (continues.planned planned).kept (billing_terms h)

include keeps

theorem heldBack_before (other : ∀ c ∈ Action.call k (.instruction i), c.opens = false)
    (member : k ∈ w'.heldBack P subscriber credential) :
    k ∈ w.heldBack P subscriber credential := by
  obtain ⟨after, present, mine, active, resolved⟩ := member
  obtain ⟨before, found, continues⟩ := instruction_continues h other present
  have live := continues.live active
  obtain ⟨plan, load, _⟩ := continues.planned (provided.planned k before found live)
  rw [credentialOf_kept (billing_terms h) load, continues.plan] at resolved
  have mine : before.subscriber = subscriber := continues.subscriber.symm.trans mine
  refine ⟨before, found, mine, live, ?_⟩
  cases called : Action.call k (.instruction i) with
  | none =>
    rw [called] at resolved
    exact resolved
  | some call =>
    rw [called] at resolved
    have same := keeps (k, call) (Action.call_target called) before found mine
    exact same.symm.trans resolved

theorem heldBack_le (other : ∀ k, ∀ c ∈ Action.call k (.instruction i), c.opens = false) :
    (w'.heldBack P subscriber credential).ncard ≤ (w.heldBack P subscriber credential).ncard :=
  Set.ncard_le_ncard fun k member => heldBack_before provided h keeps (other k) member

end Step

theorem Provided.continued {i : Instruction} (provided : Provided P w subscriber)
    (h : execute P w i = .ok w')
    (other : ∀ k, ∀ c ∈ Action.call k (.instruction i), c.opens = false)
    (enough : ∀ credential,
      (w'.heldBack P subscriber credential).ncard ≤ w'.credentials P subscriber credential) :
    Provided P w' subscriber where
  addressed k account found :=
    (billing_originates h k account found).selfAddressed provided.addressed
  planned k _ present active := planned_after provided h (other k) present active
  minted := provided.minted.kept (billing_terms h)
  enough := enough

theorem currentMandate_none {k : Pubkey} (vacant : w.mandate k = none) :
    w.currentMandate k = none := by
  rw [World.currentMandate, vacant]
  rfl

theorem Provided.subscribed {ctx : Subscribe} (provided : Provided P w subscriber)
    (h : execute P w (.subscribe ctx) = .ok w')
    (keeps : OnEveryMandate (KeepsCredentialMint P subscriber) w (.instruction (.subscribe ctx))) :
    Provided P w' subscriber := by
  obtain ⟨plan, mandate, spec⟩ := subscribe_minted h
  obtain ⟨binds, onPlan, with_, billingType, _⟩ := spec.initial
  have planned : Planned P w mandate := by
    refine ⟨plan, ?_, billingType.symm, with_.symm⟩
    rw [onPlan]
    exact spec.loaded
  have elsewhere {k : Pubkey} (away : k ≠ ctx.mandate) :
      ∀ c ∈ Action.call k (.instruction (.subscribe ctx)), c.opens = false := by
    simp only [Action.call, if_neg (Ne.symm away)]
    intro c member
    cases member
  refine ⟨fun k account found => (billing_originates h k account found).selfAddressed
    provided.addressed, fun k m present active => ?_, provided.minted.kept spec.terms,
    fun credential => ?_⟩
  · by_cases created : k = ctx.mandate
    · subst created
      obtain rfl := Option.some.inj (spec.created.symm.trans present)
      exact planned.kept spec.terms
    · exact planned_after provided h (elsewhere created) present active
  · rw [spec.minted]
    have enough := provided.enough credential
    have held : w'.heldBack P subscriber credential ⊆
        insert ctx.mandate (w.heldBack P subscriber credential) := by
      intro k member
      by_cases created : k = ctx.mandate
      · exact .inl created
      · exact .inr (heldBack_before provided h keeps (elsewhere created) member)
    by_cases needs : ctx.mandate ∈ w'.heldBack P subscriber credential
    · -- the new mandate is cancelled with what it was given
      obtain ⟨m, present, mine, _, resolved⟩ := needs
      obtain rfl := Option.some.inj (spec.created.symm.trans present)
      have given : ctx.credentialMint = credential := by
        rw [onPlan, credentialOf_kept spec.terms spec.loaded, credentialOf_of_load spec.loaded,
          ← spec.resolved] at resolved
        exact Option.some.inj resolved
      rw [if_pos ⟨binds.symm.trans mine, given⟩]
      have grown := Set.ncard_le_ncard held
      have one := Set.ncard_insert_le ctx.mandate (w.heldBack P subscriber credential)
      omega
    · have kept : w'.heldBack P subscriber credential ⊆ w.heldBack P subscriber credential := by
        intro k member
        rcases held member with rfl | old
        · exact absurd member needs
        · exact old
      have fewer := Set.ncard_le_ncard kept
      omega

theorem Provided.cancelled {i : Instruction} {ctx : Cancel} {plan : LoadedPlanAccount}
    {mandate : VelaMandate} (provided : Provided P w subscriber) (h : execute P w i = .ok w')
    (keeps : OnEveryMandate (KeepsCredentialMint P subscriber) w (.instruction i))
    (other : ∀ k, ∀ c ∈ Action.call k (.instruction i), c.opens = false)
    (apart : ∀ mint, associatedTokenAddress P ctx.subscriber ctx.credentialMint =
      associatedTokenAddress P subscriber mint → ctx.subscriber = subscriber)
    (spec : CredentialBurned P w ctx w' plan mandate) : Provided P w' subscriber := by
  refine provided.continued h other fun credential => ?_
  rw [spec.burned subscriber credential (apart credential)]
  have enough := provided.enough credential
  have fewer : (w'.heldBack P subscriber credential).ncard ≤
      (w.heldBack P subscriber credential).ncard := heldBack_le provided h keeps other
  by_cases taken : ctx.subscriber = subscriber ∧ ctx.credentialMint = credential
  · obtain ⟨rfl, rfl⟩ := taken
    rw [if_pos ⟨rfl, rfl⟩]
    have needed : ctx.mandate ∈ w.heldBack P ctx.subscriber ctx.credentialMint := by
      refine ⟨mandate, spec.found, spec.subscriber, spec.active, ?_⟩
      rw [← spec.planKey, credentialOf_of_load spec.loaded, ← spec.resolved]
    have gone : ctx.mandate ∉ w'.heldBack P ctx.subscriber ctx.credentialMint := by
      rintro ⟨m, present, _, active, _⟩
      obtain rfl := Option.some.inj (spec.written.symm.trans present)
      cases active
    have kept : w'.heldBack P ctx.subscriber ctx.credentialMint ⊆
        w.heldBack P ctx.subscriber ctx.credentialMint :=
      fun k member => heldBack_before provided h keeps (other k) member
    have less := Set.ncard_lt_ncard (kept.ssubset_of_mem_notMem needed gone)
    omega
  · rw [if_neg taken]
    omega

theorem Provided.enough_kept (provided : Provided P w subscriber) (undisturbed : Undisturbed P w w')
    (fewer : (w'.heldBack P subscriber credential).ncard ≤
      (w.heldBack P subscriber credential).ncard) :
    (w'.heldBack P subscriber credential).ncard ≤ w'.credentials P subscriber credential := by
  by_cases nothing : (w.heldBack P subscriber credential).ncard = 0
  · omega
  · obtain ⟨k, m, _, _, _, resolved⟩ := Set.nonempty_of_ncard_ne_zero nothing
    rw [undisturbed.held subscriber credential (provided.minted.plans _ _ resolved)]
    exact fewer.trans (provided.enough credential)

theorem Provided.migrated {ctx : MigrateMandate} (provided : Provided P w subscriber)
    (h : execute P w (.migrateMandate ctx) = .ok w')
    (keeps : OnEveryMandate (KeepsCredentialMint P subscriber) w
      (.instruction (.migrateMandate ctx))) :
    Provided P w' subscriber := by
  obtain ⟨before, after, spec⟩ := migrateMandate_eq_ok h
  obtain ⟨bump, mandateIndex, rfl⟩ := spec.moved
  have undisturbed : Undisturbed P w w' := migrateMandate_credentials h
  have terms := undisturbed.toCredentialTerms
  have elsewhere {k : Pubkey} (away : k ≠ ctx.migratedMandate) :
      ∀ c ∈ Action.call k (.instruction (.migrateMandate ctx)), c.opens = false := by
    simp only [Action.call, if_neg (Ne.symm away)]
    intro c member
    cases member
  refine ⟨fun k account found => (billing_originates h k account found).selfAddressed
    provided.addressed, fun k m present active => ?_, provided.minted.kept terms,
    fun credential => provided.enough_kept undisturbed ?_⟩
  · by_cases created : k = ctx.migratedMandate
    · subst created
      obtain rfl := Option.some.inj (spec.created.symm.trans present)
      have planned := provided.planned _ before spec.found active
      exact (planned.of_same rfl rfl rfl).kept terms
    · exact planned_after provided h (elsewhere created) present active
  · have old {k : Pubkey} (away : k ≠ ctx.migratedMandate)
        (member : k ∈ w'.heldBack P subscriber credential) :
        k ∈ w.heldBack P subscriber credential :=
      heldBack_before provided h keeps (elsewhere away) member
    by_cases needs : ctx.migratedMandate ∈ w'.heldBack P subscriber credential
    · have gone : ctx.legacyMandate ∉ w'.heldBack P subscriber credential := by
        rintro ⟨m, present, _⟩
        cases spec.removed.symm.trans present
      have moved : w'.heldBack P subscriber credential ⊆ insert ctx.migratedMandate
          (w.heldBack P subscriber credential \ {ctx.legacyMandate}) := by
        intro k member
        by_cases created : k = ctx.migratedMandate
        · exact .inl created
        · refine .inr ⟨old created member, ?_⟩
          rintro rfl
          exact gone member
      have needed : ctx.legacyMandate ∈ w.heldBack P subscriber credential := by
        obtain ⟨m, present, mine, active, resolved⟩ := needs
        obtain rfl := Option.some.inj (spec.created.symm.trans present)
        obtain ⟨plan, load, _⟩ := provided.planned _ before spec.found active
        refine ⟨before, spec.found, mine, active, ?_⟩
        rwa [credentialOf_kept terms load] at resolved
      have vacant : ctx.migratedMandate ∉ w.heldBack P subscriber credential := by
        rintro ⟨m, present, _⟩
        cases (currentMandate_none spec.vacant).symm.trans present
      exact (Set.ncard_le_ncard moved).trans (Set.ncard_exchange vacant needed).le
    · refine Set.ncard_le_ncard fun k member => ?_
      by_cases created : k = ctx.migratedMandate
      · exact absurd (created ▸ member) needs
      · exact old created member

/-- The credential of a merchant is set once, to a mint whose tokens stay where they are. -/
structure CredentialInitialised (w : World) (ctx : InitMerchantCredential) (w' : World) :
    Prop where
  mandate : w'.mandate = w.mandate
  plan : w'.plan = w.plan
  tokenAccount : w'.tokenAccount = w.tokenAccount
  mints : ∀ mint, Untransferable w mint → Untransferable w' mint
  others : ∀ merchant, merchant ≠ ctx.merchant →
    w'.merchantCredential merchant = w.merchantCredential merchant
  kept : w.merchantCredential ctx.merchant ≠ Pubkey.default →
    w'.merchantCredential ctx.merchant = w.merchantCredential ctx.merchant
  fresh : w.merchantCredential ctx.merchant = Pubkey.default →
    Untransferable w' (w'.merchantCredential ctx.merchant)

theorem initMerchantCredential_initialised {ctx : InitMerchantCredential}
    (h : initMerchantCredential P w ctx = .ok w') : CredentialInitialised w ctx w' := by
  obtain ⟨_, h⟩ := require_bind_eq_ok.mp h
  obtain ⟨⟨ensured, state⟩, loaded, h⟩ := bind_eq_ok.mp h
  obtain ⟨credential, written⟩ := ensureMerchantState_credential loaded
  have same := writeMerchantState_credential credential
  dsimp only at credential written h same
  subst written
  by_cases set : state.credentialMint = Pubkey.default
  · simp only [set, ne_eq, not_true_eq_false, if_false, World.createMint, bind_eq_ok,
      require_eq_ok, pure_eq_ok, exists_const] at h
    obtain ⟨_, ⟨empty, rfl⟩, rfl⟩ := h
    have vacant : w.mint ctx.credentialMint = none := (dataIsEmpty_vacant empty).mint
    refine ⟨rfl, rfl, rfl, ?_, ?_, fun unset => absurd (credential.symm.trans set) unset, ?_⟩
    · rintro mint ⟨m, found, still⟩
      refine ⟨m, ?_, still⟩
      refine (Function.update_of_ne ?_ _ _).trans found
      rintro rfl
      cases vacant.symm.trans found
    · intro merchant other
      simp only [World.merchantCredential, World.writeMerchantState, Function.update_of_ne other]
    · intro _
      refine ⟨credentialMintOf P ctx.merchant, ?_, rfl⟩
      simp only [World.merchantCredential, World.writeMerchantState, Function.update_self,
        Option.map_some, Option.getD_some, LoadedMerchantState.intoCurrent]
  · simp only [ne_eq, set, not_false_eq_true, if_true, require_bind_eq_ok, pure_eq_ok] at h
    obtain ⟨_, rfl⟩ := h
    exact ⟨rfl, rfl, rfl, fun _ kept => kept, fun merchant _ => congrFun same merchant,
      fun _ => congrFun same ctx.merchant, fun unset => absurd (credential.trans unset) set⟩

/-- The merchant's credential is set already, or the subscriber has nothing to cancel with it. -/
def SettledWith (w : World) (subscriber merchant : Pubkey) : Prop :=
  w.merchantCredential merchant ≠ Pubkey.default ∨
    ∀ k m, w.currentMandate k = some m → m.subscriber = subscriber → m.merchant = merchant →
      m.status ≠ .active

theorem CredentialInitialised.merchantCredential {ctx : InitMerchantCredential} {merchant : Pubkey}
    (spec : CredentialInitialised w ctx w')
    (settled : merchant ≠ ctx.merchant ∨ w.merchantCredential ctx.merchant ≠ Pubkey.default) :
    w'.merchantCredential merchant = w.merchantCredential merchant := by
  by_cases here : merchant = ctx.merchant
  · subst here
    rcases settled with other | set
    · exact absurd rfl other
    · exact spec.kept set
  · exact spec.others merchant here

theorem Provided.initialised {ctx : InitMerchantCredential} (provided : Provided P w subscriber)
    (spec : CredentialInitialised w ctx w') (settled : SettledWith w subscriber ctx.merchant) :
    Provided P w' subscriber := by
  have mandates (k : Pubkey) : w'.currentMandate k = w.currentMandate k :=
    currentMandate_congr spec.mandate k
  have load (key : Pubkey) : loadPlanAccount P w' key = loadPlanAccount P w key :=
    loadPlanAccount_congr spec.plan
  constructor
  case addressed => exact fun k account found => provided.addressed k account (spec.mandate ▸ found)
  case planned =>
    intro k m present active
    obtain ⟨plan, loaded, rest⟩ := provided.planned k m ((mandates k).symm.trans present) active
    exact ⟨plan, (load m.plan).trans loaded, rest⟩
  case minted =>
    constructor
    · intro merchant set
      by_cases unset : merchant = ctx.merchant ∧ w.merchantCredential ctx.merchant = Pubkey.default
      · obtain ⟨rfl, unset⟩ := unset
        exact spec.fresh unset
      · rw [spec.merchantCredential (not_and_or.mp unset)] at set ⊢
        exact spec.mints _ (provided.minted.merchants merchant set)
    · intro key credential resolved
      obtain ⟨plan, loaded, same⟩ := credentialOf_eq_some resolved
      rw [load] at loaded
      by_cases unset : plan.merchant = ctx.merchant ∧
        w.merchantCredential ctx.merchant = Pubkey.default
      · rw [resolve_merchantCredential] at same
        split at same
        · rw [← same, unset.1]
          exact spec.fresh unset.2
        · have before : resolveMerchantCredentialMint w plan.merchant plan.credentialMint =
              credential := by
            rw [resolve_merchantCredential, unset.1, if_neg (not_not.mpr unset.2), same]
          exact spec.mints _ (provided.minted.plans key credential
            (before ▸ credentialOf_of_load loaded))
      · rw [resolve_congr (spec.merchantCredential (not_and_or.mp unset))] at same
        exact spec.mints _ (provided.minted.plans key credential
          (same ▸ credentialOf_of_load loaded))
  case enough =>
    intro credential
    refine le_trans ?_ ((provided.enough credential).trans
      (credentials_congr spec.tokenAccount).ge)
    refine Set.ncard_le_ncard fun k member => ?_
    obtain ⟨m, present, mine, active, resolved⟩ := member
    rw [mandates] at present
    obtain ⟨plan, loaded, _, merchant⟩ := provided.planned k m present active
    have same : plan.merchant ≠ ctx.merchant ∨
        w.merchantCredential ctx.merchant ≠ Pubkey.default := by
      rcases settled with set | nothing
      · exact .inr set
      · exact .inl fun here => nothing k m present mine (merchant.symm.trans here) active
    refine ⟨m, present, mine, active, ?_⟩
    rw [credentialOf_of_load ((load m.plan).trans loaded),
      resolve_congr (spec.merchantCredential same)] at resolved
    exact (credentialOf_of_load loaded).trans resolved

inductive CredentialAction where
  | instruction (i : Instruction)
  | initMerchantCredential (ctx : InitMerchantCredential)
  | aside

def CredentialStep (P : Platform) (w : World) (a : CredentialAction) (w' : World) : Prop :=
  match a with
  | .instruction i => execute P w i = .ok w'
  | .initMerchantCredential ctx => initMerchantCredential P w ctx = .ok w'
  | .aside => w'.mandate = w.mandate ∧ Undisturbed P w w'

def OwnAccounts (P : Platform) (subscriber : Pubkey) : CredentialAction → Prop
  | .instruction (.cancel ctx) | .instruction (.adminCancel ctx) =>
    ∀ mint, associatedTokenAddress P ctx.subscriber ctx.credentialMint =
      associatedTokenAddress P subscriber mint → ctx.subscriber = subscriber
  | _ => True

/-- No step changes what an active mandate of the subscriber is cancelled with. -/
def KeepsCredentials (P : Platform) (subscriber : Pubkey) (w : World) : CredentialAction → Prop
  | .instruction i => OnEveryMandate (KeepsCredentialMint P subscriber) w (.instruction i)
  | .initMerchantCredential ctx => SettledWith w subscriber ctx.merchant
  | .aside => True

abbrev CredentialRun (P : Platform) (subscriber : Pubkey) (w w' : World) : Prop :=
  Run (CredentialStep P) (fun g _ _ _ => g)
    (fun _ w a _ => OwnAccounts P subscriber a ∧ KeepsCredentials P subscriber w a) (w, ()) (w', ())

theorem Provided.aside (provided : Provided P w subscriber) (mandates : w'.mandate = w.mandate)
    (undisturbed : Undisturbed P w w') : Provided P w' subscriber := by
  have terms := undisturbed.toCredentialTerms
  have same (k : Pubkey) : w'.currentMandate k = w.currentMandate k :=
    currentMandate_congr mandates k
  refine ⟨fun k account found => provided.addressed k account (mandates ▸ found),
    fun k m present active => ?_, provided.minted.kept terms,
    fun credential => provided.enough_kept undisturbed ?_⟩
  · exact (provided.planned k m ((same k).symm.trans present) active).kept terms
  · refine Set.ncard_le_ncard fun k member => ?_
    obtain ⟨m, present, mine, active, resolved⟩ := member
    rw [same] at present
    obtain ⟨plan, load, _⟩ := provided.planned k m present active
    exact ⟨m, present, mine, active, (credentialOf_kept terms load).symm.trans resolved⟩

theorem Provided.step {a : CredentialAction} (provided : Provided P w subscriber)
    (step : CredentialStep P w a w') (own : OwnAccounts P subscriber a)
    (keeps : KeepsCredentials P subscriber w a) : Provided P w' subscriber := by
  cases a with
  | initMerchantCredential ctx =>
    exact provided.initialised (initMerchantCredential_initialised step) keeps
  | aside => exact provided.aside step.1 step.2
  | instruction i =>
    have quiet (credentialed : i.credentialed = false)
        (other : ∀ k, ∀ c ∈ Action.call k (.instruction i), c.opens = false) :
        Provided P w' subscriber :=
      provided.continued step other fun _ => provided.enough_kept
        (billing_undisturbed credentialed step) (heldBack_le provided step keeps other)
    have silent (none : ∀ k, Action.call k (.instruction i) = none) :
        ∀ k, ∀ c ∈ Action.call k (.instruction i), c.opens = false := by
      intro k c called
      rw [none] at called
      cases called
    cases i with
    | subscribe ctx => exact provided.subscribed step keeps
    | migrateMandate ctx => exact provided.migrated step keeps
    | cancel ctx =>
      obtain ⟨plan, mandate, spec⟩ := cancel_debited step
      exact provided.cancelled step keeps (silent fun _ => rfl) own spec
    | adminCancel ctx =>
      obtain ⟨plan, mandate, spec⟩ := adminCancel_debited step
      exact provided.cancelled step keeps (silent fun _ => rfl) own spec
    | _ =>
      refine quiet rfl fun k c called => ?_
      simp only [Action.call, Option.mem_def, Option.ite_none_right_eq_some, Option.some.injEq,
        reduceCtorEq] at called <;> exact called.2 ▸ rfl

theorem subscribe_keepsCredentials (ctx : Subscribe) :
    KeepsCredentials P subscriber w (.instruction (.subscribe ctx)) := by
  intro x mem m _ _
  cases mem
  rfl

theorem run_provided {w₀ : World} (start : Provided P w₀ subscriber)
    (run : CredentialRun P subscriber w₀ w) : Provided P w subscriber :=
  run.invariant (fun w _ => Provided P w subscriber) start
    fun _ _ _ _ provided step allowed => provided.step step allowed.1 allowed.2

def departure (P : Platform) (k : Pubkey) (m : VelaMandate) (credential : Pubkey) : Cancel where
  authority := m.subscriber
  subscriber := m.subscriber
  merchant := m.merchant
  plan := m.plan
  mandate := k
  subscriberCredentialAccount := associatedTokenAddress P m.subscriber credential
  credentialMint := credential

/-- The subscriber holds the credential the mandate is cancelled with, and cancelling succeeds. -/
def CanLeave (P : Platform) (w : World) (k : Pubkey) (m : VelaMandate) : Prop :=
  ∃ credential, w.credentialOf P m.plan = some credential ∧
    1 ≤ w.credentials P m.subscriber credential ∧
    (cancel P w (departure P k m credential)).isOk = true

theorem Provided.canLeave {m : VelaMandate} (provided : Provided P w subscriber)
    (found : w.currentMandate k = some m) (mine : m.subscriber = subscriber)
    (active : m.status = .active) : CanLeave P w k m := by
  subst mine
  obtain ⟨plan, load, billingType, merchant⟩ := provided.planned k m found active
  have resolved := credentialOf_of_load load
  generalize same : resolveMerchantCredentialMint w plan.merchant plan.credentialMint =
    credential at resolved
  have needed : k ∈ w.heldBack P m.subscriber credential := ⟨m, found, rfl, active, resolved⟩
  have some_ : 1 ≤ (w.heldBack P m.subscriber credential).ncard :=
    (Set.ncard_pos (Set.toFinite _)).mpr ⟨k, needed⟩
  have holds := some_.trans (provided.enough credential)
  obtain ⟨account, stored, mint, owner, amount⟩ := credentials_pos holds
  obtain ⟨coin, exists_, _⟩ := provided.minted.plans _ _ resolved
  obtain ⟨record, present, current⟩ := Option.map_eq_some_iff.mp found
  have valid : loadValidMandate P w k = .ok record.contents :=
    (provided.addressed k record present).loads present
  have loaded : loadCancellable P w (departure P k m credential) = .ok (record.contents, plan) := by
    simp only [loadCancellable, requirePlanBillingType, check, bind_eq_ok, require_eq_ok,
      pure_eq_ok, exists_const]
    refine ⟨_, valid, plan, load, ?_, ?_, merchant.symm, ?_, same.symm, rfl⟩
    · rw [billingType, current]
    · rw [current]
      rfl
    · rw [current, merchant]
  have success : ∃ w', cancel P w (departure P k m credential) = .ok w' := by
    simp only [cancel, burn, check, orHost, bind_eq_ok, orError_eq_ok, require_eq_ok, pure_eq_ok,
      exists_const]
    refine ⟨_, (record.contents, plan), loaded, ?_, rfl, ?_, rfl, _, ⟨account, stored, coin,
      exists_, mint, ?_, .inr owner, rfl⟩, rfl⟩
    · rw [current]
      rfl
    · rw [current, active]
    · exact UInt64.le_iff_toNat_le.mpr (amount ▸ holds)
  obtain ⟨w', done⟩ := success
  refine ⟨credential, resolved, holds, ?_⟩
  rw [done]
  rfl

/-- As long as no step changes the credential a mandate of the subscriber is cancelled with, the
subscriber can cancel every active one. -/
theorem subscriber_can_leave {w₀ : World} {m : VelaMandate} (start : Provided P w₀ subscriber)
    (run : CredentialRun P subscriber w₀ w) (found : w.currentMandate k = some m)
    (mine : m.subscriber = subscriber) (active : m.status = .active) : CanLeave P w k m :=
  (run_provided start run).canLeave found mine active

end Departures

open Deployment

def planCredential (n : UInt64) : Pubkey := (findProgramAddress (.credential merchant n)).1

def legacyWorld : World :=
  { world 0 with
    merchantState := fun key =>
      if key = merchant then some (.current (MerchantState.new merchant 255 1)) else none
    plan := fun key =>
      if key = flatPlan 0 then some {
        contents := .legacyFlat {
          merchant := merchant
          planId := 0
          amount := 100
          frequency := 3600
          trialPeriod := 0
          maxPulls := 12
          status := .active
          credentialMint := planCredential 0
          bump := 255 }
        dataLen := 114 }
      else none
    mint := fun key =>
      if key = planCredential 0 then
        some { merchantCredential with
          mintAuthority := some (flatPlan 0)
          permanentDelegate := some (flatPlan 0) }
      else if key = credentialMint then none
      else (world 0).mint key }

def planSubscription : Instruction :=
  .subscribe { subscription (flatPlan 0) mintA with
    credentialMint := planCredential 0
    subscriberCredentialAccount := associatedTokenAddress platform subscriber (planCredential 0) }

theorem legacyWorld_unset (merchant : Pubkey) :
    legacyWorld.merchantCredential merchant = Pubkey.default := by
  by_cases known : merchant = Deployment.merchant
  · subst known
    rfl
  · have unknown : legacyWorld.merchantState merchant = none := if_neg known
    rw [World.merchantCredential, unknown]
    rfl

theorem legacyWorld_provided : Provided platform legacyWorld subscriber := by
  constructor
  case addressed => exact nofun
  case planned => exact nofun
  case minted =>
    refine ⟨fun other set => absurd (legacyWorld_unset other) set,
      fun key credential resolved => ?_⟩
    obtain ⟨plan, load, same⟩ := credentialOf_eq_some resolved
    obtain ⟨account, found, rfl, _⟩ := loadPlanAccount_eq_ok load
    rw [resolve_merchantCredential, legacyWorld_unset, if_neg (not_not.mpr rfl)] at same
    subst same
    simp only [legacyWorld, Option.ite_none_right_eq_some, Option.some.injEq] at found
    rw [← found.2]
    exact ⟨_, rfl, rfl⟩
  case enough =>
    intro credential
    have nobody : legacyWorld.heldBack platform subscriber credential = ∅ :=
      Set.eq_empty_of_forall_notMem fun _ => nofun
    rw [nobody, Set.ncard_empty]
    exact Nat.zero_le _

theorem subscriber_can_leave_upgraded : ∃ w m, w.currentMandate mandate = some m ∧
    w.credentialOf platform m.plan = some (planCredential 0) ∧ CanLeave platform w mandate m := by
  have played : ((execute platform legacyWorld planSubscription).toOption.any fun w₁ =>
      (execute platform w₁ (.migratePlan (flatPlan 0))).toOption.any fun w₂ =>
        (w₂.currentMandate mandate).any fun m =>
          decide (m.subscriber = subscriber) && decide (m.status = .active) &&
          decide (w₂.credentialOf platform m.plan = some (planCredential 0))) = true := by
    decide +kernel
  simp only [Option.any_eq_true, Bool.and_eq_true, decide_eq_true_eq, toOption_eq_some] at played
  obtain ⟨w₁, subscribed, w₂, migrated, m, found, ⟨mine, active⟩, resolved⟩ := played
  refine ⟨w₂, m, found, resolved, ?_⟩
  have first : CredentialStep platform legacyWorld (.instruction planSubscription) w₁ := subscribed
  have second : CredentialStep platform w₁ (.instruction (.migratePlan (flatPlan 0))) w₂ := migrated
  have joins : KeepsCredentials platform subscriber legacyWorld (.instruction planSubscription) :=
    subscribe_keepsCredentials _
  have joined : CredentialRun platform subscriber legacyWorld w₁ :=
    Run.snoc (.refl _) first ⟨trivial, joins⟩
  have upgraded : CredentialRun platform subscriber legacyWorld w₂ :=
    Run.snoc joined second ⟨trivial, nofun⟩
  exact subscriber_can_leave legacyWorld_provided upgraded found mine active

/-- The subscriber takes the plan's credential, then the merchant sets one of its own: cancelling
asks for the merchant's, which the subscriber was never given. -/
theorem late_credential_traps : ∃ w₁ w₂ m, Provided platform legacyWorld subscriber ∧
    execute platform legacyWorld planSubscription = .ok w₁ ∧
    initMerchantCredential platform w₁ ⟨merchant, credentialMint⟩ = .ok w₂ ∧
    w₂.currentMandate mandate = some m ∧ m.subscriber = subscriber ∧ m.status = .active ∧
    w₂.credentialOf platform m.plan = some credentialMint ∧
    w₂.credentials platform subscriber credentialMint = 0 ∧
    (cancel platform w₂ (departure platform mandate m credentialMint)).isOk = false ∧
    ¬CanLeave platform w₂ mandate m := by
  have played : ((execute platform legacyWorld planSubscription).toOption.any fun w₁ =>
      (initMerchantCredential platform w₁ ⟨merchant, credentialMint⟩).toOption.any fun w₂ =>
        (w₂.currentMandate mandate).any fun m =>
          decide (m.subscriber = subscriber) && decide (m.status = .active) &&
          decide (w₂.credentialOf platform m.plan = some credentialMint) &&
          decide (w₂.credentials platform subscriber credentialMint = 0) &&
          decide ((cancel platform w₂ (departure platform mandate m credentialMint)).isOk =
            false)) = true := by
    decide +kernel
  simp only [Option.any_eq_true, Bool.and_eq_true, decide_eq_true_eq, toOption_eq_some] at played
  obtain ⟨w₁, subscribed, w₂, initialised, m, found, ⟨⟨⟨mine, active⟩, resolved⟩, holds⟩, fails⟩ :=
    played
  refine ⟨w₁, w₂, m, legacyWorld_provided, subscribed, initialised, found, mine, active, resolved,
    holds, fails, ?_⟩
  rintro ⟨credential, same, held, _⟩
  obtain rfl := Option.some.inj (resolved.symm.trans same)
  rw [mine, holds] at held
  exact absurd held (by decide)

end VelaProtocol
