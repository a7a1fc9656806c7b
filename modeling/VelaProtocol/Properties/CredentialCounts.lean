import Mathlib.Data.FinEnum
import VelaProtocol.Credentials
import VelaProtocol.Deployment.Protocol
import VelaProtocol.Lib.Totals

/-! How many credentials a subscriber holds of a merchant: one for each active mandate, and one
more for each mandate a pull has exhausted. -/
namespace VelaProtocol

open Guard Monitored

section Counts

variable {P : Platform} {w w' : World} {key subscriber merchant credential : Pubkey}

def World.standing (w : World) (k : Pubkey) : Option (Pubkey × Pubkey × MandateStatus) :=
  (w.currentMandate k).map fun mandate => (mandate.subscriber, mandate.merchant, mandate.status)

/-- The active mandates of a subscriber with a merchant. -/
def World.activeMandates (w : World) (subscriber merchant : Pubkey) : Set Pubkey :=
  {k | w.standing k = some (subscriber, merchant, .active)}

theorem standing_of_found {mandate : VelaMandate} (found : w.currentMandate key = some mandate) :
    w.standing key = some (mandate.subscriber, mandate.merchant, mandate.status) := by
  rw [World.standing, found]
  rfl

theorem standing_congr {k : Pubkey} (same : w'.currentMandate k = w.currentMandate k) :
    w'.standing k = w.standing k := by
  rw [World.standing, World.standing, same]

theorem standing_of_written {before after : VelaMandate}
    (found : w.currentMandate key = some before) (written : w'.currentMandate key = some after)
    (others : ∀ k, k ≠ key → w'.currentMandate k = w.currentMandate k)
    (subscriber : after.subscriber = before.subscriber)
    (merchant : after.merchant = before.merchant)
    (status : after.status = before.status) : w'.standing = w.standing := by
  funext k
  by_cases same : k = key
  · subst same
    rw [standing_of_found found, standing_of_found written, subscriber, merchant, status]
  · exact standing_congr (others k same)

theorem standing_of_mandates (same : w'.mandate = w.mandate) : w'.standing = w.standing :=
  funext fun k => standing_congr (currentMandate_congr same k)

theorem requestBillingRecord_standing {ctx : RequestBillingRecord}
    (h : requestBillingRecord P w ctx = .ok w') : w'.standing = w.standing := by
  obtain ⟨_, _, h⟩ := bind_eq_ok.mp h
  obtain ⟨loaded, checked, h⟩ := bind_eq_ok.mp h
  iterate 8 obtain ⟨_, _, h⟩ := bind_eq_ok.mp h
  obtain ⟨w₁, started, h⟩ := bind_eq_ok.mp h
  cases h
  obtain ⟨_, rfl⟩ := startRequest_eq_ok started
  have found : w.currentMandate ctx.mandate = some loaded.intoCurrent := by
    obtain ⟨found, load, checked⟩ := bind_eq_ok.mp checked
    iterate 4 obtain ⟨_, _, checked⟩ := bind_eq_ok.mp checked
    cases checked
    exact loadValidMandate_currentMandate load
  refine standing_of_written found (writeMandate_self found ?_) ?_ rfl rfl rfl
  · have terms (nonce : UInt64) : loaded.intoCurrent.SameTerms
      { loaded.intoCurrent with billingRequestNonce := nonce } := ⟨rfl, id⟩
    exact (terms _).fits
  · exact fun k other => writeMandate_of_ne other _ _

theorem recordBillingEventCallback_standing {ctx : RecordBillingEventCallback}
    (h : recordBillingEventCallback P w ctx = .ok w') : w'.standing = w.standing := by
  obtain ⟨mandate, anchored, h⟩ := bind_eq_ok.mp h
  iterate 9 obtain ⟨_, _, h⟩ := bind_eq_ok.mp h
  obtain ⟨w₁, completed, h⟩ := bind_eq_ok.mp h
  obtain ⟨_, _, completed⟩ := bind_eq_ok.mp completed
  cases completed
  cases h
  obtain ⟨loaded, found, layout, written⟩ := anchorVelaMandate_loaded anchored
  refine @standing_of_written _ _ _ loaded.intoCurrent { loaded.intoCurrent with
    lastBillingRecordedPull := mandate.pullsExecuted } found ?_ ?_ rfl rfl rfl
  · refine (writeMandate_layout found _ _).trans (congrArg some ?_)
    rw [← written]
    exact congrArg _ (congrArg _ layout)
  · exact fun k other => writeMandate_of_ne other _ _

def Instruction.enrolls : Instruction → Bool
  | .closeMandate _ => true
  | .migrateMandate _ => true
  | .executePull _ => true
  | i => i.credentialed

theorem billing_standing {i : Instruction} (other : i.enrolls = false)
    (h : execute P w i = .ok w') : w'.standing = w.standing := by
  cases i with
  | createPlan ctx => exact standing_of_mandates (createPlan_eq_ok h).mandate
  | createUsagePlan ctx => exact standing_of_mandates (createUsagePlan_eq_ok h).mandate
  | updatePlan ctx => exact standing_of_mandates (updatePlan_eq_ok h).mandate
  | updateUsagePlan ctx => exact standing_of_mandates (updateUsagePlan_eq_ok h).mandate
  | migratePlan plan => exact standing_of_mandates (migratePlan_eq_ok h).mandate
  | subscribe ctx => cases other
  | cancel ctx => cases other
  | adminCancel ctx => cases other
  | closeMandate ctx => cases other
  | migrateMandate ctx => cases other
  | executePull ctx => cases other
  | updateMandate ctx => exact funext fun k => standing_congr ((updateMandate_eq_ok h).2 k)
  | updateMandatePlan ctx =>
    rcases updateMandatePlan_eq_ok h with ⟨rfl, _⟩ | ⟨s, delta, priced, spec⟩
    · rfl
    · refine standing_of_written spec.checked.found spec.written spec.elsewhere.mandate ?_ ?_ ?_
      all_goals
        rw [spec.settled.rest]
        rfl
  | schedulePlanChange ctx =>
    obtain ⟨s, checked, frame, others, outcome⟩ := schedulePlanChange_eq_ok h
    rcases outcome with rfl | ⟨changed, nonce, written⟩
    · rfl
    · exact standing_of_written checked.found written others rfl rfl rfl
  | cancelPlanChange ctx =>
    obtain ⟨mandate, spec⟩ := cancelPlanChange_eq_ok h
    exact standing_of_written spec.found spec.written spec.others rfl rfl rfl
  | requestValidation ctx =>
    obtain ⟨mandate, plan, spec⟩ := requestValidation_eq_ok h
    obtain ⟨nonce, written⟩ := spec.written
    exact standing_of_written spec.checked.found written spec.others rfl rfl rfl
  | validateMandateCallback ctx =>
    obtain ⟨_, _, _, _, spec⟩ := validateMandateCallback_eq_ok h
    exact standing_of_mandates spec.mandates
  | submitUsageReport ctx =>
    obtain ⟨_, rfl, _⟩ := submitUsageReport_eq_ok h
    exact standing_of_mandates rfl
  | requestUsageComputation ctx =>
    obtain ⟨mandate, spec⟩ := requestUsageComputation_eq_ok h
    obtain ⟨nonce, written⟩ := spec.written
    exact standing_of_written spec.found written spec.others rfl rfl rfl
  | usageChargeCallback ctx =>
    obtain ⟨_, _, _, _, _, _, _, spec⟩ := usageChargeCallback_eq_ok h
    exact standing_of_mandates spec.mandates
  | requestBillingRecord ctx => exact requestBillingRecord_standing h
  | recordBillingEventCallback ctx => exact recordBillingEventCallback_standing h

def World.billedMaxPulls (w : World) (mandate : VelaMandate) : Nat :=
  if mandate.changeDue w.clock.unixTimestamp then w.planMaxPulls mandate.pendingNewPlan
  else mandate.maxPulls.toNat

def World.lastPull (w : World) (mandate : VelaMandate) : Prop :=
  w.billedMaxPulls mandate ≤ mandate.pullsExecuted.toNat + 1

instance (w : World) (mandate : VelaMandate) : Decidable (w.lastPull mandate) :=
  inferInstanceAs (Decidable (_ ≤ _))

theorem advance_status {mandate after : VelaMandate} {now : Int64}
    (h : mandate.advance now = .ok after) :
    after.status = if mandate.maxPulls.toNat ≤ mandate.pullsExecuted.toNat + 1 then .expired
      else mandate.status := by
  have pulls := (advance_eq_ok h).pulls
  simp only [VelaMandate.advance, orVela, bind_eq_ok, orError_eq_ok, pure_eq_ok] at h
  obtain ⟨frequency, _, count, _, due, _, rfl⟩ := h
  simp only [Checked.le_iff, pulls]

theorem TermsBilled.maxPulls {mandate : VelaMandate} {plan : LoadedPlanAccount}
    {terms : BilledTerms} (billed : TermsBilled P w mandate plan terms) :
    terms.mandate.maxPulls.toNat = w.billedMaxPulls mandate := by
  cases billed with
  | asIs undue mandate_eq plan_eq => rw [World.billedMaxPulls, if_neg undue, mandate_eq]
  | switched applied mandate_eq =>
    rw [World.billedMaxPulls, if_pos applied.due, planMaxPulls_of_load applied.loaded, mandate_eq]
    rfl

structure PullStanding (w : World) (key : Pubkey) (w' : World) (mandate : VelaMandate) : Prop where
  found : w.currentMandate key = some mandate
  before : w.standing key = some (mandate.subscriber, mandate.merchant, .active)
  after : w'.standing key = some (mandate.subscriber, mandate.merchant,
    if w.lastPull mandate then .expired else .active)
  others : ∀ k, k ≠ key → w'.standing k = w.standing k

theorem executePull_standing {ctx : ExecutePull} (h : executePull P w ctx = .ok w') :
    ∃ mandate, PullStanding w ctx.mandate w' mandate := by
  obtain ⟨s, after, spec, _, advance⟩ := executePull_advances h
  have found := spec.checked.pull.found
  have active := spec.checked.pull.active
  have billed := spec.checked.terms
  have keeps : s.terms.mandate.subscriber = s.pull.mandate.subscriber ∧
      s.terms.mandate.status = s.pull.mandate.status := by
    cases billed with
    | asIs undue mandate_eq plan_eq => exact mandate_eq ▸ ⟨rfl, rfl⟩
    | switched applied mandate_eq => exact mandate_eq ▸ ⟨rfl, rfl⟩
  have status : after.status = if w.lastPull s.pull.mandate then .expired else .active := by
    have status := advance_status advance
    simp only [VelaMandate.spendCredit, billed.maxPulls, billed.keeps.2.2.1, keeps.2,
      active] at status
    exact status
  have rest := spec.advanced.rest
  have subscriber : after.subscriber = s.pull.mandate.subscriber := by
    rw [rest]
    exact keeps.1
  have merchant : after.merchant = s.pull.mandate.merchant := by
    rw [rest]
    exact billed.keeps.1
  refine ⟨s.pull.mandate, found, ?_, ?_,
    fun k other => standing_congr (spec.elsewhere.mandate k other)⟩
  · rw [standing_of_found found, active]
  · rw [standing_of_found spec.written, subscriber, merchant, status]

theorem activeMandates_gain (before : w.standing key ≠ some (subscriber, merchant, .active))
    (after : w'.standing key = some (subscriber, merchant, .active))
    (others : ∀ k, k ≠ key → w'.standing k = w.standing k) :
    (w'.activeMandates subscriber merchant).ncard =
      (w.activeMandates subscriber merchant).ncard + 1 := by
  refine Totals.ncard_gain before after fun k other => ?_
  simp only [World.activeMandates, Set.mem_ofPred_eq, others k other]

theorem activeMandates_same
    (at_key : w'.standing key = some (subscriber, merchant, .active) ↔
      w.standing key = some (subscriber, merchant, .active))
    (others : ∀ k, k ≠ key → w'.standing k = w.standing k) :
    w'.activeMandates subscriber merchant = w.activeMandates subscriber merchant := by
  ext k
  by_cases same : k = key
  · exact same ▸ at_key
  · simp only [World.activeMandates, Set.mem_ofPred_eq, others k same]

theorem activeMandates_congr (same : w'.standing = w.standing) :
    w'.activeMandates subscriber merchant = w.activeMandates subscriber merchant := by
  rw [World.activeMandates, World.activeMandates, same]

structure Issues (P : Platform) (w : World) (merchant credential : Pubkey) : Prop where
  set : w.merchantCredential merchant = credential
  real : credential ≠ Pubkey.default
  mint : Untransferable w credential
  own : ∀ other, w.merchantCredential other = credential → other = merchant
  plans : ∀ key plan, loadPlanAccount P w key = .ok plan → plan.credentialMint = credential →
    plan.merchant = merchant

theorem Issues.kept (issues : Issues P w merchant credential) (terms : CredentialTerms P w w') :
    Issues P w' merchant credential where
  set := terms.merchants ▸ issues.set
  real := issues.real
  mint := terms.mints credential issues.mint
  own other same := issues.own other (terms.merchants ▸ same)
  plans key plan load offers := by
    cases terms.offered key plan load with
    | kept before loaded same =>
      rw [same.merchant]
      exact issues.plans key before loaded (same.credentialMint.symm.trans offers)
    | new set credential => exact issues.own _ (credential.symm.trans offers)

theorem Issues.resolved {plan : LoadedPlanAccount} (issues : Issues P w merchant credential)
    (load : loadPlanAccount P w key = .ok plan) :
    resolveMerchantCredentialMint w plan.merchant plan.credentialMint = credential ↔
      plan.merchant = merchant := by
  rw [resolve_merchantCredential]
  constructor
  · intro resolved
    split at resolved
    · exact issues.own _ resolved
    · exact issues.plans key plan load resolved
  · rintro rfl
    rw [issues.set, if_pos issues.real]

/-- The subscriber holds one credential for each active mandate, and `extra` more. -/
structure CredentialsHeld (P : Platform) (w : World) (subscriber merchant credential : Pubkey)
    (extra : Nat) : Prop where
  issues : Issues P w merchant credential
  count : w.credentials P subscriber credential =
    (w.activeMandates subscriber merchant).ncard + extra

variable {extra : Nat}

theorem CredentialsHeld.undisturbed
    (held : CredentialsHeld P w subscriber merchant credential extra)
    (undisturbed : Undisturbed P w w')
    (same : (w'.activeMandates subscriber merchant).ncard =
      (w.activeMandates subscriber merchant).ncard) :
    CredentialsHeld P w' subscriber merchant credential extra where
  issues := held.issues.kept undisturbed.toCredentialTerms
  count := by
    rw [undisturbed.held subscriber credential held.issues.mint, held.count, same]

theorem CredentialsHeld.subscribed {ctx : Subscribe} {plan : LoadedPlanAccount}
    {mandate : VelaMandate}
    (held : CredentialsHeld P w subscriber merchant credential extra)
    (spec : CredentialMinted P w ctx w' plan mandate) :
    CredentialsHeld P w' subscriber merchant credential extra := by
  refine ⟨held.issues.kept spec.terms, ?_⟩
  have mints := held.issues.resolved spec.loaded
  rw [← spec.resolved] at mints
  obtain ⟨binds, _, with_, _, active⟩ := spec.initial
  have after := standing_of_found spec.created
  rw [binds, with_, active] at after
  have before : w.standing ctx.mandate = none := by
    rw [World.standing, spec.vacant]
    rfl
  have others (k : Pubkey) (other : k ≠ ctx.mandate) : w'.standing k = w.standing k :=
    standing_congr (spec.others k other)
  rw [spec.minted, held.count]
  by_cases mine : ctx.subscriber = subscriber ∧ plan.merchant = merchant
  · obtain ⟨rfl, rfl⟩ := mine
    rw [if_pos ⟨rfl, mints.mpr rfl⟩, activeMandates_gain (before ▸ nofun) after others]
    omega
  · rw [if_neg fun held => mine ⟨held.1, mints.mp held.2⟩, activeMandates_same ?_ others,
      Nat.add_zero]
    rw [before, after]
    constructor
    · intro same
      cases same
      exact absurd ⟨rfl, rfl⟩ mine
    · exact nofun

theorem CredentialsHeld.cancelled {ctx : Cancel} {plan : LoadedPlanAccount} {mandate : VelaMandate}
    (held : CredentialsHeld P w subscriber merchant credential extra)
    (apart : associatedTokenAddress P ctx.subscriber ctx.credentialMint =
      associatedTokenAddress P subscriber credential → ctx.subscriber = subscriber)
    (spec : CredentialBurned P w ctx w' plan mandate) :
    CredentialsHeld P w' subscriber merchant credential extra := by
  refine ⟨held.issues.kept spec.terms, ?_⟩
  have burns := held.issues.resolved spec.loaded
  rw [← spec.resolved] at burns
  have before := standing_of_found spec.found
  have after := standing_of_found spec.written
  rw [spec.subscriber, spec.merchant] at before after
  rw [spec.active] at before
  have others (k : Pubkey) (other : k ≠ ctx.mandate) : w'.standing k = w.standing k :=
    standing_congr (spec.others k other)
  rw [spec.burned subscriber credential apart, held.count]
  by_cases mine : ctx.subscriber = subscriber ∧ plan.merchant = merchant
  · obtain ⟨rfl, rfl⟩ := mine
    have lost : (w.activeMandates ctx.subscriber plan.merchant).ncard =
        (w'.activeMandates ctx.subscriber plan.merchant).ncard + 1 :=
      activeMandates_gain (after ▸ nofun) before fun k other => (others k other).symm
    rw [if_pos ⟨rfl, burns.mpr rfl⟩, lost]
    omega
  · rw [if_neg fun held => mine ⟨held.1, burns.mp held.2⟩, activeMandates_same ?_ others,
      Nat.sub_zero]
    rw [before, after]
    constructor
    · exact nofun
    · intro same
      cases same
      exact absurd ⟨rfl, rfl⟩ mine

theorem CredentialsHeld.closed {ctx : CloseMandate}
    (held : CredentialsHeld P w subscriber merchant credential extra)
    (h : closeMandate P w ctx = .ok w') :
    CredentialsHeld P w' subscriber merchant credential extra := by
  have undisturbed : Undisturbed P w w' := closeMandate_credentials w' h
  obtain ⟨_, gone, others⟩ := closeMandate_eq_ok h
  obtain ⟨mandate, load, h⟩ := bind_eq_ok.mp h
  obtain ⟨_, _, h⟩ := bind_eq_ok.mp h
  obtain ⟨_, _, h⟩ := bind_eq_ok.mp h
  obtain ⟨finished, _⟩ := require_bind_eq_ok.mp h
  have before := standing_of_found (loadValidMandate_currentMandate load)
  refine held.undisturbed undisturbed (congrArg Set.ncard (activeMandates_same ?_ fun k other =>
    standing_congr (others k other)))
  rw [World.standing, gone, before]
  constructor
  · exact nofun
  · intro active
    simp only [Option.some.injEq, Prod.mk.injEq] at active
    have active : mandate.status = .active := by
      rw [← active.2.2]
      cases mandate <;> rfl
    rw [active] at finished
    exact absurd finished (by decide)

theorem CredentialsHeld.migrated {ctx : MigrateMandate}
    (held : CredentialsHeld P w subscriber merchant credential extra)
    (h : migrateMandate P w ctx = .ok w') :
    CredentialsHeld P w' subscriber merchant credential extra := by
  have undisturbed : Undisturbed P w w' := migrateMandate_credentials h
  obtain ⟨before, after, spec⟩ := migrateMandate_eq_ok h
  refine held.undisturbed undisturbed ?_
  obtain ⟨bump, mandateIndex, rfl⟩ := spec.moved
  have old := standing_of_found spec.found
  have new := standing_of_found spec.created
  have vacant : w.standing ctx.migratedMandate = none := by
    rw [World.standing, World.currentMandate, spec.vacant]
    rfl
  have gone : w'.standing ctx.legacyMandate = none := by
    rw [World.standing, spec.removed]
    rfl
  have apart : ctx.migratedMandate ≠ ctx.legacyMandate := by
    intro same
    rw [same, old] at vacant
    cases vacant
  by_cases mine : (before.subscriber, before.merchant, before.status) =
    (subscriber, merchant, MandateStatus.active)
  · have moved : w'.activeMandates subscriber merchant =
        insert ctx.migratedMandate
          (w.activeMandates subscriber merchant \ {ctx.legacyMandate}) := by
      ext k
      simp only [World.activeMandates, Set.mem_ofPred_eq, Set.mem_insert_iff, Set.mem_sdiff,
        Set.mem_singleton_iff]
      by_cases created : k = ctx.migratedMandate
      · subst created
        exact iff_of_true (new.trans (congrArg some mine)) (.inl rfl)
      · by_cases removed : k = ctx.legacyMandate
        · subst removed
          rw [gone]
          exact iff_of_false (Option.some_ne_none _).symm (by simp only [created, not_true,
            and_false, or_false, not_false_eq_true])
        · rw [standing_congr (spec.others k removed created)]
          simp only [created, removed, false_or, not_false_eq_true, and_true]
    rw [moved]
    refine Set.ncard_exchange ?_ (old.trans (congrArg some mine))
    intro member
    cases vacant.symm.trans member
  · congr 1
    ext k
    simp only [World.activeMandates, Set.mem_ofPred_eq]
    by_cases created : k = ctx.migratedMandate
    · subst created
      rw [new, vacant]
      exact iff_of_false (fun same => mine (Option.some.inj same)) (Option.some_ne_none _).symm
    · by_cases removed : k = ctx.legacyMandate
      · subst removed
        rw [gone, old]
        exact iff_of_false (Option.some_ne_none _).symm fun same => mine (Option.some.inj same)
      · rw [standing_congr (spec.others k removed created)]

/-- The mandate of this subscriber with this merchant is about to be pulled for the last time. -/
def World.exhausts (w : World) (subscriber merchant key : Pubkey) : Prop :=
  ∃ mandate ∈ w.currentMandate key, mandate.subscriber = subscriber ∧
    mandate.merchant = merchant ∧ w.lastPull mandate

instance (w : World) (subscriber merchant key : Pubkey) :
    Decidable (w.exhausts subscriber merchant key) :=
  inferInstanceAs (Decidable (∃ mandate ∈ _, _))

/-- How many mandates of a subscriber with a merchant pulls have exhausted. -/
def countExhausted (subscriber merchant : Pubkey) : Observe World Action Nat := fun extra w a _ =>
  match a with
  | .instruction (.executePull ctx) =>
    if w.exhausts subscriber merchant ctx.mandate then extra + 1 else extra
  | _ => extra

/-- The merchant's credential stays the merchant's, and the subscriber is handed none and burns
none. -/
structure CredentialAside (P : Platform) (subscriber merchant credential : Pubkey)
    (w w' : World) : Prop where
  issues : Issues P w merchant credential → Issues P w' merchant credential
  held : w'.credentials P subscriber credential = w.credentials P subscriber credential

/-- Holders have accounts of their own, and nothing outside billing touches the credential. -/
def HoldersApart (P : Platform) (subscriber merchant credential : Pubkey) :
    Nat → World → Action → World → Prop := fun _ w a w' =>
  match a with
  | .instruction (.cancel ctx) | .instruction (.adminCancel ctx) =>
    associatedTokenAddress P ctx.subscriber ctx.credentialMint =
      associatedTokenAddress P subscriber credential → ctx.subscriber = subscriber
  | .environment => CredentialAside P subscriber merchant credential w w'
  | _ => True

theorem CredentialsHeld.pulled {ctx : ExecutePull}
    (held : CredentialsHeld P w subscriber merchant credential extra)
    (h : executePull P w ctx = .ok w') :
    CredentialsHeld P w' subscriber merchant credential
      (if w.exhausts subscriber merchant ctx.mandate then extra + 1 else extra) := by
  obtain ⟨mandate, spec⟩ := executePull_standing h
  have undisturbed : Undisturbed P w w' := executePull_credentials w' h
  refine ⟨held.issues.kept undisturbed.toCredentialTerms, ?_⟩
  rw [undisturbed.held subscriber credential held.issues.mint, held.count]
  by_cases exhausts : w.exhausts subscriber merchant ctx.mandate
  · obtain ⟨_, found, rfl, rfl, last⟩ := exhausts
    obtain rfl := Option.some.inj (spec.found.symm.trans found)
    have after := spec.after
    rw [if_pos last] at after
    have lost : (w.activeMandates mandate.subscriber mandate.merchant).ncard =
        (w'.activeMandates mandate.subscriber mandate.merchant).ncard + 1 :=
      activeMandates_gain (after ▸ nofun) spec.before fun k other => (spec.others k other).symm
    rw [if_pos ⟨mandate, found, rfl, rfl, last⟩, lost]
    omega
  · rw [if_neg exhausts, activeMandates_same ?_ spec.others]
    by_cases last : w.lastPull mandate
    · have other : ¬(mandate.subscriber = subscriber ∧ mandate.merchant = merchant) :=
        fun mine => exhausts ⟨mandate, spec.found, mine.1, mine.2, last⟩
      rw [spec.before, spec.after]
      simp only [Option.some.injEq, Prod.mk.injEq]
      exact iff_of_false (fun same => other ⟨same.1, same.2.1⟩) fun same => other ⟨same.1, same.2.1⟩
    · rw [spec.before, spec.after, if_neg last]

theorem CredentialsHeld.step {a : Action}
    (held : CredentialsHeld P w subscriber merchant credential extra) (step : Step P w a w')
    (apart : HoldersApart P subscriber merchant credential extra w a w') :
    CredentialsHeld P w' subscriber merchant credential
      (countExhausted subscriber merchant extra w a w') := by
  cases a with
  | tick clock =>
    obtain ⟨_, rfl⟩ := step
    exact held.undisturbed (.of_eq rfl rfl rfl rfl) rfl
  | environment =>
    refine ⟨apart.issues held.issues, ?_⟩
    rw [apart.held, held.count, activeMandates_congr (standing_of_mandates step.mandate)]
    rfl
  | instruction i =>
    by_cases enrolls : i.enrolls = true
    · cases i with
      | subscribe ctx =>
        obtain ⟨plan, mandate, spec⟩ := subscribe_minted step
        exact held.subscribed spec
      | cancel ctx =>
        obtain ⟨plan, mandate, spec⟩ := cancel_debited step
        exact held.cancelled apart spec
      | adminCancel ctx =>
        obtain ⟨plan, mandate, spec⟩ := adminCancel_debited step
        exact held.cancelled apart spec
      | closeMandate ctx => exact held.closed step
      | migrateMandate ctx => exact held.migrated step
      | executePull ctx => exact held.pulled step
      | _ => cases enrolls
    · have quiet : i.enrolls = false := Bool.eq_false_iff.mpr enrolls
      have same : w'.activeMandates subscriber merchant = w.activeMandates subscriber merchant :=
        activeMandates_congr (billing_standing quiet step)
      have undisturbed : Undisturbed P w w' := by
        refine billing_undisturbed ?_ step
        cases i <;> first | rfl | cases quiet
      have kept := held.undisturbed undisturbed (congrArg Set.ncard same)
      cases i <;> first | exact kept | cases quiet

theorem run_credentialsHeld {w₀ : World} {n : Nat}
    (start : CredentialsHeld P w₀ subscriber merchant credential 0)
    (run : Run (Step P) (countExhausted subscriber merchant)
      (HoldersApart P subscriber merchant credential) (w₀, 0) (w, n)) :
    CredentialsHeld P w subscriber merchant credential n :=
  run.invariant (fun w n => CredentialsHeld P w subscriber merchant credential n) start
    fun _ _ _ _ held step apart => held.step step apart

/-- The subscriber holds one credential of the merchant for each active mandate, and no other. -/
def CredentialsCount (P : Platform) (w : World) (subscriber merchant credential : Pubkey) : Prop :=
  w.credentials P subscriber credential = (w.activeMandates subscriber merchant).ncard

/-- In every run a subscriber holds one credential of the merchant for each active mandate, as long
as no pull has exhausted one. -/
theorem credentials_count_iff {w₀ : World} {n : Nat} (issues : Issues P w₀ merchant credential)
    (start : CredentialsCount P w₀ subscriber merchant credential)
    (run : Run (Step P) (countExhausted subscriber merchant)
      (HoldersApart P subscriber merchant credential) (w₀, 0) (w, n)) :
    CredentialsCount P w subscriber merchant credential ↔ n = 0 := by
  have held := run_credentialsHeld ⟨issues, start⟩ run
  rw [CredentialsCount, held.count]
  exact Nat.add_eq_left

end Counts

open Deployment

def OwnCancellations : Nat → World → Action → World → Prop := fun _ _ a _ =>
  match a with
  | .instruction (.cancel ctx) | .instruction (.adminCancel ctx) => ctx.subscriber = subscriber
  | .environment => False
  | _ => True

def Instruction.cancellation : Instruction → Option Cancel
  | .cancel ctx | .adminCancel ctx => some ctx
  | _ => none

theorem ownCancellations_iff (n : Nat) (w : World) (i : Instruction) (w' : World) :
    (∀ ctx ∈ i.cancellation, ctx.subscriber = subscriber) ↔
      OwnCancellations n w (.instruction i) w' := by
  cases i <;> simp [Instruction.cancellation, OwnCancellations]

instance (n : Nat) (w : World) (a : Action) (w' : World) :
    Decidable (OwnCancellations n w a w') :=
  match a with
  | .instruction i => decidable_of_iff _ (ownCancellations_iff n w i w')
  | .tick _ => instDecidableTrue
  | .environment => instDecidableFalse

theorem credential_script {w : World} {n : Nat} {script : List Action}
    (played : play (applyAction platform) (countExhausted subscriber merchant) OwnCancellations
      (world 0, 0) script = some (w, n)) :
    Run (Step platform) (countExhausted subscriber merchant)
      (HoldersApart platform subscriber merchant credentialMint) (world 0, 0) (w, n) := by
  refine (play_run (fun _ _ _ => applyAction_step) played).weaken fun _ w a w' own => ?_
  cases a with
  | instruction i =>
    cases i with
    | cancel ctx => exact fun _ => own
    | adminCancel ctx => exact fun _ => own
    | _ => trivial
  | tick clock => trivial
  | environment => exact own.elim

theorem world_issues : Issues platform (world 0) merchant credentialMint where
  set := by decide
  real := by decide
  mint := ⟨_, rfl, rfl⟩
  own other same := by
    by_contra another
    have unset : (world 0).merchantCredential other = Pubkey.default := by
      have unknown : (world 0).merchantState other = none := if_neg another
      rw [World.merchantCredential, unknown]
      rfl
    rw [unset] at same
    exact absurd same (by decide)
  plans key plan load := by
    obtain ⟨account, found, _⟩ := loadPlanAccount_eq_ok load
    cases found

theorem world_count :
    CredentialsCount platform (world 0) subscriber merchant credentialMint := by
  have nobody : (world 0).activeMandates subscriber merchant = ∅ :=
    Set.eq_empty_of_forall_notMem fun _ => nofun
  rw [CredentialsCount, nobody, Set.ncard_empty]
  decide

/-- A mandate of one pull is pulled: it has expired and its subscriber still has the credential. -/
theorem exhausted_keeps_credential : ∃ (w : World) (n : Nat) (m : VelaMandate),
    Issues platform (world 0) merchant credentialMint ∧
      CredentialsCount platform (world 0) subscriber merchant credentialMint ∧
      Run (Step platform) (countExhausted subscriber merchant)
        (HoldersApart platform subscriber merchant credentialMint) (world 0, 0) (w, n) ∧
      w.currentMandate mandate = some m ∧ m.status = .expired ∧
      w.credentials platform subscriber credentialMint = 1 ∧
      ¬CredentialsCount platform w subscriber merchant credentialMint := by
  have played : (play (applyAction platform) (countExhausted subscriber merchant) OwnCancellations
      (world 0, 0) [offerFlat 0 100 3600 0 1 mintA, subscribeFlat, tick 3600,
        requestFlat (flatPlan 0) 3600 1, answerFlat 3600 1 true,
        pull (flatPlan 0) mintA []]).any (fun x =>
          (x.1.currentMandate mandate).any (fun m => m.status = .expired) &&
          decide (x.1.credentials platform subscriber credentialMint = 1) &&
          decide (x.2 = 1)) = true := by
    decide +kernel
  simp only [Option.any_eq_true, Bool.and_eq_true, decide_eq_true_eq] at played
  obtain ⟨⟨w, n⟩, script, ⟨⟨m, found, finished⟩, held⟩, exhausted⟩ := played
  have run := credential_script script
  have tally := run_credentialsHeld ⟨world_issues, world_count⟩ run
  refine ⟨w, n, m, world_issues, world_count, run, found, finished, held, fun counts => ?_⟩
  have count := tally.count
  rw [counts] at count
  have exhausted : n = 1 := exhausted
  omega

theorem credentials_count_paid : ∃ w : World,
    w.credentials platform subscriber credentialMint = 1 ∧
      (w.currentMandate mandate).any (fun m => decide (m.pullsExecuted = 1)) = true ∧
      CredentialsCount platform w subscriber merchant credentialMint := by
  have played : (play (applyAction platform) (countExhausted subscriber merchant) OwnCancellations
      (world 0, 0) [offerFlat 0 100 3600 0 12 mintA, subscribeFlat, tick 3600,
        requestFlat (flatPlan 0) 3600 1, answerFlat 3600 1 true,
        pull (flatPlan 0) mintA []]).any (fun x =>
          (x.1.currentMandate mandate).any (fun m => decide (m.pullsExecuted = 1)) &&
          decide (x.1.credentials platform subscriber credentialMint = 1) &&
          decide (x.2 = 0)) = true := by
    decide +kernel
  rw [Option.any_eq_true] at played
  obtain ⟨⟨w, n⟩, script, ends⟩ := played
  simp only [Bool.and_eq_true, decide_eq_true_eq] at ends
  obtain ⟨⟨paid, held⟩, none⟩ := ends
  exact ⟨w, held, paid,
    (credentials_count_iff world_issues world_count (credential_script script)).mpr none⟩

end VelaProtocol
