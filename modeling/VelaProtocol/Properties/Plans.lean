import VelaProtocol.Catalogue
import VelaProtocol.Properties.Governance

/-! The catalogue over whole runs: plans are the merchants' own, only they change what a plan
offers, its terms stay within what the validators accept, and flat plans are numbered without a
gap. -/
namespace VelaProtocol

open Guard Monitored

variable {P : Platform} {w w₁ w' : World} {signed signers : List Pubkey} {merchant : Pubkey}

/-- What becomes of a plan: nobody but its merchant changes what it offers. -/
structure PlanKept (signed : List Pubkey) (before after : PlanAccount) : Prop where
  same : SamePlan before.contents after.contents
  grows : before.dataLen ≤ after.dataLen
  sound : before.contents.Sound → after.contents.Sound
  silent : before.contents.merchant ∉ signed →
    after.contents.upgraded = before.contents.upgraded

structure PlanAdded (P : Platform) (signed : List Pubkey) (key : Pubkey) (account : PlanAccount) :
    Prop where
  sound : account.contents.Sound
  active : account.contents.status = .active
  signs : account.contents.merchant ∈ signed
  address : key = (P.findProgramAddress account.contents.seeds).1

structure Catalogued (P : Platform) (signed : List Pubkey) (w w' : World) : Prop where
  kept : ∀ key before, w.plan key = some before →
    ∃ after, w'.plan key = some after ∧ PlanKept signed before after
  added : ∀ key after, w.plan key = none → w'.plan key = some after →
    PlanAdded P signed key after
  credential : ∀ merchant, (w.shop merchant).credentialMint ≠ Pubkey.default →
    (w'.shop merchant).credentialMint = (w.shop merchant).credentialMint
  silent : ∀ merchant, merchant ∉ signed → w'.shop merchant = w.shop merchant

theorem PlanKept.refl (account : PlanAccount) : PlanKept signed account account :=
  ⟨.refl _, Nat.le_refl _, id, fun _ => rfl⟩

theorem PlanKept.trans {a b c : PlanAccount} (first : PlanKept signed a b)
    (second : PlanKept signers b c) : PlanKept (signers ++ signed) a c where
  same := first.same.trans second.same
  grows := first.grows.trans second.grows
  sound := second.sound ∘ first.sound
  silent quiet := by
    rw [List.mem_append, not_or] at quiet
    exact (second.silent (first.same.merchant ▸ quiet.1)).trans (first.silent quiet.2)

theorem PlanAdded.on {key : Pubkey} {b c : PlanAccount} (first : PlanAdded P signed key b)
    (second : PlanKept signers b c) : PlanAdded P (signers ++ signed) key c where
  sound := second.sound first.sound
  active := second.same.status.trans first.active
  signs := List.mem_append_right _ (second.same.merchant ▸ first.signs)
  address := by
    have seeds : c.contents.seeds = b.contents.seeds := by
      rw [LoadedPlanAccount.seeds, LoadedPlanAccount.seeds, second.same.billingType,
        second.same.merchant, second.same.planId]
    rw [seeds]
    exact first.address

theorem Catalogued.of_same (plan : w'.plan = w.plan) (shop : w'.shop = w.shop) :
    Catalogued P signed w w' where
  kept key before found := ⟨before, (congrFun plan key).trans found, .refl _⟩
  added key after vacant found := by
    cases vacant.symm.trans ((congrFun plan key).symm.trans found)
  credential merchant _ := by rw [shop]
  silent merchant _ := congrFun shop merchant

theorem Catalogued.trans (first : Catalogued P signed w w₁)
    (second : Catalogued P signers w₁ w') : Catalogued P (signers ++ signed) w w' where
  kept key a found := by
    obtain ⟨b, found₁, kept⟩ := first.kept key a found
    obtain ⟨c, found', kept'⟩ := second.kept key b found₁
    exact ⟨c, found', kept.trans kept'⟩
  added key c vacant found' := by
    cases between : w₁.plan key with
    | none =>
      obtain ⟨sound, active, signs, address⟩ := second.added key c between found'
      exact ⟨sound, active, List.mem_append_left _ signs, address⟩
    | some b =>
      obtain ⟨c', present, kept⟩ := second.kept key b between
      obtain rfl := Option.some.inj (found'.symm.trans present)
      exact (first.added key b vacant between).on kept
  credential merchant set := by
    have same := first.credential merchant set
    exact (second.credential merchant (same ▸ set)).trans same
  silent merchant quiet := by
    rw [List.mem_append, not_or] at quiet
    exact (second.silent merchant quiet.1).trans (first.silent merchant quiet.2)

theorem catalogued_of_update {key : Pubkey} {account : PlanAccount}
    (plan : w'.plan = Function.update w.plan key (some account))
    (kept : ∀ before, w.plan key = some before → PlanKept signed before account)
    (added : w.plan key = none → PlanAdded P signed key account)
    (credential : ∀ merchant, (w'.shop merchant).credentialMint = (w.shop merchant).credentialMint)
    (silent : ∀ merchant, merchant ∉ signed → w'.shop merchant = w.shop merchant) :
    Catalogued P signed w w' where
  kept other before found := by
    rw [plan]
    by_cases same : other = key
    · subst same
      exact ⟨account, Function.update_self _ _ _, kept before found⟩
    · exact ⟨before, (Function.update_of_ne same _ _).trans found, .refl _⟩
  added other after vacant found := by
    rw [plan] at found
    by_cases same : other = key
    · subst same
      rw [Function.update_self] at found
      obtain rfl := Option.some.inj found
      exact added vacant
    · rw [Function.update_of_ne same, vacant] at found
      cases found
  credential merchant _ := credential merchant
  silent := silent

theorem CatalogueStep.catalogued (step : CatalogueStep P signers w w') :
    Catalogued P signers w w' := by
  cases step with
  | idle plan shop => exact .of_same plan shop
  | credential merchant mint signs unset plan shop =>
    constructor
    · exact fun key before found => ⟨before, (congrFun plan key).trans found, .refl _⟩
    · intro key after vacant found
      cases vacant.symm.trans ((congrFun plan key).symm.trans found)
    · intro other set
      have apart : other ≠ merchant := fun same => set (same ▸ unset)
      rw [shop, Function.update_of_ne apart]
    · intro other quiet
      have apart : other ≠ merchant := fun same => quiet (same ▸ signs)
      rw [shop, Function.update_of_ne apart]
  | flat key p count signs vacant sound active address numbered next plan shop =>
    refine catalogued_of_update plan (fun before found => ?_)
      (fun _ => ⟨sound, active, signs, address⟩) (fun other => ?_) fun other quiet => ?_
    · cases vacant.symm.trans found
    · rw [shop]
      by_cases same : other = p.merchant
      · rw [same, Function.update_self]
      · rw [Function.update_of_ne same]
    · have apart : other ≠ p.merchant := fun same => quiet (same ▸ signs)
      rw [shop, Function.update_of_ne apart]
  | usage key p signs vacant sound active address plan shop =>
    refine catalogued_of_update plan (fun before found => ?_)
      (fun _ => ⟨sound, active, signs, address⟩) (fun other => ?_) fun other _ => ?_
    · cases vacant.symm.trans found
    · rw [shop]
    · rw [shop]
  | edited key before after signs found same grows sound plan shop =>
    refine catalogued_of_update plan (fun old present => ?_) (fun vacant => ?_)
      (fun other => ?_) fun other _ => ?_
    · obtain rfl := Option.some.inj (found.symm.trans present)
      exact ⟨same, grows, sound, fun quiet => absurd signs quiet⟩
    · cases vacant.symm.trans found
    · rw [shop]
    · rw [shop]
  | upgraded key before after found same grows plan shop =>
    refine catalogued_of_update plan (fun old present => ?_) (fun vacant => ?_)
      (fun other => ?_) fun other _ => ?_
    · obtain rfl := Option.some.inj (found.symm.trans present)
      exact ⟨.of_upgraded same, grows, (sound_upgraded same).mpr, fun _ => same⟩
    · cases vacant.symm.trans found
    · rw [shop]
    · rw [shop]

/-- Over any run no plan disappears or becomes another one, what it offers changes only with its
merchant's signature and stays valid, and a new plan has its merchant's signature. -/
theorem catalogue_governed (run : SealedRun P (w, []) (w', signed)) :
    Catalogued P signed w w' := by
  refine run.invariant (fun v keys => Catalogued P keys w v) (.of_same rfl rfl) ?_
  intro v keys a v' catalogued step closed
  exact catalogued.trans (protocolStep_catalogue step closed).catalogued

/-- The flat plans of a merchant are numbered from zero up to its plan count. -/
structure FlatNumbered (P : Platform) (merchant : Pubkey) (w : World) : Prop where
  below : ∀ n, n < (w.shop merchant).planCount → ∃ account,
    w.plan (P.findProgramAddress (.plan merchant n)).1 = some account ∧
      account.contents.billingType = .flat ∧ account.contents.merchant = merchant ∧
      account.contents.planId = n
  above : ∀ key account, w.plan key = some account → account.contents.billingType = .flat →
    account.contents.merchant = merchant → account.contents.planId < (w.shop merchant).planCount

theorem FlatNumbered.of_kept (numbered : FlatNumbered P merchant w)
    (count : (w'.shop merchant).planCount = (w.shop merchant).planCount)
    (kept : ∀ key before, w.plan key = some before → ∃ after, w'.plan key = some after ∧
      SamePlan before.contents after.contents)
    (others : ∀ key after, w'.plan key = some after → after.contents.billingType = .flat →
      after.contents.merchant = merchant → ∃ before, w.plan key = some before ∧
        SamePlan before.contents after.contents) : FlatNumbered P merchant w' where
  below n less := by
    rw [count] at less
    obtain ⟨account, found, flat, own, id⟩ := numbered.below n less
    obtain ⟨after, found', same⟩ := kept _ account found
    exact ⟨after, found', same.billingType.trans flat, same.merchant.trans own,
      same.planId.trans id⟩
  above key after found flat own := by
    obtain ⟨before, present, same⟩ := others key after found flat own
    rw [count, same.planId]
    exact numbered.above key before present (same.billingType.symm.trans flat)
      (same.merchant.symm.trans own)

theorem FlatNumbered.of_plan (numbered : FlatNumbered P merchant w) (plan : w'.plan = w.plan)
    (count : (w'.shop merchant).planCount = (w.shop merchant).planCount) :
    FlatNumbered P merchant w' := by
  refine numbered.of_kept count (fun key before found => ?_) fun key after found _ _ => ?_
  · exact ⟨before, (congrFun plan key).trans found, .refl _⟩
  · exact ⟨after, (congrFun plan key).symm.trans found, .refl _⟩

theorem FlatNumbered.of_replaced {key : Pubkey} {before after : PlanAccount}
    (numbered : FlatNumbered P merchant w) (found : w.plan key = some before)
    (same : SamePlan before.contents after.contents)
    (plan : w'.plan = Function.update w.plan key (some after)) (shop : w'.shop = w.shop) :
    FlatNumbered P merchant w' := by
  refine numbered.of_kept (by rw [shop]) (fun other old present => ?_)
    fun other new present _ _ => ?_
  · rw [plan]
    by_cases here : other = key
    · subst here
      obtain rfl := Option.some.inj (found.symm.trans present)
      exact ⟨after, Function.update_self _ _ _, same⟩
    · exact ⟨old, (Function.update_of_ne here _ _).trans present, .refl _⟩
  · rw [plan] at present
    by_cases here : other = key
    · subst here
      rw [Function.update_self] at present
      obtain rfl := Option.some.inj present
      exact ⟨before, found, same⟩
    · rw [Function.update_of_ne here] at present
      exact ⟨new, present, .refl _⟩

theorem FlatNumbered.of_added {key : Pubkey} {account : PlanAccount}
    (numbered : FlatNumbered P merchant w) (vacant : w.plan key = none)
    (plan : w'.plan = Function.update w.plan key (some account))
    (count : (w'.shop merchant).planCount = (w.shop merchant).planCount)
    (apart : account.contents.billingType = .flat → account.contents.merchant ≠ merchant) :
    FlatNumbered P merchant w' := by
  refine numbered.of_kept count (fun other old present => ?_) fun other new present flat own => ?_
  · have here : other ≠ key := by
      rintro rfl
      cases vacant.symm.trans present
    exact ⟨old, by rw [plan, Function.update_of_ne here, present], .refl _⟩
  · rw [plan] at present
    by_cases here : other = key
    · subst here
      rw [Function.update_self] at present
      obtain rfl := Option.some.inj present
      exact absurd own (apart flat)
    · rw [Function.update_of_ne here] at present
      exact ⟨new, present, .refl _⟩

theorem FlatNumbered.next {key : Pubkey} {p : VelaPlan} {count : UInt64} {dataLen : Nat}
    (numbered : FlatNumbered P p.merchant w) (vacant : w.plan key = none)
    (address : key = (P.findProgramAddress (.plan p.merchant p.planId)).1)
    (number : p.planId = (w.shop p.merchant).planCount) (more : count.toNat = p.planId.toNat + 1)
    (plan : w'.plan = Function.update w.plan key (some ⟨.flat p, dataLen⟩))
    (shop : (w'.shop p.merchant).planCount = count) : FlatNumbered P p.merchant w' := by
  constructor
  · intro n less
    rw [shop, Checked.lt_iff, more] at less
    by_cases last : n = p.planId
    · subst last
      exact ⟨⟨.flat p, dataLen⟩, by rw [plan, ← address, Function.update_self], rfl, rfl, rfl⟩
    · have different : n.toNat ≠ p.planId.toNat := fun same => last (UInt64.toNat_inj.mp same)
      have before : n < (w.shop p.merchant).planCount := by
        rw [← number, Checked.lt_iff]
        omega
      obtain ⟨account, found, flat, own, id⟩ := numbered.below n before
      have here : (P.findProgramAddress (.plan p.merchant n)).1 ≠ key := by
        intro same
        rw [same, vacant] at found
        cases found
      exact ⟨account, by rw [plan, Function.update_of_ne here, found], flat, own, id⟩
  · intro other account found flat own
    rw [shop, Checked.lt_iff, more]
    rw [plan] at found
    by_cases here : other = key
    · rw [here, Function.update_self] at found
      obtain rfl := Option.some.inj found
      exact Nat.lt_succ_self _
    · rw [Function.update_of_ne here] at found
      have less := numbered.above other account found flat own
      rw [← number, Checked.lt_iff] at less
      omega

theorem CatalogueStep.numbered (step : CatalogueStep P signers w w')
    (numbered : FlatNumbered P merchant w) : FlatNumbered P merchant w' := by
  cases step with
  | idle plan shop => exact numbered.of_plan plan (by rw [shop])
  | credential other mint signs unset plan shop =>
    refine numbered.of_plan plan ?_
    rw [shop]
    by_cases same : merchant = other
    · rw [same, Function.update_self]
    · rw [Function.update_of_ne same]
  | flat key p count signs vacant sound active address number next plan shop =>
    by_cases own : p.merchant = merchant
    · subst own
      exact numbered.next vacant address number next plan (by rw [shop, Function.update_self])
    · refine numbered.of_added vacant plan ?_ fun _ => own
      rw [shop, Function.update_of_ne (Ne.symm own)]
  | usage key p signs vacant sound active address plan shop =>
    exact numbered.of_added vacant plan (by rw [shop]) fun flat => by cases flat
  | edited key before after signs found same grows sound plan shop =>
    exact numbered.of_replaced found same plan shop
  | upgraded key before after found same grows plan shop =>
    exact numbered.of_replaced found (.of_upgraded same) plan shop

/-- Over any run a merchant's flat plans stay numbered without a gap, each at its own address. -/
theorem flat_plans_numbered (start : FlatNumbered P merchant w)
    (run : SealedRun P (w, []) (w', signed)) : FlatNumbered P merchant w' := by
  refine run.invariant (fun v _ => FlatNumbered P merchant v) start ?_
  intro v keys a v' numbered step closed
  exact (protocolStep_catalogue step closed).numbered numbered

open Deployment

def offeringScript : List ProtocolAction :=
  [offerFlat 0 100 3600 0 12 mintA, offerFlat 1 50 3600 0 12 mintA, offerUsage 0 900 3600 mintA,
    .instruction (.updatePlan ⟨Deployment.merchant, flatPlan 0, some 200, none, none, none⟩)].map
    ofBilling

theorem offeringScript_played : ∃ w' signed,
    SealedRun platform (world 0, []) (w', signed) ∧ (w'.shop Deployment.merchant).planCount = 2 ∧
      ((w'.plan (flatPlan 0)).map fun account => account.contents.mandateAmount) = some 200 := by
  have played : (play (applyProtocol platform) watchSigners Inside (world 0, []) offeringScript).any
      (fun x => (x.1.shop Deployment.merchant).planCount = 2 &&
        decide (((x.1.plan (flatPlan 0)).map fun account => account.contents.mandateAmount) =
          some 200)) = true := by
    decide +kernel
  rw [Option.any_eq_true] at played
  obtain ⟨⟨w', signed⟩, script, result⟩ := played
  simp only [Bool.and_eq_true, decide_eq_true_eq] at result
  exact ⟨w', signed, inside_script script, result⟩

theorem catalogue_governed_offered : ∃ w' signed,
    SealedRun platform (world 0, []) (w', signed) ∧
      ((w'.plan (flatPlan 0)).map fun account => account.contents.mandateAmount) = some 200 ∧
      Catalogued platform signed (world 0) w' := by
  obtain ⟨w', signed, run, _, repriced⟩ := offeringScript_played
  exact ⟨w', signed, run, repriced, catalogue_governed run⟩

theorem flat_plans_numbered_offered : ∃ w' signed,
    SealedRun platform (world 0, []) (w', signed) ∧ (w'.shop Deployment.merchant).planCount = 2 ∧
      FlatNumbered platform Deployment.merchant w' := by
  obtain ⟨w', signed, run, count, _⟩ := offeringScript_played
  have start : FlatNumbered platform Deployment.merchant (world 0) := by
    constructor
    · intro n less
      exact absurd less (by rw [Checked.lt_iff]; exact Nat.not_lt_zero _)
    · intro key account found
      cases found
  exact ⟨w', signed, run, count, flat_plans_numbered start run⟩

end VelaProtocol
