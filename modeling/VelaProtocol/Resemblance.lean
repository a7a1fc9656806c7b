import VelaProtocol.Program

/-! Worlds that differ in the terms plans offer and in pending changes only. What collecting a
payment reads of two such worlds is the same, up to the amount a request compares. -/
namespace VelaProtocol

open Guard

def VelaMandate.PendingApart (mandate other : VelaMandate) : Prop :=
  ∃ newPlan effectiveAt changeType nonceShort reserved, other = { mandate with
    pendingNewPlan := newPlan
    pendingEffectiveAt := effectiveAt
    pendingChangeType := changeType
    pendingNonceShort := nonceShort
    reservedV3 := reserved }

theorem VelaMandate.PendingApart.refl (mandate : VelaMandate) : mandate.PendingApart mandate :=
  ⟨_, _, _, _, _, rfl⟩

theorem VelaMandate.PendingApart.trans {a b c : VelaMandate} (first : a.PendingApart b)
    (second : b.PendingApart c) : a.PendingApart c := by
  obtain ⟨_, _, _, _, _, rfl⟩ := first
  obtain ⟨_, _, _, _, _, rfl⟩ := second
  exact ⟨_, _, _, _, _, rfl⟩

inductive LoadedMandateAccount.Resembles : LoadedMandateAccount → LoadedMandateAccount → Prop
  | current (mandate other : VelaMandate) (apart : mandate.PendingApart other) :
      Resembles (.current mandate) (.current other)
  | legacy (mandate : VelaMandateV1) : Resembles (.legacy mandate) (.legacy mandate)

namespace LoadedMandateAccount.Resembles

variable {loaded other : LoadedMandateAccount}

theorem apart (alike : loaded.Resembles other) :
    loaded.intoCurrent.PendingApart other.intoCurrent := by
  cases alike with
  | current mandate other apart => exact apart
  | legacy mandate => exact .refl _

theorem isLegacy (alike : loaded.Resembles other) : other.isLegacy = loaded.isLegacy := by
  cases alike <;> rfl

theorem refl (loaded : LoadedMandateAccount) : loaded.Resembles loaded := by
  cases loaded with
  | current mandate => exact .current mandate mandate (.refl mandate)
  | legacy mandate => exact .legacy mandate

theorem trans {last : LoadedMandateAccount} (first : loaded.Resembles other)
    (second : other.Resembles last) : loaded.Resembles last := by
  cases first with
  | current a b apart =>
    cases second with
    | current b c apart' => exact .current a c (apart.trans apart')
  | legacy a => exact second

theorem of_layout {mandate other : VelaMandate} (apart : mandate.PendingApart other)
    (legacyLayout : Bool) :
    (mandateLayout mandate legacyLayout).Resembles (mandateLayout other legacyLayout) := by
  cases legacyLayout with
  | false => exact .current mandate other apart
  | true =>
    obtain ⟨_, _, _, _, _, rfl⟩ := apart
    exact .legacy _

end LoadedMandateAccount.Resembles

def MandateAccount.Resembles (account other : MandateAccount) : Prop :=
  other.dataLen = account.dataLen ∧ account.contents.Resembles other.contents

structure LoadedPlanAccount.SameOffer (plan other : LoadedPlanAccount) : Prop where
  billingType : other.billingType = plan.billingType
  merchant : other.merchant = plan.merchant
  planId : other.planId = plan.planId
  billingMint : other.billingMint = plan.billingMint
  status : other.status = plan.status
  supported : plan.version = none ∨ plan.version = some currentAccountVersion →
    other.version = none ∨ other.version = some currentAccountVersion

namespace LoadedPlanAccount.SameOffer

variable {plan other : LoadedPlanAccount}

theorem refl (plan : LoadedPlanAccount) : plan.SameOffer plan := ⟨rfl, rfl, rfl, rfl, rfl, id⟩

theorem trans {last : LoadedPlanAccount} (first : plan.SameOffer other)
    (second : other.SameOffer last) : plan.SameOffer last :=
  ⟨second.billingType.trans first.billingType, second.merchant.trans first.merchant,
    second.planId.trans first.planId, second.billingMint.trans first.billingMint,
    second.status.trans first.status, second.supported ∘ first.supported⟩

theorem seeds (same : plan.SameOffer other) : other.seeds = plan.seeds := by
  rw [LoadedPlanAccount.seeds, LoadedPlanAccount.seeds, same.billingType, same.merchant,
    same.planId]

end LoadedPlanAccount.SameOffer

/-- Worlds apart in the terms of plans, in pending changes and in the log. -/
structure Resembles (w w' : World) : Prop where
  rest : w' = { w with plan := w'.plan, mandate := w'.mandate, log := w'.log }
  plans : ∀ key, Option.Rel (fun account other =>
    account.contents.SameOffer other.contents) (w.plan key) (w'.plan key)
  mandates : ∀ key, Option.Rel MandateAccount.Resembles (w.mandate key) (w'.mandate key)

theorem Resembles.refl (w : World) : Resembles w w := by
  refine ⟨rfl, fun key => ?_, fun key => ?_⟩
  · cases w.plan key with
    | none => exact .none
    | some account => exact .some (.refl _)
  · cases w.mandate key with
    | none => exact .none
    | some account => exact .some ⟨rfl, .refl _⟩

theorem rel_trans {α : Type} {r : α → α → Prop} (trans : ∀ x y z, r x y → r y z → r x z)
    {a b c : Option α} (first : Option.Rel r a b) (second : Option.Rel r b c) :
    Option.Rel r a c := by
  cases first with
  | none => exact second
  | some holds =>
    cases second with
    | some holds' => exact .some (trans _ _ _ holds holds')

theorem Resembles.trans {w₁ w₂ w₃ : World} (first : Resembles w₁ w₂) (second : Resembles w₂ w₃) :
    Resembles w₁ w₃ := by
  refine ⟨?_, fun key => ?_, fun key => ?_⟩
  · rw [second.rest, first.rest]
  · exact rel_trans (fun _ _ _ => .trans) (first.plans key) (second.plans key)
  · exact rel_trans (fun _ _ _ holds holds' => ⟨holds'.1.trans holds.1, holds.2.trans holds'.2⟩)
      (first.mandates key) (second.mandates key)

theorem rel_isSome {α β : Type} {r : α → β → Prop} {a : Option α} {b : Option β}
    (rel : Option.Rel r a b) : b.isSome = a.isSome := by
  cases rel <;> rfl

theorem rel_some {α β : Type} {r : α → β → Prop} {a : Option α} {b : Option β} {x : α}
    (rel : Option.Rel r a b) (found : a = some x) : ∃ y, b = some y ∧ r x y := by
  subst found
  cases rel with
  | some holds => exact ⟨_, rfl, holds⟩

theorem rel_map {α β γ δ : Type} {r : α → β → Prop} {s : γ → δ → Prop} {a : Option α}
    {b : Option β} {f : α → γ} {g : β → δ} (rel : Option.Rel r a b)
    (kept : ∀ x y, r x y → s (f x) (g y)) : Option.Rel s (a.map f) (b.map g) := by
  cases rel with
  | none => exact .none
  | some holds => exact .some (kept _ _ holds)

section

variable {P : Platform} {w w' : World} {key : Pubkey}

theorem Resembles.form (alike : Resembles w w') :
    ∃ plans mandates log, w' = { w with plan := plans, mandate := mandates, log := log } :=
  ⟨_, _, _, alike.rest⟩

theorem Resembles.loadPlan {plan : LoadedPlanAccount} (alike : Resembles w w')
    (load : loadPlanAccount P w key = .ok plan) :
    ∃ other, loadPlanAccount P w' key = .ok other ∧ plan.SameOffer other := by
  simp only [loadPlanAccount, check, orVela, orError_bind_eq_ok, require_bind_eq_ok,
    pure_eq_ok] at load ⊢
  obtain ⟨account, found, supported, address, rfl⟩ := load
  obtain ⟨other, found', same⟩ := rel_some (alike.plans key) found
  exact ⟨other.contents, ⟨other, found', same.supported supported, same.seeds ▸ address, rfl⟩, same⟩

theorem loaded_address {loaded other : LoadedMandateAccount} (alike : loaded.Resembles other) :
    validateLoadedMandateAddress P key other = validateLoadedMandateAddress P key loaded := by
  cases alike with
  | current mandate other apart =>
    obtain ⟨_, _, _, _, _, rfl⟩ := apart
    rfl
  | legacy mandate => rfl

theorem Resembles.loadMandate {loaded : LoadedMandateAccount} (alike : Resembles w w')
    (load : loadValidMandate P w key = .ok loaded) :
    ∃ other, loadValidMandate P w' key = .ok other ∧ loaded.Resembles other := by
  obtain ⟨account, found, rfl, version, valid⟩ := loadValidMandate_eq_ok load
  obtain ⟨other, found', _, same⟩ := rel_some (alike.mandates key) found
  refine ⟨other.contents, ?_, same⟩
  simp only [loadValidMandate, loadMandateAccount, found', bind_eq_ok, pure_eq_ok]
  refine ⟨other.contents, ?_, (), (loaded_address same).trans valid, rfl⟩
  generalize account.contents = contents at version same
  generalize other.contents = contents' at same
  cases same with
  | legacy mandate => rfl
  | current mandate other apart =>
    obtain ⟨_, _, _, _, _, rfl⟩ := apart
    exact require_bind_eq_ok.mpr ⟨version, rfl⟩

theorem Resembles.anchorMandate {mandate : VelaMandate} (alike : Resembles w w')
    (anchored : anchorVelaMandate w key = .ok mandate) :
    ∃ other, anchorVelaMandate w' key = .ok other ∧ mandate.PendingApart other := by
  unfold anchorVelaMandate at anchored ⊢
  have related := alike.mandates key
  generalize w.mandate key = stored at anchored related
  generalize w'.mandate key = stored' at related
  cases related with
  | none => cases anchored
  | @some account other same =>
    obtain ⟨contents, dataLen⟩ := account
    obtain ⟨contents', dataLen'⟩ := other
    obtain ⟨rfl, same⟩ := same
    cases same with
    | current mandate other apart =>
      cases anchored
      exact ⟨other, rfl, apart⟩
    | legacy mandate => exact ⟨_, anchored, .refl _⟩

theorem Resembles.writeMandate {mandate other : VelaMandate} (alike : Resembles w w')
    (apart : mandate.PendingApart other) (legacyLayout : Bool) :
    Resembles (w.writeMandate key mandate legacyLayout)
      (w'.writeMandate key other legacyLayout) := by
  refine ⟨?_, alike.plans, fun k => ?_⟩
  · obtain ⟨plans, mandates, log, rfl⟩ := alike.form
    rfl
  · by_cases same : k = key
    · subst same
      simp only [World.writeMandate, Function.update_self]
      exact rel_map (alike.mandates k) fun account other holds => ⟨holds.1, .of_layout apart _⟩
    · simp only [World.writeMandate, Function.update_of_ne same]
      exact alike.mandates k

theorem loadValidMandate_congr (same : w'.mandate = w.mandate) :
    loadValidMandate P w' key = loadValidMandate P w key := by
  simp only [loadValidMandate, loadMandateAccount, same]

theorem Resembles.congr {w₀ w₀' : World} (alike : Resembles w w')
    (rest : w₀' = { w₀ with plan := w₀'.plan, mandate := w₀'.mandate, log := w₀'.log })
    (plan : w₀.plan = w.plan) (plan' : w₀'.plan = w'.plan) (mandate : w₀.mandate = w.mandate)
    (mandate' : w₀'.mandate = w'.mandate) : Resembles w₀ w₀' := by
  refine ⟨rest, fun key => ?_, fun key => ?_⟩
  · rw [plan, plan']
    exact alike.plans key
  · rw [mandate, mandate']
    exact alike.mandates key

end

end VelaProtocol
