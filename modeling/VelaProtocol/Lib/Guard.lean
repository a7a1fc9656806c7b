import Mathlib.Tactic.Common

/-! Fallible code as `Except`: checks, partial lookups and their inversion.
Nothing here says which errors exist; callers read a success backwards. -/
namespace Guard

variable {ε α β : Type}

/-- A check on an optional value looks at the value alone, never through its whole type. -/
instance (priority := 1100) decidableForallMem (value : Option α) (p : α → Prop)
    [DecidablePred p] : Decidable (∀ a ∈ value, p a) :=
  match value with
  | none => isTrue nofun
  | some a => decidable_of_iff (p a) (by simp)

def require (p : Prop) [Decidable p] (e : ε) : Except ε Unit :=
  if p then .ok () else .error e

def orError (value : Option α) (e : ε) : Except ε α :=
  match value with
  | some a => .ok a
  | none => .error e

theorem require_eq_ok {p : Prop} [Decidable p] {e : ε} {u : Unit} :
    require p e = .ok u ↔ p := by
  unfold require
  split <;> simp_all

theorem require_of {p : Prop} [Decidable p] (e : ε) (h : p) : require p e = .ok () := by
  simp [require, h]

theorem orError_eq_ok {value : Option α} {e : ε} {a : α} :
    orError value e = .ok a ↔ value = some a := by
  cases value <;> simp [orError]

theorem orError_some (a : α) (e : ε) : orError (some a) e = .ok a := rfl

theorem bind_eq_ok {x : Except ε α} {f : α → Except ε β} {b : β} :
    (x >>= f) = .ok b ↔ ∃ a, x = .ok a ∧ f a = .ok b := by
  cases x <;> simp [Bind.bind, Except.bind]

theorem pure_eq_ok {a b : α} : (pure a : Except ε α) = .ok b ↔ a = b := by
  simp [pure, Except.pure]

theorem ok_bind (a : α) (f : α → Except ε β) : (Except.ok a >>= f) = f a := rfl

theorem require_bind_eq_ok {p : Prop} [Decidable p] {e : ε} {f : Unit → Except ε β} {b : β} :
    (require p e >>= f) = .ok b ↔ p ∧ f () = .ok b := by
  simp only [bind_eq_ok, require_eq_ok]
  exact ⟨fun ⟨_, hp, hf⟩ => ⟨hp, hf⟩, fun ⟨hp, hf⟩ => ⟨(), hp, hf⟩⟩

theorem orError_bind_eq_ok {value : Option α} {e : ε} {f : α → Except ε β} {b : β} :
    (orError value e >>= f) = .ok b ↔ ∃ a, value = some a ∧ f a = .ok b := by
  simp only [bind_eq_ok, orError_eq_ok]

theorem mapM_eq_ok {f : α → Except ε β} {values : List α} {results : List β}
    (h : values.mapM f = .ok results) : List.Forall₂ (fun a b => f a = .ok b) values results := by
  induction values generalizing results with
  | nil =>
    cases h
    exact .nil
  | cons a rest ih =>
    rw [List.mapM_cons] at h
    obtain ⟨b, first, h⟩ := bind_eq_ok.mp h
    obtain ⟨others, later, h⟩ := bind_eq_ok.mp h
    cases h
    exact .cons first (ih later)

theorem mapM_ok_iff {f : α → Except ε β} {values : List α} :
    (∃ results, values.mapM f = .ok results) ↔ ∀ a ∈ values, ∃ b, f a = .ok b := by
  constructor
  · rintro ⟨results, mapped⟩
    have each := mapM_eq_ok mapped
    clear mapped
    induction each with
    | nil => exact nofun
    | cons first _ ih =>
      intro a mem
      rcases List.mem_cons.mp mem with rfl | later
      · exact ⟨_, first⟩
      · exact ih a later
  · intro each
    induction values with
    | nil => exact ⟨[], rfl⟩
    | cons a rest ih =>
      obtain ⟨b, first⟩ := each a List.mem_cons_self
      obtain ⟨results, later⟩ := ih fun a mem => each a (List.mem_cons_of_mem _ mem)
      refine ⟨b :: results, ?_⟩
      rw [List.mapM_cons, first, ok_bind, later]
      rfl

end Guard
