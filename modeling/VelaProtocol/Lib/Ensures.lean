import VelaProtocol.Lib.Guard

/-! Postconditions of fallible code, carried over checks and along binds; pairs of computations of
which the second succeeds whenever the first does; computations that are others mapped. -/
namespace Guard

variable {ε α β γ δ : Type} {r : Except ε α} {f : α → Except ε β} {P Q : β → Prop} {R : α → Prop}

/-- Every success satisfies the postcondition. -/
def Ensures (r : Except ε α) (Q : α → Prop) : Prop := ∀ a, r = .ok a → Q a

theorem Ensures.of_pure {b : β} (holds : Q b) : Ensures (pure b : Except ε β) Q := by
  intro c result
  obtain rfl := pure_eq_ok.mp result
  exact holds

theorem Ensures.bind (first : Ensures r R) (rest : ∀ a, R a → Ensures (f a) Q) :
    Ensures (r >>= f) Q := by
  intro b h
  obtain ⟨a, result, h⟩ := bind_eq_ok.mp h
  exact rest a (first a result) b h

theorem Ensures.skip (rest : ∀ a, Ensures (f a) Q) : Ensures (r >>= f) Q := by
  intro b h
  obtain ⟨a, _, h⟩ := bind_eq_ok.mp h
  exact rest a b h

theorem Ensures.ite {p : Prop} [Decidable p] {s t : Except ε β} (yes : p → Ensures s Q)
    (no : ¬p → Ensures t Q) : Ensures (if p then s else t) Q := by
  by_cases holds : p
  · rw [if_pos holds]
    exact yes holds
  · rw [if_neg holds]
    exact no holds

theorem Ensures.mono {s : Except ε β} (ensures : Ensures s P) (weaker : ∀ b, P b → Q b) :
    Ensures s Q := by
  intro b result
  exact weaker b (ensures b result)

/-- Where the first succeeds so does the second, with related results. -/
def Follows (r : Except ε α) (s : Except ε β) (S : α → β → Prop) : Prop :=
  ∀ a, r = .ok a → ∃ b, s = .ok b ∧ S a b

theorem Follows.refl (r : Except ε α) : Follows r r Eq := fun a result => ⟨a, result, rfl⟩

theorem Follows.of_pure {a : α} {b : β} {S : α → β → Prop} (related : S a b) :
    Follows (pure a : Except ε α) (pure b) S := by
  intro a' result
  obtain rfl := pure_eq_ok.mp result
  exact ⟨b, rfl, related⟩

theorem Follows.bind {s : Except ε β} {S : α → β → Prop} {T : γ → δ → Prop}
    {f : α → Except ε γ} {g : β → Except ε δ} (first : Follows r s S)
    (rest : ∀ a b, S a b → Follows (f a) (g b) T) : Follows (r >>= f) (s >>= g) T := by
  intro c h
  obtain ⟨a, result, h⟩ := bind_eq_ok.mp h
  obtain ⟨b, result', related⟩ := first a result
  obtain ⟨d, h', related'⟩ := rest a b related c h
  exact ⟨d, bind_eq_ok.mpr ⟨b, result', h'⟩, related'⟩

theorem Follows.skip {T : γ → δ → Prop} {f : α → Except ε γ} {g : α → Except ε δ}
    (rest : ∀ a, Follows (f a) (g a) T) : Follows (r >>= f) (r >>= g) T := by
  refine Follows.bind (.refl r) fun a b same => ?_
  subst same
  exact rest a

theorem Follows.ite {p : Prop} [Decidable p] {r r' : Except ε α} {s s' : Except ε β}
    {S : α → β → Prop} (yes : p → Follows r s S) (no : ¬p → Follows r' s' S) :
    Follows (if p then r else r') (if p then s else s') S := by
  by_cases holds : p
  · rw [if_pos holds, if_pos holds]
    exact yes holds
  · rw [if_neg holds, if_neg holds]
    exact no holds

section Mapped

variable {s : Except ε β} {f : α → Except ε γ} {g : γ → δ}

theorem map_skip {f' : α → Except ε δ} (rest : ∀ a, f' a = (f a).map g) :
    (r >>= f') = (r >>= f).map g := by
  cases r with
  | error e => rfl
  | ok a => exact rest a

theorem map_same {r' : Except ε α} {f' : α → Except ε δ} (same : r' = r)
    (rest : ∀ a, f' a = (f a).map g) : (r' >>= f') = (r >>= f).map g := by
  subst same
  exact map_skip rest

theorem map_step {h : α → β} {f' : β → Except ε δ} (first : s = r.map h)
    (rest : ∀ a, f' (h a) = (f a).map g) : (s >>= f') = (r >>= f).map g := by
  subst first
  cases r with
  | error e => rfl
  | ok a => exact rest a

theorem map_ite {p : Prop} [Decidable p] {a b : Except ε γ} {a' b' : Except ε δ}
    (yes : p → a' = a.map g) (no : ¬p → b' = b.map g) :
    (if p then a' else b') = (if p then a else b).map g := by
  by_cases holds : p
  · rw [if_pos holds, if_pos holds]
    exact yes holds
  · rw [if_neg holds, if_neg holds]
    exact no holds

end Mapped

end Guard
