import Mathlib.Logic.Relation

/-! Runs of a labelled transition system watched by a monitor.
The monitor sees each step and never restricts it; `allowed` restricts it. -/
namespace Monitored

universe u v w

variable {σ : Type u} {α : Type v} {γ : Type w}

/-- A monitor folds what happened into a ghost value. -/
abbrev Observe (σ : Type u) (α : Type v) (γ : Type w) := γ → σ → α → σ → γ

/-- One step of the system whose label satisfies `allowed`, with the ghost updated. -/
def Step (step : σ → α → σ → Prop) (observe : Observe σ α γ)
    (allowed : γ → σ → α → σ → Prop) (x y : σ × γ) : Prop :=
  ∃ a, step x.1 a y.1 ∧ allowed x.2 x.1 a y.1 ∧ y.2 = observe x.2 x.1 a y.1

def Run (step : σ → α → σ → Prop) (observe : Observe σ α γ)
    (allowed : γ → σ → α → σ → Prop) : σ × γ → σ × γ → Prop :=
  Relation.ReflTransGen (Step step observe allowed)

def Any : γ → σ → α → σ → Prop := fun _ _ _ _ => True

variable {step : σ → α → σ → Prop} {observe : Observe σ α γ}
  {allowed weaker : γ → σ → α → σ → Prop}

theorem Run.refl (x : σ × γ) : Run step observe allowed x x := Relation.ReflTransGen.refl

theorem Run.snoc {x : σ × γ} {s s' : σ} {g : γ} {a : α} (run : Run step observe allowed x (s, g))
    (taken : step s a s') (ok : allowed g s a s') :
    Run step observe allowed x (s', observe g s a s') :=
  Relation.ReflTransGen.tail run ⟨a, taken, ok, rfl⟩

theorem Run.trans {x y z : σ × γ} (first : Run step observe allowed x y)
    (second : Run step observe allowed y z) : Run step observe allowed x z :=
  Relation.ReflTransGen.trans first second

theorem Run.weaken {x y : σ × γ} (run : Run step observe allowed x y)
    (le : ∀ g s a s', allowed g s a s' → weaker g s a s') : Run step observe weaker x y := by
  refine Relation.ReflTransGen.mono ?_ x y run
  rintro p q ⟨a, taken, ok, ghost⟩
  exact ⟨a, taken, le _ _ _ _ ok, ghost⟩

theorem Run.forget {x y : σ × γ} (run : Run step observe allowed x y) :
    Relation.ReflTransGen (fun s s' => ∃ a, step s a s') x.1 y.1 := by
  induction run with
  | refl => exact .refl
  | tail _ last ih =>
    obtain ⟨a, taken, _⟩ := last
    exact ih.tail ⟨a, taken⟩

/-- What every allowed step keeps holds along every run. -/
theorem Run.invariant {x y : σ × γ} (run : Run step observe allowed x y) (I : σ → γ → Prop)
    (initial : I x.1 x.2)
    (keeps : ∀ s g a s', I s g → step s a s' → allowed g s a s' → I s' (observe g s a s')) :
    I y.1 y.2 := by
  induction run with
  | refl => exact initial
  | @tail p q _ last ih =>
    obtain ⟨a, taken, ok, ghost⟩ := last
    rw [ghost]
    exact keeps p.1 p.2 a q.1 ih taken ok

section Scripts

variable [∀ g s a s', Decidable (allowed g s a s')]

def play (apply : σ → α → Option σ) (observe : Observe σ α γ)
    (allowed : γ → σ → α → σ → Prop) [∀ g s a s', Decidable (allowed g s a s')] :
    σ × γ → List α → Option (σ × γ)
  | x, [] => some x
  | (s, g), a :: rest =>
    match apply s a with
    | none => none
    | some s' => if allowed g s a s' then play apply observe allowed (s', observe g s a s') rest
      else none

theorem play_run {apply : σ → α → Option σ} (sound : ∀ s a s', apply s a = some s' → step s a s')
    {x y : σ × γ} {script : List α} (played : play apply observe allowed x script = some y) :
    Run step observe allowed x y := by
  induction script generalizing x with
  | nil =>
    cases played
    exact Run.refl _
  | cons a rest ih =>
    obtain ⟨s, g⟩ := x
    simp only [play] at played
    split at played
    · cases played
    · rename_i s' applied
      split at played
      · rename_i ok
        exact (Run.snoc (Run.refl _) (sound s a s' applied) ok).trans (ih played)
      · cases played

instance anyDecidable (g : γ) (s : σ) (a : α) (s' : σ) :
    Decidable ((Any : γ → σ → α → σ → Prop) g s a s') := isTrue trivial

end Scripts

end Monitored
