import VelaProtocol.Lib.Ensures

/-! Footprints: a state seen through its fields, and which of them a step may have written.
Whatever is read elsewhere is the same before and after. -/
namespace Footprint

variable {σ ι : Type} {V : ι → Type} {read : σ → (i : ι) → V i} {fields more all : List ι}
  {s s₁ s' : σ}

/-- Every field that is not listed reads the same before and after. -/
def Writes (read : σ → (i : ι) → V i) (fields : List ι) (s s' : σ) : Prop :=
  ∀ i ∉ fields, read s' i = read s i

theorem Writes.refl (fields : List ι) (s : σ) : Writes read fields s s := fun _ _ => rfl

theorem Writes.mono (writes : Writes read fields s s') (sub : fields ⊆ more) :
    Writes read more s s' := fun i out => writes i fun mem => out (sub mem)

theorem Writes.trans (first : Writes read fields s s₁) (second : Writes read more s₁ s') :
    Writes read (fields ++ more) s s' := by
  intro i out
  rw [List.mem_append, not_or] at out
  exact (second i out.2).trans (first i out.1)

theorem Writes.within (first : Writes read all s s₁) (second : Writes read fields s₁ s')
    (sub : fields ⊆ all) : Writes read all s s' := by
  intro i out
  exact ((second.mono sub) i out).trans (first i out)

end Footprint
