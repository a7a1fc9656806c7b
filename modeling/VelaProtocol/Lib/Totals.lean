import Mathlib.Algebra.BigOperators.Finprod
import Mathlib.Algebra.Order.BigOperators.Group.Finset
import Mathlib.Data.Set.Card

/-! The sum of a measure over a finite store, and what writing one cell does to it; the same for
the number of keys in a set. -/
namespace Totals

variable {ι β : Type} {m : β → Nat} {f : ι → Option β} {i j : ι} {b : β}

def cell (m : β → Nat) (x : Option β) : Nat := (x.map m).getD 0

/-- A sum that is reasoned about and never computed: stores are large. -/
noncomputable def total (m : β → Nat) (f : ι → Option β) : Nat := ∑ᶠ i, cell m (f i)

@[simp] theorem cell_none : cell m none = 0 := rfl

@[simp] theorem cell_some : cell m (some b) = m b := rfl

theorem total_eq_zero (empty : ∀ i, cell m (f i) = 0) : total m f = 0 := by
  unfold total
  simp only [empty, finsum_zero]

theorem cell_le_total [Finite ι] (m : β → Nat) (f : ι → Option β) (i : ι) :
    cell m (f i) ≤ total m f := by
  have finite : (Function.support fun i => cell m (f i)).Finite := Set.toFinite _
  exact single_le_finsum i finite fun _ => Nat.zero_le _

theorem ncard_gain [Finite ι] {s t : Set ι} (out : i ∉ s) (here : i ∈ t)
    (same : ∀ x, x ≠ i → (x ∈ t ↔ x ∈ s)) : t.ncard = s.ncard + 1 := by
  have grown : t = insert i s := by
    ext x
    by_cases at_key : x = i
    · subst at_key
      exact ⟨fun _ => Set.mem_insert _ _, fun _ => here⟩
    · rw [same x at_key, Set.mem_insert_iff, or_iff_right at_key]
  rw [grown, Set.ncard_insert_of_notMem out]

variable [DecidableEq ι] [Finite ι]

theorem total_update (m : β → Nat) (f : ι → Option β) (i : ι) (x : Option β) :
    total m (Function.update f i x) + cell m (f i) = total m f + cell m x := by
  have := Fintype.ofFinite ι
  have rest : ∑ j ∈ Finset.univ.erase i, cell m (Function.update f i x j) =
      ∑ j ∈ Finset.univ.erase i, cell m (f j) := by
    apply Finset.sum_congr rfl
    intro j other
    rw [Function.update_of_ne (Finset.ne_of_mem_erase other)]
  have before := Finset.add_sum_erase Finset.univ (fun j => cell m (f j)) (Finset.mem_univ i)
  have after := Finset.add_sum_erase Finset.univ (fun j => cell m (Function.update f i x j))
    (Finset.mem_univ i)
  simp only [Function.update_self] at after
  rw [rest] at after
  unfold total
  rw [finsum_eq_sum_of_fintype, finsum_eq_sum_of_fintype]
  omega

theorem total_move {x y : Option β} (apart : i ≠ j)
    (balanced : cell m x + cell m y = cell m (f i) + cell m (f j)) :
    total m (Function.update (Function.update f i x) j y) = total m f := by
  have first := total_update m f i x
  have second := total_update m (Function.update f i x) j y
  rw [Function.update_of_ne (Ne.symm apart)] at second
  omega

end Totals
