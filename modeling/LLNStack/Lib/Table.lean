import Mathlib

/-!
# LLNStack.Lib.Table

Tables of a fixed number of slots, as functions on `Fin n`, and the scan for the first slot that
passes a test. A slot is written with `Function.update`.
-/

namespace LLNStack
namespace Lib

variable {n : Nat} {α : Type} {t : Fin n → α} {p : α → Prop} [DecidablePred p] {i : Fin n}

def firstSlot {n : Nat} {α : Type} (t : Fin n → α) (p : α → Prop) [DecidablePred p] :
    Option (Fin n) :=
  Fin.find? fun i => decide (p (t i))

theorem firstSlot_eq_some :
    firstSlot t p = some i ↔ p (t i) ∧ ∀ j, j < i → ¬ p (t j) := by
  simp only [firstSlot, Fin.find?_eq_some_iff, decide_eq_true_eq, decide_eq_false_iff_not]

theorem firstSlot_some (h : firstSlot t p = some i) : p (t i) := (firstSlot_eq_some.mp h).1

theorem firstSlot_none : firstSlot t p = none ↔ ∀ i, ¬ p (t i) := by
  simp only [firstSlot, Fin.find?_eq_none_iff, decide_eq_false_iff_not]

theorem firstSlot_isSome (h : p (t i)) : ∃ j, firstSlot t p = some j := by
  cases hf : firstSlot t p with
  | none => exact absurd h (firstSlot_none.mp hf i)
  | some j => exact ⟨j, rfl⟩

theorem firstSlot_update {x : α} (hx : p x) (hlt : ∀ j, j < i → ¬ p (t j)) :
    firstSlot (Function.update t i x) p = some i := by
  refine firstSlot_eq_some.mpr ⟨by rwa [Function.update_self], fun j hj => ?_⟩
  rw [Function.update_of_ne hj.ne]
  exact hlt j hj

-- Everything about the scan follows from the lemmas above; unfolding it runs over all `n` slots.
attribute [irreducible] firstSlot

theorem firstSlot_of_unique (hu : ∀ j k, p (t j) → p (t k) → j = k) :
    firstSlot t p = some i ↔ p (t i) := by
  refine ⟨firstSlot_some, fun h => ?_⟩
  obtain ⟨j, hj⟩ := firstSlot_isSome h
  rw [hj, hu j i (firstSlot_some hj) h]

theorem firstSlot_perm (hu : ∀ j k, p (t j) → p (t k) → j = k) (σ : Equiv.Perm (Fin n)) :
    firstSlot (t ∘ σ) p = (firstSlot t p).map σ.symm := by
  cases hf : firstSlot t p with
  | none =>
    rw [Option.map_none, firstSlot_none]
    exact fun i => firstSlot_none.mp hf (σ i)
  | some i =>
    have hu' : ∀ j k, p ((t ∘ σ) j) → p ((t ∘ σ) k) → j = k :=
      fun j k hj hk => σ.injective (hu _ _ hj hk)
    rw [Option.map_some, firstSlot_of_unique hu']
    simpa using firstSlot_some hf

end Lib
end LLNStack
