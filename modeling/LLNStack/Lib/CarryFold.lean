import Mathlib

/-!
# LLNStack.Lib.CarryFold

End-around carry in base `b`: the digits above the lowest are added back to it until one digit is
left. The result has the residue of the number modulo `b - 1` (`carryFold_mod`) and is `0` for `0`
alone (`carryFold_eq_zero`); the two decide it (`carryFold_congr`). Complementing it gives the digit
that completes a sum to a multiple of `b - 1` (`carryFold_complement`).
-/

namespace LLNStack
namespace Lib

/-- Fold the carries of `s` in base `b + 2`. -/
def carryFold (b s : Nat) : Nat :=
  if s < b + 2 then s else carryFold b (s % (b + 2) + s / (b + 2))
termination_by s
decreasing_by
  have h1 := Nat.div_add_mod s (b + 2)
  have h2 : 1 ≤ s / (b + 2) := (Nat.one_le_div_iff (by omega)).mpr (by omega)
  nlinarith

theorem carryFold_of_lt {b s : Nat} (h : s < b + 2) : carryFold b s = s := by
  rw [carryFold, if_pos h]

theorem carryFold_of_le {b s : Nat} (h : b + 2 ≤ s) :
    carryFold b s = carryFold b (s % (b + 2) + s / (b + 2)) := by
  rw [carryFold, if_neg (by omega)]

theorem carryFold_lt (b s : Nat) : carryFold b s < b + 2 := by
  fun_induction carryFold b s with
  | case1 s h => exact h
  | case2 s h ih => exact ih

theorem fold_mod (b s : Nat) : (s % (b + 2) + s / (b + 2)) % (b + 1) = s % (b + 1) := by
  have h : s = s % (b + 2) + s / (b + 2) + (b + 1) * (s / (b + 2)) := by
    have := Nat.mod_add_div s (b + 2)
    nlinarith
  conv_rhs => rw [h, Nat.add_mul_mod_self_left]

theorem carryFold_mod (b s : Nat) : carryFold b s % (b + 1) = s % (b + 1) := by
  fun_induction carryFold b s with
  | case1 s h => rfl
  | case2 s h ih => rw [ih, fold_mod]

theorem carryFold_eq_zero {b s : Nat} : carryFold b s = 0 ↔ s = 0 := by
  fun_induction carryFold b s with
  | case1 s h => rfl
  | case2 s h ih =>
    have hd : 1 ≤ s / (b + 2) := (Nat.one_le_div_iff (by omega)).mpr (by omega)
    rw [ih]
    omega

theorem carryFold_eq_top {b s : Nat} :
    carryFold b s = b + 1 ↔ 0 < s ∧ s % (b + 1) = 0 := by
  constructor
  · intro h
    refine ⟨?_, ?_⟩
    · by_contra hs
      rw [carryFold_of_lt (by omega)] at h
      omega
    · rw [← carryFold_mod, h, Nat.mod_self]
  · rintro ⟨hpos, hmod⟩
    have hlt := carryFold_lt b s
    have h0 : carryFold b s ≠ 0 := fun h0 => by rw [carryFold_eq_zero] at h0; omega
    rw [← carryFold_mod b] at hmod
    by_contra hne
    rw [Nat.mod_eq_of_lt (by omega)] at hmod
    exact h0 hmod

/-- A fold is decided by the residue and by whether the number is zero. -/
theorem carryFold_congr {b s t : Nat} (h0 : s = 0 ↔ t = 0) (hm : s % (b + 1) = t % (b + 1)) :
    carryFold b s = carryFold b t := by
  have hs := carryFold_lt b s
  have ht := carryFold_lt b t
  have hz : carryFold b s = 0 ↔ carryFold b t = 0 := by
    rw [carryFold_eq_zero, carryFold_eq_zero, h0]
  have hr : carryFold b s % (b + 1) = carryFold b t % (b + 1) := by
    rw [carryFold_mod, carryFold_mod, hm]
  -- below the top digit the residue is the digit itself; the top digit and 0 are told apart by `hz`
  rcases Nat.lt_succ_iff_lt_or_eq.mp hs with hs | hs <;>
    rcases Nat.lt_succ_iff_lt_or_eq.mp ht with ht | ht
  · rwa [Nat.mod_eq_of_lt hs, Nat.mod_eq_of_lt ht] at hr
  · rw [Nat.mod_eq_of_lt hs, ht, Nat.mod_self] at hr
    omega
  · rw [hs, Nat.mod_self, Nat.mod_eq_of_lt ht] at hr
    omega
  · rw [hs, ht]

theorem carryFold_eq (b s : Nat) :
    carryFold b s = if s = 0 then 0 else (s - 1) % (b + 1) + 1 := by
  split
  · rename_i h
    rw [carryFold_eq_zero, h]
  · rename_i h
    have hlt : (s - 1) % (b + 1) < b + 1 := Nat.mod_lt _ (by omega)
    rw [← carryFold_of_lt (b := b) (s := (s - 1) % (b + 1) + 1) (by omega)]
    refine carryFold_congr (by omega) ?_
    rw [Nat.mod_add_mod, Nat.sub_add_cancel (by omega)]

theorem carryFold_add (b s t : Nat) : carryFold b (carryFold b s + t) = carryFold b (s + t) := by
  refine carryFold_congr ?_ ?_
  · rw [Nat.add_eq_zero_iff, Nat.add_eq_zero_iff, carryFold_eq_zero]
  · rw [Nat.add_mod, carryFold_mod, ← Nat.add_mod]

theorem carryFold_complement (b s : Nat) :
    carryFold b (s + (b + 1 - carryFold b s)) = b + 1 := by
  have hlt := carryFold_lt b s
  rw [carryFold_eq_top]
  constructor
  · by_contra hs
    have : s = 0 := by omega
    subst this
    rw [carryFold_of_lt (by omega)] at hs
    omega
  · have h1 := carryFold_mod b s
    have h2 : (carryFold b s + (b + 1 - carryFold b s)) % (b + 1) = 0 := by
      rw [Nat.add_sub_cancel' (by omega), Nat.mod_self]
    rw [Nat.add_mod, ← h1, ← Nat.add_mod]
    exact h2

end Lib
end LLNStack
