import Mathlib

/-!
# LLNStack.Lib.Keyed

Lists that are searched: by a key that no two elements share, or for the first element that a
function is defined on.
-/

namespace LLNStack
namespace Lib

variable {α κ : Type} {key : α → κ} {xs : List α} {x y : α}

theorem map_key_set {n : Nat} (hx : xs[n]? = some x) (hy : key y = key x) :
    (xs.set n y).map key = xs.map key := by
  obtain ⟨hn, rfl⟩ := List.getElem?_eq_some_iff.mp hx
  have hn' : n < (xs.map key).length := by simpa using hn
  have hget : key xs[n] = (xs.map key)[n] := by simp
  rw [List.map_set, hy, hget, List.set_getElem_self]

variable [DecidableEq κ]

theorem find_key_of_mem (hd : (xs.map key).Nodup) (h : x ∈ xs) :
    xs.find? (fun z => key z = key x) = some x := by
  obtain ⟨z, hz⟩ : ∃ z, xs.find? (fun z => key z = key x) = some z :=
    Option.isSome_iff_exists.mp (List.find?_isSome.mpr ⟨x, h, by simp⟩)
  have hkey : key z = key x := by simpa using List.find?_some hz
  rw [hz, List.inj_on_of_nodup_map hd (List.mem_of_find?_eq_some hz) h hkey]

theorem find_key_none {k : κ} : xs.find? (fun z => key z = k) = none ↔ ∀ z ∈ xs, key z ≠ k := by
  simp

theorem find_key_set (hd : (xs.map key).Nodup) {n : Nat} (hx : xs[n]? = some x)
    (hy : key y = key x) (k : κ) :
    (xs.set n y).find? (fun z => key z = k) =
      if k = key x then some y else xs.find? (fun z => key z = k) := by
  induction xs generalizing n with
  | nil => cases hx
  | cons z xs ih =>
    rw [List.map_cons, List.nodup_cons] at hd
    cases n with
    | zero =>
      cases hx
      rw [List.set_cons_zero, List.find?_cons, List.find?_cons, hy]
      by_cases hk : key x = k
      · simp [hk]
      · simp [hk, Ne.symm hk]
    | succ n =>
      rw [List.getElem?_cons_succ] at hx
      rw [List.set_cons_succ, List.find?_cons, List.find?_cons, ih hd.2 hx]
      by_cases hk : key z = k
      · -- the element found before is another one
        have hne : k ≠ key x := fun h => hd.1 (by
          rw [hk, h]
          exact List.mem_map_of_mem (List.mem_of_getElem? hx))
        simp [hk, hne]
      · simp [hk]

omit [DecidableEq κ] in
theorem split_first_unique {f : α → Option κ} {before before' after after' : List α}
    (h : before ++ x :: after = before' ++ y :: after') (hbefore : ∀ z ∈ before, f z = none)
    (hx : f x ≠ none) (hbefore' : ∀ z ∈ before', f z = none) (hy : f y ≠ none) :
    before = before' ∧ x = y ∧ after = after' := by
  induction before generalizing before' with
  | nil =>
    cases before' with
    | nil =>
      rw [List.nil_append, List.nil_append, List.cons.injEq] at h
      exact ⟨rfl, h⟩
    | cons z before' =>
      rw [List.nil_append, List.cons_append, List.cons.injEq] at h
      exact absurd (hbefore' z List.mem_cons_self) (h.1 ▸ hx)
  | cons z before ih =>
    cases before' with
    | nil =>
      rw [List.nil_append, List.cons_append, List.cons.injEq] at h
      exact absurd (hbefore z List.mem_cons_self) (h.1.symm ▸ hy)
    | cons w before' =>
      rw [List.cons_append, List.cons_append, List.cons.injEq] at h
      obtain ⟨hs, hxy, hafter⟩ := ih h.2 (fun z hz => hbefore z (List.mem_cons_of_mem _ hz))
        (fun z hz => hbefore' z (List.mem_cons_of_mem _ hz))
      exact ⟨by rw [h.1, hs], hxy, hafter⟩

end Lib
end LLNStack
