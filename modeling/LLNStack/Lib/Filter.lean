import Mathlib

/-!
# LLNStack.Lib.Filter

A list whose elements are of several kinds, seen through the test for one kind: erasing or
rewriting an element of that kind erases or rewrites an element of the filtered list, and doing it
to any other element leaves the filtered list alone.
-/

namespace LLNStack
namespace Lib

variable {α : Type} {p : α → Bool} {l : List α} {k : Nat} {x : α}

theorem filter_at (hk : l[k]? = some x) (hx : p x = true) :
    ∃ k', (l.filter p)[k']? = some x ∧ (l.eraseIdx k).filter p = (l.filter p).eraseIdx k' ∧
      ∀ y, p y = true → (l.set k y).filter p = (l.filter p).set k' y := by
  induction l generalizing k with
  | nil => simp at hk
  | cons a l ih =>
    cases k with
    | zero =>
      obtain rfl : a = x := by simpa using hk
      refine ⟨0, ?_, ?_, fun y hy => ?_⟩
      · simp [hx]
      · simp [hx]
      · simp [hx, hy]
    | succ k =>
      obtain ⟨k', hget, herase, hset⟩ := ih (by simpa using hk)
      by_cases ha : p a = true
      · refine ⟨k' + 1, ?_, ?_, fun y hy => ?_⟩
        · simpa [ha] using hget
        · simp [ha, herase]
        · simp [ha, hset y hy]
      · refine ⟨k', ?_, ?_, fun y hy => ?_⟩
        · simpa [ha] using hget
        · simp [ha, herase]
        · simp [ha, hset y hy]

theorem filter_other (hk : l[k]? = some x) (hx : p x = false) :
    (l.eraseIdx k).filter p = l.filter p ∧
      ∀ y, p y = false → (l.set k y).filter p = l.filter p := by
  induction l generalizing k with
  | nil => simp at hk
  | cons a l ih =>
    cases k with
    | zero =>
      obtain rfl : a = x := by simpa using hk
      refine ⟨?_, fun y hy => ?_⟩
      · simp [hx]
      · simp [hx, hy]
    | succ k =>
      obtain ⟨herase, hset⟩ := ih (by simpa using hk)
      refine ⟨?_, fun y hy => ?_⟩
      · rw [List.eraseIdx_cons_succ, List.filter_cons, List.filter_cons, herase]
      · rw [List.set_cons_succ, List.filter_cons, List.filter_cons, hset y hy]

end Lib
end LLNStack
