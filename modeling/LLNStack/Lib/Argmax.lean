import Mathlib

/-!
# LLNStack.Lib.Argmax

Two facts on `List.argmax`: it is the first of the elements with the largest key, and when keys tell
the elements apart it does not depend on the order of the list.
-/

namespace LLNStack
namespace Lib

variable {α β : Type} [LinearOrder β] {f : α → β} {l l' : List α} {m : α}

theorem argmax_first (h : l.argmax f = some m) :
    ∃ pre post, l = pre ++ m :: post ∧ ∀ a ∈ pre, f a < f m := by
  induction l with
  | nil => cases h
  | cons x l ih =>
    rw [List.argmax_cons] at h
    cases hl : l.argmax f with
    | none =>
      rw [hl] at h
      cases h
      exact ⟨[], l, rfl, by simp⟩
    | some c =>
      rw [hl] at h
      simp only at h
      split at h
      · rename_i hlt
        cases h
        obtain ⟨pre, post, rfl, hpre⟩ := ih hl
        exact ⟨x :: pre, post, rfl, List.forall_mem_cons.mpr ⟨hlt, hpre⟩⟩
      · cases h
        exact ⟨[], l, rfl, by simp⟩

theorem argmax_perm (hp : l.Perm l') (huniq : ∀ a ∈ l, ∀ b ∈ l, f a = f b → a = b) :
    l.argmax f = l'.argmax f := by
  cases hm : l.argmax f with
  | none =>
    rw [List.argmax_eq_none] at hm
    subst hm
    rw [hp.symm.eq_nil]
    rfl
  | some m =>
    cases hm' : l'.argmax f with
    | none =>
      rw [List.argmax_eq_none] at hm'
      subst hm'
      rw [hp.eq_nil] at hm
      cases hm
    | some m' =>
      have hin := List.argmax_mem hm
      have hin' := hp.mem_iff.mpr (List.argmax_mem hm')
      have hle := List.le_of_mem_argmax hin' hm
      have hge := List.le_of_mem_argmax (hp.mem_iff.mp hin) hm'
      rw [huniq m hin m' hin' (le_antisymm hge hle)]

end Lib
end LLNStack
