import Mathlib

/-!
# LLNStack.Lib.Periodic

Something is looked at from time to time and done when more than `p` has passed since it was last
done. `sampled` are the times at which it is done, out of the times `ts` at which it is looked at.

* `sampled_gap`: more than `p` passes from one time to the next.
* `sampledLast_recent`: whenever it has been looked at, it was last done no more than `p` ago.
* `sampled_prompt`: if it is looked at every `d` at the latest, no more than `p + d` passes.
-/

namespace LLNStack
namespace Lib

variable {α : Type*} [AddCommGroup α] [LinearOrder α] [IsOrderedAddMonoid α]

/-- The times among `ts` at which it is done, when it was last done at `t₀`. -/
def sampled (p : α) : α → List α → List α
  | _, [] => []
  | t₀, t :: ts => if p < t - t₀ then t :: sampled p t ts else sampled p t₀ ts

def sampledLast (p : α) (t₀ : α) (ts : List α) : α := (sampled p t₀ ts).getLastD t₀

omit [IsOrderedAddMonoid α] in
theorem sampled_snoc (p t₀ : α) (ts : List α) (t : α) :
    sampled p t₀ (ts ++ [t]) =
      sampled p t₀ ts ++ if p < t - sampledLast p t₀ ts then [t] else [] := by
  induction ts generalizing t₀ with
  | nil => rfl
  | cons u ts ih =>
    simp only [List.cons_append, sampled, sampledLast]
    split
    · rw [ih, List.cons_append, List.getLastD_cons, sampledLast]
    · rw [ih, sampledLast]

omit [IsOrderedAddMonoid α] in
theorem sampled_gap (p t₀ : α) (ts : List α) :
    (t₀ :: sampled p t₀ ts).IsChain (fun a b => p < b - a) := by
  induction ts generalizing t₀ with
  | nil => exact .singleton t₀
  | cons t ts ih =>
    rw [sampled]
    split
    · rename_i h
      exact .cons_cons h (ih t)
    · exact ih t₀

omit [IsOrderedAddMonoid α] in
theorem sampledLast_recent {p : α} (hp : 0 ≤ p) (t₀ : α) (ts : List α) :
    ts.getLastD t₀ - sampledLast p t₀ ts ≤ p := by
  induction ts using List.reverseRecOn with
  | nil => simpa [sampledLast, sampled] using hp
  | append_singleton ts t =>
    rw [List.getLastD_concat]
    by_cases h : p < t - sampledLast p t₀ ts
    · rw [sampledLast, sampled_snoc, if_pos h, List.getLastD_concat, sub_self]
      exact hp
    · rw [sampledLast, sampled_snoc, if_neg h, List.append_nil]
      exact not_lt.mp h

theorem sampled_prompt_of_le {p d t₀ u : α} {ts : List α} (hp : 0 ≤ p) (hu : u - t₀ ≤ p)
    (hts : (u :: ts).IsChain (fun a b => b - a ≤ d)) :
    (t₀ :: sampled p t₀ ts).IsChain (fun a b => b - a ≤ p + d) := by
  induction ts generalizing t₀ u with
  | nil => exact .singleton t₀
  | cons t ts ih =>
    obtain ⟨ht, hts⟩ := List.isChain_cons_cons.mp hts
    rw [sampled]
    split
    · refine .cons_cons ?_ (ih (by rwa [sub_self]) hts)
      calc t - t₀ = (u - t₀) + (t - u) := by abel
        _ ≤ p + d := add_le_add hu ht
    · rename_i h
      exact ih (not_lt.mp h) hts

theorem sampled_prompt {p d t₀ : α} {ts : List α} (hp : 0 ≤ p)
    (hts : (t₀ :: ts).IsChain (fun a b => b - a ≤ d)) :
    (t₀ :: sampled p t₀ ts).IsChain (fun a b => b - a ≤ p + d) :=
  sampled_prompt_of_le hp (by rwa [sub_self]) hts

end Lib
end LLNStack
