import Mathlib

/-!
# LLNStack.Lib.Owns

Blocks of memory and who owns them. A heap maps the addresses that are allocated to the contents of
their blocks. `Owns heap owned` says that every allocated block is owned, by one owner: `owned`
counts how often each address is held somewhere.

* `Owns.alloc`, `Owns.free`, `Owns.freeAll`: what allocating and freeing does. To hand a block over
  is to write the same multiset in another way.
* `pool`: the addresses in a family of queues, with `pool_push`, `pool_pop` and `pool_clear`.
-/

namespace LLNStack
namespace Lib

variable {α β ι : Type}

structure Owns (heap : α → Option β) (owned : Multiset α) : Prop where
  nodup : owned.Nodup
  allocated : ∀ p, (heap p).isSome ↔ p ∈ owned

namespace Owns

variable {heap : α → Option β} {owned : Multiset α} {p : α}

theorem empty : Owns (fun _ : α => (none : Option β)) 0 :=
  ⟨Multiset.nodup_zero, by simp⟩

theorem get (h : Owns heap owned) (hp : p ∈ owned) : ∃ v, heap p = some v :=
  Option.isSome_iff_exists.mp ((h.allocated p).mpr hp)

theorem not_mem (h : Owns heap owned) (hp : heap p = none) : p ∉ owned := by
  intro hmem
  obtain ⟨v, hv⟩ := h.get hmem
  rw [hp] at hv
  cases hv

end Owns

/-! ## Queues of addresses -/

section Pool

variable [Fintype ι]

def pool (queues : ι → List α) : Multiset α := ∑ i, (queues i : Multiset α)

theorem mem_pool {queues : ι → List α} {i : ι} {p : α} (h : p ∈ queues i) : p ∈ pool queues :=
  Multiset.mem_sum.mpr ⟨i, Finset.mem_univ i, h⟩

variable [DecidableEq ι]

theorem pool_update (queues : ι → List α) (i : ι) (xs : List α) :
    ↑(queues i) + pool (Function.update queues i xs) = ↑xs + pool queues := by
  have hcomp : ∀ ys : List α, (fun j => (↑(Function.update queues i ys j) : Multiset α)) =
      Function.update (fun j => (↑(queues j) : Multiset α)) i ↑ys := by
    intro ys
    funext j
    exact Function.apply_update (fun _ (zs : List α) => (zs : Multiset α)) queues i ys j
  have hself := congrArg pool (Function.update_eq_self i queues)
  rw [pool, hcomp, Finset.sum_update_of_mem (Finset.mem_univ i)] at hself
  rw [← hself, pool, hcomp, Finset.sum_update_of_mem (Finset.mem_univ i)]
  exact add_left_comm _ _ _

theorem pool_push (queues : ι → List α) (i : ι) (p : α) :
    pool (Function.update queues i (queues i ++ [p])) = p ::ₘ pool queues := by
  have h := pool_update queues i (queues i ++ [p])
  rw [← Multiset.coe_add, add_assoc] at h
  exact add_left_cancel h

theorem pool_pop {queues : ι → List α} {i : ι} {p : α} {rest : List α}
    (hq : queues i = p :: rest) : p ::ₘ pool (Function.update queues i rest) = pool queues := by
  have h := pool_update queues i rest
  rw [hq, ← Multiset.cons_coe, Multiset.cons_add, ← Multiset.add_cons] at h
  exact add_left_cancel h

theorem pool_clear (queues : ι → List α) (i : ι) :
    ↑(queues i) + pool (Function.update queues i []) = pool queues := by
  rw [pool_update, Multiset.coe_nil, zero_add]

end Pool

/-! ## Allocating and freeing -/

variable [DecidableEq α]

/-- `none` if the block is not allocated. -/
def free (heap : α → Option β) (p : α) : Option (α → Option β) :=
  match heap p with
  | none => none
  | some _ => some (Function.update heap p none)

def freeAll (heap : α → Option β) : List α → Option (α → Option β)
  | [] => some heap
  | p :: ps =>
    match free heap p with
    | none => none
    | some heap => freeAll heap ps

namespace Owns

variable {heap : α → Option β} {owned : Multiset α} {p : α}

theorem alloc (h : Owns heap owned) (hp : heap p = none) (v : β) :
    Owns (Function.update heap p (some v)) (p ::ₘ owned) where
  nodup := Multiset.nodup_cons.mpr ⟨h.not_mem hp, h.nodup⟩
  allocated := by
    intro q
    by_cases hq : q = p
    · subst hq
      simp
    · rw [Function.update_of_ne hq, h.allocated q, Multiset.mem_cons]
      exact (or_iff_right hq).symm

theorem free (h : Owns heap (p ::ₘ owned)) :
    Lib.free heap p = some (Function.update heap p none) ∧
      Owns (Function.update heap p none) owned := by
  obtain ⟨v, hv⟩ := h.get (Multiset.mem_cons_self p owned)
  obtain ⟨hnot, hnodup⟩ := Multiset.nodup_cons.mp h.nodup
  refine ⟨by rw [Lib.free, hv], hnodup, fun q => ?_⟩
  by_cases hq : q = p
  · subst hq
    simp [hnot]
  · rw [Function.update_of_ne hq, h.allocated q, Multiset.mem_cons]
    exact or_iff_right hq

theorem freeAll {ps : List α} (h : Owns heap (↑ps + owned)) :
    ∃ heap', Lib.freeAll heap ps = some heap' ∧ Owns heap' owned ∧
      ∀ q ∈ owned, heap' q = heap q := by
  induction ps generalizing heap with
  | nil =>
    rw [Multiset.coe_nil, zero_add] at h
    exact ⟨heap, rfl, h, fun _ _ => rfl⟩
  | cons p ps ih =>
    rw [← Multiset.cons_coe, Multiset.cons_add] at h
    obtain ⟨hfree, hrest⟩ := h.free
    obtain ⟨heap', hall, howns, hkept⟩ := ih hrest
    refine ⟨heap', by rw [Lib.freeAll, hfree]; exact hall, howns, fun q hq => ?_⟩
    rw [hkept q hq, Function.update_of_ne]
    rintro rfl
    exact (Multiset.nodup_cons.mp h.nodup).1 (Multiset.mem_add.mpr (.inr hq))

end Owns

end Lib
end LLNStack
