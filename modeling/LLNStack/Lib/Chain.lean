import Mathlib

/-!
# LLNStack.Lib.Chain

Singly linked lists in a heap. A heap maps the addresses that are allocated to their nodes, and a
link is an address or null (`none`).

* `Chain heap p cells`: from the link `p`, the nodes at the addresses of `cells` hold its values,
  one after the other, and the last link is null.
* `Chain.unique` / `Chain.nodup`: a link has one chain, which therefore has no cycle.
* `Chain.frame` / `Chain.snoc`: what changes to the heap do to a chain.
-/

namespace LLNStack
namespace Lib

structure Node (α β : Type) where
  next : Option α
  data : β

def Chain {α β : Type} (heap : α → Option (Node α β)) : Option α → List (α × β) → Prop
  | p, [] => p = none
  | p, c :: cells => p = some c.1 ∧ ∃ next, heap c.1 = some ⟨next, c.2⟩ ∧ Chain heap next cells

namespace Chain

variable {α β : Type} {heap heap' : α → Option (Node α β)} {p : Option α} {cells : List (α × β)}

theorem eq_nil_iff (h : Chain heap p cells) : p = none ↔ cells = [] := by
  cases cells with
  | nil => exact ⟨fun _ => rfl, fun _ => h⟩
  | cons c cells => simp [h.1]

theorem allocated (h : Chain heap p cells) : ∀ c ∈ cells, ∃ next, heap c.1 = some ⟨next, c.2⟩ := by
  induction cells generalizing p with
  | nil => simp
  | cons c cells ih =>
    obtain ⟨-, next, hnode, hrest⟩ := h
    intro c' hc'
    rcases List.mem_cons.mp hc' with rfl | hc'
    · exact ⟨next, hnode⟩
    · exact ih hrest c' hc'

theorem unique {cells' : List (α × β)} (h : Chain heap p cells) (h' : Chain heap p cells') :
    cells = cells' := by
  induction cells generalizing p cells' with
  | nil => exact ((h'.eq_nil_iff).mp h).symm
  | cons c cells ih =>
    obtain ⟨hp, next, hnode, hrest⟩ := h
    cases cells' with
    | nil => rw [hp] at h'; cases h'
    | cons c' cells' =>
      obtain ⟨hp', next', hnode', hrest'⟩ := h'
      have hc : c.1 = c'.1 := Option.some.inj (hp.symm.trans hp')
      rw [hc, hnode'] at hnode
      simp only [Option.some.injEq, Node.mk.injEq] at hnode
      obtain ⟨rfl, hx⟩ := hnode
      rw [ih hrest hrest', Prod.ext hc hx.symm]

theorem of_append {xs : List (α × β)} {c : α × β} (h : Chain heap p (xs ++ c :: cells)) :
    Chain heap (some c.1) (c :: cells) := by
  induction xs generalizing p with
  | nil => exact ⟨rfl, h.2⟩
  | cons x xs ih =>
    obtain ⟨-, next, -, hrest⟩ := h
    exact ih hrest

/-- An address that came twice would have two chains, one inside the other. -/
theorem nodup (h : Chain heap p cells) : (cells.map Prod.fst).Nodup := by
  induction cells generalizing p with
  | nil => simp
  | cons c cells ih =>
    have hc : Chain heap (some c.1) (c :: cells) := ⟨rfl, h.2⟩
    obtain ⟨-, next, -, hrest⟩ := h
    rw [List.map_cons, List.nodup_cons]
    refine ⟨fun hmem => ?_, ih hrest⟩
    obtain ⟨c', hc', heq⟩ := List.mem_map.mp hmem
    obtain ⟨xs, ys, rfl⟩ := List.append_of_mem hc'
    have hsuffix := hrest.of_append
    rw [heq] at hsuffix
    have hlen := congrArg List.length (hc.unique hsuffix)
    simp only [List.length_cons, List.length_append] at hlen
    omega

theorem frame (h : Chain heap p cells) (hsame : ∀ c ∈ cells, heap' c.1 = heap c.1) :
    Chain heap' p cells := by
  induction cells generalizing p with
  | nil => exact h
  | cons c cells ih =>
    obtain ⟨hp, next, hnode, hrest⟩ := h
    refine ⟨hp, next, ?_, ih hrest fun c' hc' => hsame c' (List.mem_cons_of_mem _ hc')⟩
    rw [hsame c List.mem_cons_self, hnode]

theorem snoc [DecidableEq α] {t b : α} {x y : β} (h : Chain heap p (cells ++ [(t, x)]))
    (hb : heap b = none) :
    Chain (Function.update (Function.update heap b (some ⟨none, y⟩)) t (some ⟨some b, x⟩)) p
      (cells ++ [(t, x)] ++ [(b, y)]) := by
  induction cells generalizing p with
  | nil =>
    obtain ⟨hp, next, hnode, -⟩ := h
    have hbt : b ≠ t := by
      rintro rfl
      rw [hb] at hnode
      cases hnode
    refine ⟨hp, some b, Function.update_self .., rfl, none, ?_, rfl⟩
    rw [Function.update_of_ne hbt, Function.update_self]
  | cons c cells ih =>
    have hnodup := h.nodup
    obtain ⟨hp, next, hnode, hrest⟩ := h
    have hct : c.1 ≠ t := by
      intro heq
      simp [heq] at hnodup
    have hcb : c.1 ≠ b := by
      intro heq
      rw [heq, hb] at hnode
      cases hnode
    refine ⟨hp, next, ?_, ih hrest⟩
    rw [Function.update_of_ne hct, Function.update_of_ne hcb, hnode]

end Chain

end Lib
end LLNStack
