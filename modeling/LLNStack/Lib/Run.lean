import Mathlib

/-!
# LLNStack.Lib.Run

Runs of a labelled transition relation `R : σ → ℓ → σ → Prop`. A run records the labels of its
steps in the order they were taken, so that a property of a whole history is a property of the
trace.

* `Run R s₀ tr s`: from `s₀`, the steps labelled `tr` lead to `s`.
* `Run.invariant` / `Run.history`: what holds at the start and is kept by one step holds in every
  state reached, without and with reference to the trace.
* `Run.simulation`: what relates two systems step by step relates their runs.
* `exec`: the run of a list of actions, for a system given by a step function; `checked` is the
  system in which only actions that pass a check can be taken.
* `Run.guarded_iff`: when one step keeps `P` exactly if the condition `C` holds before it, a whole
  run stays inside `P` exactly if every one of its steps meets `C`.
-/

namespace LLNStack
namespace Lib

universe u v

inductive Run {σ : Type u} {ℓ : Type v} (R : σ → ℓ → σ → Prop) (s₀ : σ) : List ℓ → σ → Prop where
  | nil : Run R s₀ [] s₀
  | snoc {tr : List ℓ} {s s' : σ} {l : ℓ} :
      Run R s₀ tr s → R s l s' → Run R s₀ (tr ++ [l]) s'

/-- `R` with its steps limited to those that meet `C`. -/
def Guarded {σ : Type u} {ℓ : Type v} (R : σ → ℓ → σ → Prop) (C : σ → ℓ → Prop) :
    σ → ℓ → σ → Prop :=
  fun s l s' => R s l s' ∧ C s l

namespace Run

variable {σ : Type u} {ℓ : Type v} {R : σ → ℓ → σ → Prop} {s₀ s : σ} {tr : List ℓ}

theorem mono {R' : σ → ℓ → σ → Prop} (hR : ∀ s l s', R s l s' → R' s l s')
    (h : Run R s₀ tr s) : Run R' s₀ tr s := by
  induction h with
  | nil => exact .nil
  | snoc _ hl ih => exact .snoc ih (hR _ _ _ hl)

theorem of_guarded {C : σ → ℓ → Prop} (h : Run (Guarded R C) s₀ tr s) : Run R s₀ tr s :=
  h.mono fun _ _ _ hl => hl.1

theorem guard {C : σ → ℓ → Prop} (h : Run R s₀ tr s) (hC : ∀ l ∈ tr, ∀ s, C s l) :
    Run (Guarded R C) s₀ tr s := by
  induction h with
  | nil => exact .nil
  | snoc _ hl ih =>
    exact .snoc (ih fun l hm => hC l (List.mem_append_left _ hm)) ⟨hl, hC _ (by simp) _⟩

theorem of_snoc {l : ℓ} (h : Run R s₀ (tr ++ [l]) s) : ∃ s₁, Run R s₀ tr s₁ ∧ R s₁ l s := by
  generalize htr : tr ++ [l] = tr' at h
  cases h with
  | nil => simp at htr
  | snoc h hl =>
    obtain ⟨rfl, hl'⟩ := List.append_inj' htr rfl
    cases hl'
    exact ⟨_, h, hl⟩

theorem eq_of_nil (h : Run R s₀ [] s) : s = s₀ := by
  generalize htr : ([] : List ℓ) = tr' at h
  cases h with
  | nil => rfl
  | snoc _ _ => simp at htr

theorem history {P : List ℓ → σ → Prop} (h : Run R s₀ tr s) (h0 : P [] s₀)
    (hs : ∀ tr s l s', Run R s₀ tr s → P tr s → R s l s' → P (tr ++ [l]) s') : P tr s := by
  induction h with
  | nil => exact h0
  | snoc hr hl ih => exact hs _ _ _ _ hr ih hl

theorem invariant {P : σ → Prop} (h : Run R s₀ tr s) (h0 : P s₀)
    (hs : ∀ s l s', P s → R s l s' → P s') : P s :=
  h.history (P := fun _ s => P s) h0 fun _ _ _ _ _ hp hl => hs _ _ _ hp hl

/-- A relation between the states of two systems that each step of the first keeps, by a step of
the second with the same label, carries a run of the first over to one of the second. -/
theorem simulation {τ : Type*} {R' : τ → ℓ → τ → Prop} {t₀ : τ} {Sim : σ → τ → Prop}
    (h : Run R s₀ tr s) (h0 : Sim s₀ t₀)
    (hs : ∀ s t l s', Sim s t → R s l s' → ∃ t', R' t l t' ∧ Sim s' t') :
    ∃ t, Run R' t₀ tr t ∧ Sim s t := by
  induction h with
  | nil => exact ⟨t₀, .nil, h0⟩
  | snoc _ hl ih =>
    obtain ⟨t, ht, hsim⟩ := ih
    obtain ⟨t', hl', hsim'⟩ := hs _ _ _ _ hsim hl
    exact ⟨t', .snoc ht hl', hsim'⟩

theorem deterministic (hR : ∀ s l s₁ s₂, R s l s₁ → R s l s₂ → s₁ = s₂) {s' : σ}
    (h : Run R s₀ tr s) (h' : Run R s₀ tr s') : s = s' := by
  induction h generalizing s' with
  | nil => exact h'.eq_of_nil.symm
  | snoc _ hl ih =>
    obtain ⟨s₁, h₁, hl'⟩ := h'.of_snoc
    rw [← ih h₁] at hl'
    exact hR _ _ _ _ hl hl'

def Throughout (R : σ → ℓ → σ → Prop) (s₀ : σ) (tr : List ℓ) (P : List ℓ → σ → Prop) : Prop :=
  ∀ tr₁ s₁, tr₁ <+: tr → Run R s₀ tr₁ s₁ → P tr₁ s₁

/-- If a step out of a state with `P` keeps `P` exactly when `C` holds before it, a run keeps `P`
throughout exactly when all its steps meet `C`. The steps before it may be taken to meet `C`. -/
theorem guarded_iff {P : List ℓ → σ → Prop} {C : σ → ℓ → Prop}
    (hR : ∀ s l s₁ s₂, R s l s₁ → R s l s₂ → s₁ = s₂) (h0 : P [] s₀)
    (hs : ∀ tr s l s', Run (Guarded R C) s₀ tr s → P tr s → R s l s' →
      (P (tr ++ [l]) s' ↔ C s l))
    (h : Run R s₀ tr s) : Throughout R s₀ tr P ↔ Run (Guarded R C) s₀ tr s := by
  induction h with
  | nil =>
    refine ⟨fun _ => .nil, fun _ tr₁ s₁ hp h₁ => ?_⟩
    rw [List.prefix_nil] at hp
    subst hp
    rw [h₁.eq_of_nil]; exact h0
  | @snoc tr s s' l hr hl ih =>
    constructor
    · intro hall
      have hpre : Throughout R s₀ tr P := fun tr₁ s₁ hp =>
        hall tr₁ s₁ (hp.trans (List.prefix_append _ _))
      have hP : P tr s := hpre tr s (List.prefix_refl _) hr
      have hP' : P (tr ++ [l]) s' := hall _ _ (List.prefix_refl _) (.snoc hr hl)
      exact .snoc (ih.mp hpre) ⟨hl, (hs tr s l s' (ih.mp hpre) hP hl).mp hP'⟩
    · intro hg tr₁ s₁ hp h₁
      obtain ⟨s₂, hg₂, hl₂, hC⟩ := hg.of_snoc
      have hs₂ : s₂ = s := hg₂.of_guarded.deterministic hR hr
      subst hs₂
      have hpre := ih.mpr hg₂
      rcases List.prefix_concat_iff.mp hp with rfl | hp
      · rw [h₁.deterministic hR (.snoc hr hl)]
        exact (hs tr s₂ l s' hg₂ (hpre tr s₂ (List.prefix_refl _) hr) hl).mpr hC
      · exact hpre tr₁ s₁ hp h₁

theorem append {s₁ s₂ : σ} {tr₁ tr₂ : List ℓ} (h₁ : Run R s₀ tr₁ s₁) (h₂ : Run R s₁ tr₂ s₂) :
    Run R s₀ (tr₁ ++ tr₂) s₂ := by
  induction h₂ with
  | nil => simpa using h₁
  | snoc _ hl ih =>
    rw [← List.append_assoc]
    exact .snoc ih hl

theorem of_append {tr₁ tr₂ : List ℓ} (h : Run R s₀ (tr₁ ++ tr₂) s) :
    ∃ s₁, Run R s₀ tr₁ s₁ ∧ Run R s₁ tr₂ s := by
  induction tr₂ using List.reverseRecOn generalizing s with
  | nil => exact ⟨s, List.append_nil tr₁ ▸ h, .nil⟩
  | append_singleton tr₂ l ih =>
    rw [← List.append_assoc] at h
    obtain ⟨s₂, h₂, hl⟩ := h.of_snoc
    obtain ⟨s₁, h₁, h₂⟩ := ih h₂
    exact ⟨s₁, h₁, .snoc h₂ hl⟩

end Run

/-! ## Traces that grow at their end -/

theorem filterMap_snoc {α β : Type} (f : α → Option β) (xs : List α) (x : α) :
    (xs ++ [x]).filterMap f = xs.filterMap f ++ (f x).toList := by
  rw [List.filterMap_append]
  cases h : f x <;> simp [h]

theorem forall_mem_snoc {α : Type} {p : α → Prop} {xs : List α} {x : α} (hxs : ∀ y ∈ xs, p y)
    (hx : p x) : ∀ y ∈ xs ++ [x], p y :=
  List.forall_mem_append.mpr ⟨hxs, List.forall_mem_singleton.mpr hx⟩

/-! ## Systems given by a step function -/

section Exec

variable {σ α β : Type}

/-- The relation of a step function; a label is an action with its result. -/
def stepRel (step : σ → α → Option (σ × β)) (s : σ) (l : α × β) (s' : σ) : Prop :=
  step s l.1 = some (s', l.2)

theorem stepRel_deterministic (step : σ → α → Option (σ × β)) (s : σ) (l : α × β) (s₁ s₂ : σ)
    (h₁ : stepRel step s l s₁) (h₂ : stepRel step s l s₂) : s₁ = s₂ := by
  rw [stepRel, h₁] at h₂
  cases h₂; rfl

/-- Take the actions one after the other; `none` if one of them cannot be taken. -/
def exec (step : σ → α → Option (σ × β)) : σ → List α → Option (List (α × β) × σ)
  | s, [] => some ([], s)
  | s, a :: as =>
    match step s a with
    | none => none
    | some (s', b) => (exec step s' as).map fun r => ((a, b) :: r.1, r.2)

theorem exec_run {step : σ → α → Option (σ × β)} {s s' : σ} {as : List α} {tr : List (α × β)}
    (h : exec step s as = some (tr, s')) :
    Run (stepRel step) s tr s' ∧ tr.map Prod.fst = as := by
  induction as generalizing s tr with
  | nil =>
    simp only [exec, Option.some.injEq, Prod.mk.injEq] at h
    obtain ⟨rfl, rfl⟩ := h
    exact ⟨.nil, rfl⟩
  | cons a as ih =>
    simp only [exec] at h
    split at h
    · cases h
    · rename_i s₁ b hs
      simp only [Option.map_eq_some_iff, Prod.mk.injEq] at h
      obtain ⟨⟨tr', s₂⟩, hr, rfl, rfl⟩ := h
      obtain ⟨hrun, hmap⟩ := ih hr
      refine ⟨?_, by rw [List.map_cons, hmap]⟩
      have h1 : Run (stepRel step) s ([] ++ [(a, b)]) s₁ := .snoc .nil hs
      exact h1.append hrun

/-- A check on the outcome of a list of actions is a fact about a run. -/
theorem exec_check (step : σ → α → Option (σ × β)) (s : σ) (as : List α)
    (p : List (α × β) × σ → Bool) (h : (exec step s as).any p = true) :
    ∃ tr s', Run (stepRel step) s tr s' ∧ tr.map Prod.fst = as ∧ p (tr, s') = true := by
  cases hr : exec step s as with
  | none => rw [hr] at h; cases h
  | some r =>
    rw [hr] at h
    obtain ⟨hrun, hmap⟩ := exec_run hr
    exact ⟨r.1, r.2, hrun, hmap, h⟩

theorem exec_get {step : σ → α → Option (σ × β)} {s : σ} {as : List α}
    (h : (exec step s as).isSome = true) :
    Run (stepRel step) s ((exec step s as).get h).1 ((exec step s as).get h).2 :=
  (exec_run (Option.some_get h).symm).1

/-- The step function limited to the actions that pass a check. -/
def checked (c : σ → α → Bool) (step : σ → α → Option (σ × β)) (s : σ) (a : α) :
    Option (σ × β) :=
  if c s a then step s a else none

/-- A run of actions that pass the check is a run guarded by what the check means. -/
theorem Run.of_checked {c : σ → α → Bool} {step : σ → α → Option (σ × β)}
    {C : σ → α × β → Prop} (hC : ∀ s l, c s l.1 = true → C s l) {s s' : σ} {tr : List (α × β)}
    (h : Run (stepRel (checked c step)) s tr s') : Run (Guarded (stepRel step) C) s tr s' := by
  refine h.mono fun s l s' hl => ?_
  unfold stepRel checked at hl
  split at hl
  · rename_i hc
    exact ⟨hl, hC s l hc⟩
  · cases hl

end Exec

end Lib
end LLNStack
