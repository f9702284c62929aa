import LLNStack.Lib.Run
import LLNStack.Sync

/-!
# LLNStack.Sync.Interrupt

One scheduling context and any number of threads. The mutex makes each action atomic; a thread
inside `sched_sleep` waits on the condition variable until a broadcast, a time limit or a spurious
wakeup lets it go on, and then takes the mutex again in an action of its own.

`wc` counts the threads that wait (`run_wc`). An interrupt is consumed by the last waiting thread
when it returns. A thread that finds the flag set before it waits returns as well, but leaves the
flag as it is: if no thread waits, nothing will ever clear it (`run_stuck`).
-/

namespace LLNStack

open Lib

structure SchedWaiter where
  thread : Nat
  signalled : Bool
  deriving DecidableEq, Repr

structure SchedSys where
  ctx : SchedCtx
  waiters : List SchedWaiter
  deriving DecidableEq, Repr

inductive SchedAction where
  | schedSleep (thread : Nat)
  /-- A signalled thread takes the mutex again; its wait returned `ret`. -/
  | condWaitReturn (k : Nat) (ret : Int)
  /-- Also the end of a timed wait. -/
  | spuriousWakeup (k : Nat)
  | schedWakeup
  | schedInterrupt
  deriving DecidableEq, Repr

inductive SchedResult where
  /-- `sched_sleep` returned -1 with `EINTR`. -/
  | interrupted (thread : Nat)
  | returned (thread : Nat) (ret : Int)
  | parked (thread : Nat)
  | done
  deriving DecidableEq, Repr

namespace SchedSys

def init : SchedSys := ⟨schedCtxInit, []⟩

def broadcast (waiters : List SchedWaiter) : List SchedWaiter :=
  waiters.map fun w => { w with signalled := true }

def step (s : SchedSys) : SchedAction → Option (SchedSys × SchedResult)
  | .schedSleep thread =>
    -- a thread makes one call at a time
    if s.waiters.any (·.thread = thread) then none
    else
      match schedSleepEnter s.ctx with
      | none => some (s, .interrupted thread)
      | some ctx => some (⟨ctx, s.waiters ++ [⟨thread, false⟩]⟩, .parked thread)
  | .condWaitReturn k ret =>
    match s.waiters[k]? with
    | none => none
    | some w =>
      if w.signalled then
        let (ctx, interrupted) := schedSleepLeave s.ctx
        some (⟨ctx, s.waiters.eraseIdx k⟩,
          if interrupted then .interrupted w.thread else .returned w.thread ret)
      else none
  | .spuriousWakeup k =>
    match s.waiters[k]? with
    | none => none
    | some w => some (⟨s.ctx, s.waiters.set k { w with signalled := true }⟩, .done)
  | .schedWakeup => some (⟨s.ctx, broadcast s.waiters⟩, .done)
  | .schedInterrupt => some (⟨LLNStack.schedInterrupt s.ctx, broadcast s.waiters⟩, .done)

abbrev Step : SchedSys → SchedAction × SchedResult → SchedSys → Prop := stepRel step

end SchedSys

/-! ## What an action can do -/

inductive SchedTrans (s : SchedSys) : SchedAction → SchedResult → SchedSys → Prop where
  | refused {thread : Nat} : s.ctx.interrupted = true →
      SchedTrans s (.schedSleep thread) (.interrupted thread) s
  | parked {thread : Nat} : s.ctx.interrupted = false →
      SchedTrans s (.schedSleep thread) (.parked thread)
        ⟨⟨false, s.ctx.wc + 1⟩, s.waiters ++ [⟨thread, false⟩]⟩
  | interrupted {k : Nat} {ret : Int} {w : SchedWaiter} : s.waiters[k]? = some w →
      s.ctx.interrupted = true →
      SchedTrans s (.condWaitReturn k ret) (.interrupted w.thread)
        ⟨⟨decide (s.ctx.wc - 1 ≠ 0), s.ctx.wc - 1⟩, s.waiters.eraseIdx k⟩
  | returned {k : Nat} {ret : Int} {w : SchedWaiter} : s.waiters[k]? = some w →
      s.ctx.interrupted = false →
      SchedTrans s (.condWaitReturn k ret) (.returned w.thread ret)
        ⟨⟨false, s.ctx.wc - 1⟩, s.waiters.eraseIdx k⟩
  | spurious {k : Nat} {w : SchedWaiter} : s.waiters[k]? = some w →
      SchedTrans s (.spuriousWakeup k) .done ⟨s.ctx, s.waiters.set k { w with signalled := true }⟩
  | wakeup : SchedTrans s .schedWakeup .done ⟨s.ctx, SchedSys.broadcast s.waiters⟩
  | interrupt :
      SchedTrans s .schedInterrupt .done ⟨⟨true, s.ctx.wc⟩, SchedSys.broadcast s.waiters⟩

theorem sched_trans {s s' : SchedSys} {a : SchedAction} {r : SchedResult}
    (h : s.step a = some (s', r)) : SchedTrans s a r s' := by
  cases a with
  | schedSleep thread =>
    simp only [SchedSys.step, schedSleepEnter] at h
    split at h
    · cases h
    · cases hi : s.ctx.interrupted with
      | true =>
        rw [hi] at h
        cases h
        exact .refused hi
      | false =>
        rw [hi] at h
        cases h
        exact .parked hi
  | condWaitReturn k ret =>
    simp only [SchedSys.step] at h
    split at h
    · cases h
    · rename_i w hw
      split at h
      · cases hi : s.ctx.interrupted with
        | true =>
          simp only [schedSleepLeave_set hi] at h
          cases h
          exact .interrupted hw hi
        | false =>
          simp only [schedSleepLeave_clear hi] at h
          cases h
          exact .returned hw hi
      · cases h
  | spuriousWakeup k =>
    simp only [SchedSys.step] at h
    split at h
    · cases h
    · rename_i w hw
      cases h
      exact .spurious hw
  | schedWakeup =>
    cases h
    exact .wakeup
  | schedInterrupt =>
    cases h
    exact .interrupt

/-! ## The count -/

theorem wc_step {s s' : SchedSys} {a : SchedAction} {r : SchedResult} (ht : SchedTrans s a r s')
    (h : s.ctx.wc = s.waiters.length) : s'.ctx.wc = s'.waiters.length := by
  cases ht with
  | refused _ => exact h
  | parked _ => simp [h]
  | interrupted hw _ | returned hw _ =>
    obtain ⟨hk, -⟩ := List.getElem?_eq_some_iff.mp hw
    simp only [List.length_eraseIdx, hk, if_true, h]
    omega
  | spurious _ => simpa using h
  | wakeup | interrupt => simpa [SchedSys.broadcast] using h

theorem run_wc {tr : List (SchedAction × SchedResult)} {s : SchedSys}
    (h : Run SchedSys.Step .init tr s) : s.ctx.wc = s.waiters.length :=
  h.invariant (P := fun s => s.ctx.wc = s.waiters.length) rfl
    fun _ _ _ hp hl => wc_step (sched_trans hl) hp

/-! ## The flag -/

theorem clear_kept {s s' : SchedSys} {a : SchedAction} {r : SchedResult}
    (ht : SchedTrans s a r s') (ha : a ≠ .schedInterrupt) (h : s.ctx.interrupted = false) :
    s'.ctx.interrupted = false := by
  cases ht with
  | refused hi => exact hi ▸ h
  | parked _ | returned _ _ => rfl
  | interrupted _ hi =>
    rw [h] at hi
    cases hi
  | spurious _ | wakeup => exact h
  | interrupt => exact absurd rfl ha

theorem run_clear {s s' : SchedSys} {tr : List (SchedAction × SchedResult)}
    (h : Run SchedSys.Step s tr s') (htr : ∀ l ∈ tr, l.1 ≠ .schedInterrupt)
    (hc : s.ctx.interrupted = false) : s'.ctx.interrupted = false := by
  have hg := h.guard (C := fun _ l => l.1 ≠ .schedInterrupt) fun l hl _ => htr l hl
  exact hg.invariant (P := fun s => s.ctx.interrupted = false) hc
    fun _ _ _ hp hl => clear_kept (sched_trans hl.1) hl.2 hp

theorem schedSleep_parks {s : SchedSys} (hc : s.ctx.interrupted = false) {thread : Nat}
    (hfree : ∀ w ∈ s.waiters, w.thread ≠ thread) :
    ∃ s', s.step (.schedSleep thread) = some (s', .parked thread) := by
  have hany : s.waiters.any (·.thread = thread) = false := by
    simpa using hfree
  simp [SchedSys.step, schedSleepEnter, hany, hc]

/-- The flag is set and no thread is there to clear it. -/
def Stuck (s : SchedSys) : Prop := s.ctx.interrupted = true ∧ s.waiters = []

theorem stuck_step {s s' : SchedSys} {a : SchedAction} {r : SchedResult}
    (ht : SchedTrans s a r s') (h : Stuck s) :
    Stuck s' ∧ ∀ thread, a = .schedSleep thread → r = .interrupted thread := by
  obtain ⟨hi, hw⟩ := h
  cases ht with
  | refused _ =>
    refine ⟨⟨hi, hw⟩, fun thread he => ?_⟩
    cases he
    rfl
  | parked hn =>
    rw [hi] at hn
    cases hn
  | interrupted hk _ | returned hk _ | spurious hk =>
    rw [hw] at hk
    cases hk
  | wakeup => exact ⟨⟨hi, by rw [hw]; rfl⟩, nofun⟩
  | interrupt => exact ⟨⟨rfl, by rw [hw]; rfl⟩, nofun⟩

theorem run_stuck {s s' : SchedSys} {tr : List (SchedAction × SchedResult)}
    (h : Run SchedSys.Step s tr s') (hs : Stuck s) :
    Stuck s' ∧ ∀ l ∈ tr, ∀ thread, l.1 = .schedSleep thread → l.2 = .interrupted thread := by
  refine h.history (P := fun tr s' => Stuck s' ∧
    ∀ l ∈ tr, ∀ thread, l.1 = .schedSleep thread → l.2 = .interrupted thread) ⟨hs, nofun⟩ ?_
  rintro tr s₁ l s₂ - ⟨hstuck, htr⟩ hl
  obtain ⟨hstuck', hres⟩ := stuck_step (sched_trans hl) hstuck
  exact ⟨hstuck', forall_mem_snoc htr hres⟩

/-! ## Whole runs -/

/-- If the action was the return of an interrupted `sched_sleep` that leaves no waiter, the flag is
clear after it. -/
def Consumed (l : SchedAction × SchedResult) (s : SchedSys) : Prop :=
  ∀ thread, l.2 = .interrupted thread → s.ctx.wc = 0 → s.ctx.interrupted = false

/-- The condition on a step, in the state before it: no call of `sched_sleep` finds the flag set
while no thread waits. -/
def SleepClear (s : SchedSys) : SchedAction × SchedResult → Prop
  | (.schedSleep _, _) => ¬ (s.ctx.interrupted = true ∧ s.ctx.wc = 0)
  | _ => True

theorem consumed_step {s s' : SchedSys} {a : SchedAction} {r : SchedResult}
    (ht : SchedTrans s a r s') : Consumed (a, r) s' ↔ SleepClear s (a, r) := by
  cases ht with
  | @refused thread hi =>
    constructor
    · rintro hc ⟨-, h0⟩
      have hclear := hc thread rfl h0
      rw [hi] at hclear
      cases hclear
    · exact fun hn _ _ h0 => absurd ⟨hi, h0⟩ hn
  | parked hi =>
    refine iff_of_true nofun ?_
    rintro ⟨hset, -⟩
    rw [hi] at hset
    cases hset
  | interrupted _ _ =>
    refine iff_of_true (fun _ _ h0 => ?_) trivial
    simpa using h0
  | returned _ _ | spurious _ | wakeup | interrupt => exact iff_of_true nofun trivial

/-- **Interrupts.** In every run of any number of threads on one context: every interrupted
`sched_sleep` that leaves no waiter leaves the flag clear, exactly if no `sched_sleep` is called
while the flag is set and no thread waits. The count is the number of waiting threads. Once the
flag is clear, `sched_sleep` waits until there is another interrupt. -/
theorem interrupt_consumed_iff {tr : List (SchedAction × SchedResult)} {s : SchedSys}
    (h : Run SchedSys.Step .init tr s) :
    (Run.Throughout SchedSys.Step .init tr (fun tr s => ∀ l, tr.getLast? = some l → Consumed l s) ↔
      Run (Guarded SchedSys.Step SleepClear) .init tr s) ∧
    s.ctx.wc = s.waiters.length ∧
    (s.ctx.interrupted = false → ∀ tr' s', Run SchedSys.Step s tr' s' →
      (∀ l ∈ tr', l.1 ≠ .schedInterrupt) → ∀ thread, (∀ w ∈ s'.waiters, w.thread ≠ thread) →
        ∃ s'', s'.step (.schedSleep thread) = some (s'', .parked thread)) := by
  refine ⟨?_, run_wc h, fun hc tr' s' hrun htr thread hfree => ?_⟩
  · refine Run.guarded_iff (stepRel_deterministic _) nofun ?_ h
    rintro tr s ⟨a, r⟩ s' - - hl
    rw [← consumed_step (sched_trans hl)]
    simp
  · exact schedSleep_parks (run_clear hrun htr hc) hfree

/-- An interrupt while no thread waits, and then a `sched_sleep`. -/
def interruptThenSleep : List SchedAction := [.schedInterrupt, .schedSleep 1]

/-- The call returns -1 and the flag stays set, so that all later calls return -1. -/
theorem interruptThenSleep_stuck : ∃ tr s, Run SchedSys.Step .init tr s ∧
    tr.map Prod.fst = interruptThenSleep ∧ tr.getLast? = some (.schedSleep 1, .interrupted 1) ∧
    s.ctx = ⟨true, 0⟩ ∧
    ∀ tr' s', Run SchedSys.Step s tr' s' →
      ∀ l ∈ tr', ∀ thread, l.1 = .schedSleep thread → l.2 = .interrupted thread := by
  obtain ⟨tr, s, hrun, hmap, hcheck⟩ := exec_check SchedSys.step .init interruptThenSleep
    (fun r => decide (r.1.getLast? = some (.schedSleep 1, .interrupted 1) ∧
      r.2 = ⟨⟨true, 0⟩, []⟩)) (by decide)
  obtain ⟨hlast, rfl⟩ := of_decide_eq_true hcheck
  exact ⟨tr, _, hrun, hmap, hlast, rfl, fun tr' s' hrun' => (run_stuck hrun' ⟨rfl, rfl⟩).2⟩

def sleepersInterrupted : List SchedAction :=
  [.schedSleep 1, .schedSleep 2, .schedInterrupt, .condWaitReturn 0 0, .condWaitReturn 0 0]

theorem sleepersInterrupted_consumed : ∃ tr s, Run SchedSys.Step .init tr s ∧
    tr.map Prod.fst = sleepersInterrupted ∧ s = ⟨⟨false, 0⟩, []⟩ ∧
    Run.Throughout SchedSys.Step .init tr
      (fun tr s => ∀ l, tr.getLast? = some l → Consumed l s) := by
  obtain ⟨tr, s, hrun, hmap, hcheck⟩ := exec_check
    (checked (fun (s : SchedSys) _ => decide ¬ (s.ctx.interrupted = true ∧ s.ctx.wc = 0))
      SchedSys.step) .init
    sleepersInterrupted (fun r => decide (r.2 = ⟨⟨false, 0⟩, []⟩)) (by decide)
  have hguard : Run (Guarded SchedSys.Step SleepClear) .init tr s := by
    refine hrun.of_checked ?_
    rintro s ⟨a, r⟩ hc
    have hclear := of_decide_eq_true hc
    cases a with
    | schedSleep thread => exact hclear
    | condWaitReturn | spuriousWakeup | schedWakeup | schedInterrupt => trivial
  exact ⟨tr, s, hguard.of_guarded, hmap, of_decide_eq_true hcheck,
    (interrupt_consumed_iff hguard.of_guarded).1.mpr hguard⟩

end LLNStack
