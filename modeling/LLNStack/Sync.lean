import Mathlib

/-!
# LLNStack.Sync

`synchronize.c`: a scheduling context is a condition variable with an interrupt flag and a count
of waiting threads. The condition variable itself is the set of threads parked on it, which the
system that uses the context keeps; here are the parts of `sched_sleep` that run with the mutex
held, before and after `pthread_cond_wait`.
-/

namespace LLNStack

structure SchedCtx where
  interrupted : Bool
  wc : Int
  deriving DecidableEq, Repr

def schedCtxInit : SchedCtx := ⟨false, 0⟩

/-- `sched_sleep` up to `pthread_cond_wait`; `none` if it returns -1 at once. -/
def schedSleepEnter (ctx : SchedCtx) : Option SchedCtx :=
  if ctx.interrupted then none else some { ctx with wc := ctx.wc + 1 }

/-- `sched_sleep` after `pthread_cond_wait`; `true` if it returns -1. -/
def schedSleepLeave (ctx : SchedCtx) : SchedCtx × Bool :=
  if ctx.interrupted then
    (if ctx.wc - 1 = 0 then ⟨false, ctx.wc - 1⟩ else ⟨ctx.interrupted, ctx.wc - 1⟩, true)
  else (⟨ctx.interrupted, ctx.wc - 1⟩, false)

def schedInterrupt (ctx : SchedCtx) : SchedCtx := { ctx with interrupted := true }

/-- The last thread that leaves clears the flag. -/
theorem schedSleepLeave_set {ctx : SchedCtx} (h : ctx.interrupted = true) :
    schedSleepLeave ctx = (⟨decide (ctx.wc - 1 ≠ 0), ctx.wc - 1⟩, true) := by
  by_cases h0 : ctx.wc - 1 = 0
  · simp [schedSleepLeave, h, h0]
  · simp [schedSleepLeave, h, h0]

theorem schedSleepLeave_clear {ctx : SchedCtx} (h : ctx.interrupted = false) :
    schedSleepLeave ctx = (⟨false, ctx.wc - 1⟩, false) := by
  simp [schedSleepLeave, h]

end LLNStack
