import LLNStack.Lib.Periodic
import LLNStack.Arp.Lifetime

/-!
# LLNStack.Net.Timer

The timers of `net.c`, most recently registered first. `network_timer_handler` runs once for each
`SIGALRM`; it reads the clock anew for every timer. What the handlers do is not looked at here: they
do not touch the timers.

A timer is known by its number in the order of registration, so timer `k` is entry `k` of the
reversed list.

* `networkTimerRound_called`: a handler is called when more than the interval has passed.
* `run_timerLog`: over a whole run, the calls of a timer are those that `Lib.sampled` takes out of
  the clock readings.
* `timer_periodic`: the calls of one timer are more than its interval apart, and none is left out.
-/

namespace LLNStack

open Lib

variable {η : Type}

structure NetworkTimer (η : Type) where
  interval : Timeval
  last : Timeval
  handler : η
  deriving DecidableEq, Repr

def timercmpLt (a b : Timeval) : Bool :=
  if a.tvSec = b.tvSec then decide (a.tvUsec < b.tvUsec) else decide (a.tvSec < b.tvSec)

/-- `alloc`: whether the timer can be allocated; `now` is what `gettimeofday` returns. -/
def networkTimerRegister (alloc : Bool) (now interval : Timeval) (handler : η)
    (timers : List (NetworkTimer η)) : List (NetworkTimer η) × Int :=
  if alloc then (⟨interval, now, handler⟩ :: timers, 0) else (timers, -1)

/-- One round of the loop of `network_timer_handler`: the timer after it, and whether its handler
was called. -/
def networkTimerRound (now : Timeval) (timer : NetworkTimer η) : NetworkTimer η × Bool :=
  if timercmpLt timer.interval (timersub now timer.last) then ({ timer with last := now }, true)
  else (timer, false)

/-- `network_timer_handler` with the clock readings of its rounds; for each timer, whether its
handler was called. `none` if there are not as many readings as timers. -/
def networkTimerHandler :
    List Timeval → List (NetworkTimer η) → Option (List (NetworkTimer η) × List Bool)
  | [], [] => some ([], [])
  | [], _ :: _ => none
  | _ :: _, [] => none
  | now :: nows, timer :: rest =>
    (networkTimerHandler nows rest).map fun r =>
      ((networkTimerRound now timer).1 :: r.1, (networkTimerRound now timer).2 :: r.2)

/-! ## One round -/

theorem timersub_micros (a b : Timeval) : (timersub a b).micros = a.micros - b.micros := by
  simp only [timersub, Timeval.micros]
  split
  · simp only
    omega
  · simp only
    omega

theorem timersub_normalised {a b : Timeval} (ha : a.Normalised) (hb : b.Normalised) :
    (timersub a b).Normalised := by
  obtain ⟨ha0, ha1⟩ := ha
  obtain ⟨hb0, hb1⟩ := hb
  simp only [timersub, Timeval.Normalised]
  split
  · simp only
    omega
  · simp only
    omega

theorem timercmpLt_iff {a b : Timeval} (ha : a.Normalised) (hb : b.Normalised) :
    timercmpLt a b = true ↔ a.micros < b.micros := by
  obtain ⟨ha0, ha1⟩ := ha
  obtain ⟨hb0, hb1⟩ := hb
  simp only [timercmpLt, Timeval.micros]
  split
  · rw [decide_eq_true_iff]
    omega
  · rw [decide_eq_true_iff]
    omega

theorem networkTimerRound_called {now : Timeval} {timer : NetworkTimer η} (hnow : now.Normalised)
    (hlast : timer.last.Normalised) (hint : timer.interval.Normalised) :
    (networkTimerRound now timer).2 = true ↔
      timer.interval.micros < now.micros - timer.last.micros := by
  rw [← timersub_micros, ← timercmpLt_iff hint (timersub_normalised hnow hlast)]
  unfold networkTimerRound
  split <;> simp [*]

theorem networkTimerRound_timer (now : Timeval) (timer : NetworkTimer η) :
    (networkTimerRound now timer).1 =
      { timer with last := if (networkTimerRound now timer).2 then now else timer.last } := by
  unfold networkTimerRound
  split <;> rfl

/-! ## One call -/

theorem networkTimerHandler_some {nows : List Timeval} {timers timers' : List (NetworkTimer η)}
    {flags : List Bool} (h : networkTimerHandler nows timers = some (timers', flags)) :
    nows.length = timers.length ∧
      timers' = List.zipWith (fun now timer => (networkTimerRound now timer).1) nows timers ∧
      flags = List.zipWith (fun now timer => (networkTimerRound now timer).2) nows timers := by
  induction nows generalizing timers timers' flags with
  | nil =>
    cases timers with
    | nil =>
      cases h
      exact ⟨rfl, rfl, rfl⟩
    | cons timer rest => cases h
  | cons now nows ih =>
    cases timers with
    | nil => cases h
    | cons timer rest =>
      obtain ⟨⟨timers₁, flags₁⟩, hrec, heq⟩ := Option.map_eq_some_iff.mp h
      cases heq
      obtain ⟨hlen, rfl, rfl⟩ := ih hrec
      exact ⟨by rw [List.length_cons, List.length_cons, hlen], rfl, rfl⟩

theorem networkTimerHandler_timer {nows : List Timeval} {timers timers' : List (NetworkTimer η)}
    {flags : List Bool} (h : networkTimerHandler nows timers = some (timers', flags)) (k : Nat) :
    (timers.reverse[k]? = none ∧ nows.reverse[k]? = none) ∨
      ∃ timer now, timers.reverse[k]? = some timer ∧ nows.reverse[k]? = some now ∧
        timers'.reverse[k]? = some (networkTimerRound now timer).1 ∧
        flags.reverse[k]? = some (networkTimerRound now timer).2 := by
  obtain ⟨hlen, rfl, rfl⟩ := networkTimerHandler_some h
  have hrev : nows.reverse.length = timers.reverse.length := by simpa using hlen
  by_cases hk : k < timers.reverse.length
  · right
    refine ⟨_, _, List.getElem?_eq_getElem hk, List.getElem?_eq_getElem (hrev ▸ hk), ?_, ?_⟩
    · rw [List.reverse_zipWith hlen, List.getElem?_zipWith, List.getElem?_eq_getElem hk,
        List.getElem?_eq_getElem (hrev ▸ hk)]
    · rw [List.reverse_zipWith hlen, List.getElem?_zipWith, List.getElem?_eq_getElem hk,
        List.getElem?_eq_getElem (hrev ▸ hk)]
  · exact .inl ⟨List.getElem?_eq_none (not_lt.mp hk),
      List.getElem?_eq_none (hrev ▸ not_lt.mp hk)⟩

/-! ## Runs -/

inductive TimerAction (η : Type) where
  | register (alloc : Bool) (now interval : Timeval) (handler : η)
  | timerHandler (nows : List Timeval)

inductive TimerResult where
  | ret (ret : Int)
  | called (flags : List Bool)
  deriving DecidableEq

def timerStep (timers : List (NetworkTimer η)) :
    TimerAction η → Option (List (NetworkTimer η) × TimerResult)
  | .register alloc now interval handler =>
    let r := networkTimerRegister alloc now interval handler timers
    some (r.1, .ret r.2)
  | .timerHandler nows => (networkTimerHandler nows timers).map fun r => (r.1, .called r.2)

abbrev TimerStep : List (NetworkTimer η) → TimerAction η × TimerResult →
    List (NetworkTimer η) → Prop := stepRel timerStep

def registeredTimer : TimerAction η × TimerResult → Option (NetworkTimer η)
  | (.register _ now interval handler, .ret ret) =>
    if ret = 0 then some ⟨interval, now, handler⟩ else none
  | _ => none

def registeredTimers (tr : List (TimerAction η × TimerResult)) : List (NetworkTimer η) :=
  tr.filterMap registeredTimer

def timerReading (k : Nat) : TimerAction η × TimerResult → Option Timeval
  | (.timerHandler nows, _) => nows.reverse[k]?
  | _ => none

def timerReadings (k : Nat) (tr : List (TimerAction η × TimerResult)) : List Timeval :=
  tr.filterMap (timerReading k)

def timerCall (k : Nat) : TimerAction η × TimerResult → Option Timeval
  | (.timerHandler nows, .called flags) =>
    if flags.reverse[k]? = some true then nows.reverse[k]? else none
  | _ => none

/-- The clock readings at which the handler of timer `k` was called. -/
def timerCalls (k : Nat) (tr : List (TimerAction η × TimerResult)) : List Timeval :=
  tr.filterMap (timerCall k)

def TimerAction.Normalised : TimerAction η → Prop
  | .register _ now interval _ => now.Normalised ∧ interval.Normalised
  | .timerHandler nows => ∀ now ∈ nows, now.Normalised

/-- Timer `k` after the history `tr`, if it was registered as `reg`. -/
structure TimerLog (k : Nat) (tr : List (TimerAction η × TimerResult)) (reg : NetworkTimer η)
    (timer : NetworkTimer η) : Prop where
  interval : timer.interval = reg.interval
  handler : timer.handler = reg.handler
  normalised : reg.interval.Normalised ∧ timer.last.Normalised
  last : timer.last.micros = sampledLast reg.interval.micros reg.last.micros
    ((timerReadings k tr).map Timeval.micros)
  calls : (timerCalls k tr).map Timeval.micros = sampled reg.interval.micros reg.last.micros
    ((timerReadings k tr).map Timeval.micros)

structure TimerHistory (tr : List (TimerAction η × TimerResult))
    (timers : List (NetworkTimer η)) : Prop where
  length : (registeredTimers tr).length = timers.length
  fresh : ∀ k, timers.length ≤ k → timerReadings k tr = [] ∧ timerCalls k tr = []
  log : ∀ k reg, (registeredTimers tr)[k]? = some reg →
    ∃ timer, timers.reverse[k]? = some timer ∧ TimerLog k tr reg timer

theorem TimerLog.registered {k : Nat} {tr : List (TimerAction η × TimerResult)}
    {reg : NetworkTimer η} (hint : reg.interval.Normalised) (hlast : reg.last.Normalised)
    (hfresh : timerReadings k tr = [] ∧ timerCalls k tr = []) : TimerLog k tr reg reg where
  interval := rfl
  handler := rfl
  normalised := ⟨hint, hlast⟩
  last := by rw [hfresh.1]; rfl
  calls := by rw [hfresh.1, hfresh.2]; rfl

theorem TimerLog.round {k : Nat} {tr : List (TimerAction η × TimerResult)}
    {reg timer : NetworkTimer η} (h : TimerLog k tr reg timer) {now : Timeval}
    (hnow : now.Normalised) {nows : List Timeval} {flags : List Bool}
    (hnows : nows.reverse[k]? = some now)
    (hflags : flags.reverse[k]? = some (networkTimerRound now timer).2) :
    TimerLog k (tr ++ [(.timerHandler nows, .called flags)]) reg
      (networkTimerRound now timer).1 := by
  have hreadings : timerReadings k (tr ++ [(.timerHandler nows, .called flags)]) =
      timerReadings k tr ++ [now] := by
    rw [timerReadings, filterMap_snoc, timerReading, hnows]
    rfl
  have hcalls : timerCalls k (tr ++ [(.timerHandler nows, .called flags)]) =
      timerCalls k tr ++ if (networkTimerRound now timer).2 then [now] else [] := by
    rw [timerCalls, filterMap_snoc, timerCall, hflags, hnows]
    cases (networkTimerRound now timer).2 <;> rfl
  have hcalled := networkTimerRound_called hnow h.normalised.2
    (show timer.interval.Normalised by rw [h.interval]; exact h.normalised.1)
  rw [h.interval, h.last] at hcalled
  have hsampled := sampled_snoc reg.interval.micros reg.last.micros
    ((timerReadings k tr).map Timeval.micros) now.micros
  rw [networkTimerRound_timer]
  constructor
  · exact h.interval
  · exact h.handler
  · refine ⟨h.normalised.1, ?_⟩
    show (if (networkTimerRound now timer).2 then now else timer.last).Normalised
    split
    · exact hnow
    · exact h.normalised.2
  · show (if (networkTimerRound now timer).2 then now else timer.last).micros = _
    rw [hreadings, List.map_append, sampledLast, List.map_singleton, hsampled]
    by_cases hc : (networkTimerRound now timer).2 = true
    · rw [if_pos hc, if_pos (hcalled.mp hc), List.getLastD_concat]
    · rw [if_neg hc, if_neg (mt hcalled.mpr hc), List.append_nil]
      exact h.last
  · rw [hreadings, hcalls, List.map_append, List.map_append, List.map_singleton, hsampled, h.calls]
    by_cases hc : (networkTimerRound now timer).2 = true
    · rw [if_pos hc, if_pos (hcalled.mp hc)]
      rfl
    · rw [if_neg hc, if_neg (mt hcalled.mpr hc)]
      rfl

theorem timerReadings_snoc_none {k : Nat} {l : TimerAction η × TimerResult}
    (tr : List (TimerAction η × TimerResult)) (hread : timerReading k l = none) :
    timerReadings k (tr ++ [l]) = timerReadings k tr := by
  rw [timerReadings, filterMap_snoc, hread, Option.toList_none, List.append_nil, timerReadings]

theorem timerCalls_snoc_none {k : Nat} {l : TimerAction η × TimerResult}
    (tr : List (TimerAction η × TimerResult)) (hcall : timerCall k l = none) :
    timerCalls k (tr ++ [l]) = timerCalls k tr := by
  rw [timerCalls, filterMap_snoc, hcall, Option.toList_none, List.append_nil, timerCalls]

theorem TimerLog.mono {k : Nat} {tr : List (TimerAction η × TimerResult)}
    {reg timer : NetworkTimer η} (h : TimerLog k tr reg timer) {l : TimerAction η × TimerResult}
    (hread : timerReading k l = none) (hcall : timerCall k l = none) :
    TimerLog k (tr ++ [l]) reg timer where
  interval := h.interval
  handler := h.handler
  normalised := h.normalised
  last := by rw [timerReadings_snoc_none tr hread]; exact h.last
  calls := by
    rw [timerReadings_snoc_none tr hread, timerCalls_snoc_none tr hcall]
    exact h.calls

/-! ## One step -/

inductive TimerTrans (timers : List (NetworkTimer η)) :
    TimerAction η × TimerResult → List (NetworkTimer η) → Prop where
  | failed {now interval : Timeval} {handler : η} :
      TimerTrans timers (.register false now interval handler, .ret (-1)) timers
  | registered {now interval : Timeval} {handler : η} :
      TimerTrans timers (.register true now interval handler, .ret 0)
        (⟨interval, now, handler⟩ :: timers)
  | passed {nows : List Timeval} {timers' : List (NetworkTimer η)} {flags : List Bool} :
      networkTimerHandler nows timers = some (timers', flags) →
      TimerTrans timers (.timerHandler nows, .called flags) timers'

theorem timer_trans {timers timers' : List (NetworkTimer η)} {l : TimerAction η × TimerResult}
    (h : TimerStep timers l timers') : TimerTrans timers l timers' := by
  obtain ⟨a, r⟩ := l
  cases a with
  | register alloc now interval handler =>
    cases alloc with
    | false =>
      cases h
      exact .failed
    | true =>
      cases h
      exact .registered
  | timerHandler nows =>
    obtain ⟨⟨timers₁, flags⟩, hpass, heq⟩ := Option.map_eq_some_iff.mp h
    cases heq
    exact .passed hpass

theorem TimerHistory.keep {tr : List (TimerAction η × TimerResult)}
    {timers : List (NetworkTimer η)} (h : TimerHistory tr timers)
    {l : TimerAction η × TimerResult} (hread : ∀ k, timerReading k l = none)
    (hcall : ∀ k, timerCall k l = none) (k : Nat) :
    (timers.length ≤ k → timerReadings k (tr ++ [l]) = [] ∧ timerCalls k (tr ++ [l]) = []) ∧
    ∀ reg, (registeredTimers tr)[k]? = some reg →
      ∃ timer, timers.reverse[k]? = some timer ∧ TimerLog k (tr ++ [l]) reg timer := by
  refine ⟨fun hk => ?_, fun reg hk => ?_⟩
  · rw [timerReadings_snoc_none tr (hread k), timerCalls_snoc_none tr (hcall k)]
    exact h.fresh k hk
  · obtain ⟨timer, htimer, hlog⟩ := h.log k reg hk
    exact ⟨timer, htimer, hlog.mono (hread k) (hcall k)⟩

theorem TimerHistory.register {tr : List (TimerAction η × TimerResult)}
    {timers : List (NetworkTimer η)} (h : TimerHistory tr timers) {now interval : Timeval}
    (hn : now.Normalised ∧ interval.Normalised) (handler : η) :
    TimerHistory (tr ++ [(.register true now interval handler, .ret 0)])
      (⟨interval, now, handler⟩ :: timers) := by
  have hreg : registeredTimers (tr ++ [(.register true now interval handler, .ret 0)]) =
      registeredTimers tr ++ [⟨interval, now, handler⟩] := by
    rw [registeredTimers, filterMap_snoc]
    rfl
  have hkeep := h.keep (l := (.register true now interval handler, .ret 0)) (fun _ => rfl)
    fun _ => rfl
  refine ⟨by simp [hreg, h.length], fun k hk => ?_, fun k reg hk => ?_⟩
  · rw [List.length_cons] at hk
    exact (hkeep k).1 (by omega)
  · rw [hreg] at hk
    rw [List.reverse_cons]
    rcases Nat.lt_or_ge k timers.length with hlt | hge
    · rw [List.getElem?_append_left (by rw [h.length]; exact hlt)] at hk
      rw [List.getElem?_append_left (by simpa using hlt)]
      exact (hkeep k).2 reg hk
    · -- the timer that was registered
      rw [List.getElem?_append_right (by rw [h.length]; exact hge), h.length] at hk
      rw [List.getElem?_append_right (by simpa using hge), List.length_reverse]
      refine ⟨reg, hk, ?_⟩
      obtain rfl := List.mem_singleton.mp (List.mem_of_getElem? hk)
      exact .registered hn.2 hn.1 ((hkeep k).1 hge)

theorem TimerHistory.pass {tr : List (TimerAction η × TimerResult)}
    {timers timers' : List (NetworkTimer η)} (h : TimerHistory tr timers) {nows : List Timeval}
    (hn : ∀ now ∈ nows, now.Normalised) {flags : List Bool}
    (hpass : networkTimerHandler nows timers = some (timers', flags)) :
    TimerHistory (tr ++ [(.timerHandler nows, .called flags)]) timers' := by
  have hreg : registeredTimers (tr ++ [(.timerHandler nows, .called flags)]) =
      registeredTimers tr := by
    rw [registeredTimers, filterMap_snoc]
    exact List.append_nil _
  have hlen : timers'.length = timers.length := by
    obtain ⟨hlen, rfl, -⟩ := networkTimerHandler_some hpass
    rw [List.length_zipWith, hlen, min_self]
  refine ⟨by rw [hreg, h.length, hlen], fun k hk => ?_, fun k reg hk => ?_⟩
  · rw [hlen] at hk
    rcases networkTimerHandler_timer hpass k with ⟨-, hnone⟩ | ⟨timer, now, htimer, -⟩
    · have hread : timerReading (η := η) k (.timerHandler nows, .called flags) = none := hnone
      have hcall : timerCall (η := η) k (.timerHandler nows, .called flags) = none := by
        rw [timerCall, hnone, ite_self]
      rw [timerReadings_snoc_none tr hread, timerCalls_snoc_none tr hcall]
      exact h.fresh k hk
    · have hlt := (List.getElem?_eq_some_iff.mp htimer).1
      rw [List.length_reverse] at hlt
      omega
  · obtain ⟨timer, htimer, hlog⟩ := h.log k reg (hreg ▸ hk)
    rcases networkTimerHandler_timer hpass k with
      ⟨hnone, -⟩ | ⟨timer', now, htimer', hnow, hafter, hflag⟩
    · rw [htimer] at hnone
      cases hnone
    · rw [htimer] at htimer'
      cases htimer'
      have hmem : now ∈ nows := List.mem_reverse.mp (List.mem_of_getElem? hnow)
      exact ⟨_, hafter, hlog.round (hn now hmem) hnow hflag⟩

theorem TimerHistory.step {tr : List (TimerAction η × TimerResult)}
    {timers timers' : List (NetworkTimer η)} {l : TimerAction η × TimerResult}
    (h : TimerHistory tr timers) (hn : l.1.Normalised) (ht : TimerTrans timers l timers') :
    TimerHistory (tr ++ [l]) timers' := by
  cases ht with
  | @failed now interval handler =>
    have hreg : registeredTimers (tr ++ [(.register false now interval handler, .ret (-1))]) =
        registeredTimers tr := by
      rw [registeredTimers, filterMap_snoc]
      exact List.append_nil _
    have hkeep := h.keep (l := (.register false now interval handler, .ret (-1))) (fun _ => rfl)
      fun _ => rfl
    refine ⟨hreg ▸ h.length, fun k => (hkeep k).1, fun k => ?_⟩
    rw [hreg]
    exact (hkeep k).2
  | @registered now interval handler => exact h.register hn handler
  | passed hpass => exact h.pass hn hpass

theorem run_timerLog {tr : List (TimerAction η × TimerResult)} {timers : List (NetworkTimer η)}
    (h : Run TimerStep [] tr timers) (hn : ∀ l ∈ tr, l.1.Normalised) : TimerHistory tr timers := by
  have hg := h.guard (C := fun _ l => l.1.Normalised) fun l hl _ => hn l hl
  refine hg.history (P := TimerHistory) ?_ fun tr timers l timers' _ hp hl =>
    hp.step hl.2 (timer_trans hl.1)
  exact ⟨rfl, fun k _ => ⟨rfl, rfl⟩, fun k reg hk => by cases hk⟩

/-- **Timers.** In every run with normalised times, whatever the clock does: more than its interval
passes from the registration of a timer to the first call of its handler and from one call to the
next. A pass never leaves a timer whose interval, from its registration or its last call, is over;
so if its clock readings are never more than `d` apart, its calls are at most the interval and `d`
apart. -/
theorem timer_periodic {tr : List (TimerAction η × TimerResult)} {timers : List (NetworkTimer η)}
    (h : Run TimerStep [] tr timers) (hn : ∀ l ∈ tr, l.1.Normalised) {k : Nat}
    {reg : NetworkTimer η} (hk : (registeredTimers tr)[k]? = some reg) :
    ((reg.last :: timerCalls k tr).map Timeval.micros).IsChain
      (fun a b => reg.interval.micros < b - a) ∧
    (0 ≤ reg.interval.micros →
      ((timerReadings k tr).getLastD reg.last).micros -
          ((timerCalls k tr).getLastD reg.last).micros ≤ reg.interval.micros ∧
      ∀ d,
        ((reg.last :: timerReadings k tr).map Timeval.micros).IsChain (fun a b => b - a ≤ d) →
        ((reg.last :: timerCalls k tr).map Timeval.micros).IsChain
          (fun a b => b - a ≤ reg.interval.micros + d)) := by
  obtain ⟨timer, -, hlog⟩ := (run_timerLog h hn).log k reg hk
  have hlast : ∀ ts : List Timeval,
      (ts.getLastD reg.last).micros = (ts.map Timeval.micros).getLastD reg.last.micros := by
    intro ts
    rw [List.getLastD_eq_getLast?, List.getLastD_eq_getLast?, List.getLast?_map]
    cases ts.getLast? <;> rfl
  rw [hlast, hlast, List.map_cons, hlog.calls]
  refine ⟨sampled_gap _ _ _, fun hpos => ⟨sampledLast_recent hpos _ _, fun d hd => ?_⟩⟩
  rw [List.map_cons] at hd
  exact sampled_prompt hpos hd

def secondTimer : NetworkTimer Unit := ⟨⟨1, 0⟩, ⟨0, 0⟩, ()⟩

def halfSeconds : List (TimerAction Unit) :=
  [.register true ⟨0, 0⟩ ⟨1, 0⟩ (), .timerHandler [⟨0, 500000⟩], .timerHandler [⟨1, 0⟩],
    .timerHandler [⟨1, 500000⟩], .timerHandler [⟨2, 0⟩], .timerHandler [⟨2, 500000⟩],
    .timerHandler [⟨3, 0⟩]]

/-- It is called every one and a half seconds: a second that is just over is not enough. -/
theorem halfSeconds_calls : ∃ tr timers, Run TimerStep [] tr timers ∧
    tr.map Prod.fst = halfSeconds ∧ timerCalls 0 tr = [⟨1, 500000⟩, ⟨3, 0⟩] ∧
    ((⟨0, 0⟩ :: timerCalls 0 tr).map Timeval.micros).IsChain (fun a b => 1000000 < b - a) ∧
    ((⟨0, 0⟩ :: timerCalls 0 tr).map Timeval.micros).IsChain
      (fun a b => b - a ≤ 1000000 + 500000) := by
  obtain ⟨tr, timers, hrun, hmap, hcheck⟩ := exec_check timerStep [] halfSeconds
    (fun r => decide (timerCalls 0 r.1 = [⟨1, 500000⟩, ⟨3, 0⟩] ∧
      timerReadings 0 r.1 = [⟨0, 500000⟩, ⟨1, 0⟩, ⟨1, 500000⟩, ⟨2, 0⟩, ⟨2, 500000⟩, ⟨3, 0⟩] ∧
      registeredTimers r.1 = [secondTimer])) (by decide +kernel)
  obtain ⟨hcalls, hreadings, hreg⟩ := of_decide_eq_true hcheck
  have hn : ∀ l ∈ tr, l.1.Normalised := by
    intro l hl
    have hop : l.1 ∈ halfSeconds := hmap ▸ List.mem_map_of_mem hl
    simp only [halfSeconds, List.mem_cons, List.not_mem_nil, or_false] at hop
    rcases hop with hop | hop | hop | hop | hop | hop | hop <;> rw [hop] <;>
      simp [TimerAction.Normalised, Timeval.Normalised]
  have hreg0 : (registeredTimers tr)[0]? = some secondTimer := by rw [hreg]; rfl
  obtain ⟨hgap, hprompt⟩ := timer_periodic hrun hn hreg0
  refine ⟨tr, timers, hrun, hmap, hcalls, hgap, (hprompt (by decide)).2 500000 ?_⟩
  rw [hreadings]
  simp [Timeval.micros, secondTimer]

end LLNStack
