import LLNStack.Net.Timer

/-!
# LLNStack.Arp.Staleness

How old what is in the ARP cache can get. `arp_timer` deletes what has reached 31 seconds, but only
when it is called: by `network_timer_handler`, more than a second after it was called last.

The operations run one after the other with a clock that does not go back, and
`network_timer_handler` is called at least every `d` microseconds (`ArpClock.timely`).

* `ArpClock.Young`: the timer was called within the second before the last pass, and no entry was
  31 seconds old then.
* `Announced`: a resolved entry has the address and the time of the last message from its address.
* `arp_staleness`: so no entry reaches an age of 32 seconds and `d`, and `arp_resolve` only gives
  out what was said within that time.
-/

namespace LLNStack

open Lib

/-- The handlers given to `network_timer_register`. -/
inductive TimerHandler where
  | arpTimer
  deriving DecidableEq, Repr

def arpTimerInterval : Timeval := ⟨1, 0⟩

/-- The cache and the timers, with the last clock reading of all and that of the last
`network_timer_handler`. -/
structure ArpClock where
  caches : Caches
  timers : List (NetworkTimer TimerHandler)
  clock : Timeval
  passed : Timeval

inductive ArpClockAction where
  | arpInput (dev : NetworkDevice) (data : Bytes) (now : Timeval)
  | arpResolve (iface : IpInterface) (dev : NetworkDevice) (pa : IPAddress) (now : Timeval)
  /-- `now` is read by `network_timer_handler`, `later` by `arp_timer` if it is called. -/
  | timerHandler (now later : Timeval)

instance (t : Timeval) : Decidable t.Normalised := inferInstanceAs (Decidable (_ ∧ _))

namespace ArpClock

/-- After `arp_init`, which registered its timer at `t₀`. -/
def init (t₀ : Timeval) : ArpClock :=
  ⟨cachesInit, (networkTimerRegister true t₀ arpTimerInterval .arpTimer []).1, t₀, t₀⟩

/-- The clock can read `now`: it is not back, and no pass of `network_timer_handler` is overdue. -/
def timely (d : Int) (s : ArpClock) (now : Timeval) : Prop :=
  now.Normalised ∧ s.clock.micros ≤ now.micros ∧ now.micros ≤ s.passed.micros + d

instance (d : Int) (s : ArpClock) (now : Timeval) : Decidable (s.timely d now) :=
  inferInstanceAs (Decidable (_ ∧ _ ∧ _))

def step (d : Int) (s : ArpClock) : ArpClockAction → Option (ArpClock × ArpResult)
  | .arpInput dev data now =>
    if s.timely d now then
      let r := LLNStack.arpInput s.caches now dev data
      some ({ s with caches := r.1, clock := now }, .done r.2)
    else none
  | .arpResolve iface dev pa now =>
    if s.timely d now then
      let r := LLNStack.arpResolve s.caches now iface dev pa
      some ({ s with caches := r.1, clock := now }, .resolved r.2.1 r.2.2)
    else none
  | .timerHandler now later =>
    if s.timely d now then
      match networkTimerHandler [now] s.timers with
      | none => none
      | some (timers, flags) =>
        if true ∈ flags then
          if later.Normalised ∧ now.micros ≤ later.micros ∧ later.micros ≤ now.micros + d then
            some (⟨arpTimer s.caches later, timers, later, now⟩, .done none)
          else none
        else some (⟨s.caches, timers, now, now⟩, .done none)
    else none

end ArpClock

/-! ## What an action can do -/

inductive ArpClockTrans (d : Int) (s : ArpClock) : ArpClockAction → ArpClock → Prop where
  | input {dev : NetworkDevice} {data : Bytes} {now : Timeval} : s.timely d now →
      ArpClockTrans d s (.arpInput dev data now)
        { s with caches := (arpInput s.caches now dev data).1, clock := now }
  | resolve {iface : IpInterface} {dev : NetworkDevice} {pa : IPAddress} {now : Timeval} :
      s.timely d now →
      ArpClockTrans d s (.arpResolve iface dev pa now)
        { s with caches := (arpResolve s.caches now iface dev pa).1, clock := now }
  | fired {now later : Timeval} {timer : NetworkTimer TimerHandler} : s.timely d now →
      s.timers = [timer] → (networkTimerRound now timer).2 = true →
      later.Normalised → now.micros ≤ later.micros → later.micros ≤ now.micros + d →
      ArpClockTrans d s (.timerHandler now later)
        ⟨arpTimer s.caches later, [{ timer with last := now }], later, now⟩
  | skipped {now later : Timeval} {timer : NetworkTimer TimerHandler} : s.timely d now →
      s.timers = [timer] → (networkTimerRound now timer).2 = false →
      ArpClockTrans d s (.timerHandler now later) ⟨s.caches, [timer], now, now⟩

theorem arpClock_trans {d : Int} {s s' : ArpClock} {a : ArpClockAction} {r : ArpResult}
    {timer : NetworkTimer TimerHandler} (htimer : s.timers = [timer])
    (h : s.step d a = some (s', r)) : ArpClockTrans d s a s' := by
  cases a with
  | arpInput dev data now =>
    simp only [ArpClock.step] at h
    split at h
    · cases h
      exact .input ‹_›
    · cases h
  | arpResolve iface dev pa now =>
    simp only [ArpClock.step] at h
    split at h
    · cases h
      exact .resolve ‹_›
    · cases h
  | timerHandler now later =>
    have hround := networkTimerRound_timer now timer
    simp only [ArpClock.step, htimer, networkTimerHandler, Option.map_some,
      List.mem_singleton] at h
    split at h
    · rename_i ht
      cases hc : (networkTimerRound now timer).2 with
      | true =>
        rw [hc, if_pos rfl] at hround h
        split at h
        · rename_i hlater
          cases h
          rw [hround]
          exact .fired ht htimer hc hlater.1 hlater.2.1 hlater.2.2
        · cases h
      | false =>
        rw [hc] at hround h
        rw [if_neg (by decide)] at h
        cases h
        rw [hround]
        exact .skipped ht htimer hc
    · cases h

/-! ## Ages -/

/-- The entries and the timer are not older than they may be. -/
structure ArpClock.Young (s : ArpClock) : Prop where
  fresh : ∃ last, CacheFresh last s.caches
  timer : ∃ last : Timeval, s.timers = [⟨arpTimerInterval, last, .arpTimer⟩] ∧
    last.Normalised ∧ last.micros ≤ s.passed.micros ∧
    s.passed.micros - last.micros ≤ 1000000 ∧
    ∀ i, (s.caches i).state ≠ .stateFree →
      last.micros - (s.caches i).timestamp.micros < 31000000
  order : s.passed.micros ≤ s.clock.micros
  stamped : ∀ i, (s.caches i).state ≠ .stateFree → (s.caches i).timestamp.Normalised

namespace ArpClock.Young

variable {d : Int} {s : ArpClock}

theorem op (h : s.Young) (op : ArpOp) {caches : Caches} {r : ArpResult}
    (hop : arpOpStep s.caches op = some (caches, r)) (ht : s.timely d op.now) :
    Young ⟨caches, s.timers, op.now, s.passed⟩ := by
  obtain ⟨last, hfresh⟩ := h.fresh
  obtain ⟨fired, htimer, hfired, hle, hsecond, hage⟩ := h.timer
  obtain ⟨hnow, hback, -⟩ := ht
  have horder := h.order
  refine ⟨⟨_, hfresh.step hop⟩, ⟨fired, htimer, hfired, hle, hsecond, ?_⟩, horder.trans hback, ?_⟩
  · show ∀ i, (caches i).state ≠ .stateFree → fired.micros - (caches i).timestamp.micros < 31000000
    intro i hi
    rcases entry_step hfresh.unique hop hi with ⟨he, -⟩ | ⟨htime, -⟩
    · rw [he] at hi ⊢
      exact hage i hi
    · rw [htime]
      omega
  · show ∀ i, (caches i).state ≠ .stateFree → (caches i).timestamp.Normalised
    intro i hi
    rcases entry_step hfresh.unique hop hi with ⟨he, -⟩ | ⟨htime, -⟩
    · rw [he] at hi ⊢
      exact h.stamped i hi
    · rw [htime]
      exact hnow

theorem step (h : s.Young) {s' : ArpClock} {a : ArpClockAction} (ht : ArpClockTrans d s a s') :
    s'.Young := by
  obtain ⟨last, hfresh⟩ := h.fresh
  obtain ⟨fired, htimer, hfired, hle, hsecond, hage⟩ := h.timer
  cases ht with
  | @input dev data now htime => exact h.op (.arpInput dev data now) rfl htime
  | @resolve iface dev pa now htime => exact h.op (.arpResolve iface dev pa now) rfl htime
  | @fired now later timer htime htimer' _ hlater hl _ =>
    rw [htimer] at htimer'
    cases htimer'
    obtain ⟨hnow, -, -⟩ := htime
    refine ⟨⟨_, hfresh.timer later⟩, ⟨now, rfl, hnow, le_rfl, by simp, ?_⟩, hl, ?_⟩
    · -- what `arp_timer` leaves is younger than 31 seconds, and it reads the clock later
      show ∀ i, (arpTimer s.caches later i).state ≠ .stateFree →
        now.micros - (arpTimer s.caches later i).timestamp.micros < 31000000
      intro i hi
      rw [arpTimer_of_ne_free hi]
      have hfree : (s.caches i).state ≠ .stateFree := arpTimer_of_ne_free hi ▸ hi
      have hyoung := ((arpTimer_survives hlater (h.stamped i hfree) (hfresh.noStatic i)).mp hi).2
      omega
    · show ∀ i, (arpTimer s.caches later i).state ≠ .stateFree →
        (arpTimer s.caches later i).timestamp.Normalised
      intro i hi
      have hkept := arpTimer_of_ne_free hi
      rw [hkept] at hi ⊢
      exact h.stamped i hi
  | @skipped now later timer htime htimer' hcalled =>
    rw [htimer] at htimer'
    cases htimer'
    obtain ⟨hnow, hback, -⟩ := htime
    have horder := h.order
    have hint : arpTimerInterval.Normalised := by decide
    have hwait : ¬ arpTimerInterval.micros < now.micros - fired.micros := fun hlt => by
      have hcall : (networkTimerRound now
          (⟨arpTimerInterval, fired, .arpTimer⟩ : NetworkTimer TimerHandler)).2 = true :=
        (networkTimerRound_called hnow hfired hint).mpr hlt
      rw [hcall] at hcalled
      cases hcalled
    refine ⟨⟨last, hfresh⟩, ⟨fired, rfl, hfired, ?_, not_lt.mp hwait, hage⟩, le_rfl, h.stamped⟩
    show fired.micros ≤ now.micros
    omega

theorem age_lt (h : s.Young) {now : Timeval} (ht : s.timely d now) {i : Fin arpCacheSize}
    (hi : (s.caches i).state ≠ .stateFree) :
    now.micros - (s.caches i).timestamp.micros < 32000000 + d := by
  obtain ⟨fired, -, -, -, hsecond, hage⟩ := h.timer
  have := hage i hi
  have := ht.2.2
  omega

end ArpClock.Young

/-! ## Messages -/

def ArpClockAction.SaysAt (pa : IPAddress) (ha : EtherAddr) (t : Timeval)
    (a : ArpClockAction) : Prop :=
  ∃ dev data msg, a = .arpInput dev data t ∧ arpCheck data = some msg ∧ msg.spa = pa ∧
    msg.sha = ha

/-- The last message from the address of the entry gave the entry its hardware address, at the
time of its timestamp. -/
def Announced (tr : List (ArpClockAction × ArpResult)) (entry : ArpCache) : Prop :=
  ∃ tr₁ l tr₂, tr = tr₁ ++ l :: tr₂ ∧ l.1.SaysAt entry.pa entry.ha entry.timestamp ∧
    ∀ l' ∈ tr₂, ∀ ha t, ¬ l'.1.SaysAt entry.pa ha t

theorem Announced.snoc {tr : List (ArpClockAction × ArpResult)} {entry : ArpCache}
    (h : Announced tr entry) {l : ArpClockAction × ArpResult}
    (hl : ∀ ha t, ¬ l.1.SaysAt entry.pa ha t) : Announced (tr ++ [l]) entry := by
  obtain ⟨tr₁, l₁, tr₂, rfl, hsays, hlater⟩ := h
  refine ⟨tr₁, l₁, tr₂ ++ [l], by simp, hsays, ?_⟩
  exact forall_mem_snoc hlater hl

theorem announced_learn {tr : List (ArpClockAction × ArpResult)} {caches caches' : Caches}
    {last : IPAddress → Option EtherAddr} (hfresh : CacheFresh last caches)
    (h : ∀ i, (caches i).state = .stateResolved → Announced tr (caches i)) {dev : NetworkDevice}
    {data : Bytes} {now : Timeval} {msg : ArpEther} (hc : arpCheck data = some msg)
    (hlearn : ArpLearn caches now msg caches') (r : ArpResult) {i : Fin arpCacheSize}
    (hi : (caches' i).state = .stateResolved) :
    Announced (tr ++ [(.arpInput dev data now, r)]) (caches' i) := by
  have hused : (caches' i).state ≠ .stateFree := by
    rw [hi]
    decide
  rcases hlearn.entry hfresh.unique hused with ⟨he, hne⟩ | ⟨htime, hpa⟩
  · rw [he] at hi ⊢
    refine (h i hi).snoc ?_
    rintro ha t ⟨dev', data', msg', heq, hmsg, hspa, -⟩
    cases heq
    rw [hc] at hmsg
    cases hmsg
    exact hne hspa.symm
  · have hlatest := (hfresh.learn hlearn).latest i hi
    rw [hpa, Function.update_self] at hlatest
    refine ⟨tr, _, [], rfl, ⟨dev, data, msg, ?_, hc, hpa.symm, Option.some.inj hlatest⟩, by simp⟩
    rw [htime]

theorem announced_step {d : Int} {tr : List (ArpClockAction × ArpResult)} {s s' : ArpClock}
    {a : ArpClockAction} (hs : s.Young)
    (h : ∀ i, (s.caches i).state = .stateResolved → Announced tr (s.caches i))
    (ht : ArpClockTrans d s a s') (r : ArpResult) :
    ∀ i, (s'.caches i).state = .stateResolved → Announced (tr ++ [(a, r)]) (s'.caches i) := by
  obtain ⟨last, hfresh⟩ := hs.fresh
  intro i hi
  -- an entry that stays as it is, when the action is no well-formed message
  have keep : s'.caches i = s.caches i → (∀ pa ha t, ¬ a.SaysAt pa ha t) →
      Announced (tr ++ [(a, r)]) (s'.caches i) := by
    intro he hquiet
    rw [he] at hi ⊢
    exact (h i hi).snoc (hquiet _)
  have quiet : (∀ dev data now, a ≠ .arpInput dev data now) → ∀ pa ha t, ¬ a.SaysAt pa ha t := by
    rintro hne pa ha t ⟨dev, data, msg, rfl, -⟩
    exact hne dev data t rfl
  cases ht with
  | @input dev data now _ =>
    have hlearn := arpInput_trans s.caches now dev data
    cases hc : arpCheck data with
    | none =>
      simp only [hc] at hlearn
      refine keep (congrFun hlearn i) ?_
      rintro pa ha t ⟨dev', data', msg, heq, hmsg, -⟩
      cases heq
      rw [hc] at hmsg
      cases hmsg
    | some msg =>
      simp only [hc] at hlearn
      exact announced_learn hfresh h hc hlearn r hi
  | @resolve iface dev pa now _ =>
    rcases arpResolve_caches s.caches now iface dev pa with he | ⟨-, k, he⟩
    · exact keep (congrFun he i) (quiet nofun)
    · have hslot := congrFun he i
      by_cases hik : i = k
      · subst hik
        rw [Function.update_self] at hslot
        cases hi.symm.trans (congrArg ArpCache.state hslot)
      · rw [Function.update_of_ne hik] at hslot
        exact keep hslot (quiet nofun)
  | @fired now later timer _ _ _ _ _ _ =>
    have hused : (arpTimer s.caches later i).state ≠ .stateFree := by
      rw [show (arpTimer s.caches later i).state = .stateResolved from hi]
      decide
    exact keep (arpTimer_of_ne_free hused) (quiet nofun)
  | skipped _ _ _ => exact keep rfl (quiet nofun)

/-! ## Whole runs -/

theorem run_young {d : Int} {t₀ : Timeval} (ht₀ : t₀.Normalised)
    {tr : List (ArpClockAction × ArpResult)} {s : ArpClock}
    (h : Run (stepRel (ArpClock.step d)) (.init t₀) tr s) :
    s.Young ∧ ∀ i, (s.caches i).state = .stateResolved → Announced tr (s.caches i) := by
  refine h.history (P := fun tr s => s.Young ∧
    ∀ i, (s.caches i).state = .stateResolved → Announced tr (s.caches i)) ?_ ?_
  · refine ⟨⟨⟨fun _ => none, fun i j pa hi _ => absurd rfl hi.1, nofun, nofun⟩,
      ⟨t₀, rfl, ht₀, le_rfl, by simp [ArpClock.init], fun i hi => absurd rfl hi⟩, le_rfl,
      fun i hi => absurd rfl hi⟩, nofun⟩
  · rintro tr s l s' - ⟨hyoung, hann⟩ hl
    obtain ⟨fired, htimer, -⟩ := hyoung.timer
    have ht := arpClock_trans htimer hl
    exact ⟨hyoung.step ht, announced_step hyoung hann ht l.2⟩

/-- **ARP staleness.** Let `network_timer_handler` run at least every `d` microseconds. At any time
every entry of the cache is less than 32 seconds and `d` old. So if `arp_resolve` finds `ha` for
`pa`, a message from `pa` gave `ha` less than 32 seconds and `d` ago, and no later one came from
`pa`. -/
theorem arp_staleness {d : Int} {t₀ : Timeval} (ht₀ : t₀.Normalised)
    {tr : List (ArpClockAction × ArpResult)} {s : ArpClock}
    (h : Run (stepRel (ArpClock.step d)) (.init t₀) tr s) {now : Timeval}
    (hnow : s.timely d now) :
    (∀ i, (s.caches i).state ≠ .stateFree →
      now.micros - (s.caches i).timestamp.micros < 32000000 + d) ∧
    ∀ iface dev pa ha, (arpResolve s.caches now iface dev pa).2.1 = .found ha →
      ∃ tr₁ l tr₂ t, tr = tr₁ ++ l :: tr₂ ∧ l.1.SaysAt pa ha t ∧
        (∀ l' ∈ tr₂, ∀ ha' t', ¬ l'.1.SaysAt pa ha' t') ∧
        now.micros - t.micros < 32000000 + d := by
  obtain ⟨hyoung, hann⟩ := run_young ht₀ h
  refine ⟨fun i hi => hyoung.age_lt hnow hi, fun iface dev pa ha hfound => ?_⟩
  obtain ⟨last, hfresh⟩ := hyoung.fresh
  obtain ⟨i, hholds, hne, rfl⟩ := arpResolve_found hfound
  have hres : (s.caches i).state = .stateResolved := by
    cases hst : (s.caches i).state with
    | stateFree => exact absurd hst hholds.1
    | stateIncomplete => exact absurd hst hne
    | stateResolved => rfl
    | stateStatic => exact absurd hst (hfresh.noStatic i)
  obtain ⟨tr₁, l, tr₂, htr, hsays, hlater⟩ := hann i hres
  rw [hholds.2] at hsays hlater
  exact ⟨tr₁, l, tr₂, _, htr, hsays, hlater, hyoung.age_lt hnow hholds.1⟩

def requestThenTimer : List ArpClockAction :=
  [.timerHandler ⟨0, 800000⟩ ⟨0, 0⟩, .arpInput hostDevice peerRequest ⟨1, 0⟩,
    .timerHandler ⟨1, 600000⟩ ⟨1, 600001⟩]

def hostIface : IpInterface :=
  ⟨networkInterfaceFamilyIp, 0, 0x0100000a#32, 0x00ffffff#32, 0xff00000a#32⟩

/-- With a pass every second, the address of the peer is from within the last 33 seconds. -/
theorem requestThenTimer_young : ∃ tr s,
    Run (stepRel (ArpClock.step 1000000)) (.init ⟨0, 0⟩) tr s ∧
    tr.map Prod.fst = requestThenTimer ∧
    (arpResolve s.caches ⟨2, 0⟩ hostIface hostDevice 0x0200000a#32).2.1 =
      .found (.ofBytes 2 0 0 0 0 2) ∧
    ∃ tr₁ l tr₂ t, tr = tr₁ ++ l :: tr₂ ∧ l.1.SaysAt 0x0200000a#32 (.ofBytes 2 0 0 0 0 2) t ∧
      (∀ l' ∈ tr₂, ∀ ha' t', ¬ l'.1.SaysAt 0x0200000a#32 ha' t') ∧
      (⟨2, 0⟩ : Timeval).micros - t.micros < 32000000 + 1000000 := by
  obtain ⟨tr, s, hrun, hmap, hcheck⟩ := exec_check (ArpClock.step 1000000) (.init ⟨0, 0⟩)
    requestThenTimer (fun r => decide (r.2.timely 1000000 ⟨2, 0⟩ ∧
      (arpResolve r.2.caches ⟨2, 0⟩ hostIface hostDevice 0x0200000a#32).2.1 =
        .found (.ofBytes 2 0 0 0 0 2))) (by decide +kernel)
  obtain ⟨htimely, hfound⟩ := of_decide_eq_true hcheck
  exact ⟨tr, s, hrun, hmap, hfound,
    (arp_staleness (by decide) hrun htimely).2 hostIface hostDevice _ _ hfound⟩

end LLNStack
