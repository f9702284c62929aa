import LLNStack.Arp.Fresh

/-!
# LLNStack.Arp.Lifetime

How long an entry of the ARP cache stays. It goes when a new entry takes its slot or when a timer
pass finds it too old.

* `arp_replacement`: a new entry takes a free slot, or else a slot that no other is older than.
* `TimedCaches` adds to the cache, for each address that has an entry, the clock reading of its
  creation or last refresh. `entry_step` says what one operation does to an entry, and
  `run_tracked` that the timestamps are these readings.
* `arp_expiry`: a timer pass deletes what has reached 31 seconds, and nothing else.
-/

namespace LLNStack

open Lib

/-! ## Replacement -/

/-- The cache `caches'` is `caches` with `entry` in slot `i`, which was free if there was a free
slot and else one with the least timestamp. -/
structure Replaces (caches caches' : Caches) (i : Fin arpCacheSize) (entry : ArpCache) :
    Prop where
  written : caches' i = entry
  kept : ∀ j, j ≠ i → caches' j = caches j
  free : (∃ j, (caches j).state = .stateFree) → (caches i).state = .stateFree
  oldest : (∀ j, (caches j).state ≠ .stateFree) →
    ∀ j, (caches i).timestamp.key ≤ (caches j).timestamp.key

theorem replaces_update {caches : Caches} {i : Fin arpCacheSize}
    (h : (caches i).state = .stateFree ∨ (∀ j, (caches j).state ≠ .stateFree) ∧
      ∀ j, (caches i).timestamp.key ≤ (caches j).timestamp.key) (entry : ArpCache) :
    Replaces caches (Function.update caches i entry) i entry where
  written := Function.update_self ..
  kept j hj := Function.update_of_ne hj ..
  free := by
    rintro ⟨j, hj⟩
    rcases h with hfree | ⟨hused, -⟩
    · exact hfree
    · exact absurd hj (hused j)
  oldest := by
    intro hused
    rcases h with hfree | ⟨-, hle⟩
    · exact absurd hfree (hused i)
    · exact hle

theorem ne_of_select_none {caches : Caches} {pa : IPAddress} {entry : ArpCache}
    (hn : arpCacheSelect caches pa = none) (hh : entry.Holds pa) (i : Fin arpCacheSize) :
    entry ≠ caches i :=
  fun he => arpCacheSelect_none.mp hn i (he ▸ hh)

/-- **ARP replacement.** Whatever is in the cache, `arp_cache_alloc` finds a slot. A new entry made
by `arp_cache_insert`, or by `arp_resolve` for an unknown address, takes this slot and changes no
other; it is a free slot if there is one, and else one with the least timestamp. -/
theorem arp_replacement (caches : Caches) : ∃ i, arpCacheAlloc caches = some i ∧
    (∀ now pa ha,
      Replaces caches (arpCacheInsert caches now pa ha) i ⟨.stateResolved, pa, ha, now⟩ ∧
      (arpCacheSelect caches pa = none → arpCacheInsert caches now pa ha i ≠ caches i)) ∧
    ∀ now iface dev pa, arpCacheSelect caches pa = none →
      dev.type = networkDeviceTypeEthernet → iface.family = networkInterfaceFamilyIp →
      (arpResolve caches now iface dev pa).2.1 = .incomplete ∧
      Replaces caches (arpResolve caches now iface dev pa).1 i
        { caches i with state := .stateIncomplete, pa := pa, timestamp := now } ∧
      (arpResolve caches now iface dev pa).1 i ≠ caches i := by
  obtain ⟨i, hi, hslot⟩ := arpCacheAlloc_some caches
  refine ⟨i, hi, fun now pa ha => ?_, fun now iface dev pa hn htype hfam => ?_⟩
  · have hins : arpCacheInsert caches now pa ha =
        Function.update caches i ⟨.stateResolved, pa, ha, now⟩ := by
      simp only [arpCacheInsert, hi]
    rw [hins]
    refine ⟨replaces_update hslot _, fun hn => ?_⟩
    rw [Function.update_self]
    exact ne_of_select_none hn ⟨by simp, rfl⟩ i
  · rw [arpResolve_new htype hfam hn hi now]
    refine ⟨rfl, replaces_update hslot _, ?_⟩
    show Function.update caches i _ i ≠ caches i
    rw [Function.update_self]
    exact ne_of_select_none hn ⟨by simp, rfl⟩ i

def fullCaches : Caches := fun i =>
  ⟨.stateResolved, 0x0000000a#32 + BitVec.ofNat 32 i.val, etherAddrAny,
    if i.val = 1 then ⟨5, 1⟩ else ⟨5, 2⟩⟩

example : arpCacheAlloc fullCaches = some 1 := by decide +kernel

/-! ## Clock readings -/

def Timeval.Normalised (t : Timeval) : Prop := 0 ≤ t.tvUsec ∧ t.tvUsec < 1000000

def Timeval.micros (t : Timeval) : Int := t.tvSec * 1000000 + t.tvUsec

/-- The whole seconds of a difference, with the borrow of `timersub`. -/
theorem timersub_tvSec_gt {now t : Timeval} (hnow : now.Normalised) (ht : t.Normalised) (n : Int) :
    (timersub now t).tvSec > n ↔ (n + 1) * 1000000 ≤ now.micros - t.micros := by
  obtain ⟨hnow0, hnow1⟩ := hnow
  obtain ⟨ht0, ht1⟩ := ht
  simp only [timersub, Timeval.micros]
  split
  · simp only
    omega
  · simp only
    omega

theorem arpTimer_of_ne_free {caches : Caches} {now : Timeval} {i : Fin arpCacheSize}
    (h : (arpTimer caches now i).state ≠ .stateFree) : arpTimer caches now i = caches i := by
  rcases arpTimer_eq caches now i with he | he
  · exact he
  · rw [he] at h
    exact absurd rfl h

theorem arpTimer_survives {caches : Caches} {now : Timeval} {i : Fin arpCacheSize}
    (hnow : now.Normalised) (ht : (caches i).timestamp.Normalised)
    (hstatic : (caches i).state ≠ .stateStatic) :
    (arpTimer caches now i).state ≠ .stateFree ↔
      (caches i).state ≠ .stateFree ∧ now.micros - (caches i).timestamp.micros < 31000000 := by
  have hgt := timersub_tvSec_gt hnow ht arpCacheTimeout
  rw [arpCacheTimeout] at hgt
  by_cases hfree : (caches i).state = .stateFree
  · refine iff_of_false (fun hn => hn ?_) fun hn => hn.1 hfree
    rw [arpTimer_of_ne_free hn, hfree]
  · by_cases hold : (timersub now (caches i).timestamp).tvSec > 30
    · have hdel : arpTimer caches now i = .empty := by
        simp [arpTimer, hfree, hstatic, arpCacheTimeout, hold]
      have hle := hgt.mp hold
      rw [hdel]
      refine iff_of_false (fun hn => hn rfl) fun hlt => ?_
      have := hlt.2
      omega
    · have hkeep : arpTimer caches now i = caches i := by
        simp [arpTimer, arpCacheTimeout, hold]
      have hlt := mt hgt.mpr hold
      rw [hkeep]
      exact ⟨fun hn => ⟨hn, by omega⟩, And.left⟩

/-! ## Creation and refresh -/

def Present (caches : Caches) (pa : IPAddress) : Prop := ∃ i, (caches i).Holds pa

instance (caches : Caches) (pa : IPAddress) : Decidable (Present caches pa) :=
  inferInstanceAs (Decidable (∃ _, _))

def ArpOp.now : ArpOp → Timeval
  | .arpInput _ _ now => now
  | .arpResolve _ _ _ now => now
  | .arpTimer now => now

def ArpOp.From (op : ArpOp) (pa : IPAddress) : Prop := op.msg.map (·.spa) = some pa

instance (op : ArpOp) (pa : IPAddress) : Decidable (op.From pa) :=
  inferInstanceAs (Decidable (_ = _))

/-- The cache and, for each address that has an entry, when the entry was created or last
refreshed by a message from the address. -/
structure TimedCaches where
  caches : Caches
  since : IPAddress → Option Timeval

namespace TimedCaches

def init : TimedCaches := ⟨cachesInit, fun _ => none⟩

def note (s : TimedCaches) (op : ArpOp) (caches : Caches) : TimedCaches :=
  ⟨caches, fun pa =>
    if ¬ Present caches pa then none
    else if Present s.caches pa ∧ ¬ op.From pa then s.since pa
    else some op.now⟩

def step (s : TimedCaches) (op : ArpOp) : Option (TimedCaches × ArpResult) :=
  (arpOpStep s.caches op).map fun r => (s.note op r.1, r.2)

abbrev Step : TimedCaches → ArpOp × ArpResult → TimedCaches → Prop := stepRel step

theorem step_some {s s' : TimedCaches} {op : ArpOp} {r : ArpResult}
    (h : s.step op = some (s', r)) :
    ∃ caches, arpOpStep s.caches op = some (caches, r) ∧ s' = s.note op caches := by
  obtain ⟨⟨caches, r'⟩, hstep, heq⟩ := Option.map_eq_some_iff.mp h
  cases heq
  exact ⟨caches, hstep, rfl⟩

/-- The times are only noted: every run of the operations is a run with them. -/
theorem exists_run {tr : List (ArpOp × ArpResult)} {caches : Caches}
    (h : Run ArpOpStep cachesInit tr caches) :
    ∃ since, Run Step init tr ⟨caches, since⟩ := by
  induction h with
  | nil => exact ⟨_, .nil⟩
  | @snoc tr caches caches' l _ hl ih =>
    obtain ⟨since, hrun⟩ := ih
    have hl' : arpOpStep caches l.1 = some (caches', l.2) := hl
    refine ⟨(note ⟨caches, since⟩ l.1 caches').since, .snoc hrun ?_⟩
    simp only [stepRel, step, hl', Option.map_some]
    rfl

end TimedCaches

theorem ArpLearn.entry {caches caches' : Caches} {now : Timeval} {msg : ArpEther}
    {i : Fin arpCacheSize} (hu : CacheUnique caches) (h : ArpLearn caches now msg caches')
    (hi : (caches' i).state ≠ .stateFree) :
    (caches' i = caches i ∧ (caches i).pa ≠ msg.spa) ∨
      (caches' i).timestamp = now ∧ (caches' i).pa = msg.spa := by
  have kept : caches' i = caches i → ¬ (caches i).Holds msg.spa →
      caches' i = caches i ∧ (caches i).pa ≠ msg.spa := by
    intro he hn
    exact ⟨he, fun hpa => hn ⟨he ▸ hi, hpa⟩⟩
  cases h with
  | @refresh k hk =>
    have hh := arpCacheSelect_some hk
    by_cases hik : i = k
    · subst hik
      right
      rw [Function.update_self]
      exact ⟨rfl, hh.2⟩
    · exact .inl (kept (Function.update_of_ne hik ..) fun hn => hik (hu i k _ hn hh))
  | ignore hn => exact .inl (kept rfl (arpCacheSelect_none.mp hn i))
  | @insert k hn _ =>
    by_cases hik : i = k
    · subst hik
      right
      rw [Function.update_self]
      exact ⟨rfl, rfl⟩
    · exact .inl (kept (Function.update_of_ne hik ..) (arpCacheSelect_none.mp hn i))

theorem entry_step {caches caches' : Caches} {op : ArpOp} {r : ArpResult} {i : Fin arpCacheSize}
    (hu : CacheUnique caches) (hs : arpOpStep caches op = some (caches', r))
    (hi : (caches' i).state ≠ .stateFree) :
    (caches' i = caches i ∧ ¬ op.From (caches i).pa) ∨
      (caches' i).timestamp = op.now ∧
        (¬ Present caches (caches' i).pa ∨ op.From (caches' i).pa) := by
  cases op with
  | arpInput dev data now =>
    cases hs
    have ht := arpInput_trans caches now dev data
    cases hc : arpCheck data with
    | none =>
      simp only [hc] at ht
      rw [ht]
      exact .inl ⟨rfl, by simp [ArpOp.From, ArpOp.msg, hc]⟩
    | some msg =>
      simp only [hc] at ht
      have hfrom : ∀ pa, (ArpOp.arpInput dev data now).From pa ↔ msg.spa = pa := by
        simp [ArpOp.From, ArpOp.msg, hc]
      rcases ht.entry hu hi with ⟨he, hne⟩ | ⟨htime, hpa⟩
      · exact .inl ⟨he, fun hf => hne ((hfrom _).mp hf).symm⟩
      · exact .inr ⟨htime, .inr ((hfrom _).mpr hpa.symm)⟩
  | arpResolve iface dev pa now =>
    cases hs
    have hfrom : ∀ pa', ¬ (ArpOp.arpResolve iface dev pa now).From pa' := by
      simp [ArpOp.From, ArpOp.msg]
    rcases arpResolve_caches caches now iface dev pa with he | ⟨hn, k, he⟩
    · rw [he]
      exact .inl ⟨rfl, hfrom _⟩
    · rw [he]
      by_cases hik : i = k
      · subst hik
        right
        rw [Function.update_self]
        refine ⟨rfl, .inl ?_⟩
        rintro ⟨j, hj⟩
        exact arpCacheSelect_none.mp hn j hj
      · exact .inl ⟨Function.update_of_ne hik .., hfrom _⟩
  | arpTimer now =>
    cases hs
    exact .inl ⟨arpTimer_of_ne_free hi, by simp [ArpOp.From, ArpOp.msg]⟩

structure TimedCaches.Tracked (s : TimedCaches) : Prop where
  fresh : ∃ last, CacheFresh last s.caches
  since : ∀ i, (s.caches i).state ≠ .stateFree →
    s.since (s.caches i).pa = some (s.caches i).timestamp
  absent : ∀ pa, ¬ Present s.caches pa → s.since pa = none
  normalised : ∀ i, (s.caches i).state ≠ .stateFree → (s.caches i).timestamp.Normalised

theorem TimedCaches.Tracked.step {s s' : TimedCaches} {op : ArpOp} {r : ArpResult}
    (h : s.Tracked) (hnow : op.now.Normalised) (hs : s.step op = some (s', r)) : s'.Tracked := by
  obtain ⟨caches', hstep, rfl⟩ := TimedCaches.step_some hs
  obtain ⟨last, hfresh⟩ := h.fresh
  refine ⟨⟨_, hfresh.step hstep⟩, fun i hi => ?_, fun pa hn => if_pos hn, fun i hi => ?_⟩
  · simp only [TimedCaches.note] at hi ⊢
    have hpresent : Present caches' (caches' i).pa := ⟨i, hi, rfl⟩
    rw [if_neg (not_not.mpr hpresent)]
    rcases entry_step hfresh.unique hstep hi with ⟨he, hnot⟩ | ⟨ht, hnew⟩
    · have hold : (s.caches i).state ≠ .stateFree := he ▸ hi
      rw [he, if_pos ⟨⟨i, hold, rfl⟩, hnot⟩]
      exact h.since i hold
    · rw [if_neg (fun hc => hnew.elim (fun hn => hn hc.1) hc.2), ht]
  · simp only [TimedCaches.note] at hi ⊢
    rcases entry_step hfresh.unique hstep hi with ⟨he, -⟩ | ⟨ht, -⟩
    · rw [he] at hi ⊢
      exact h.normalised i hi
    · rw [ht]
      exact hnow

/-! ## Whole runs -/

theorem run_tracked {tr : List (ArpOp × ArpResult)} {s : TimedCaches}
    (h : Run TimedCaches.Step .init tr s) (hclock : ∀ l ∈ tr, l.1.now.Normalised) :
    s.Tracked := by
  have hg : Run (Guarded TimedCaches.Step fun _ l => l.1.now.Normalised) .init tr s :=
    h.guard fun l hl _ => hclock l hl
  refine hg.invariant (P := TimedCaches.Tracked) ?_ fun s l s' hp hl => hp.step hl.2 hl.1
  exact ⟨⟨fun _ => none, fun i j pa hi _ => absurd rfl hi.1, nofun, nofun⟩,
    fun i hi => absurd rfl hi, fun _ _ => rfl, fun i hi => absurd rfl hi⟩

def ArpOp.ResolvesPresent (caches : Caches) (op : ArpOp) : Prop :=
  ∃ iface dev pa now, op = .arpResolve iface dev pa now ∧ Present caches pa

theorem resolvesPresent_same {s s' : TimedCaches} {op : ArpOp} {r : ArpResult}
    (h : s.Tracked) (hop : op.ResolvesPresent s.caches) (hs : s.step op = some (s', r)) :
    s' = s := by
  obtain ⟨caches', hstep, rfl⟩ := TimedCaches.step_some hs
  obtain ⟨iface, dev, pa, now, rfl, i, hi⟩ := hop
  have hsame : caches' = s.caches := by
    cases hstep
    rcases arpResolve_caches s.caches now iface dev pa with he | ⟨hn, -⟩
    · exact he
    · exact absurd hi (arpCacheSelect_none.mp hn i)
  have hsince : (s.note (.arpResolve iface dev pa now) s.caches).since = s.since := by
    funext pa'
    have hfrom : ¬ (ArpOp.arpResolve iface dev pa now).From pa' := by
      simp [ArpOp.From, ArpOp.msg]
    simp only [TimedCaches.note]
    by_cases hp : Present s.caches pa'
    · rw [if_neg (not_not.mpr hp), if_pos ⟨hp, hfrom⟩]
    · rw [if_pos hp, h.absent pa' hp]
  rw [hsame]
  exact congrArg (TimedCaches.mk s.caches) hsince

/-- **ARP expiry.** After any sequence of ARP operations with normalised clock readings: an entry
outlives a timer pass exactly if it was created, or last refreshed by a message from its address,
less than 31 seconds before, and is then as it was. Calls of `arp_resolve` for addresses that have
an entry, as many as there may be, change nothing, neither the entries nor how long they stay. -/
theorem arp_expiry {tr : List (ArpOp × ArpResult)} {s : TimedCaches}
    (h : Run TimedCaches.Step .init tr s) (hclock : ∀ l ∈ tr, l.1.now.Normalised)
    {now : Timeval} (hnow : now.Normalised) :
    (∀ i, (arpTimer s.caches now i).state ≠ .stateFree ↔
      (s.caches i).state ≠ .stateFree ∧
        ∃ t, s.since (s.caches i).pa = some t ∧ now.micros - t.micros < 31000000) ∧
    (∀ i, (arpTimer s.caches now i).state ≠ .stateFree → arpTimer s.caches now i = s.caches i) ∧
    ∀ tr' s', Run TimedCaches.Step s tr' s' → (∀ l ∈ tr', l.1.ResolvesPresent s.caches) →
      s' = s := by
  have ht := run_tracked h hclock
  refine ⟨fun i => ?_, fun i hi => arpTimer_of_ne_free hi, fun tr' s' hrun hres => ?_⟩
  · by_cases hfree : (s.caches i).state = .stateFree
    · refine iff_of_false (fun hn => hn ?_) fun hn => hn.1 hfree
      rw [arpTimer_of_ne_free hn, hfree]
    · obtain ⟨last, hfresh⟩ := ht.fresh
      rw [arpTimer_survives hnow (ht.normalised i hfree) (hfresh.noStatic i)]
      simp [ht.since i hfree]
  · -- every call finds the cache as the first one did
    have hg := hrun.guard (C := fun _ l => l.1.ResolvesPresent s.caches) fun l hl _ => hres l hl
    refine hg.invariant (P := fun s' => s' = s) rfl ?_
    rintro s' l s'' rfl ⟨hl, hop⟩
    exact resolvesPresent_same ht hop hl

def requestThenResolve : List ArpOp :=
  [.arpInput hostDevice peerRequest ⟨0, 0⟩,
    .arpResolve ⟨networkInterfaceFamilyIp, 0, 0x0100000a#32, 0x00ffffff#32, 0xff00000a#32⟩
      hostDevice 0x0200000a#32 ⟨20, 0⟩]

/-- The entry of the peer is there for one microsecond less than 31 seconds. -/
theorem requestThenResolve_expires : ∃ tr s, Run TimedCaches.Step .init tr s ∧
    tr.map Prod.fst = requestThenResolve ∧ (s.caches 0).Holds 0x0200000a#32 ∧
    (arpTimer s.caches ⟨30, 999999⟩ 0).state ≠ .stateFree ∧
    (arpTimer s.caches ⟨31, 0⟩ 0).state = .stateFree := by
  obtain ⟨tr, s, hrun, hmap, hcheck⟩ := exec_check TimedCaches.step .init requestThenResolve
    (fun r => decide ((r.2.caches 0).Holds 0x0200000a#32 ∧
      r.2.since (r.2.caches 0).pa = some ⟨0, 0⟩)) (by decide +kernel)
  obtain ⟨hholds, hsince⟩ := of_decide_eq_true hcheck
  have hclock : ∀ l ∈ tr, l.1.now.Normalised := by
    intro l hl
    have hop : l.1 ∈ requestThenResolve := hmap ▸ List.mem_map_of_mem hl
    simp only [requestThenResolve, List.mem_cons, List.not_mem_nil, or_false] at hop
    rcases hop with hop | hop <;> rw [hop] <;> exact ⟨by decide, by decide⟩
  refine ⟨tr, s, hrun, hmap, hholds, ?_, ?_⟩
  · exact ((arp_expiry hrun hclock ⟨by decide, by decide⟩).1 0).mpr
      ⟨hholds.1, ⟨0, 0⟩, hsince, by decide⟩
  · by_contra hn
    obtain ⟨-, t, ht, hlt⟩ :=
      ((arp_expiry hrun hclock ⟨by decide, by decide⟩).1 0).mp hn
    rw [hsince] at ht
    cases ht
    exact absurd hlt (by decide)

end LLNStack
