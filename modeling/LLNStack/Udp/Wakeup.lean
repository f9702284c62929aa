import LLNStack.Lib.Filter
import LLNStack.Lib.Keyed
import LLNStack.Sync.Interrupt
import LLNStack.Udp.Session

/-!
# LLNStack.Udp.Wakeup

The scheduling context of a PCB, as the UDP system uses it. `UdpSys.sched` is what the system shows
of one slot: the context and the calls that wait on it. On an open slot each action of the UDP
system is no step, one step or two steps of `SchedSys` (`SchedMove`): `udp_recvfrom` sleeps,
`udp_input` wakes, `event_handler` interrupts. So what holds of every run of `SchedSys` holds of
every open slot (`run_sched`), as long as no slot is closed under a blocked call.

A call that is blocked when `event_handler` runs is doomed: whatever else happens, its next result
is -1, and until then it can return (`interrupt_ends_receive`).
-/

namespace LLNStack

open Lib

def Waiter.sched (w : Waiter) : SchedWaiter := ⟨w.call, w.signalled⟩

def waitersOn (i : Fin udpPcbSize) (ws : List Waiter) : List SchedWaiter :=
  (ws.filter fun w => w.pcb = i).map Waiter.sched

def UdpSys.sched (s : UdpSys) (i : Fin udpPcbSize) : SchedSys :=
  ⟨(s.pcbs i).ctx, waitersOn i s.waiters⟩

/-- The `udp_recvfrom` call that a result belongs to. -/
def UdpResult.call : UdpResult → Option Nat
  | .received call _ _ _ _ | .failed call | .parked call _ => some call
  | .ret _ | .source _ | .accepted _ | .done => none

/-! ## Blocked calls, slot by slot -/

theorem mem_waitersOn {i : Fin udpPcbSize} {ws : List Waiter} {v : SchedWaiter} :
    v ∈ waitersOn i ws ↔ ∃ w ∈ ws, w.pcb = i ∧ w.sched = v := by
  simp [waitersOn, and_assoc]

theorem waitersOn_append (i : Fin udpPcbSize) (ws ws' : List Waiter) :
    waitersOn i (ws ++ ws') = waitersOn i ws ++ waitersOn i ws' := by
  simp [waitersOn]

theorem waitersOn_map {i : Fin udpPcbSize} {f : Waiter → Waiter} {g : SchedWaiter → SchedWaiter}
    (hpcb : ∀ w, (f w).pcb = w.pcb) (hg : ∀ w, w.pcb = i → (f w).sched = g w.sched)
    (ws : List Waiter) : waitersOn i (ws.map f) = (waitersOn i ws).map g := by
  induction ws with
  | nil => rfl
  | cons w ws ih =>
    simp only [waitersOn] at ih
    by_cases hw : w.pcb = i
    · simp [waitersOn, hpcb, hw, hg w hw, ih]
    · simp [waitersOn, hpcb, hw, ih]

theorem waitersOn_broadcast_self (i : Fin udpPcbSize) (ws : List Waiter) :
    waitersOn i (broadcast (some i) ws) = SchedSys.broadcast (waitersOn i ws) := by
  refine waitersOn_map (fun w => ?_) (fun w hw => ?_) ws
  · split
    · rfl
    · rfl
  · simp [hw, Waiter.sched]

theorem waitersOn_broadcast_other {i j : Fin udpPcbSize} (hj : j ≠ i) (ws : List Waiter) :
    waitersOn i (broadcast (some j) ws) = waitersOn i ws := by
  rw [← List.map_id (waitersOn i ws)]
  refine waitersOn_map (fun w => ?_) (fun w hw => ?_) ws
  · split
    · rfl
    · rfl
  · rw [if_neg (by rw [hw]; exact hj.symm)]
    rfl

theorem waitersOn_at {i : Fin udpPcbSize} {ws : List Waiter} {k : Nat} {w : Waiter}
    (hk : ws[k]? = some w) (hw : w.pcb = i) :
    ∃ k', (waitersOn i ws)[k']? = some w.sched ∧
      waitersOn i (ws.eraseIdx k) = (waitersOn i ws).eraseIdx k' ∧
      ∀ w', w'.pcb = i → waitersOn i (ws.set k w') = (waitersOn i ws).set k' w'.sched := by
  obtain ⟨k', hget, herase, hset⟩ := filter_at (p := fun w => w.pcb = i) hk (by simpa using hw)
  refine ⟨k', ?_, ?_, fun w' hw' => ?_⟩
  · rw [waitersOn, List.getElem?_map, hget]
    rfl
  · rw [waitersOn, herase, ← List.eraseIdx_map, waitersOn]
  · rw [waitersOn, hset w' (by simpa using hw'), List.map_set, waitersOn]

theorem waitersOn_other {i : Fin udpPcbSize} {ws : List Waiter} {k : Nat} {w : Waiter}
    (hk : ws[k]? = some w) (hw : w.pcb ≠ i) :
    waitersOn i (ws.eraseIdx k) = waitersOn i ws ∧
      ∀ w', w'.pcb ≠ i → waitersOn i (ws.set k w') = waitersOn i ws := by
  obtain ⟨herase, hset⟩ := filter_other (p := fun w => w.pcb = i) hk (by simpa using hw)
  refine ⟨?_, fun w' hw' => ?_⟩
  · rw [waitersOn, herase, waitersOn]
  · rw [waitersOn, hset w' (by simpa using hw'), waitersOn]

/-! ## No call is blocked twice -/

def CallsDistinct (s : UdpSys) : Prop := (s.waiters.map Waiter.call).Nodup

theorem callsDistinct_map {s s' : UdpSys} (h : CallsDistinct s)
    (hw : s'.waiters.map Waiter.call = s.waiters.map Waiter.call) : CallsDistinct s' := by
  rw [CallsDistinct, hw]
  exact h

theorem CallsDistinct.eraseIdx {s s' : UdpSys} {k : Nat} (h : CallsDistinct s)
    (hw : s'.waiters = s.waiters.eraseIdx k) : CallsDistinct s' := by
  rw [CallsDistinct, hw, ← List.eraseIdx_map]
  exact h.sublist (List.eraseIdx_sublist ..)

theorem callsDistinct_recvTrans {s s' : UdpSys} {call size : Nat} {i : Fin udpPcbSize}
    {r : UdpResult} (h : CallsDistinct s) (hfresh : ∀ w ∈ s.waiters, w.call ≠ call)
    (ht : RecvTrans s call i size r s') : CallsDistinct s' := by
  cases ht with
  | received _ | interrupted => exact h
  | parked _ =>
    rw [CallsDistinct, List.map_append, List.map_singleton, List.nodup_append]
    refine ⟨h, by simp, ?_⟩
    simpa using hfresh

theorem CallsDistinct.erased {s : UdpSys} (h : CallsDistinct s) {k : Nat} {w : Waiter}
    (hk : s.waiters[k]? = some w) : ∀ v ∈ s.waiters.eraseIdx k, v.call ≠ w.call := by
  intro v hv he
  obtain ⟨j, hj, hv⟩ := List.mem_eraseIdx_iff_getElem?.mp hv
  obtain ⟨hlt, -⟩ := List.getElem?_eq_some_iff.mp hv
  have hsame : (s.waiters.map Waiter.call)[j]? = (s.waiters.map Waiter.call)[k]? := by
    rw [List.getElem?_map, List.getElem?_map, hv, hk, Option.map_some, Option.map_some, he]
  exact hj ((List.getElem?_inj (by simpa using hlt) h).mp hsame)

theorem CallsDistinct.step {s s' : UdpSys} {a : UdpAction} {r : UdpResult} (h : CallsDistinct s)
    (ht : UdpTrans s a r s') : CallsDistinct s' := by
  cases ht with
  | openFail _ | openOk _ | closeFail _ | closeOk _ | bindFail _ | bindOk _ _ | sendtoKeep _
  | sendtoAssign _ _ _ _ | inputDrop | recvNotFound _ => exact h
  | inputAccept _ | event =>
    refine callsDistinct_map h ?_
    simp only [broadcast, List.map_map]
    refine List.map_congr_left fun w _ => ?_
    simp only [Function.comp_apply]
    split
    · rfl
    · rfl
  | recv hfresh _ ht => exact callsDistinct_recvTrans h hfresh ht
  | wokenFail _ | wokenClosed _ _ => exact h.eraseIdx rfl
  | @woken k _ w _ _ hk ht =>
    exact callsDistinct_recvTrans (s := s.leave k w) (h.eraseIdx rfl) (h.erased hk) ht
  | spurious hk => exact callsDistinct_map h (map_key_set hk rfl)

theorem run_callsDistinct {tr : List (UdpAction × UdpResult)} {s : UdpSys}
    (h : Run UdpSys.Step UdpSys.init tr s) : CallsDistinct s :=
  h.invariant (P := CallsDistinct) List.nodup_nil fun _ _ _ hp hl => hp.step (step_trans hl)

theorem CallsDistinct.pcb_eq {s : UdpSys} (h : CallsDistinct s) {v w : Waiter}
    (hv : v ∈ s.waiters) (hw : w ∈ s.waiters) (he : v.call = w.call) : v = w :=
  List.inj_on_of_nodup_map h hv hw he

/-! ## One action on one slot -/

/-- What a result of `sched_sleep` means for the result of the UDP action. -/
def Shows : SchedResult → UdpResult → Prop
  | .interrupted call, r => r = .failed call
  | .returned call _, r | .parked call, r => r.call = some call
  | .done, r => r.call = none

/-- What an action of the UDP system is to the scheduling context of an open slot. -/
inductive SchedMove (S : SchedSys) (r : UdpResult) (S' : SchedSys) : Prop where
  /-- Nothing: the result is of no call blocked on the slot. -/
  | stay : S' = S → (∀ v ∈ S.waiters, r.call ≠ some v.thread) → SchedMove S r S'
  | one {a : SchedAction} {q : SchedResult} : SchedSys.Step S (a, q) S' → Shows q r →
      SchedMove S r S'
  /-- A call that wakes, finds no datagram and sleeps again. -/
  | again {k call : Nat} {mid : SchedSys} :
      SchedSys.Step S (.condWaitReturn k 0, .returned call 0) mid →
      SchedSys.Step mid (.schedSleep call, .parked call) S' → r.call = some call →
      SchedMove S r S'

theorem SchedMove.silent {S S' : SchedSys} {r : UdpResult} (he : S' = S) (hr : r.call = none) :
    SchedMove S r S' := by
  refine .stay he fun v _ hv => ?_
  rw [hr] at hv
  cases hv

theorem sched_congr {s s' : UdpSys} {i : Fin udpPcbSize} (hctx : (s'.pcbs i).ctx = (s.pcbs i).ctx)
    (hw : s'.waiters = s.waiters) : s'.sched i = s.sched i := by
  rw [UdpSys.sched, hctx, hw, UdpSys.sched]

theorem sched_setPcb {s : UdpSys} {i j : Fin udpPcbSize} {pcb : UdpPcb}
    (hctx : j = i → pcb.ctx = (s.pcbs i).ctx) : (s.setPcb j pcb).sched i = s.sched i := by
  refine sched_congr ?_ rfl
  rw [setPcb_pcbs]
  exact update_at (P := fun p => p.ctx = (s.pcbs i).ctx) hctx fun _ => rfl

theorem finish_sched {s : UdpSys} {call : Nat} (hfresh : ∀ w ∈ s.waiters, w.call ≠ call)
    (size : Nat) (i j : Fin udpPcbSize) {s' : UdpSys} {r : UdpResult}
    (h : s.finish call size (udpRecvfromLoop s.pcbs j) = (s', r)) :
    r.call = some call ∧ (s'.sched i = s.sched i ∨
      j = i ∧ SchedSys.Step (s.sched i) (.schedSleep call, .parked call) (s'.sched i)) := by
  simp only [udpRecvfromLoop] at h
  split at h
  · cases h
    exact ⟨rfl, .inl (sched_setPcb (s := s) fun he => by rw [he])⟩
  · simp only [schedSleepEnter] at h
    cases hi : (s.pcbs j).ctx.interrupted with
    | true =>
      rw [hi] at h
      cases h
      exact ⟨rfl, .inl rfl⟩
    | false =>
      rw [hi] at h
      cases h
      refine ⟨rfl, ?_⟩
      by_cases hj : j = i
      · subst hj
        have hany : (waitersOn j s.waiters).any (·.thread = call) = false := by
          rw [List.any_eq_false]
          rintro v hv he
          obtain ⟨w, hw, -, rfl⟩ := mem_waitersOn.mp hv
          exact hfresh w hw (of_decide_eq_true he)
        refine .inr ⟨rfl, ?_⟩
        simp only [stepRel, SchedSys.step, UdpSys.sched, hany, schedSleepEnter, hi,
          waitersOn_append, Function.update_self]
        simp [waitersOn, Waiter.sched]
      · refine .inl ?_
        simp [UdpSys.sched, waitersOn, hj, Function.update_of_ne (Ne.symm hj)]

theorem leave_sched_other {s : UdpSys} {k : Nat} {w : Waiter} {i : Fin udpPcbSize}
    (hk : s.waiters[k]? = some w) (hw : w.pcb ≠ i) : (s.leave k w).sched i = s.sched i := by
  simp only [UdpSys.sched, UdpSys.leave, (waitersOn_other hk hw).1]
  rw [Function.update_of_ne hw.symm]

theorem leave_sched_self {s : UdpSys} {k : Nat} {w : Waiter} (hk : s.waiters[k]? = some w)
    (hs : w.signalled = true) : ∃ k', (s.sched w.pcb).step (.condWaitReturn k' 0) =
      some ((s.leave k w).sched w.pcb, if (schedSleepLeave (s.pcbs w.pcb).ctx).2
        then .interrupted w.call else .returned w.call 0) := by
  obtain ⟨k', hget, herase, -⟩ := waitersOn_at hk rfl
  refine ⟨k', ?_⟩
  simp only [SchedSys.step, UdpSys.sched, hget, Waiter.sched, hs, if_true, UdpSys.leave, herase,
    Function.update_self]
  rfl

theorem condWaitReturn_cases {s s' : UdpSys} {k destroy : Nat} {r : UdpResult}
    (hclean : PcbsClean s.pcbs) (h : s.step (.condWaitReturn k destroy) = some (s', r)) :
    ∃ w, s.waiters[k]? = some w ∧ w.signalled = true ∧
      ((schedSleepLeave (s.pcbs w.pcb).ctx).2 = true ∧ s' = s.leave k w ∧ r = .failed w.call ∨
        (schedSleepLeave (s.pcbs w.pcb).ctx).2 = false ∧
          (s.leave k w).finish w.call w.size (udpRecvfromLoop (s.leave k w).pcbs w.pcb) =
            (s', r)) := by
  simp only [UdpSys.step] at h
  split at h
  · cases h
  · rename_i w hw
    split at h
    · rename_i hs
      refine ⟨w, hw, hs, ?_⟩
      simp only [Option.some.injEq, udpRecvfromWoken] at h
      split at h
      · rename_i hleave
        cases h
        exact .inl ⟨hleave, rfl, rfl⟩
      · rename_i hleave
        split at h
        · rename_i hstate
          have hclosing : (s.pcbs w.pcb).state = .stateClosing := by simpa using hstate
          have hfree := (hclean w.pcb (by rw [hclosing]; decide)).1
          rw [hclosing] at hfree
          cases hfree
        · exact .inr ⟨by simpa using hleave, h⟩
    · cases h

theorem sched_condWaitReturn {s s' : UdpSys} {k destroy : Nat} {r : UdpResult}
    {i : Fin udpPcbSize} (hclean : PcbsClean s.pcbs) (hd : CallsDistinct s)
    (h : s.step (.condWaitReturn k destroy) = some (s', r)) :
    SchedMove (s.sched i) r (s'.sched i) := by
  obtain ⟨w, hk, hs, hcase⟩ := condWaitReturn_cases hclean h
  by_cases hw : w.pcb = i
  · subst hw
    obtain ⟨k', hstep⟩ := leave_sched_self hk hs
    rcases hcase with ⟨hleave, rfl, rfl⟩ | ⟨hleave, hfin⟩
    · rw [hleave] at hstep
      exact .one hstep rfl
    · rw [hleave] at hstep
      obtain ⟨hcall, heq | ⟨-, hsleep⟩⟩ :=
        finish_sched (s := s.leave k w) (hd.erased hk) w.size w.pcb w.pcb hfin
      · rw [heq]
        exact .one hstep hcall
      · exact .again hstep hsleep hcall
  · -- a call of another slot
    have hother : ∀ v ∈ (s.sched i).waiters, some w.call ≠ some v.thread := by
      intro v hv he
      obtain ⟨w', hw', hi, rfl⟩ := mem_waitersOn.mp hv
      have heq := hd.pcb_eq hw' (List.mem_of_getElem? hk) (Option.some.inj he).symm
      exact hw (heq ▸ hi)
    have hleave := leave_sched_other hk hw
    rcases hcase with ⟨-, rfl, rfl⟩ | ⟨-, hfin⟩
    · exact .stay hleave hother
    · obtain ⟨hcall, heq | ⟨hi, -⟩⟩ :=
        finish_sched (s := s.leave k w) (hd.erased hk) w.size i w.pcb hfin
      · exact .stay (heq.trans hleave) (hcall ▸ hother)
      · exact absurd hi hw

theorem sched_event {s s' : UdpSys} {r : UdpResult} {i : Fin udpPcbSize}
    (hopen : (s.pcbs i).state = .stateOpen) (h : s.step .eventHandler = some (s', r)) :
    SchedSys.Step (s.sched i) (.schedInterrupt, .done) (s'.sched i) ∧ r = .done := by
  simp only [UdpSys.step, Option.some.injEq, Prod.mk.injEq] at h
  obtain ⟨rfl, rfl⟩ := h
  refine ⟨?_, rfl⟩
  have hwait : waitersOn i (s.waiters.map fun w =>
      if (s.pcbs w.pcb).state = .stateOpen then { w with signalled := true } else w) =
      SchedSys.broadcast (waitersOn i s.waiters) := by
    refine waitersOn_map (fun w => ?_) (fun w hw => ?_) s.waiters
    · split
      · rfl
      · rfl
    · rw [hw, if_pos hopen]
      rfl
  simp only [stepRel, SchedSys.step, UdpSys.sched, hwait, udpEventHandler, hopen, if_true]

theorem sched_move {s s' : UdpSys} {a : UdpAction} {r : UdpResult} {i : Fin udpPcbSize}
    (hclean : PcbsClean s.pcbs) (hd : CallsDistinct s) (hopen : (s.pcbs i).state = .stateOpen)
    (hnc : ¬ Closes i (a, r)) (h : s.step a = some (s', r)) :
    SchedMove (s.sched i) r (s'.sched i) := by
  have ht := step_trans h
  cases ht with
  | openFail _ | closeFail _ | bindFail _ | sendtoKeep _ | inputDrop =>
    exact .silent rfl rfl
  | @openOk j hfree =>
    refine .silent (sched_setPcb fun he => ?_) rfl
    rw [he, hopen] at hfree
    cases hfree
  | closeOk hj =>
    refine .silent (sched_setPcb fun he => ?_) rfl
    exact absurd (he ▸ (udpPcbGet_some.mp hj).1) hnc
  | bindOk _ _ | sendtoAssign _ _ _ _ =>
    exact .silent (sched_setPcb fun he => by rw [he]) rfl
  | @inputAccept _ _ _ _ _ j entry _ =>
    by_cases hj : j = i
    · subst hj
      refine .one (a := .schedWakeup) (q := .done) ?_ rfl
      simp [stepRel, SchedSys.step, UdpSys.sched, waitersOn_broadcast_self]
    · refine .silent ?_ rfl
      simp [UdpSys.sched, waitersOn_broadcast_other hj, Function.update_of_ne (Ne.symm hj)]
  | event => exact .one (sched_event hopen h).1 rfl
  | recvNotFound hfresh =>
    refine .stay rfl fun v hv he => ?_
    obtain ⟨w, hw, -, rfl⟩ := mem_waitersOn.mp hv
    exact hfresh w hw (Option.some.inj he).symm
  | @recv call id size j _ _ hfresh hj _ =>
    have hany : s.waiters.any (·.call = call) = false := by simpa using hfresh
    simp only [UdpSys.step, hany, udpRecvfrom, hj] at h
    replace h := Option.some.inj h
    obtain ⟨hcall, heq | ⟨-, hsleep⟩⟩ := finish_sched hfresh size i j h
    · refine .stay heq fun v hv he => ?_
      obtain ⟨w, hw, -, rfl⟩ := mem_waitersOn.mp hv
      exact hfresh w hw (Option.some.inj (hcall.symm.trans he)).symm
    · exact .one hsleep hcall
  | wokenFail _ | wokenClosed _ _ | woken _ _ => exact sched_condWaitReturn hclean hd h
  | @spurious k w hk =>
    by_cases hw : w.pcb = i
    · subst hw
      obtain ⟨k', hget, -, hset⟩ := waitersOn_at hk rfl
      refine .one (a := .spuriousWakeup k') (q := .done) ?_ rfl
      simp only [stepRel, SchedSys.step, UdpSys.sched, hget, hset { w with signalled := true } rfl]
      rfl
    · refine .silent ?_ rfl
      simp only [UdpSys.sched, (waitersOn_other hk hw).2 { w with signalled := true } hw]

/-! ## The context of an open slot -/

theorem SchedMove.run {S S' : SchedSys} {r : UdpResult} (hm : SchedMove S r S')
    {tr : List (SchedAction × SchedResult)} (h : Run SchedSys.Step .init tr S) :
    ∃ tr', Run SchedSys.Step .init tr' S' := by
  cases hm with
  | stay he _ => exact ⟨tr, he ▸ h⟩
  | one hs _ => exact ⟨_, h.snoc hs⟩
  | again hs hs' _ => exact ⟨_, (h.snoc hs).snoc hs'⟩

theorem sched_idle {s : UdpSys} {i : Fin udpPcbSize} (hctx : (s.pcbs i).ctx = schedCtxInit)
    (hidle : ∀ w ∈ s.waiters, w.pcb ≠ i) : s.sched i = .init := by
  have hnone : waitersOn i s.waiters = [] := by
    rw [List.eq_nil_iff_forall_not_mem]
    intro v hv
    obtain ⟨w, hw, hi, -⟩ := mem_waitersOn.mp hv
    exact hidle w hw hi
  rw [UdpSys.sched, hctx, hnone, SchedSys.init]

/-- A slot that an action opens starts with a fresh context and no call of an earlier session. -/
theorem sched_opened {S : Sessions} {s s' : UdpSys} {a : UdpAction} {r : UdpResult}
    {i : Fin udpPcbSize} (hb : BlockedInSession S s) (ht : UdpTrans s a r s')
    (hbefore : (s.pcbs i).state ≠ .stateOpen) (hafter : (s'.pcbs i).state = .stateOpen) :
    s'.sched i = .init := by
  have hs := slot_trans ht i
  have hidle : ∀ w ∈ s.waiters, w.pcb ≠ i := by
    rintro w hw rfl
    exact hbefore (hb w hw).1
  generalize hp : s.pcbs i = pcb at hs hbefore
  generalize hp' : s'.pcbs i = pcb' at hs hafter
  cases hs with
  | same _ _ _ _ | popped _ _ => exact absurd hafter hbefore
  | bound ho _ _ _ _ | pushed ho => exact absurd ho hbefore
  | closed _ | released _ => cases hafter
  | opened _ =>
    refine sched_idle (by rw [hp']) fun w' hw' => ?_
    rcases waiter_trans ht hw' with ⟨w, hw, -, hpcb⟩ | ⟨_, _, ha, _⟩
    · exact hpcb ▸ hidle w hw
    · cases ha

theorem not_closes {s s' : UdpSys} {a : UdpAction} {r : UdpResult} {i : Fin udpPcbSize}
    (ht : UdpTrans s a r s') (hbefore : (s.pcbs i).state = .stateOpen)
    (hafter : (s'.pcbs i).state = .stateOpen) : ¬ Closes i (a, r) := by
  have hs := slot_trans ht i
  generalize s.pcbs i = pcb at hs hbefore
  generalize s'.pcbs i = pcb' at hs hafter
  cases hs with
  | same _ _ _ hc => exact fun h => hc h hbefore
  | bound _ _ _ _ hc => exact hc
  | opened _ | pushed _ => exact id
  | closed _ | released _ => cases hafter
  | popped _ hc => exact hc _

/-- In any interleaving of UDP calls, datagrams and events in which no slot is closed under a
blocked call, the context of an open slot and the calls blocked on it are a state that the
scheduling context reaches on its own. -/
theorem run_sched {tr : List (UdpAction × UdpResult)} {s : UdpSys}
    (h : Run (Guarded UdpSys.Step ClosedIdle) UdpSys.init tr s) :
    ∀ i, (s.pcbs i).state = .stateOpen → ∃ tr', Run SchedSys.Step .init tr' (s.sched i) := by
  refine h.history (P := fun _ s => ∀ i, (s.pcbs i).state = .stateOpen →
    ∃ tr', Run SchedSys.Step .init tr' (s.sched i)) ?_ ?_
  · intro i hi
    cases hi
  · rintro tr s ⟨a, r⟩ s' hr ih ⟨hl, -⟩ i hafter
    have ht := step_trans hl
    by_cases hbefore : (s.pcbs i).state = .stateOpen
    · obtain ⟨tr', hrun⟩ := ih i hbefore
      exact (sched_move (run_clean hr.of_guarded) (run_callsDistinct hr.of_guarded) hbefore
        (not_closes ht hbefore hafter) hl).run hrun
    · exact ⟨[], sched_opened (guarded_sessions hr).1 ht hbefore hafter ▸ .nil⟩

/-! ## Interrupted calls -/

/-- The flag is set and the call waits, signalled. -/
structure Doomed (call : Nat) (S : SchedSys) : Prop where
  wc : S.ctx.wc = S.waiters.length
  interrupted : S.ctx.interrupted = true
  waits : ⟨call, true⟩ ∈ S.waiters

theorem Doomed.interrupt {S S' : SchedSys} {call : Nat} (hwc : S.ctx.wc = S.waiters.length)
    (hs : SchedSys.Step S (.schedInterrupt, .done) S') {b : Bool} (hw : ⟨call, b⟩ ∈ S.waiters) :
    Doomed call S' := by
  have ht := sched_trans hs
  have hwc' := wc_step ht hwc
  cases ht with
  | interrupt => exact ⟨hwc', rfl, List.mem_map.mpr ⟨_, hw, rfl⟩⟩

theorem Doomed.sched_step {S S' : SchedSys} {a : SchedAction} {q : SchedResult} {r : UdpResult}
    {call : Nat} (h : Doomed call S) (hs : SchedSys.Step S (a, q) S') (hr : Shows q r) :
    r = .failed call ∨ Doomed call S' ∧ r.call ≠ some call := by
  have ht := sched_trans hs
  have hwc := wc_step ht h.wc
  obtain ⟨-, hi, hw⟩ := h
  cases ht with
  | @refused thread _ =>
    by_cases hc : thread = call
    · exact .inl (hc ▸ hr)
    · exact .inr ⟨⟨hwc, hi, hw⟩, by rw [show r = _ from hr]; simpa [UdpResult.call] using hc⟩
  | parked hn | returned _ hn =>
    rw [hi] at hn
    cases hn
  | @interrupted k _ w hk _ =>
    by_cases hc : w.thread = call
    · exact .inl (hc ▸ hr)
    · -- another call leaves; the flag stays set since this one still waits
      obtain ⟨j, hj⟩ := List.getElem?_of_mem hw
      have hjk : j ≠ k := by
        rintro rfl
        rw [hj] at hk
        cases hk
        exact hc rfl
      have hw' : ⟨call, true⟩ ∈ S.waiters.eraseIdx k :=
        List.mem_eraseIdx_iff_getElem?.mpr ⟨j, hjk, hj⟩
      have hpos := List.length_pos_of_mem hw'
      have hne : S.ctx.wc - 1 ≠ 0 := by
        simp only at hwc
        omega
      refine .inr ⟨⟨hwc, decide_eq_true hne, hw'⟩, ?_⟩
      rw [show r = _ from hr]
      simpa [UdpResult.call] using hc
  | @spurious k w hk =>
    refine .inr ⟨⟨hwc, hi, ?_⟩, by rw [show r.call = _ from hr]; nofun⟩
    obtain ⟨j, hj⟩ := List.getElem?_of_mem hw
    refine List.mem_of_getElem? (i := j) ?_
    rw [List.getElem?_set]
    split
    · rename_i hjk
      subst hjk
      rw [hj] at hk
      cases hk
      obtain ⟨hlt, -⟩ := List.getElem?_eq_some_iff.mp hj
      rw [if_pos hlt]
    · exact hj
  | wakeup | interrupt =>
    refine .inr ⟨⟨hwc, ?_, List.mem_map.mpr ⟨_, hw, rfl⟩⟩, by rw [show r.call = _ from hr]; nofun⟩
    first | exact hi | rfl

theorem Doomed.move {S S' : SchedSys} {r : UdpResult} {call : Nat} (h : Doomed call S)
    (hm : SchedMove S r S') : r = .failed call ∨ Doomed call S' ∧ r.call ≠ some call := by
  cases hm with
  | stay he hother => exact .inr ⟨he ▸ h, hother _ h.waits⟩
  | one hs hr => exact h.sched_step hs hr
  | again hs _ _ =>
    -- the flag is set, so that a call that leaves is interrupted
    cases sched_trans hs with
    | returned _ hn =>
      rw [h.interrupted] at hn
      cases hn

theorem Doomed.can_fail {s : UdpSys} {i : Fin udpPcbSize} {call : Nat}
    (h : Doomed call (s.sched i)) :
    ∃ k, ∀ destroy, ∃ s', s.step (.condWaitReturn k destroy) = some (s', .failed call) := by
  obtain ⟨w, hw, rfl, he⟩ := mem_waitersOn.mp h.waits
  obtain ⟨rfl, hs⟩ : w.call = call ∧ w.signalled = true := by simpa [Waiter.sched] using he
  obtain ⟨k, hk⟩ := List.getElem?_of_mem hw
  have hflag : (s.pcbs w.pcb).ctx.interrupted = true := h.interrupted
  have hleave : (schedSleepLeave (s.pcbs w.pcb).ctx).2 = true := by
    rw [schedSleepLeave_set hflag]
  refine ⟨k, fun destroy => ⟨s.leave k w, ?_⟩⟩
  simp only [UdpSys.step, hk, hs, if_true, udpRecvfromWoken, hleave]
  rfl

/-! ## Whole runs -/

/-- The first result of the call in the trace is -1. -/
def FailsNext (call : Nat) (tr : List (UdpAction × UdpResult)) : Prop :=
  ∃ tr₁ a tr₂, tr = tr₁ ++ (a, .failed call) :: tr₂ ∧ ∀ l ∈ tr₁, l.2.call ≠ some call

theorem run_doomed {tr tr' : List (UdpAction × UdpResult)} {s s' : UdpSys} {call : Nat}
    {i : Fin udpPcbSize} (h : Run (Guarded UdpSys.Step ClosedIdle) UdpSys.init tr s)
    (hd : Doomed call (s.sched i)) (h' : Run (Guarded UdpSys.Step ClosedIdle) s tr' s') :
    FailsNext call tr' ∨ Doomed call (s'.sched i) ∧ ∀ l ∈ tr', l.2.call ≠ some call := by
  refine h'.history (P := fun tr' s' => FailsNext call tr' ∨
    Doomed call (s'.sched i) ∧ ∀ l ∈ tr', l.2.call ≠ some call) (.inr ⟨hd, nofun⟩) ?_
  rintro tr₁ s₁ ⟨a, r⟩ s₂ hrun hprev ⟨hl, hC⟩
  rcases hprev with ⟨tr₂, b, tr₃, rfl, hbefore⟩ | ⟨hd₁, hnone⟩
  · exact .inl ⟨tr₂, b, tr₃ ++ [(a, r)], by simp, hbefore⟩
  · have hall := h.append hrun
    obtain ⟨w, hw, rfl, -⟩ := mem_waitersOn.mp hd₁.waits
    have hopen := ((guarded_sessions hall).1 w hw).1
    have hmove := sched_move (run_clean hall.of_guarded) (run_callsDistinct hall.of_guarded) hopen
      (closedIdle_keeps hC hw hopen) hl
    rcases hd₁.move hmove with rfl | ⟨hd₂, hr⟩
    · exact .inl ⟨tr₁, a, [], rfl, hnone⟩
    · exact .inr ⟨hd₂, forall_mem_snoc hnone hr⟩

/-- **Interrupts reach the receivers.** Take any interleaving in which no slot is closed under a
blocked call. The count of an open PCB's context is the number of calls blocked on it. And a call
that is blocked when the event handler runs has -1 as its next result, whatever datagrams and
wakeups come first; as long as it has not returned, it can. -/
theorem interrupt_ends_receive {tr : List (UdpAction × UdpResult)} {s : UdpSys}
    (h : Run (Guarded UdpSys.Step ClosedIdle) UdpSys.init tr s) :
    (∀ i, (s.pcbs i).state = .stateOpen →
      (s.pcbs i).ctx.wc = (s.waiters.filter fun w => w.pcb = i).length) ∧
    ∀ s₁, UdpSys.Step s (.eventHandler, .done) s₁ → ∀ w ∈ s.waiters, ∀ tr' s',
      Run (Guarded UdpSys.Step ClosedIdle) s₁ tr' s' →
      FailsNext w.call tr' ∨
        (∀ l ∈ tr', l.2.call ≠ some w.call) ∧ ∃ k, ∀ destroy, ∃ s'',
          s'.step (.condWaitReturn k destroy) = some (s'', .failed w.call) := by
  have hcount : ∀ i, (s.pcbs i).state = .stateOpen →
      (s.sched i).ctx.wc = (s.sched i).waiters.length := by
    intro i hopen
    obtain ⟨tr', hrun⟩ := run_sched h i hopen
    exact run_wc hrun
  refine ⟨fun i hopen => ?_, fun s₁ hs w hw tr' s' hrun => ?_⟩
  · simpa [UdpSys.sched, waitersOn] using hcount i hopen
  · have hopen := ((guarded_sessions h).1 w hw).1
    have hd : Doomed w.call (s₁.sched w.pcb) :=
      Doomed.interrupt (hcount w.pcb hopen) (sched_event hopen hs).1
        (mem_waitersOn.mpr ⟨w, hw, rfl, rfl⟩)
    rcases run_doomed (h.snoc ⟨hs, trivial⟩) hd hrun with hfail | ⟨hd', hnone⟩
    · exact .inl hfail
    · exact .inr ⟨hnone, hd'.can_fail⟩

def twoReceivers : List UdpAction := boundSocket ++ [.udpRecvfrom 1 0 64, .udpRecvfrom 2 0 64]

/-- A datagram arrives after the event, and the second call goes on first. -/
def afterEvent : List UdpAction :=
  [.udpInput (true, true) helloDatagram 10 0x0100000a#32 0x0200000a#32, .condWaitReturn 1 0]

theorem closedIdle_of_noClose {as : List UdpAction} (hnc : ∀ id destroy, .udpClose id destroy ∉ as)
    {s₀ s : UdpSys} {tr : List (UdpAction × UdpResult)} (h : Run UdpSys.Step s₀ tr s)
    (hmap : tr.map Prod.fst = as) : Run (Guarded UdpSys.Step ClosedIdle) s₀ tr s := by
  refine h.guard ?_
  rintro ⟨a, r⟩ hl s
  have ha : a ∈ as := hmap ▸ List.mem_map_of_mem hl
  cases a with
  | udpClose id destroy => exact absurd ha (hnc id destroy)
  | _ => trivial

/-- The datagram is queued, yet both calls return -1: the second has, the first will. -/
theorem twoReceivers_interrupted : ∃ tr s s₁ tr' s',
    Run (Guarded UdpSys.Step ClosedIdle) UdpSys.init tr s ∧ tr.map Prod.fst = twoReceivers ∧
    UdpSys.Step s (.eventHandler, .done) s₁ ∧
    Run (Guarded UdpSys.Step ClosedIdle) s₁ tr' s' ∧ tr'.map Prod.fst = afterEvent ∧
    (s.pcbs 0).ctx.wc = (s.waiters.filter fun w => w.pcb = 0).length ∧ (s'.pcbs 0).queue ≠ [] ∧
    FailsNext 2 tr' ∧
    ∃ k, ∀ destroy, ∃ s'', s'.step (.condWaitReturn k destroy) = some (s'', .failed 1) := by
  obtain ⟨tr, s, hrun, hmap, hcheck⟩ := exec_check UdpSys.step UdpSys.init twoReceivers
    (fun r => decide (r.2.waiters = [⟨1, 0, 64, false⟩, ⟨2, 0, 64, false⟩] ∧
      (r.2.pcbs 0).state = .stateOpen ∧ ((r.2.step .eventHandler).any fun e =>
        (exec UdpSys.step e.1 afterEvent).any fun r' => decide ((r'.2.pcbs 0).queue ≠ [] ∧
          (r'.1.map fun l => l.2.call) = [none, some 2])) = true)) (by decide +kernel)
  obtain ⟨hwaiters, hopen, hafter⟩ := of_decide_eq_true hcheck
  change s.waiters = _ at hwaiters
  obtain ⟨tr', s', hrun', hmap', hcheck'⟩ := exec_check UdpSys.step _ afterEvent _ hafter
  obtain ⟨hqueue, hcalls⟩ := of_decide_eq_true hcheck'
  have hg := closedIdle_of_noClose (by simp [twoReceivers, boundSocket]) hrun hmap
  have hg' := closedIdle_of_noClose (by simp [afterEvent]) hrun' hmap'
  obtain ⟨hcount, hends⟩ := interrupt_ends_receive hg
  have hcalls' : ∀ c, (∃ l ∈ tr', l.2.call = some c) ↔ c = 2 := by
    intro c
    have hmem : (∃ l ∈ tr', l.2.call = some c) ↔ some c ∈ tr'.map fun l => l.2.call :=
      List.mem_map.symm
    rw [hmem, hcalls]
    simp
  refine ⟨tr, s, _, tr', s', hg, hmap, rfl, hg', hmap', hcount 0 hopen, hqueue, ?_, ?_⟩
  · rcases hends _ rfl ⟨2, 0, 64, false⟩ (by simp [hwaiters]) tr' s' hg' with h | ⟨h, -⟩
    · exact h
    · obtain ⟨l, hl, hc⟩ := (hcalls' 2).mpr rfl
      exact absurd hc (h l hl)
  · rcases hends _ rfl ⟨1, 0, 64, false⟩ (by simp [hwaiters]) tr' s' hg' with h | ⟨-, h⟩
    · obtain ⟨tr₁, a, tr₂, htr, -⟩ := h
      have h2 := (hcalls' 1).mp ⟨(a, .failed 1), by simp [htr], rfl⟩
      cases h2
    · exact h

end LLNStack
