import LLNStack.Udp.System

/-!
# LLNStack.Udp.Receive

Exactly-once, in-order reception on a PCB that stays open. The trace of a run shows the datagrams
`udp_input` accepted for PCB `i` (`acceptedOn`) and what the `udp_recvfrom` calls on it returned
(`receivedFrom`).

* `queue_step`: one action takes at most one datagram from the front of the queue, the one it
  returns, and adds at most one at the end, the one accepted.
* `noLostWakeup_step`: no call stays parked without a signal while its queue holds a datagram.
* `recvfrom_exactly_once`: both over whole runs.
-/

namespace LLNStack

open Lib

/-! ## The queue -/

/-- The call returned the first `MIN(size, len)` bytes of the datagram and its sender. -/
def Received.Matches (r : Received) (entry : UdpQueueEntry) : Prop :=
  r.data = entry.data.take (min r.size entry.data.length) ∧ r.foreign = entry.foreign

/-- The queue moves from `q` to `q'`: some datagrams leave at the front, some arrive at the end. -/
def QueueMove (i : Fin udpPcbSize) (l : UdpAction × UdpResult) (q q' : List UdpQueueEntry) : Prop :=
  ∃ popped, popped ++ q' = q ++ (acceptedOn i l).toList ∧
    List.Forall₂ Received.Matches (receivedFrom i l).toList popped

theorem QueueMove.same {i : Fin udpPcbSize} {l : UdpAction × UdpResult} {q : List UdpQueueEntry}
    (ha : acceptedOn i l = none) (hr : receivedFrom i l = none) : QueueMove i l q q :=
  ⟨[], by simp [ha], by simp [hr]⟩

theorem queue_step {s s' : UdpSys} {a : UdpAction} {r : UdpResult} {i : Fin udpPcbSize}
    (hopen : (s.pcbs i).state = .stateOpen) (hnc : ¬ Closes i (a, r)) (ht : UdpTrans s a r s') :
    (s'.pcbs i).state = .stateOpen ∧
      QueueMove i (a, r) (s.pcbs i).queue (s'.pcbs i).queue := by
  have hs := slot_trans ht i
  generalize s.pcbs i = pcb at hs hopen
  generalize s'.pcbs i = pcb' at hs
  cases hs with
  | same ha hr _ _ | bound _ ha hr _ _ => exact ⟨hopen, .same ha hr⟩
  | opened hf | released hf => rw [hopen] at hf; cases hf
  | closed hid => exact absurd hid hnc
  | pushed _ => exact ⟨hopen, [], by simp [acceptedOn], by simp [receivedFrom]⟩
  | @popped _ _ size entry rest _ hq _ =>
    refine ⟨hopen, [entry], ?_, ?_⟩
    · rw [hq]; simp [acceptedOn]
    · simp only [receivedFrom, if_true, Option.toList_some]
      exact .cons ⟨List.take_eq_take_min, rfl⟩ .nil

theorem queue_failed {s s' : UdpSys} {a : UdpAction} {call : Nat} {i : Fin udpPcbSize}
    (hopen : (s.pcbs i).state = .stateOpen) (hnc : ¬ Closes i (a, .failed call))
    (ht : UdpTrans s a (.failed call) s') : (s'.pcbs i).queue = (s.pcbs i).queue := by
  obtain ⟨_, popped, hq, hm⟩ := queue_step hopen hnc ht
  have ha : acceptedOn i (a, .failed call) = none := rfl
  have hr : receivedFrom i (a, .failed call) = none := rfl
  rw [hr, Option.toList_none, List.forall₂_nil_left_iff] at hm
  simpa [hm, ha] using hq

/-! ## Wakeups -/

def NoLostWakeup (s : UdpSys) : Prop :=
  ∀ w ∈ s.waiters, (s.pcbs w.pcb).queue ≠ [] → w.signalled = true

theorem NoLostWakeup.mono {s s' : UdpSys} (h : NoLostWakeup s)
    (hw : ∀ w ∈ s'.waiters, w.signalled = true ∨ w ∈ s.waiters)
    (hq : ∀ i, (s'.pcbs i).queue ≠ [] → (s.pcbs i).queue ≠ []) : NoLostWakeup s' := by
  intro w hm hne
  rcases hw w hm with hs | hm
  · exact hs
  · exact h w hm (hq _ hne)

theorem noLostWakeup_recvTrans {s s' : UdpSys} {call size : Nat} {i : Fin udpPcbSize}
    {r : UdpResult} (h : NoLostWakeup s) (ht : RecvTrans s call i size r s') :
    NoLostWakeup s' := by
  cases ht with
  | received hq =>
    refine h.mono (fun w hm => .inr hm) fun j => ?_
    refine update_at (P := fun pcb => pcb.queue ≠ [] → (s.pcbs j).queue ≠ []) ?_ fun _ => id
    rintro rfl _; rw [hq]; exact List.cons_ne_nil _ _
  | interrupted => exact h
  | @parked ctx hq =>
    have hq' : ∀ j, (Function.update s.pcbs i { s.pcbs i with ctx := ctx } j).queue =
        (s.pcbs j).queue := fun j =>
      update_at (P := fun pcb => pcb.queue = (s.pcbs j).queue) (by rintro rfl; rfl) fun _ => rfl
    intro w hm hne
    simp only [hq'] at hne
    rcases List.mem_append.mp hm with hm | hm
    · exact h w hm hne
    · -- the call that has just parked: its queue is empty
      rw [List.mem_singleton] at hm
      subst hm
      exact absurd hq hne

theorem NoLostWakeup.leave {s : UdpSys} (h : NoLostWakeup s) (k : Nat) (w : Waiter) :
    NoLostWakeup (s.leave k w) := by
  refine h.mono (fun w' hm => .inr (List.mem_of_mem_eraseIdx hm)) fun j => ?_
  obtain ⟨ctx, hc⟩ := leave_pcbs s k w j
  rw [hc]; exact id

theorem noLostWakeup_step {s s' : UdpSys} {a : UdpAction} {r : UdpResult} (h : NoLostWakeup s)
    (ht : UdpTrans s a r s') : NoLostWakeup s' := by
  cases ht with
  | openFail | closeFail | bindFail | sendtoKeep | inputDrop | recvNotFound => exact h
  | openOk _ | closeOk _ | bindOk _ _ | sendtoAssign _ _ _ _ =>
    refine h.mono (fun w hm => .inr hm) fun j => ?_
    refine update_at (P := fun pcb => pcb.queue ≠ [] → (s.pcbs j).queue ≠ []) ?_ fun _ => id
    rintro rfl; simp
  | @inputAccept _ _ _ _ _ i entry _ =>
    -- every call parked on the PCB that got the datagram is signalled
    intro w hm hne
    simp only [broadcast, List.mem_map] at hm
    obtain ⟨w₀, hm₀, rfl⟩ := hm
    by_cases hw : w₀.pcb = i
    · rw [if_pos hw]
    · rw [if_neg hw] at hne ⊢
      simp only [Function.update_of_ne hw] at hne
      exact h w₀ hm₀ hne
  | event =>
    intro w hm hne
    simp only [List.mem_map] at hm
    obtain ⟨w₀, hm₀, rfl⟩ := hm
    split
    · rfl
    · rename_i hstate
      rw [if_neg hstate] at hne
      obtain ⟨ctx, hc⟩ := udpEventHandler_eq s.pcbs w₀.pcb
      simp only [hc] at hne
      exact h w₀ hm₀ hne
  | recv _ _ ht => exact noLostWakeup_recvTrans h ht
  | wokenFail _ => exact h.leave _ _
  | @wokenClosed k destroy w _ _ =>
    refine (h.leave k w).mono (fun w' hm => .inr hm) fun j => ?_
    refine update_at (P := fun pcb => pcb.queue ≠ [] → ((s.leave k w).pcbs j).queue ≠ []) ?_
      fun _ => id
    rintro rfl hne; exact absurd rfl hne
  | woken _ ht => exact noLostWakeup_recvTrans (h.leave _ _) ht
  | @spurious k w hw =>
    refine h.mono (fun w' hm => ?_) fun j => id
    rcases List.mem_or_eq_of_mem_set hm with hm | rfl
    · exact .inr hm
    · exact .inl rfl

/-! ## Whole runs -/

theorem queue_run {s₀ s : UdpSys} {tr : List (UdpAction × UdpResult)} {i : Fin udpPcbSize}
    (hopen : (s₀.pcbs i).state = .stateOpen) (h : Run UdpSys.Step s₀ tr s)
    (hnc : ∀ l ∈ tr, ¬ Closes i l) :
    (s.pcbs i).state = .stateOpen ∧ ∃ popped,
      popped ++ (s.pcbs i).queue = (s₀.pcbs i).queue ++ tr.filterMap (acceptedOn i) ∧
      List.Forall₂ Received.Matches (tr.filterMap (receivedFrom i)) popped := by
  induction h with
  | nil => exact ⟨hopen, [], by simp, by simp⟩
  | @snoc tr s s' l _ hl ih =>
    obtain ⟨hs, popped, hq, hm⟩ := ih fun l hl => hnc l (List.mem_append_left _ hl)
    obtain ⟨hs', p, hq', hm'⟩ := queue_step hs (hnc l (by simp)) (step_trans hl)
    refine ⟨hs', popped ++ p, ?_, ?_⟩
    · rw [filterMap_snoc, ← List.append_assoc, ← hq, List.append_assoc, hq', List.append_assoc]
    · rw [filterMap_snoc]; exact List.rel_append hm hm'

/-- **Exactly-once, in-order reception.** From any state the calls can reach with PCB `i` open,
through any interleaving that does not close it: the datagrams that receivers took, in order,
followed by those still queued, are those that were queued followed by those `udp_input` accepted;
the successful `udp_recvfrom` calls returned exactly the ones taken, one each; a call that returns
-1 takes none; and no call is parked without a signal while the queue holds a datagram. -/
theorem recvfrom_exactly_once {tr₀ tr : List (UdpAction × UdpResult)} {s₀ s : UdpSys}
    {i : Fin udpPcbSize} (h₀ : Run UdpSys.Step UdpSys.init tr₀ s₀)
    (hopen : (s₀.pcbs i).state = .stateOpen) (h : Run UdpSys.Step s₀ tr s)
    (hnc : ∀ l ∈ tr, ¬ Closes i l) :
    (∃ popped,
      popped ++ (s.pcbs i).queue = (s₀.pcbs i).queue ++ tr.filterMap (acceptedOn i) ∧
      List.Forall₂ Received.Matches (tr.filterMap (receivedFrom i)) popped) ∧
    (∀ tr₁ a call s₁ s₂, tr₁ ++ [(a, .failed call)] <+: tr → Run UdpSys.Step s₀ tr₁ s₁ →
      UdpSys.Step s₁ (a, .failed call) s₂ → (s₂.pcbs i).queue = (s₁.pcbs i).queue) ∧
    ∀ w ∈ s.waiters, w.pcb = i → (s.pcbs i).queue ≠ [] → w.signalled = true := by
  refine ⟨(queue_run hopen h hnc).2, ?_, ?_⟩
  · intro tr₁ a call s₁ s₂ hp h₁ hl
    have hsub : ∀ l ∈ tr₁ ++ [(a, .failed call)], ¬ Closes i l := fun l hm => hnc l (hp.subset hm)
    have hs₁ := (queue_run hopen h₁ fun l hm => hsub l (List.mem_append_left _ hm)).1
    exact queue_failed hs₁ (hsub _ (by simp)) (step_trans hl)
  · have hw : NoLostWakeup s :=
      (h₀.append h).invariant (P := NoLostWakeup) (by intro w hm; cases hm)
        fun _ _ _ hp hl => noLostWakeup_step hp (step_trans hl)
    rintro w hm rfl hne
    exact hw w hm hne

def helloDatagram : Bytes := [48, 57, 0, 7, 0, 10, 83, 46, 104, 105]

theorem boundSocket_isSome : (exec UdpSys.step UdpSys.init boundSocket).isSome = true := by
  decide +kernel

def waitThenReceive : List UdpAction :=
  [.udpRecvfrom 1 0 1, .udpInput (true, true) helloDatagram 10 0x0100000a#32 0x0200000a#32,
    .condWaitReturn 0 0]

theorem waitThenReceive_exactly_once : ∃ tr₀ s₀ tr s popped,
    Run UdpSys.Step UdpSys.init tr₀ s₀ ∧ Run UdpSys.Step s₀ tr s ∧
    tr.map Prod.fst = waitThenReceive ∧ tr.filterMap (acceptedOn 0) ≠ [] ∧
    popped ++ (s.pcbs 0).queue = (s₀.pcbs 0).queue ++ tr.filterMap (acceptedOn 0) ∧
    List.Forall₂ Received.Matches (tr.filterMap (receivedFrom 0)) popped := by
  have h₀ := exec_get boundSocket_isSome
  obtain ⟨tr, s, hr, hm, hp⟩ := exec_check UdpSys.step
    ((exec UdpSys.step UdpSys.init boundSocket).get boundSocket_isSome).2
    waitThenReceive (fun r => decide (r.1.filterMap (acceptedOn 0) ≠ []))
    (by decide +kernel)
  have hopen : (((exec UdpSys.step UdpSys.init boundSocket).get boundSocket_isSome).2.pcbs 0).state
      = .stateOpen := by decide +kernel
  have hnc : ∀ l ∈ tr, ¬ Closes 0 l := by
    rintro ⟨a, r⟩ hl
    have ha : a ∈ waitThenReceive := hm ▸ List.mem_map_of_mem hl
    simp only [waitThenReceive, List.mem_cons, List.not_mem_nil, or_false] at ha
    rcases ha with rfl | rfl | rfl <;> exact id
  obtain ⟨popped, hq, hf⟩ := (recvfrom_exactly_once h₀ hopen hr hnc).1
  exact ⟨_, _, tr, s, popped, h₀, hr, hm, of_decide_eq_true hp, hq, hf⟩

end LLNStack
