import LLNStack.Udp.Receive

/-!
# LLNStack.Udp.Session

One open-to-close life of a PCB slot is a session. `Sessions` reads off a trace, for each slot,
the number of its current session, the datagrams accepted and returned in it, and for each call
the sessions that were current when it started.

`udp_pcb_release` tests the result of `sched_ctx_destroy` against -1, but what comes back is the
error number of `pthread_cond_destroy`, which is never negative. So a slot with blocked receivers
is freed at once, and a receiver of one session can go on in the next. `ClosedIdle` says that a
close finds no call blocked on the slot; `isolated_iff_closedIdle` that this is exactly when the
sessions stay apart.
-/

namespace LLNStack

open Lib

structure Sessions where
  no : Fin udpPcbSize → Nat
  accepted : Fin udpPcbSize → List UdpQueueEntry
  returned : Fin udpPcbSize → List Received
  start : Nat → Fin udpPcbSize → Nat

namespace Sessions

def init : Sessions := ⟨fun _ => 0, fun _ => [], fun _ => [], fun _ _ => 0⟩

/-- A successful `udp_open` begins the next session of its slot. -/
def observe (S : Sessions) (l : UdpAction × UdpResult) : Sessions where
  no i := if Opens i l then S.no i + 1 else S.no i
  accepted i := if Opens i l then [] else S.accepted i ++ (acceptedOn i l).toList
  returned i := if Opens i l then [] else S.returned i ++ (receivedFrom i l).toList
  start c :=
    match l.1 with
    | .udpRecvfrom call _ _ => if c = call then S.no else S.start c
    | _ => S.start c

def ofTrace (tr : List (UdpAction × UdpResult)) : Sessions := tr.foldl observe init

@[simp] theorem ofTrace_snoc (tr : List (UdpAction × UdpResult)) (l : UdpAction × UdpResult) :
    ofTrace (tr ++ [l]) = (ofTrace tr).observe l := by
  simp [ofTrace]

/-- What a call returns belongs to the session it started in: the slot is still in that session,
and the datagrams returned in it so far are the first ones accepted in it. -/
def Own (S : Sessions) : UdpResult → Prop
  | .received call i _ _ _ =>
    S.start call i = S.no i ∧
      List.Forall₂ Received.Matches (S.returned i) ((S.accepted i).take (S.returned i).length)
  | _ => True

end Sessions

/-- No call is blocked on a free slot, and the last action, if it returned a datagram, returned
one of the session in which its call started. -/
def SessionIsolated (tr : List (UdpAction × UdpResult)) (s : UdpSys) : Prop :=
  (∀ w ∈ s.waiters, (s.pcbs w.pcb).state ≠ .stateFree) ∧
    ∀ tr₁ a r, tr = tr₁ ++ [(a, r)] → (Sessions.ofTrace tr).Own r

/-- The condition on a step, in the state before it: a slot is not closed while a call is blocked
on it. -/
def ClosedIdle (s : UdpSys) : UdpAction × UdpResult → Prop
  | (.udpClose id _, _) => ∀ i, udpPcbGet s.pcbs id = some i → ∀ w ∈ s.waiters, w.pcb ≠ i
  | _ => True

/-! ## Guarded runs -/

/-- Every blocked call waits on an open slot, in the session it started in. -/
def BlockedInSession (S : Sessions) (s : UdpSys) : Prop :=
  ∀ w ∈ s.waiters, (s.pcbs w.pcb).state = .stateOpen ∧ S.start w.call w.pcb = S.no w.pcb

/-- On an open slot, what the current session returned and what is queued is what it accepted. -/
def SessionLog (S : Sessions) (s : UdpSys) : Prop :=
  ∀ i, (s.pcbs i).state = .stateOpen → ∃ popped, popped ++ (s.pcbs i).queue = S.accepted i ∧
    List.Forall₂ Received.Matches (S.returned i) popped

theorem SessionLog.step {S : Sessions} {s s' : UdpSys} {a : UdpAction} {r : UdpResult}
    (hc : PcbsClean s.pcbs) (h : SessionLog S s) (ht : UdpTrans s a r s') :
    SessionLog (S.observe (a, r)) s' := by
  intro i hi
  have hs := slot_trans ht i
  have hpre := h i
  have hclean := hc i
  simp only [Sessions.observe]
  generalize s.pcbs i = pcb at hs hpre hclean
  generalize s'.pcbs i = pcb' at hs hi
  cases hs with
  | same ha hr ho _ | bound _ ha hr ho _ =>
    rw [if_neg ho, if_neg ho, ha, hr, Option.toList_none, Option.toList_none, List.append_nil,
      List.append_nil]
    exact hpre hi
  | opened hf =>
    have hq : pcb.queue = [] := (hclean (by rw [hf]; decide)).2.2
    exact ⟨[], by simp [Opens, hq], by simp [Opens]⟩
  | closed _ | released _ => cases hi
  | pushed ho =>
    obtain ⟨popped, hq, hm⟩ := hpre ho
    exact ⟨popped, by simp [Opens, acceptedOn, ← hq], by simpa [Opens, receivedFrom] using hm⟩
  | @popped _ _ size entry rest _ hq _ =>
    obtain ⟨popped, hq', hm⟩ := hpre hi
    refine ⟨popped ++ [entry], ?_, ?_⟩
    · simp [Opens, acceptedOn, ← hq', hq]
    · simp only [Opens, if_false, receivedFrom, if_true, Option.toList_some]
      exact List.rel_append hm (.cons ⟨List.take_eq_take_min, rfl⟩ .nil)

theorem session_kept {S : Sessions} {s s' : UdpSys} {a : UdpAction} {r : UdpResult}
    {i : Fin udpPcbSize} (hopen : (s.pcbs i).state = .stateOpen) (hnc : ¬ Closes i (a, r))
    (ht : UdpTrans s a r s') :
    (s'.pcbs i).state = .stateOpen ∧ (S.observe (a, r)).no i = S.no i := by
  refine ⟨(queue_step hopen hnc ht).1, if_neg ?_⟩
  have hs := slot_trans ht i
  generalize s.pcbs i = pcb at hs hopen
  generalize s'.pcbs i = pcb' at hs
  cases hs with
  | same _ _ ho _ | bound _ _ _ ho _ => exact ho
  | opened hf => rw [hopen] at hf; cases hf
  | closed _ | released _ | pushed _ | popped _ _ => simp [Opens]

theorem blocked_start {S : Sessions} {s s' : UdpSys} {a : UdpAction} {r : UdpResult}
    (ht : UdpTrans s a r s') {w : Waiter} (hw : w ∈ s.waiters) :
    (S.observe (a, r)).start w.call = S.start w.call := by
  cases ht with
  | recvNotFound hf | recv hf _ _ => exact if_neg (hf w hw)
  | _ => rfl

theorem received_trans {s s' : UdpSys} {a : UdpAction} {call size : Nat} {i : Fin udpPcbSize}
    {data : Bytes} {foreign : IpEndpoint}
    (ht : UdpTrans s a (.received call i size data foreign) s') :
    (∃ id, a = .udpRecvfrom call id size ∧ (s.pcbs i).state = .stateOpen) ∨
      ((∃ k destroy, a = .condWaitReturn k destroy) ∧
        ∃ w ∈ s.waiters, w.call = call ∧ w.pcb = i) := by
  cases ht with
  | recv _ hi ht =>
    cases ht with
    | received _ => exact .inl ⟨_, rfl, (udpPcbGet_some.mp hi).2⟩
  | woken hk ht =>
    cases ht with
    | received _ => exact .inr ⟨⟨_, _, rfl⟩, _, List.mem_of_getElem? hk, rfl, rfl⟩

theorem closedIdle_keeps {s : UdpSys} {l : UdpAction × UdpResult} (hC : ClosedIdle s l)
    {w : Waiter} (hw : w ∈ s.waiters) (hopen : (s.pcbs w.pcb).state = .stateOpen) :
    ¬ Closes w.pcb l := by
  intro hcl
  obtain ⟨a, r⟩ := l
  cases a with
  | udpClose id destroy => exact hC w.pcb (udpPcbGet_some.mpr ⟨hcl, hopen⟩) w hw rfl
  | _ => exact hcl

theorem BlockedInSession.step {S : Sessions} {s s' : UdpSys} {a : UdpAction} {r : UdpResult}
    (h : BlockedInSession S s) (hC : ClosedIdle s (a, r)) (ht : UdpTrans s a r s') :
    BlockedInSession (S.observe (a, r)) s' := by
  intro w' hw'
  rcases waiter_trans ht hw' with ⟨w, hw, hcall, hpcb⟩ | ⟨fd, size, rfl, hfd⟩
  · rw [← hcall, ← hpcb]
    obtain ⟨hopen, hstart⟩ := h w hw
    obtain ⟨hopen', hno⟩ := session_kept (S := S) hopen (closedIdle_keeps hC hw hopen) ht
    exact ⟨hopen', by rw [blocked_start ht hw, hstart, hno]⟩
  · obtain ⟨hopen', hno⟩ := session_kept (S := S) (a := .udpRecvfrom w'.call fd size)
      (udpPcbGet_some.mp hfd).2 id ht
    refine ⟨hopen', ?_⟩
    rw [hno]
    simp [Sessions.observe]

theorem own_of_step {S : Sessions} {s s' : UdpSys} {a : UdpAction} {r : UdpResult}
    (hb : BlockedInSession S s) (hlog : SessionLog (S.observe (a, r)) s')
    (ht : UdpTrans s a r s') : (S.observe (a, r)).Own r := by
  cases r with
  | received call i size data foreign =>
    have hopen : (s.pcbs i).state = .stateOpen ∧
        ¬ Closes i (a, .received call i size data foreign) ∧
        (S.observe (a, .received call i size data foreign)).start call i = S.no i := by
      rcases received_trans ht with ⟨id, rfl, hopen⟩ | ⟨⟨k, destroy, rfl⟩, w, hw, rfl, rfl⟩
      · exact ⟨hopen, False.elim, by simp [Sessions.observe]⟩
      · exact ⟨(hb w hw).1, False.elim, by rw [blocked_start ht hw, (hb w hw).2]⟩
    obtain ⟨hopen, hnc, hstart⟩ := hopen
    obtain ⟨hopen', hno⟩ := session_kept (S := S) hopen hnc ht
    refine ⟨by rw [hstart, hno], ?_⟩
    obtain ⟨popped, hq, hm⟩ := hlog i hopen'
    rwa [← hq, hm.length_eq, List.take_left]
  | _ => trivial

/-! ## Whole runs -/

theorem guarded_sessions {tr : List (UdpAction × UdpResult)} {s : UdpSys}
    (h : Run (Guarded UdpSys.Step ClosedIdle) UdpSys.init tr s) :
    BlockedInSession (Sessions.ofTrace tr) s ∧ SessionLog (Sessions.ofTrace tr) s := by
  refine h.history (P := fun tr s => BlockedInSession (Sessions.ofTrace tr) s ∧
    SessionLog (Sessions.ofTrace tr) s) ?_ ?_
  · exact ⟨by rintro w ⟨⟩, by rintro i ⟨⟩⟩
  · rintro tr s ⟨a, r⟩ s' hr ⟨hb, hlog⟩ ⟨hl, hC⟩
    rw [Sessions.ofTrace_snoc]
    exact ⟨hb.step hC (step_trans hl), hlog.step (run_clean hr.of_guarded) (step_trans hl)⟩

/-- **Session isolation.** In a run of UDP calls of any length and any interleaving, no slot is
freed under a blocked `udp_recvfrom` and every call returns a datagram of its own session, exactly
if no step closes a slot that a call is blocked on. -/
theorem isolated_iff_closedIdle {tr : List (UdpAction × UdpResult)} {s : UdpSys}
    (h : Run UdpSys.Step UdpSys.init tr s) :
    Run.Throughout UdpSys.Step UdpSys.init tr SessionIsolated ↔
      Run (Guarded UdpSys.Step ClosedIdle) UdpSys.init tr s := by
  refine Run.guarded_iff (stepRel_deterministic _) ?_ ?_ h
  · exact ⟨by rintro w ⟨⟩, fun tr₁ a r he => by simp at he⟩
  · rintro tr s ⟨a, r⟩ s' hr - hl
    have ht := step_trans hl
    constructor
    · -- a slot closed under a blocked call is free with the call still blocked on it
      rintro ⟨hfree, -⟩
      cases ht with
      | @closeOk id destroy i hi =>
        rintro j hj w hw rfl
        rw [hi] at hj; cases hj
        exact hfree w hw (by rw [setPcb_pcbs, Function.update_self])
      | closeFail hn =>
        intro i hi
        rw [hn] at hi; cases hi
      | _ => trivial
    · intro hC
      obtain ⟨hb, hlog⟩ := guarded_sessions hr
      have hlog' := hlog.step (run_clean hr.of_guarded) ht
      refine ⟨fun w hw => by rw [(hb.step hC ht w hw).1]; decide, ?_⟩
      intro tr₁ a' r' he
      obtain ⟨-, he⟩ := List.append_inj' he rfl
      cases he
      rw [Sessions.ofTrace_snoc]
      exact own_of_step hb hlog' ht

/-- A call blocks on a slot; the slot is closed, opened again and bound; a datagram for the new
session arrives. `pthread_cond_destroy` reports the waiter with EBUSY (16). -/
def closeUnderReceiver : List UdpAction :=
  [.udpOpen, .udpRecvfrom 1 0 64, .udpClose 0 16, .udpOpen, .udpBind 0 ⟨ipAddrAny, 0x0700#16⟩,
    .udpInput (true, true) helloDatagram 10 0x0100000a#32 0x0200000a#32, .condWaitReturn 0 0]

/-- After the third action the slot is free with the call blocked on it; after the last one the
call, started in session 1, has returned the datagram of session 2. -/
theorem closeUnderReceiver_crosses :
    (∃ tr s, Run UdpSys.Step UdpSys.init tr s ∧ tr.map Prod.fst = closeUnderReceiver.take 3 ∧
      ∃ w ∈ s.waiters, (s.pcbs w.pcb).state = .stateFree) ∧
    ∃ tr s, Run UdpSys.Step UdpSys.init tr s ∧ tr.map Prod.fst = closeUnderReceiver ∧
      tr.getLast? = some (.condWaitReturn 0 0,
        .received 1 0 64 [104, 105] ⟨0x0100000a#32, 0x3930#16⟩) ∧
      (Sessions.ofTrace tr).start 1 0 = 1 ∧ (Sessions.ofTrace tr).no 0 = 2 := by
  constructor
  · obtain ⟨tr, s, hr, hm, hp⟩ := exec_check UdpSys.step UdpSys.init (closeUnderReceiver.take 3)
      (fun r => decide (∃ w ∈ r.2.waiters, (r.2.pcbs w.pcb).state = .stateFree))
      (by decide +kernel)
    exact ⟨tr, s, hr, hm, of_decide_eq_true hp⟩
  · obtain ⟨tr, s, hr, hm, hp⟩ := exec_check UdpSys.step UdpSys.init closeUnderReceiver
      (fun r => decide (r.1.getLast? = some (.condWaitReturn 0 0,
          .received 1 0 64 [104, 105] ⟨0x0100000a#32, 0x3930#16⟩) ∧
        (Sessions.ofTrace r.1).start 1 0 = 1 ∧ (Sessions.ofTrace r.1).no 0 = 2))
      (by decide +kernel)
    exact ⟨tr, s, hr, hm, of_decide_eq_true hp⟩

/-- The same calls, with the first session's datagram read before the close. -/
def closeAfterReceiver : List UdpAction := boundSocket ++ waitThenReceive

theorem closeAfterReceiver_isolated : ∃ tr s, Run UdpSys.Step UdpSys.init tr s ∧
    tr.map Prod.fst = closeAfterReceiver ++ [.udpClose 0 0] ∧
    Run.Throughout UdpSys.Step UdpSys.init tr SessionIsolated := by
  -- nobody is blocked any more when the slot is closed
  obtain ⟨tr, s, h, hm, hidle⟩ := exec_check UdpSys.step UdpSys.init closeAfterReceiver
    (fun r => decide (r.2.waiters = [])) (by decide +kernel)
  have hg : Run (Guarded UdpSys.Step ClosedIdle) UdpSys.init tr s := h.guard <| by
    rintro ⟨a, r⟩ hl s
    have ha : a ∈ closeAfterReceiver := hm ▸ List.mem_map_of_mem hl
    simp only [closeAfterReceiver, boundSocket, waitThenReceive, List.cons_append,
      List.nil_append, List.mem_cons, List.not_mem_nil, or_false] at ha
    rcases ha with rfl | rfl | rfl | rfl | rfl <;> trivial
  have hclose : Run (Guarded UdpSys.Step ClosedIdle) UdpSys.init
      (tr ++ [(.udpClose 0 0, .ret (udpClose 0 s.pcbs 0).2.1)]) _ :=
    .snoc hg ⟨rfl, fun _ _ w hw => by rw [of_decide_eq_true hidle] at hw; cases hw⟩
  exact ⟨_, _, hclose.of_guarded, by rw [List.map_append, hm]; rfl,
    (isolated_iff_closedIdle hclose.of_guarded).mpr hclose⟩

end LLNStack
