import LLNStack.Lib.Run
import LLNStack.Udp.Pcb

/-!
# LLNStack.Udp.System

UDP under concurrency. The state is the PCB table and the list of `udp_recvfrom` calls that are
inside `pthread_cond_wait`. One action is one critical section of `udp.c`: the mutex makes them
atomic, and `pthread_cond_wait` releases it and parks the call in one step. A broadcast signals
every call parked on the context; a parked call may also be signalled spuriously; a signalled call
takes the mutex again in a later action of its own (`condWaitReturn`).

An action carries every choice that is not the code's: its arguments, the outcome of allocations,
what `pthread_cond_destroy` returns (0 or a positive error number), and which call goes on. The
result is what the caller of the operation sees.

`UdpTrans` lists what one action can do to the system; `step_trans` is the only place where the
operations are unfolded. `SlotTrans` lists what it can do to a single slot (`slot_trans`).
-/

namespace LLNStack

open Lib

structure Waiter where
  call : Nat
  pcb : Fin udpPcbSize
  size : Nat
  signalled : Bool
  deriving DecidableEq, Repr

structure UdpSys where
  pcbs : Pcbs
  waiters : List Waiter

def UdpSys.init : UdpSys := ⟨udpPcbsInit, []⟩

inductive UdpAction where
  | udpOpen
  | udpClose (id : Int) (destroy : Nat)
  | udpBind (id : Int) (localEp : IpEndpoint)
  | udpSendto (id : Int) (unicast : Option IPAddress)
  | udpInput (allocs : Bool × Bool) (data : Bytes) (len : Nat) (src dst : IPAddress)
  | eventHandler
  | udpRecvfrom (call : Nat) (id : Int) (size : Nat)
  | condWaitReturn (k : Nat) (destroy : Nat)
  | spuriousWakeup (k : Nat)
  deriving DecidableEq, Repr

inductive UdpResult where
  | ret (r : Int)
  | source (localEp : Option IpEndpoint)
  | accepted (d : Option (Fin udpPcbSize × UdpQueueEntry))
  /-- `udp_recvfrom` returned these bytes and this sender. -/
  | received (call : Nat) (i : Fin udpPcbSize) (size : Nat) (data : Bytes) (foreign : IpEndpoint)
  /-- `udp_recvfrom` returned -1. -/
  | failed (call : Nat)
  | parked (call : Nat) (i : Fin udpPcbSize)
  | done
  deriving DecidableEq, Repr

/-- `pthread_cond_broadcast` on the context of PCB `i`, if there is one. -/
def broadcast : Option (Fin udpPcbSize) → List Waiter → List Waiter
  | none, ws => ws
  | some i, ws => ws.map fun w => if w.pcb = i then { w with signalled := true } else w

namespace UdpSys

/-- The rest of a `udp_recvfrom` call that got as far as the second argument says. -/
def finish (s : UdpSys) (call size : Nat) : Pcbs × UdpRecv → UdpSys × UdpResult
  | (pcbs, .received i entry) =>
    (⟨pcbs, s.waiters⟩, .received call i size (udpRecvfromCopy entry size).1
      (udpRecvfromCopy entry size).2)
  | (pcbs, .waiting i) => (⟨pcbs, s.waiters ++ [⟨call, i, size, false⟩]⟩, .parked call i)
  | (pcbs, _) => (⟨pcbs, s.waiters⟩, .failed call)

def step (s : UdpSys) : UdpAction → Option (UdpSys × UdpResult)
  | .udpOpen => some (⟨(LLNStack.udpOpen s.pcbs).1, s.waiters⟩, .ret (LLNStack.udpOpen s.pcbs).2)
  | .udpClose id destroy =>
    let r := LLNStack.udpClose destroy s.pcbs id
    some (⟨r.1, broadcast r.2.2 s.waiters⟩, .ret r.2.1)
  | .udpBind id localEp =>
    let r := LLNStack.udpBind s.pcbs id localEp
    some (⟨r.1, s.waiters⟩, .ret r.2)
  | .udpSendto id unicast =>
    let r := udpSendtoSource unicast s.pcbs id
    some (⟨r.1, s.waiters⟩, .source r.2)
  | .udpInput allocs data len src dst =>
    let r := LLNStack.udpInput allocs s.pcbs data len src dst
    some (⟨r.1, broadcast (r.2.map Prod.fst) s.waiters⟩, .accepted r.2)
  | .eventHandler =>
    some (⟨udpEventHandler s.pcbs, s.waiters.map fun w =>
      if (s.pcbs w.pcb).state = .stateOpen then { w with signalled := true } else w⟩, .done)
  | .udpRecvfrom call id size =>
    -- a thread makes one call at a time
    if s.waiters.any (·.call = call) then none
    else some (s.finish call size (LLNStack.udpRecvfrom s.pcbs id))
  | .condWaitReturn k destroy =>
    match s.waiters[k]? with
    | none => none
    | some w =>
      if w.signalled then
        let r := udpRecvfromWoken destroy s.pcbs w.pcb
        some (finish ⟨s.pcbs, broadcast r.2.2 (s.waiters.eraseIdx k)⟩ w.call w.size (r.1, r.2.1))
      else none
  | .spuriousWakeup k =>
    match s.waiters[k]? with
    | none => none
    | some w => some (⟨s.pcbs, s.waiters.set k { w with signalled := true }⟩, .done)

abbrev Step : UdpSys → UdpAction × UdpResult → UdpSys → Prop := stepRel step

end UdpSys

/-! ## What an action can do -/

def UdpSys.setPcb (s : UdpSys) (i : Fin udpPcbSize) (pcb : UdpPcb) : UdpSys :=
  ⟨Function.update s.pcbs i pcb, s.waiters⟩

@[simp] theorem setPcb_pcbs (s : UdpSys) (i : Fin udpPcbSize) (pcb : UdpPcb) :
    (s.setPcb i pcb).pcbs = Function.update s.pcbs i pcb := rfl
@[simp] theorem setPcb_waiters (s : UdpSys) (i : Fin udpPcbSize) (pcb : UdpPcb) :
    (s.setPcb i pcb).waiters = s.waiters := rfl

def UdpSys.leave (s : UdpSys) (k : Nat) (w : Waiter) : UdpSys :=
  ⟨Function.update s.pcbs w.pcb
    { s.pcbs w.pcb with ctx := (schedSleepLeave (s.pcbs w.pcb).ctx).1 }, s.waiters.eraseIdx k⟩

theorem leave_pcbs (s : UdpSys) (k : Nat) (w : Waiter) (j : Fin udpPcbSize) :
    ∃ ctx, (s.leave k w).pcbs j = { s.pcbs j with ctx := ctx } := by
  by_cases h : j = w.pcb
  · subst h; exact ⟨_, Function.update_self ..⟩
  · exact ⟨(s.pcbs j).ctx, Function.update_of_ne h ..⟩

/-- A `udp_recvfrom` call at its loop test on PCB `i`. -/
inductive RecvTrans (s : UdpSys) (call : Nat) (i : Fin udpPcbSize) (size : Nat) :
    UdpResult → UdpSys → Prop where
  | received {entry : UdpQueueEntry} {rest : List UdpQueueEntry} :
      (s.pcbs i).queue = entry :: rest →
      RecvTrans s call i size (.received call i size (entry.data.take size) entry.foreign)
        (s.setPcb i { s.pcbs i with queue := rest })
  | interrupted : RecvTrans s call i size (.failed call) s
  | parked {ctx : SchedCtx} : (s.pcbs i).queue = [] →
      RecvTrans s call i size (.parked call i)
        ⟨Function.update s.pcbs i { s.pcbs i with ctx := ctx },
          s.waiters ++ [⟨call, i, size, false⟩]⟩

inductive UdpTrans (s : UdpSys) : UdpAction → UdpResult → UdpSys → Prop where
  | openFail : (∀ i, (s.pcbs i).state ≠ .stateFree) → UdpTrans s .udpOpen (.ret (-1)) s
  | openOk {i : Fin udpPcbSize} : (s.pcbs i).state = .stateFree →
      UdpTrans s .udpOpen (.ret i.val)
        (s.setPcb i { s.pcbs i with state := .stateOpen, ctx := schedCtxInit })
  | closeFail {id : Int} {destroy : Nat} : udpPcbGet s.pcbs id = none →
      UdpTrans s (.udpClose id destroy) (.ret (-1)) s
  | closeOk {id : Int} {destroy : Nat} {i : Fin udpPcbSize} : udpPcbGet s.pcbs id = some i →
      UdpTrans s (.udpClose id destroy) (.ret 0)
        (s.setPcb i { s.pcbs i with state := .stateFree, localEp := ⟨ipAddrAny, 0⟩, queue := [] })
  | bindFail {id : Int} {localEp : IpEndpoint} :
      (∀ i, udpPcbGet s.pcbs id = some i →
        udpPcbSelect s.pcbs localEp.address localEp.port ≠ none) →
      UdpTrans s (.udpBind id localEp) (.ret (-1)) s
  | bindOk {id : Int} {localEp : IpEndpoint} {i : Fin udpPcbSize} :
      udpPcbGet s.pcbs id = some i → udpPcbSelect s.pcbs localEp.address localEp.port = none →
      UdpTrans s (.udpBind id localEp) (.ret 0) (s.setPcb i { s.pcbs i with localEp := localEp })
  | sendtoKeep {id : Int} {unicast : Option IPAddress} {localEp : Option IpEndpoint} :
      (∀ i addr, udpPcbGet s.pcbs id = some i → (s.pcbs i).localEp.port = 0 →
        (if (s.pcbs i).localEp.address = ipAddrAny then unicast
          else some (s.pcbs i).localEp.address) = some addr →
        udpSourcePort s.pcbs addr = none) →
      UdpTrans s (.udpSendto id unicast) (.source localEp) s
  | sendtoAssign {id : Int} {unicast : Option IPAddress} {i : Fin udpPcbSize} {addr : IPAddress}
      {port : BitVec 16} :
      udpPcbGet s.pcbs id = some i → (s.pcbs i).localEp.port = 0 →
      (if (s.pcbs i).localEp.address = ipAddrAny then unicast
        else some (s.pcbs i).localEp.address) = some addr →
      udpSourcePort s.pcbs addr = some port →
      UdpTrans s (.udpSendto id unicast) (.source (some ⟨addr, port⟩))
        (s.setPcb i { s.pcbs i with localEp := ⟨(s.pcbs i).localEp.address, port⟩ })
  | inputDrop {allocs : Bool × Bool} {data : Bytes} {len : Nat} {src dst : IPAddress} :
      UdpTrans s (.udpInput allocs data len src dst) (.accepted none) s
  | inputAccept {allocs : Bool × Bool} {data : Bytes} {len : Nat} {src dst : IPAddress}
      {i : Fin udpPcbSize} {entry : UdpQueueEntry} : (s.pcbs i).state = .stateOpen →
      UdpTrans s (.udpInput allocs data len src dst) (.accepted (some (i, entry)))
        ⟨Function.update s.pcbs i { s.pcbs i with queue := (s.pcbs i).queue ++ [entry] },
          broadcast (some i) s.waiters⟩
  | event :
      UdpTrans s .eventHandler .done
        ⟨udpEventHandler s.pcbs, s.waiters.map fun w =>
          if (s.pcbs w.pcb).state = .stateOpen then { w with signalled := true } else w⟩
  | recvNotFound {call : Nat} {id : Int} {size : Nat} : (∀ w ∈ s.waiters, w.call ≠ call) →
      UdpTrans s (.udpRecvfrom call id size) (.failed call) s
  | recv {call : Nat} {id : Int} {size : Nat} {i : Fin udpPcbSize} {r : UdpResult} {s' : UdpSys} :
      (∀ w ∈ s.waiters, w.call ≠ call) → udpPcbGet s.pcbs id = some i →
      RecvTrans s call i size r s' → UdpTrans s (.udpRecvfrom call id size) r s'
  | wokenFail {k destroy : Nat} {w : Waiter} : s.waiters[k]? = some w →
      UdpTrans s (.condWaitReturn k destroy) (.failed w.call) (s.leave k w)
  | wokenClosed {k destroy : Nat} {w : Waiter} : s.waiters[k]? = some w →
      (s.pcbs w.pcb).state = .stateClosing →
      UdpTrans s (.condWaitReturn k destroy) (.failed w.call)
        ((s.leave k w).setPcb w.pcb { (s.leave k w).pcbs w.pcb with
          state := .stateFree, localEp := ⟨ipAddrAny, 0⟩, queue := [] })
  | woken {k destroy : Nat} {w : Waiter} {r : UdpResult} {s' : UdpSys} :
      s.waiters[k]? = some w → RecvTrans (s.leave k w) w.call w.pcb w.size r s' →
      UdpTrans s (.condWaitReturn k destroy) r s'
  | spurious {k : Nat} {w : Waiter} : s.waiters[k]? = some w →
      UdpTrans s (.spuriousWakeup k) .done ⟨s.pcbs, s.waiters.set k { w with signalled := true }⟩

theorem natCast_ne_neg_one (n : Nat) : (n : Int) ≠ -1 := by omega

/-- `sched_ctx_destroy` never returns -1, so a release always frees the slot. -/
theorem udpPcbRelease_natCast (destroy : Nat) (pcbs : Pcbs) (i : Fin udpPcbSize) :
    udpPcbRelease destroy pcbs i = (Function.update pcbs i
      { pcbs i with state := .stateFree, localEp := ⟨ipAddrAny, 0⟩, queue := [] }, false) := by
  rw [udpPcbRelease, if_neg (natCast_ne_neg_one destroy)]

theorem finish_recvfromLoop (s : UdpSys) (call size : Nat) (i : Fin udpPcbSize) :
    RecvTrans s call i size (s.finish call size (udpRecvfromLoop s.pcbs i)).2
      (s.finish call size (udpRecvfromLoop s.pcbs i)).1 := by
  rw [udpRecvfromLoop]
  split
  · rename_i entry rest hq
    exact .received hq
  · rename_i hq
    split
    · exact .interrupted
    · exact .parked hq

theorem step_trans {s s' : UdpSys} {a : UdpAction} {r : UdpResult}
    (h : s.step a = some (s', r)) : UdpTrans s a r s' := by
  cases a with
  | udpOpen =>
    simp only [UdpSys.step, Option.some.injEq, Prod.mk.injEq, udpOpen] at h
    obtain ⟨rfl, rfl⟩ := h
    split
    · rename_i hn
      exact .openFail (udpPcbAlloc_none.mp hn)
    · rename_i i pcbs' hi
      obtain ⟨hfree, rfl⟩ := udpPcbAlloc_some hi
      exact .openOk hfree
  | udpClose id destroy =>
    simp only [UdpSys.step, Option.some.injEq, Prod.mk.injEq, udpClose] at h
    obtain ⟨rfl, rfl⟩ := h
    split
    · rename_i hn
      exact .closeFail hn
    · rename_i i hi
      rw [udpPcbRelease_natCast]
      exact .closeOk hi
  | udpBind id localEp =>
    simp only [UdpSys.step, Option.some.injEq, Prod.mk.injEq, udpBind] at h
    obtain ⟨rfl, rfl⟩ := h
    split
    · rename_i hn
      exact .bindFail fun i hi => by rw [hn] at hi; cases hi
    · rename_i i hi
      split
      · rename_i j hj
        exact .bindFail fun _ _ => by rw [hj]; exact Option.some_ne_none j
      · rename_i hj
        exact .bindOk hi hj
  | udpSendto id unicast =>
    simp only [UdpSys.step, Option.some.injEq, Prod.mk.injEq, udpSendtoSource] at h
    obtain ⟨rfl, rfl⟩ := h
    split
    · rename_i hn
      exact .sendtoKeep fun i addr hi => by rw [hn] at hi; cases hi
    · rename_i i hi
      split
      · rename_i hu
        exact .sendtoKeep fun j addr hj _ ha => by
          rw [hi] at hj; cases hj; rw [hu] at ha; cases ha
      · rename_i addr hu
        split
        · rename_i hport
          split
          · rename_i hp
            exact .sendtoKeep fun j addr' hj _ ha => by
              rw [hi] at hj; cases hj; rw [hu] at ha; cases ha; exact hp
          · rename_i port hp
            exact .sendtoAssign hi hport hu hp
        · rename_i hport
          exact .sendtoKeep fun j addr' hj h0 _ => by
            rw [hi] at hj; cases hj; exact absurd h0 hport
  | udpInput allocs data len src dst =>
    simp only [UdpSys.step, Option.some.injEq, Prod.mk.injEq, udpInput] at h
    obtain ⟨rfl, rfl⟩ := h
    split
    · exact .inputDrop
    · rename_i hdr hhdr
      simp only [udpDeliver]
      split
      · exact .inputDrop
      · rename_i i hi
        split
        · exact .inputAccept (udpPcbSelect_some hi).1
        · exact .inputDrop
  | eventHandler =>
    simp only [UdpSys.step, Option.some.injEq, Prod.mk.injEq] at h
    obtain ⟨rfl, rfl⟩ := h
    exact .event
  | udpRecvfrom call id size =>
    simp only [UdpSys.step] at h
    split at h
    · cases h
    · rename_i hcall
      have hfresh : ∀ w ∈ s.waiters, w.call ≠ call := fun w hw he =>
        hcall (List.any_eq_true.mpr ⟨w, hw, by simpa using he⟩)
      simp only [Option.some.injEq, udpRecvfrom] at h
      split at h
      · cases h
        exact .recvNotFound hfresh
      · rename_i i hi
        have hr := finish_recvfromLoop s call size i
        rw [h] at hr
        exact .recv hfresh hi hr
  | condWaitReturn k destroy =>
    simp only [UdpSys.step] at h
    split at h
    · cases h
    · rename_i w hw
      split at h
      · simp only [Option.some.injEq, udpRecvfromWoken] at h
        split at h
        · -- the call was interrupted while it waited
          cases h
          exact .wokenFail hw
        · split at h
          · rename_i hstate
            rw [udpPcbRelease_natCast] at h
            cases h
            exact .wokenClosed hw (by simpa using hstate)
          · have hr := finish_recvfromLoop (s.leave k w) w.call w.size w.pcb
            change UdpSys.finish (s.leave k w) w.call w.size
              (udpRecvfromLoop (s.leave k w).pcbs w.pcb) = (s', r) at h
            rw [h] at hr
            exact .woken hw hr
      · cases h
  | spuriousWakeup k =>
    simp only [UdpSys.step] at h
    split at h
    · cases h
    · rename_i w hw
      cases h
      exact .spurious hw

theorem udpEventHandler_eq (pcbs : Pcbs) (i : Fin udpPcbSize) :
    ∃ ctx, udpEventHandler pcbs i = { pcbs i with ctx := ctx } := by
  simp only [udpEventHandler]
  split
  · exact ⟨_, rfl⟩
  · exact ⟨(pcbs i).ctx, rfl⟩

/-! ## What the trace shows of one slot -/

def acceptedOn (i : Fin udpPcbSize) : UdpAction × UdpResult → Option UdpQueueEntry
  | (_, .accepted (some (j, entry))) => if j = i then some entry else none
  | _ => none

structure Received where
  size : Nat
  data : Bytes
  foreign : IpEndpoint

def receivedFrom (i : Fin udpPcbSize) : UdpAction × UdpResult → Option Received
  | (_, .received _ j size data foreign) => if j = i then some ⟨size, data, foreign⟩ else none
  | _ => none

def Opens (i : Fin udpPcbSize) : UdpAction × UdpResult → Prop
  | (.udpOpen, .ret r) => r = i.val
  | _ => False

instance (i : Fin udpPcbSize) : DecidablePred (Opens i)
  | (.udpOpen, .ret r) => inferInstanceAs (Decidable (r = i.val))
  | (.udpOpen, .source _) | (.udpOpen, .accepted _) | (.udpOpen, .received _ _ _ _ _)
  | (.udpOpen, .failed _) | (.udpOpen, .parked _ _) | (.udpOpen, .done)
  | (.udpClose _ _, _) | (.udpBind _ _, _) | (.udpSendto _ _, _) | (.udpInput _ _ _ _ _, _)
  | (.eventHandler, _) | (.udpRecvfrom _ _ _, _) | (.condWaitReturn _ _, _)
  | (.spuriousWakeup _, _) => inferInstanceAs (Decidable False)

def Closes (i : Fin udpPcbSize) : UdpAction × UdpResult → Prop
  | (.udpClose id _, _) => id = i.val
  | _ => False

/-- What one action can do to the PCB in slot `i`, in terms of the action and its result. -/
inductive SlotTrans (i : Fin udpPcbSize) (pcb : UdpPcb) :
    UdpAction × UdpResult → UdpPcb → Prop where
  | same {l : UdpAction × UdpResult} {ctx : SchedCtx} :
      acceptedOn i l = none → receivedFrom i l = none → ¬ Opens i l →
      (Closes i l → pcb.state ≠ .stateOpen) → SlotTrans i pcb l { pcb with ctx := ctx }
  | bound {l : UdpAction × UdpResult} {localEp : IpEndpoint} : pcb.state = .stateOpen →
      acceptedOn i l = none → receivedFrom i l = none → ¬ Opens i l → ¬ Closes i l →
      SlotTrans i pcb l { pcb with localEp := localEp }
  | opened : pcb.state = .stateFree →
      SlotTrans i pcb (.udpOpen, .ret i.val) { pcb with state := .stateOpen, ctx := schedCtxInit }
  | closed {id : Int} {destroy : Nat} : id = i.val →
      SlotTrans i pcb (.udpClose id destroy, .ret 0)
        { pcb with state := .stateFree, localEp := ⟨ipAddrAny, 0⟩, queue := [] }
  | released {k destroy call : Nat} {ctx : SchedCtx} : pcb.state = .stateClosing →
      SlotTrans i pcb (.condWaitReturn k destroy, .failed call)
        ⟨.stateFree, ⟨ipAddrAny, 0⟩, [], ctx⟩
  | pushed {allocs : Bool × Bool} {data : Bytes} {len : Nat} {src dst : IPAddress}
      {entry : UdpQueueEntry} : pcb.state = .stateOpen →
      SlotTrans i pcb (.udpInput allocs data len src dst, .accepted (some (i, entry)))
        { pcb with queue := pcb.queue ++ [entry] }
  | popped {a : UdpAction} {call size : Nat} {entry : UdpQueueEntry} {rest : List UdpQueueEntry}
      {ctx : SchedCtx} : pcb.queue = entry :: rest →
      (∀ r, ¬ Closes i (a, r)) →
      SlotTrans i pcb (a, .received call i size (entry.data.take size) entry.foreign)
        { pcb with queue := rest, ctx := ctx }

theorem update_at {pcbs : Pcbs} {i j : Fin udpPcbSize} {pcb : UdpPcb} {P : UdpPcb → Prop}
    (hself : j = i → P pcb) (hother : j ≠ i → P (pcbs i)) : P (Function.update pcbs j pcb i) := by
  by_cases h : j = i
  · subst h; rw [Function.update_self]; exact hself rfl
  · rw [Function.update_of_ne (Ne.symm h)]; exact hother h

theorem SlotTrans.unchanged {i : Fin udpPcbSize} {pcb : UdpPcb} {l : UdpAction × UdpResult}
    (ha : acceptedOn i l = none) (hr : receivedFrom i l = none) (ho : ¬ Opens i l)
    (hc : Closes i l → pcb.state ≠ .stateOpen) : SlotTrans i pcb l pcb :=
  @SlotTrans.same i pcb l pcb.ctx ha hr ho hc

theorem slot_recvTrans {s s' : UdpSys} {call size : Nat} {i j : Fin udpPcbSize} {r : UdpResult}
    {a : UdpAction} {pcb : UdpPcb} {ctx : SchedCtx} (ho : ∀ r, ¬ Opens i (a, r))
    (hc : ∀ r, ¬ Closes i (a, r)) (hi : s.pcbs i = { pcb with ctx := ctx })
    (ht : RecvTrans s call j size r s') : SlotTrans i pcb (a, r) (s'.pcbs i) := by
  cases ht with
  | @received entry rest hq =>
    refine update_at (fun he => ?_) fun hne => ?_
    · subst he
      rw [hi] at hq ⊢
      exact .popped hq hc
    · rw [hi]
      exact .same rfl (by simp [receivedFrom, hne]) (ho _) fun h => absurd h (hc _)
  | interrupted =>
    rw [hi]
    exact .same rfl rfl (ho _) fun h => absurd h (hc _)
  | parked hq =>
    refine update_at (fun he => ?_) fun hne => ?_
    · subst he
      rw [hi]
      exact .same rfl rfl (ho _) fun h => absurd h (hc _)
    · rw [hi]
      exact .same rfl rfl (ho _) fun h => absurd h (hc _)

theorem slot_trans {s s' : UdpSys} {a : UdpAction} {r : UdpResult} (ht : UdpTrans s a r s')
    (i : Fin udpPcbSize) : SlotTrans i (s.pcbs i) (a, r) (s'.pcbs i) := by
  cases ht with
  | openFail _ => exact .unchanged rfl rfl (fun h => by simp only [Opens] at h; omega) False.elim
  | @openOk j hj =>
    refine update_at (fun he => ?_) fun hne => ?_
    · subst he; exact .opened hj
    · refine .unchanged rfl rfl (fun h => hne (Fin.ext ?_)) False.elim
      simp only [Opens] at h
      omega
  | closeFail hn =>
    refine .unchanged rfl rfl id fun h hs => ?_
    rw [udpPcbGet_some.mpr ⟨h, hs⟩] at hn; cases hn
  | closeOk hj =>
    refine update_at (fun he => ?_) fun hne => ?_
    · subst he; exact .closed (udpPcbGet_some.mp hj).1
    · refine .unchanged rfl rfl id fun h => absurd (Fin.ext ?_) hne
      have := (udpPcbGet_some.mp hj).1
      simp only [Closes] at h
      omega
  | bindFail | sendtoKeep | inputDrop | recvNotFound | spurious =>
    exact .unchanged rfl rfl id False.elim
  | bindOk hj _ | sendtoAssign hj _ _ _ =>
    refine update_at (fun he => ?_) fun hne => .unchanged rfl rfl id False.elim
    subst he
    exact .bound (udpPcbGet_some.mp hj).2 rfl rfl id id
  | inputAccept hj =>
    refine update_at (fun he => ?_) fun hne => ?_
    · subst he; exact .pushed hj
    · exact .unchanged (by simp [acceptedOn, hne]) rfl id False.elim
  | event =>
    obtain ⟨ctx, hc⟩ := udpEventHandler_eq s.pcbs i
    simp only [hc]
    exact .same rfl rfl id False.elim
  | recv _ _ ht => exact slot_recvTrans (fun _ => id) (fun _ => id) rfl ht
  | @wokenFail k _ w _ =>
    obtain ⟨ctx, hc⟩ := leave_pcbs s k w i
    rw [hc]
    exact .same rfl rfl id False.elim
  | @wokenClosed k _ w _ hcl =>
    obtain ⟨ctx, hc⟩ := leave_pcbs s k w i
    refine update_at (fun he => ?_) fun hne => ?_
    · subst he; exact .released hcl
    · rw [hc]; exact .same rfl rfl id False.elim
  | @woken k _ w _ _ _ ht =>
    obtain ⟨ctx, hc⟩ := leave_pcbs s k w i
    exact slot_recvTrans (fun _ => id) (fun _ => id) hc ht

/-! ## Blocked calls -/

theorem waiter_trans {s s' : UdpSys} {a : UdpAction} {r : UdpResult} (ht : UdpTrans s a r s')
    {w' : Waiter} (hw : w' ∈ s'.waiters) :
    (∃ w ∈ s.waiters, w.call = w'.call ∧ w.pcb = w'.pcb) ∨
      ∃ id size, a = .udpRecvfrom w'.call id size ∧ udpPcbGet s.pcbs id = some w'.pcb := by
  have old : w' ∈ s.waiters → ∃ w ∈ s.waiters, w.call = w'.call ∧ w.pcb = w'.pcb :=
    fun h => ⟨w', h, rfl, rfl⟩
  cases ht with
  | openFail _ | openOk _ | closeFail | closeOk _ | bindFail | bindOk _ _ | sendtoKeep
  | sendtoAssign _ _ _ _ | inputDrop | recvNotFound => exact .inl (old hw)
  | inputAccept _ | event =>
    obtain ⟨w, hm, rfl⟩ := List.mem_map.mp hw
    refine .inl ⟨w, hm, ?_⟩
    split <;> exact ⟨rfl, rfl⟩
  | recv _ hi ht =>
    cases ht with
    | received _ | interrupted => exact .inl (old hw)
    | parked _ =>
      rcases List.mem_append.mp hw with hw | hw
      · exact .inl (old hw)
      · rw [List.mem_singleton] at hw
        subst hw
        exact .inr ⟨_, _, rfl, hi⟩
  | wokenFail _ | wokenClosed _ _ => exact .inl (old (List.mem_of_mem_eraseIdx hw))
  | woken hk ht =>
    cases ht with
    | received _ | interrupted => exact .inl (old (List.mem_of_mem_eraseIdx hw))
    | parked _ =>
      -- the call goes back to sleep on the slot it was woken on
      rcases List.mem_append.mp hw with hw | hw
      · exact .inl (old (List.mem_of_mem_eraseIdx hw))
      · rw [List.mem_singleton] at hw
        subst hw
        exact .inl ⟨_, List.mem_of_getElem? hk, rfl, rfl⟩
  | spurious hk =>
    rcases List.mem_or_eq_of_mem_set hw with hw | rfl
    · exact .inl (old hw)
    · exact .inl ⟨_, List.mem_of_getElem? hk, rfl, rfl⟩

/-- The slots whose PCB an action may change, other than in its context. -/
def UdpAction.Targets (s : UdpSys) (j : Fin udpPcbSize) : UdpAction → Prop
  | .udpClose id _ | .udpBind id _ | .udpSendto id _ | .udpRecvfrom _ id _ => id = j.val
  | .condWaitReturn k _ => ∃ w, s.waiters[k]? = some w ∧ w.pcb = j
  | .udpOpen => (s.pcbs j).state = .stateFree
  | .udpInput _ _ _ _ _ => True
  | .eventHandler | .spuriousWakeup _ => False

theorem frame_recvTrans {s s' : UdpSys} {call size : Nat} {i j : Fin udpPcbSize} {r : UdpResult}
    (hne : i ≠ j) (ht : RecvTrans s call i size r s') : s'.pcbs j = s.pcbs j := by
  cases ht with
  | received _ | parked _ => exact Function.update_of_ne hne.symm ..
  | interrupted => rfl

theorem udp_frame {s s' : UdpSys} {a : UdpAction} {r : UdpResult} (ht : UdpTrans s a r s')
    {j : Fin udpPcbSize} (hj : ¬ a.Targets s j) :
    ∃ ctx, s'.pcbs j = { s.pcbs j with ctx := ctx } := by
  have hget : ∀ {id : Int} {i : Fin udpPcbSize}, udpPcbGet s.pcbs id = some i → ¬ id = j.val →
      j ≠ i := fun h hn he => hn (he ▸ (udpPcbGet_some.mp h).1)
  cases ht with
  | openFail _ | closeFail _ | bindFail _ | sendtoKeep _ | inputDrop | recvNotFound _
  | spurious _ => exact ⟨(s.pcbs j).ctx, rfl⟩
  | @openOk i hi =>
    have hne : j ≠ i := by rintro rfl; exact hj hi
    exact ⟨(s.pcbs j).ctx, Function.update_of_ne hne ..⟩
  | closeOk hi | bindOk hi _ | sendtoAssign hi _ _ _ =>
    exact ⟨(s.pcbs j).ctx, Function.update_of_ne (hget hi hj) ..⟩
  | inputAccept _ => exact absurd trivial hj
  | event => exact udpEventHandler_eq s.pcbs j
  | recv _ hi ht => exact ⟨(s.pcbs j).ctx, frame_recvTrans (hget hi hj).symm ht⟩
  | @wokenFail k _ w _ => exact leave_pcbs s k w j
  | @wokenClosed k _ w hk _ =>
    have hne : j ≠ w.pcb := fun he => hj ⟨w, hk, he.symm⟩
    rw [setPcb_pcbs, Function.update_of_ne hne]
    exact leave_pcbs s k w j
  | @woken k _ w _ _ hk ht =>
    rw [frame_recvTrans (fun he => hj ⟨w, hk, he⟩) ht]
    exact leave_pcbs s k w j

/-! ## Slots that are not open -/

/-- A slot that is not open is free, unbound and without queued datagrams. -/
def PcbsClean (pcbs : Pcbs) : Prop :=
  ∀ i, (pcbs i).state ≠ .stateOpen →
    (pcbs i).state = .stateFree ∧ (pcbs i).localEp = ⟨ipAddrAny, 0⟩ ∧ (pcbs i).queue = []

theorem PcbsClean.step {s s' : UdpSys} {a : UdpAction} {r : UdpResult} (h : PcbsClean s.pcbs)
    (ht : UdpTrans s a r s') : PcbsClean s'.pcbs := by
  intro i hi
  have hs := slot_trans ht i
  have hp := h i
  generalize s.pcbs i = pcb at hs hp
  generalize s'.pcbs i = pcb' at hs hi
  cases hs with
  | same _ _ _ _ => exact hp hi
  | bound ho _ _ _ _ | pushed ho => exact absurd ho hi
  | opened _ => exact absurd rfl hi
  | closed _ | released _ => exact ⟨rfl, rfl, rfl⟩
  | popped hq _ => rw [(hp hi).2.2] at hq; cases hq

theorem open_iff {s s' : UdpSys} {a : UdpAction} {r : UdpResult} (hc : PcbsClean s.pcbs)
    (ht : UdpTrans s a r s') {j : Fin udpPcbSize} (ho : ¬ Opens j (a, r))
    (hcl : ¬ Closes j (a, r)) :
    (s'.pcbs j).state = .stateOpen ↔ (s.pcbs j).state = .stateOpen := by
  have hs := slot_trans ht j
  have hp := hc j
  generalize s.pcbs j = pcb at hs hp
  generalize s'.pcbs j = pcb' at hs
  cases hs with
  | same _ _ _ _ | bound _ _ _ _ _ | pushed _ | popped _ _ => exact Iff.rfl
  | opened _ => exact absurd rfl ho
  | closed hid => exact absurd hid hcl
  | released hclosing =>
    have := (hp (by rw [hclosing]; decide)).1
    rw [hclosing] at this; cases this

theorem run_clean {tr : List (UdpAction × UdpResult)} {s : UdpSys}
    (h : Run UdpSys.Step UdpSys.init tr s) : PcbsClean s.pcbs :=
  h.invariant (P := fun s => PcbsClean s.pcbs) (fun _ _ => ⟨rfl, rfl, rfl⟩)
    fun _ _ _ hp hl => hp.step (step_trans hl)

/-- The runs of other modules start from one socket, bound to port 7. -/
def boundSocket : List UdpAction := [.udpOpen, .udpBind 0 ⟨ipAddrAny, 0x0700#16⟩]

end LLNStack
