import LLNStack.Host.Config
import LLNStack.Sock.System

/-!
# LLNStack.App.UdpApp

The echo server of `udp_app.c` from its loop on: the main thread, the interrupt thread with
`udp_input` and the event handlers, and SIGINT, whose handler may run in either thread. The handler
sets `terminate` and then sends SIGUSR2 to the process, which the interrupt thread takes with
`sigwait`.

* `echo_in_order`: what is sent back is what was accepted for the socket, each datagram once, in
  order, to its sender and cut to the size of the buffer; what was not sent back is still queued.
* `termination_iff`: after SIGINT the main thread can always come to the end, exactly if the UDP
  event handler is subscribed. `udp_init` does not look at the result of
  `network_event_subscribe`.

The result of `udp_output` is free. After a failed `udp_recvfrom`, `errno` is EINTR if the call was
interrupted; otherwise it is taken to be something else.
-/

namespace LLNStack

open Lib

inductive AppPc where
  | test
  | recv
  /-- In `pthread_cond_wait`. -/
  | blocked (i : Fin udpPcbSize)
  | send (data : Bytes) (foreign : IpEndpoint)
  | close
  | exited
  deriving DecidableEq

structure AppSys where
  socks : Socks
  soc : Int
  pcbs : Pcbs
  pc : AppPc
  /-- The main thread may return from `pthread_cond_wait`. -/
  signalled : Bool
  terminate : Bool
  /-- Calls of `on_signal` between its two statements. -/
  killing : Nat
  /-- SIGUSR2 is pending. -/
  sigusr2 : Bool

inductive AppAction where
  | main (destroy : Nat) (unicast : Option IPAddress) (sent : Bool)
  | spuriousWakeup
  | sigint
  | kill
  | networkEventHandler
  | udpInput (allocs : Bool × Bool) (data : Bytes) (len : Nat) (src dst : IPAddress)
  deriving DecidableEq

inductive AppResult where
  | silent
  | received (data : Bytes) (foreign : IpEndpoint)
  /-- The call of `sock_sendto`. -/
  | echoed (data : Bytes) (foreign : IpEndpoint)
  | accepted (entry : Option (Fin udpPcbSize × UdpQueueEntry))
  deriving DecidableEq

def appBufSize : Nat := 1024

namespace AppSys

def waitsOn (s : AppSys) (i : Fin udpPcbSize) : Bool := decide (s.pc = .blocked i)

/-- What the loop does with the result of `sock_recvfrom`. -/
def afterRecv (s : AppSys) (pcbs : Pcbs) : UdpRecv → AppSys × AppResult
  | .received _ entry =>
    let (data, foreign) := udpRecvfromCopy entry appBufSize
    ({ s with pcbs := pcbs, pc := .send data foreign }, .received data foreign)
  | .waiting i => ({ s with pcbs := pcbs, pc := .blocked i, signalled := false }, .silent)
  -- EINTR: `continue`
  | .interrupted => ({ s with pcbs := pcbs, pc := .test }, .silent)
  | .notFound | .closed => ({ s with pcbs := pcbs, pc := .close }, .silent)

def main (s : AppSys) (destroy : Nat) (unicast : Option IPAddress) (sent : Bool) :
    Option (AppSys × AppResult) :=
  match s.pc with
  | .test => some ({ s with pc := if s.terminate then .close else .recv }, .silent)
  | .recv =>
    match sockDesc s.socks s.soc with
    | none => some ({ s with pc := .close }, .silent)
    | some desc =>
      let r := udpRecvfrom s.pcbs desc
      some (s.afterRecv r.1 r.2)
  | .blocked i =>
    if s.signalled then
      let r := udpRecvfromWoken destroy s.pcbs i
      some (s.afterRecv r.1 r.2.1)
    else none
  | .send data foreign =>
    match sockDesc s.socks s.soc with
    | none => some ({ s with pc := .close }, .echoed data foreign)
    | some desc =>
      let r := udpSendtoSource unicast s.pcbs desc
      some ({ s with pcbs := r.1, pc := if r.2.isSome && sent then .test else .close },
        .echoed data foreign)
  -- the id of the socket is given to `udp_close`
  | .close =>
    some ({ s with pcbs := (udpClose destroy s.pcbs s.soc).1, pc := .exited }, .silent)
  | .exited => none

def runEvent (s : AppSys) : EventHandler → AppSys
  | .udpEventHandler => { s with
      pcbs := udpEventHandler s.pcbs
      signalled := s.signalled || match s.pc with
        | .blocked i => decide ((s.pcbs i).state = .stateOpen)
        | _ => false }

def networkEventHandler (events : List EventHandler) (s : AppSys) : AppSys :=
  events.foldl runEvent s

def step (events : List EventHandler) (s : AppSys) : AppAction → Option (AppSys × AppResult)
  | .main destroy unicast sent => s.main destroy unicast sent
  | .spuriousWakeup => some ({ s with signalled := true }, .silent)
  | .sigint => some ({ s with terminate := true, killing := s.killing + 1 }, .silent)
  | .kill =>
    if s.killing = 0 then none
    else some ({ s with killing := s.killing - 1, sigusr2 := true }, .silent)
  | .networkEventHandler =>
    if s.sigusr2 then some (networkEventHandler events { s with sigusr2 := false }, .silent)
    else none
  | .udpInput allocs data len src dst =>
    let r := LLNStack.udpInput allocs s.pcbs data len src dst
    some ({ s with
      pcbs := r.1
      signalled := s.signalled || r.2.any fun d => s.waitsOn d.1 }, .accepted r.2)

abbrev Step (events : List EventHandler) : AppSys → AppAction × AppResult → AppSys → Prop :=
  stepRel (step events)

/-- At the loop, if `sock_open` and `sock_bind` succeed. -/
def start (addr : SockAddrIn) : Option AppSys :=
  let r := sockOpen .init afInet sockDgram 0
  if r.2 = -1 then none
  else
    match sockDesc r.1.socks r.2 with
    | none => none
    | some desc =>
      let b := udpBind r.1.udp.pcbs desc addr.endpoint
      if b.2 = -1 then none
      else some ⟨r.1.socks, r.2, b.1, .test, false, false, 0, false⟩

end AppSys

/-! ## What a step can do -/

/-- The socket of the main thread is open, on PCB `i`, until it exits; no other PCB is in use. -/
structure AppInv (i : Fin udpPcbSize) (s : AppSys) : Prop where
  desc : sockDesc s.socks s.soc = some (i.val : Int)
  soc : s.soc = i.val
  opened : s.pc ≠ .exited → (s.pcbs i).state = .stateOpen
  others : ∀ j, j ≠ i → (s.pcbs j).state ≠ .stateOpen
  blocked : ∀ j, s.pc = .blocked j → j = i

namespace AppSys

def Receiving (i : Fin udpPcbSize) (s : AppSys) : Prop := s.pc = .recv ∨ s.pc = .blocked i

def setPcb (s : AppSys) (i : Fin udpPcbSize) (pcb : UdpPcb) : AppSys :=
  { s with pcbs := Function.update s.pcbs i pcb }

end AppSys

structure EventEffect (i : Fin udpPcbSize) (s s' : AppSys) : Prop where
  socks : s'.socks = s.socks
  soc : s'.soc = s.soc
  pc : s'.pc = s.pc
  terminate : s'.terminate = s.terminate
  state : ∀ j, (s'.pcbs j).state = (s.pcbs j).state
  queue : (s'.pcbs i).queue = (s.pcbs i).queue
  signalled : s.signalled = true → s'.signalled = true
  interrupted : (s.pcbs i).ctx.interrupted = true → (s'.pcbs i).ctx.interrupted = true

theorem EventEffect.refl (i : Fin udpPcbSize) (s : AppSys) : EventEffect i s s :=
  ⟨rfl, rfl, rfl, rfl, fun _ => rfl, rfl, id, id⟩

theorem EventEffect.trans {i : Fin udpPcbSize} {s s' s'' : AppSys} (h : EventEffect i s s')
    (h' : EventEffect i s' s'') : EventEffect i s s'' :=
  ⟨h'.socks.trans h.socks, h'.soc.trans h.soc, h'.pc.trans h.pc, h'.terminate.trans h.terminate,
    fun j => (h'.state j).trans (h.state j), h'.queue.trans h.queue,
    fun hs => h'.signalled (h.signalled hs), fun hi => h'.interrupted (h.interrupted hi)⟩

theorem runEvent_effect (i : Fin udpPcbSize) (s : AppSys) (e : EventHandler) :
    EventEffect i s (s.runEvent e) := by
  cases e with
  | udpEventHandler =>
    refine ⟨rfl, rfl, rfl, rfl, fun j => ?_, ?_, fun hs => ?_, fun hi => ?_⟩
    · simp only [AppSys.runEvent, udpEventHandler]
      split
      · rfl
      · rfl
    · simp only [AppSys.runEvent, udpEventHandler]
      split
      · rfl
      · rfl
    · simp only [AppSys.runEvent, hs, Bool.true_or]
    · simp only [AppSys.runEvent, udpEventHandler]
      split
      · rfl
      · exact hi

theorem networkEventHandler_effect (events : List EventHandler) (i : Fin udpPcbSize)
    (s : AppSys) : EventEffect i s (s.networkEventHandler events) := by
  induction events generalizing s with
  | nil => exact .refl i s
  | cons e events ih => exact (runEvent_effect i s e).trans (ih (s.runEvent e))

theorem networkEventHandler_interrupts {events : List EventHandler}
    (he : .udpEventHandler ∈ events) {i : Fin udpPcbSize} {s : AppSys}
    (hopen : (s.pcbs i).state = .stateOpen) :
    ((s.networkEventHandler events).pcbs i).ctx.interrupted = true ∧
      (s.pc = .blocked i → (s.networkEventHandler events).signalled = true) := by
  induction events generalizing s with
  | nil => cases he
  | cons e events ih =>
    cases e with
    | udpEventHandler =>
      have heff := networkEventHandler_effect events i (s.runEvent .udpEventHandler)
      refine ⟨heff.interrupted ?_, fun hpc => heff.signalled ?_⟩
      · simp only [AppSys.runEvent, udpEventHandler, hopen, if_true]
        rfl
      · simp only [AppSys.runEvent, hpc, hopen, decide_true, Bool.or_true]

open AppSys in
inductive AppTrans (events : List EventHandler) (i : Fin udpPcbSize) (s : AppSys) :
    AppAction → AppResult → AppSys → Prop where
  | test {destroy : Nat} {unicast : Option IPAddress} {sent : Bool} : s.pc = .test →
      AppTrans events i s (.main destroy unicast sent) .silent
        { s with pc := if s.terminate then .close else .recv }
  | received {destroy : Nat} {unicast : Option IPAddress} {sent : Bool} {entry : UdpQueueEntry}
      {rest : List UdpQueueEntry} {ctx : SchedCtx} : s.Receiving i →
      (s.pcbs i).queue = entry :: rest →
      AppTrans events i s (.main destroy unicast sent)
        (.received (entry.data.take appBufSize) entry.foreign)
        { s.setPcb i { s.pcbs i with queue := rest, ctx := ctx } with
          pc := .send (entry.data.take appBufSize) entry.foreign }
  | interrupted {destroy : Nat} {unicast : Option IPAddress} {sent : Bool} {ctx : SchedCtx} :
      s.Receiving i → AppTrans events i s (.main destroy unicast sent) .silent
        { s.setPcb i { s.pcbs i with ctx := ctx } with pc := .test }
  | waiting {destroy : Nat} {unicast : Option IPAddress} {sent : Bool} {ctx : SchedCtx} :
      s.Receiving i → (s.pcbs i).queue = [] → (s.pcbs i).ctx.interrupted = false →
      AppTrans events i s (.main destroy unicast sent) .silent
        { s.setPcb i { s.pcbs i with ctx := ctx } with pc := .blocked i, signalled := false }
  | echoed {destroy : Nat} {unicast : Option IPAddress} {sent : Bool} {data : Bytes}
      {foreign localEp : IpEndpoint} {pc : AppPc} : s.pc = .send data foreign →
      pc = .test ∨ pc = .close →
      AppTrans events i s (.main destroy unicast sent) (.echoed data foreign)
        { s.setPcb i { s.pcbs i with localEp := localEp } with pc := pc }
  | close {destroy : Nat} {unicast : Option IPAddress} {sent : Bool} : s.pc = .close →
      AppTrans events i s (.main destroy unicast sent) .silent
        { s.setPcb i { s.pcbs i with state := .stateFree, localEp := ⟨ipAddrAny, 0⟩, queue := [] }
          with pc := .exited }
  | spurious : AppTrans events i s .spuriousWakeup .silent { s with signalled := true }
  | sigint : AppTrans events i s .sigint .silent
      { s with terminate := true, killing := s.killing + 1 }
  | kill : s.killing ≠ 0 → AppTrans events i s .kill .silent
      { s with killing := s.killing - 1, sigusr2 := true }
  | event : s.sigusr2 = true → AppTrans events i s .networkEventHandler .silent
      (AppSys.networkEventHandler events { s with sigusr2 := false })
  | inputDrop {allocs : Bool × Bool} {data : Bytes} {len : Nat} {src dst : IPAddress} :
      AppTrans events i s (.udpInput allocs data len src dst) (.accepted none) s
  | inputAccept {allocs : Bool × Bool} {data : Bytes} {len : Nat} {src dst : IPAddress}
      {entry : UdpQueueEntry} {signalled : Bool} : (s.pcbs i).state = .stateOpen →
      (s.signalled = true → signalled = true) →
      AppTrans events i s (.udpInput allocs data len src dst) (.accepted (some (i, entry)))
        { s.setPcb i { s.pcbs i with queue := (s.pcbs i).queue ++ [entry] } with
          signalled := signalled }

theorem afterRecv_trans {events : List EventHandler} {i : Fin udpPcbSize} {s : AppSys}
    {destroy : Nat} {unicast : Option IPAddress} {sent : Bool} (hr : s.Receiving i)
    {ctx : SchedCtx} (hclear : ctx.interrupted = false → (s.pcbs i).ctx.interrupted = false)
    {pcbs : Pcbs} (hpcbs : pcbs = Function.update s.pcbs i { s.pcbs i with ctx := ctx }) :
    AppTrans events i s (.main destroy unicast sent)
      (s.afterRecv (udpRecvfromLoop pcbs i).1 (udpRecvfromLoop pcbs i).2).2
      (s.afterRecv (udpRecvfromLoop pcbs i).1 (udpRecvfromLoop pcbs i).2).1 := by
  subst hpcbs
  rw [udpRecvfromLoop]
  simp only [Function.update_self, Function.update_idem]
  cases hq : (s.pcbs i).queue with
  | cons entry rest => exact .received hr hq
  | nil =>
    cases hi : ctx.interrupted with
    | true =>
      simp only [schedSleepEnter, hi, if_true]
      rw [← hq]
      exact .interrupted hr
    | false =>
      simp only [schedSleepEnter, hi, Bool.false_eq_true, if_false]
      rw [← hq]
      exact .waiting hr hq (hclear hi)

theorem recvfromWoken_trans {events : List EventHandler} {i : Fin udpPcbSize} {s : AppSys}
    {destroy : Nat} {unicast : Option IPAddress} {sent : Bool} (hr : s.Receiving i)
    (hopen : (s.pcbs i).state = .stateOpen) :
    AppTrans events i s (.main destroy unicast sent)
      (s.afterRecv (udpRecvfromWoken destroy s.pcbs i).1 (udpRecvfromWoken destroy s.pcbs i).2.1).2
      (s.afterRecv (udpRecvfromWoken destroy s.pcbs i).1
        (udpRecvfromWoken destroy s.pcbs i).2.1).1 := by
  have hstate : (Function.update s.pcbs i { s.pcbs i with
      ctx := (schedSleepLeave (s.pcbs i).ctx).1 } i).state ≠ .stateClosing := by
    rw [Function.update_self, hopen]
    decide
  cases hi : (s.pcbs i).ctx.interrupted with
  | true =>
    have hleave := schedSleepLeave_set hi
    simp only [udpRecvfromWoken, hleave, if_true]
    exact .interrupted hr
  | false =>
    have hleave := schedSleepLeave_clear hi
    simp only [udpRecvfromWoken, hstate, if_false]
    rw [hleave]
    simp only [Bool.false_eq_true, if_false]
    exact afterRecv_trans hr (fun _ => hi) rfl

theorem udpSendtoSource_slot {pcbs : Pcbs} {id : Int} {i : Fin udpPcbSize}
    (hi : udpPcbGet pcbs id = some i) (unicast : Option IPAddress) :
    ∃ localEp, (udpSendtoSource unicast pcbs id).1 =
      Function.update pcbs i { pcbs i with localEp := localEp } := by
  have hkeep : ∃ localEp, pcbs = Function.update pcbs i { pcbs i with localEp := localEp } :=
    ⟨(pcbs i).localEp, (Function.update_eq_self i pcbs).symm⟩
  simp only [udpSendtoSource, hi]
  split
  · exact hkeep
  · split
    · split
      · exact hkeep
      · exact ⟨_, rfl⟩
    · exact hkeep

theorem main_trans {events : List EventHandler} {i : Fin udpPcbSize} {s s' : AppSys}
    {destroy : Nat} {unicast : Option IPAddress} {sent : Bool} {r : AppResult}
    (hinv : AppInv i s) (h : s.main destroy unicast sent = some (s', r)) :
    AppTrans events i s (.main destroy unicast sent) r s' := by
  have hget : s.pc ≠ .exited → udpPcbGet s.pcbs i.val = some i :=
    fun hpc => udpPcbGet_some.mpr ⟨rfl, hinv.opened hpc⟩
  simp only [AppSys.main] at h
  cases hpc : s.pc with
  | test =>
    simp only [hpc] at h
    cases h
    exact .test hpc
  | recv =>
    simp only [hpc, hinv.desc, udpRecvfrom, hget (by simp [hpc])] at h
    have ht : AppTrans events i s (.main destroy unicast sent)
        (s.afterRecv (udpRecvfromLoop s.pcbs i).1 (udpRecvfromLoop s.pcbs i).2).2
        (s.afterRecv (udpRecvfromLoop s.pcbs i).1 (udpRecvfromLoop s.pcbs i).2).1 :=
      afterRecv_trans (.inl hpc) id (Function.update_eq_self i s.pcbs).symm
    rw [Option.some.inj h] at ht
    exact ht
  | blocked j =>
    obtain rfl := hinv.blocked j hpc
    simp only [hpc] at h
    split at h
    · have ht : AppTrans events j s (.main destroy unicast sent)
          (s.afterRecv (udpRecvfromWoken destroy s.pcbs j).1
            (udpRecvfromWoken destroy s.pcbs j).2.1).2
          (s.afterRecv (udpRecvfromWoken destroy s.pcbs j).1
            (udpRecvfromWoken destroy s.pcbs j).2.1).1 :=
        recvfromWoken_trans (.inr hpc) (hinv.opened (by simp [hpc]))
      rw [Option.some.inj h] at ht
      exact ht
    · cases h
  | send data foreign =>
    obtain ⟨localEp, hslot⟩ := udpSendtoSource_slot (hget (by simp [hpc])) unicast
    simp only [hpc, hinv.desc, hslot] at h
    cases h
    refine .echoed hpc ?_
    split
    · exact .inl rfl
    · exact .inr rfl
  | close =>
    have hclose : (udpClose destroy s.pcbs s.soc).1 = Function.update s.pcbs i
        { s.pcbs i with state := .stateFree, localEp := ⟨ipAddrAny, 0⟩, queue := [] } := by
      simp only [hinv.soc, udpClose, hget (by simp [hpc]), udpPcbRelease_natCast]
    simp only [hpc, hclose] at h
    cases h
    exact .close hpc
  | exited =>
    simp only [hpc] at h
    cases h

theorem input_trans {events : List EventHandler} {i : Fin udpPcbSize} {s : AppSys}
    (hinv : AppInv i s) (allocs : Bool × Bool) (data : Bytes) (len : Nat) (src dst : IPAddress) :
    AppTrans events i s (.udpInput allocs data len src dst)
      (.accepted (udpInput allocs s.pcbs data len src dst).2)
      { s with
        pcbs := (udpInput allocs s.pcbs data len src dst).1
        signalled := s.signalled ||
          (udpInput allocs s.pcbs data len src dst).2.any fun d => s.waitsOn d.1 } := by
  have hdrop : ∀ b : Bool, b = false → AppTrans events i s (.udpInput allocs data len src dst)
      (.accepted none) { s with pcbs := s.pcbs, signalled := s.signalled || b } := by
    rintro b rfl
    rw [Bool.or_false]
    exact .inputDrop
  simp only [udpInput]
  split
  · exact hdrop _ rfl
  · simp only [udpDeliver]
    split
    · exact hdrop _ rfl
    · rename_i j hj
      split
      · have hopen := (udpPcbSelect_some hj).1
        have hji : j = i := by
          by_contra hne
          exact hinv.others j hne hopen
        subst hji
        exact .inputAccept hopen fun hs => by rw [hs, Bool.true_or]
      · exact hdrop _ rfl

theorem app_trans {events : List EventHandler} {i : Fin udpPcbSize} {s s' : AppSys}
    {a : AppAction} {r : AppResult} (hinv : AppInv i s) (h : AppSys.Step events s (a, r) s') :
    AppTrans events i s a r s' := by
  cases a with
  | main destroy unicast sent => exact main_trans hinv h
  | spuriousWakeup =>
    cases h
    exact .spurious
  | sigint =>
    cases h
    exact .sigint
  | kill =>
    simp only [stepRel, AppSys.step] at h
    split at h
    · cases h
    · rename_i hk
      cases h
      exact .kill hk
  | networkEventHandler =>
    simp only [stepRel, AppSys.step] at h
    split at h
    · rename_i hs
      cases h
      exact .event hs
    · cases h
  | udpInput allocs data len src dst =>
    cases h
    exact input_trans hinv allocs data len src dst

/-! ## The socket stays open -/

theorem AppInv.setPcb {i : Fin udpPcbSize} {s s' : AppSys} (h : AppInv i s) {pcb : UdpPcb}
    (hsocks : s'.socks = s.socks) (hsoc : s'.soc = s.soc)
    (hpcbs : s'.pcbs = Function.update s.pcbs i pcb)
    (hopen : s'.pc ≠ .exited → pcb.state = .stateOpen)
    (hblocked : ∀ j, s'.pc = .blocked j → j = i) : AppInv i s' where
  desc := by
    rw [hsocks, hsoc]
    exact h.desc
  soc := by
    rw [hsoc]
    exact h.soc
  opened := by
    rw [hpcbs, Function.update_self]
    exact hopen
  others := by
    intro j hj
    rw [hpcbs, Function.update_of_ne hj]
    exact h.others j hj
  blocked := hblocked

theorem AppInv.same {i : Fin udpPcbSize} {s s' : AppSys} (h : AppInv i s)
    (hsocks : s'.socks = s.socks) (hsoc : s'.soc = s.soc) (hpcbs : s'.pcbs = s.pcbs)
    (hexited : s'.pc ≠ .exited → s.pc ≠ .exited) (hblocked : ∀ j, s'.pc = .blocked j → j = i) :
    AppInv i s' := by
  have hself : s'.pcbs = Function.update s.pcbs i (s.pcbs i) := by
    rw [hpcbs, Function.update_eq_self]
  exact h.setPcb hsocks hsoc hself (fun hpc => h.opened (hexited hpc)) hblocked

theorem AppSys.Receiving.running {i : Fin udpPcbSize} {s : AppSys} (h : s.Receiving i) :
    s.pc ≠ .exited := by
  rcases h with h | h
  · simp [h]
  · simp [h]

theorem AppInv.step {events : List EventHandler} {i : Fin udpPcbSize} {s s' : AppSys}
    {a : AppAction} {r : AppResult} (h : AppInv i s) (ht : AppTrans events i s a r s') :
    AppInv i s' := by
  cases ht with
  | test hpc =>
    refine h.same rfl rfl rfl (fun _ => by simp [hpc]) fun j hj => ?_
    revert hj
    simp only
    split
    · intro hj
      cases hj
    · intro hj
      cases hj
  | received hr _ | interrupted hr =>
    exact h.setPcb rfl rfl rfl (fun _ => h.opened hr.running) fun _ hj => by cases hj
  | waiting hr _ _ =>
    refine h.setPcb rfl rfl rfl (fun _ => h.opened hr.running) fun j hj => ?_
    cases hj
    rfl
  | echoed hpc hnext =>
    refine h.setPcb rfl rfl rfl (fun _ => h.opened (by simp [hpc])) fun j hj => ?_
    rcases hnext with rfl | rfl
    · cases hj
    · cases hj
  | close _ => exact h.setPcb rfl rfl rfl (fun hne => absurd rfl hne) fun _ hj => by cases hj
  | spurious | sigint | kill _ => exact h.same rfl rfl rfl id h.blocked
  | event _ =>
    have heff := networkEventHandler_effect events i { s with sigusr2 := false }
    refine ⟨?_, heff.soc.trans h.soc, fun hpc => ?_, fun j hj => ?_, fun j hj => ?_⟩
    · rw [heff.socks, heff.soc]
      exact h.desc
    · rw [heff.state]
      rw [heff.pc] at hpc
      exact h.opened hpc
    · rw [heff.state]
      exact h.others j hj
    · rw [heff.pc] at hj
      exact h.blocked j hj
  | inputDrop => exact h
  | inputAccept hopen _ => exact h.setPcb rfl rfl rfl (fun _ => hopen) h.blocked

theorem udpBind_slot {pcbs : Pcbs} {i : Fin udpPcbSize} (hopen : (pcbs i).state = .stateOpen)
    (localEp : IpEndpoint) : ∃ localEp', (udpBind pcbs i.val localEp).1 =
      Function.update pcbs i { pcbs i with localEp := localEp' } := by
  simp only [udpBind, udpPcbGet_some.mpr ⟨rfl, hopen⟩]
  split
  · exact ⟨(pcbs i).localEp, (Function.update_eq_self i pcbs).symm⟩
  · exact ⟨_, rfl⟩

structure AppStart (i : Fin udpPcbSize) (s : AppSys) : Prop where
  inv : AppInv i s
  pc : s.pc = .test
  terminate : s.terminate = false
  signals : s.killing = 0 ∧ s.sigusr2 = false
  queue : (s.pcbs i).queue = []
  ctx : (s.pcbs i).ctx = schedCtxInit

theorem start_appStart {addr : SockAddrIn} {s : AppSys} (h : AppSys.start addr = some s) :
    ∃ i, AppStart i s := by
  have hsoc : (sockOpen .init afInet sockDgram 0).2 = 0 := by decide +kernel
  have hdesc : sockDesc (sockOpen .init afInet sockDgram 0).1.socks 0 = some 0 := by
    decide +kernel
  have hopen : ((sockOpen .init afInet sockDgram 0).1.udp.pcbs 0).state = .stateOpen ∧
      ((sockOpen .init afInet sockDgram 0).1.udp.pcbs 0).queue = [] ∧
      ((sockOpen .init afInet sockDgram 0).1.udp.pcbs 0).ctx = schedCtxInit := by decide +kernel
  have hothers : ∀ j, j ≠ 0 →
      ((sockOpen .init afInet sockDgram 0).1.udp.pcbs j).state ≠ .stateOpen := by decide +kernel
  obtain ⟨localEp, hbind⟩ := udpBind_slot hopen.1 addr.endpoint
  revert h hsoc hdesc hopen hothers hbind
  simp only [AppSys.start]
  generalize sockOpen .init afInet sockDgram 0 = r
  obtain ⟨⟨socks, udp⟩, soc⟩ := r
  intro h hsoc hdesc hopen hothers hbind
  simp only at h hsoc hdesc hopen hothers hbind
  subst hsoc
  rw [hdesc] at h
  split at h
  · cases h
  · simp only at h
    split at h
    · cases h
    · cases h
      have hzero : AppInv 0 ⟨socks, 0, udp.pcbs, .test, false, false, 0, false⟩ :=
        ⟨hdesc, rfl, fun _ => hopen.1, hothers, fun _ hj => by cases hj⟩
      have hinv : AppInv 0 ⟨socks, 0, (udpBind udp.pcbs 0 addr.endpoint).1, .test, false, false, 0,
          false⟩ := hzero.setPcb rfl rfl hbind (fun _ => hopen.1) fun _ hj => by cases hj
      have hfresh : ((udpBind udp.pcbs 0 addr.endpoint).1 0).queue = [] ∧
          ((udpBind udp.pcbs 0 addr.endpoint).1 0).ctx = schedCtxInit := by
        rw [show (udpBind udp.pcbs 0 addr.endpoint).1 = _ from hbind, Function.update_self]
        exact hopen.2
      exact ⟨0, hinv, rfl, rfl, ⟨rfl, rfl⟩, hfresh.1, hfresh.2⟩

/-! ## What is sent back -/

def AppResult.receipt : AppResult → Option (Bytes × IpEndpoint)
  | .received data foreign => some (data, foreign)
  | .silent | .echoed _ _ | .accepted _ => none

def AppResult.echo : AppResult → Option (Bytes × IpEndpoint)
  | .echoed data foreign => some (data, foreign)
  | .silent | .received _ _ | .accepted _ => none

def AppResult.acceptance : AppResult → Option UdpQueueEntry
  | .accepted entry => entry.map Prod.snd
  | .silent | .received _ _ | .echoed _ _ => none

def receipts (tr : List (AppAction × AppResult)) : List (Bytes × IpEndpoint) :=
  tr.filterMap (·.2.receipt)

def echoes (tr : List (AppAction × AppResult)) : List (Bytes × IpEndpoint) :=
  tr.filterMap (·.2.echo)

def acceptances (tr : List (AppAction × AppResult)) : List UdpQueueEntry :=
  tr.filterMap (·.2.acceptance)

/-- A datagram as the main thread gets it. -/
def appCopy (entry : UdpQueueEntry) : Bytes × IpEndpoint := udpRecvfromCopy entry appBufSize

/-- What the main thread has received and not yet sent back. -/
def AppPc.toEcho : AppPc → List (Bytes × IpEndpoint)
  | .send data foreign => [(data, foreign)]
  | .test | .recv | .blocked _ | .close | .exited => []

structure EchoLog (i : Fin udpPcbSize) (tr : List (AppAction × AppResult)) (s : AppSys) :
    Prop where
  inv : AppInv i s
  echoed : receipts tr = echoes tr ++ s.pc.toEcho
  inOrder : receipts tr <+: (acceptances tr).map appCopy
  queued : s.pc ≠ .exited →
    (acceptances tr).map appCopy = receipts tr ++ (s.pcbs i).queue.map appCopy

theorem EchoLog.snoc {i : Fin udpPcbSize} {tr : List (AppAction × AppResult)} {s s' : AppSys}
    {l : AppAction × AppResult} (h : EchoLog i tr s) (hinv : AppInv i s')
    (hecho : s.pc.toEcho ++ l.2.receipt.toList = l.2.echo.toList ++ s'.pc.toEcho)
    (hlast : l.2.receipt = none ∨ s'.pc ≠ .exited)
    (hqueue : s'.pc ≠ .exited → s.pc ≠ .exited ∧
      (s.pcbs i).queue.map appCopy ++ (l.2.acceptance.toList).map appCopy =
        l.2.receipt.toList ++ (s'.pcbs i).queue.map appCopy) : EchoLog i (tr ++ [l]) s' := by
  have hre : receipts (tr ++ [l]) = receipts tr ++ l.2.receipt.toList := filterMap_snoc ..
  have hec : echoes (tr ++ [l]) = echoes tr ++ l.2.echo.toList := filterMap_snoc ..
  have hac : acceptances (tr ++ [l]) = acceptances tr ++ l.2.acceptance.toList :=
    filterMap_snoc ..
  have hall : s'.pc ≠ .exited → (acceptances (tr ++ [l])).map appCopy =
      receipts (tr ++ [l]) ++ (s'.pcbs i).queue.map appCopy := by
    intro hpc
    obtain ⟨hpc, heq⟩ := hqueue hpc
    rw [hac, hre, List.map_append, h.queued hpc, List.append_assoc, heq, List.append_assoc]
  refine ⟨hinv, ?_, ?_, hall⟩
  · rw [hre, hec, h.echoed, List.append_assoc, hecho, List.append_assoc]
  · rcases hlast with hnone | hpc
    · rw [hre, hnone, hac, List.map_append]
      simpa using h.inOrder.trans (List.prefix_append ..)
    · rw [hall hpc]
      exact List.prefix_append ..

theorem EchoLog.step {events : List EventHandler} {i : Fin udpPcbSize}
    {tr : List (AppAction × AppResult)} {s s' : AppSys} {a : AppAction} {r : AppResult}
    (h : EchoLog i tr s) (hl : AppSys.Step events s (a, r) s') : EchoLog i (tr ++ [(a, r)]) s' := by
  have ht := app_trans h.inv hl
  have hinv := h.inv.step ht
  cases ht with
  | test hpc =>
    refine h.snoc hinv ?_ (.inl rfl) fun _ => ⟨by simp [hpc], by simp [AppResult.acceptance,
      AppResult.receipt]⟩
    simp only [hpc]
    split <;> rfl
  | received hr hq =>
    refine h.snoc hinv ?_ (.inr (by simp)) fun _ => ⟨hr.running, ?_⟩
    · rcases hr with hpc | hpc <;> simp [hpc, AppPc.toEcho, AppResult.receipt, AppResult.echo]
    · simp [hq, AppSys.setPcb, AppResult.acceptance, AppResult.receipt, appCopy, udpRecvfromCopy]
  | interrupted hr =>
    refine h.snoc hinv ?_ (.inl rfl) fun _ => ⟨hr.running, ?_⟩
    · rcases hr with hpc | hpc <;> simp [hpc, AppPc.toEcho, AppResult.receipt, AppResult.echo]
    · simp [AppSys.setPcb, AppResult.acceptance, AppResult.receipt]
  | waiting hr _ _ =>
    refine h.snoc hinv ?_ (.inl rfl) fun _ => ⟨hr.running, ?_⟩
    · rcases hr with hpc | hpc <;> simp [hpc, AppPc.toEcho, AppResult.receipt, AppResult.echo]
    · simp [AppSys.setPcb, AppResult.acceptance, AppResult.receipt]
  | echoed hpc hnext =>
    refine h.snoc hinv ?_ (.inl rfl) fun _ => ⟨by simp [hpc], ?_⟩
    · rcases hnext with rfl | rfl <;>
        simp [hpc, AppPc.toEcho, AppResult.receipt, AppResult.echo]
    · simp [AppSys.setPcb, AppResult.acceptance, AppResult.receipt]
  | close hpc =>
    refine h.snoc hinv ?_ (.inl rfl) fun hne => absurd rfl hne
    simp [hpc, AppPc.toEcho, AppResult.receipt, AppResult.echo]
  | spurious | sigint | kill _ =>
    exact h.snoc hinv (by simp [AppResult.receipt, AppResult.echo]) (.inl rfl)
      fun hpc => ⟨hpc, by simp [AppResult.acceptance, AppResult.receipt]⟩
  | event _ =>
    have heff := networkEventHandler_effect events i { s with sigusr2 := false }
    refine h.snoc hinv ?_ (.inl rfl) fun hpc => ⟨heff.pc ▸ hpc, ?_⟩
    · rw [heff.pc]
      simp [AppResult.receipt, AppResult.echo]
    · rw [heff.queue]
      simp [AppResult.acceptance, AppResult.receipt]
  | inputDrop =>
    exact h.snoc hinv (by simp [AppResult.receipt, AppResult.echo]) (.inl rfl)
      fun hpc => ⟨hpc, by simp [AppResult.acceptance, AppResult.receipt]⟩
  | inputAccept hopen _ =>
    refine h.snoc hinv (by simp [AppSys.setPcb, AppResult.receipt, AppResult.echo]) (.inl rfl)
      fun hpc => ⟨hpc, ?_⟩
    simp [AppSys.setPcb, AppResult.acceptance, AppResult.receipt]

def AppPc.due : AppPc → Nat
  | .recv | .blocked _ => 1
  | .test | .send _ _ | .close | .exited => 0

theorem AppSys.Receiving.due {i : Fin udpPcbSize} {s : AppSys} (h : s.Receiving i) :
    s.pc.due = 1 := by
  rcases h with h | h
  · rw [h]
    rfl
  · rw [h]
    rfl

theorem due_step {events : List EventHandler} {i : Fin udpPcbSize} {s s' : AppSys}
    {a : AppAction} {r : AppResult} (hterm : s.terminate = true)
    (ht : AppTrans events i s a r s') :
    s'.terminate = true ∧ r.receipt.toList.length + s'.pc.due ≤ s.pc.due := by
  cases ht with
  | test hpc =>
    simp only [hterm, hpc, if_true]
    exact ⟨trivial, Nat.le_refl 0⟩
  | received hr _ | interrupted hr | waiting hr _ _ =>
    refine ⟨hterm, ?_⟩
    rw [hr.due]
    simp [AppPc.due, AppResult.receipt]
  | echoed hpc hnext =>
    refine ⟨hterm, ?_⟩
    rcases hnext with rfl | rfl
    · exact Nat.zero_le _
    · exact Nat.zero_le _
  | close _ => exact ⟨hterm, Nat.zero_le _⟩
  | sigint => exact ⟨rfl, (Nat.zero_add _).le⟩
  | event _ =>
    have heff := networkEventHandler_effect events i { s with sigusr2 := false }
    exact ⟨heff.terminate.trans hterm, by rw [heff.pc]; exact (Nat.zero_add _).le⟩
  | spurious | kill _ | inputDrop | inputAccept _ _ => exact ⟨hterm, (Nat.zero_add _).le⟩

theorem due_run {events : List EventHandler} {i : Fin udpPcbSize} {s s' : AppSys}
    {tr : List (AppAction × AppResult)} (hinv : AppInv i s) (hterm : s.terminate = true)
    (hrun : Run (AppSys.Step events) s tr s') : (receipts tr).length ≤ 1 := by
  have hall : AppInv i s' ∧ s'.terminate = true ∧
      (receipts tr).length + s'.pc.due ≤ s.pc.due := by
    induction hrun with
    | nil => exact ⟨hinv, hterm, (Nat.zero_add _).le⟩
    | snoc _ hl ih =>
      obtain ⟨hinv, hterm, hle⟩ := ih
      have ht := app_trans hinv hl
      obtain ⟨hterm', hdue⟩ := due_step hterm ht
      refine ⟨hinv.step ht, hterm', ?_⟩
      rw [receipts, filterMap_snoc, List.length_append]
      rw [receipts] at hle
      omega
  have hone : s.pc.due ≤ 1 := by
    cases s.pc with
    | recv | blocked _ => exact Nat.le_refl 1
    | test | send _ _ | close | exited => exact Nat.zero_le 1
  omega

theorem run_echoLog {events : List EventHandler} {i : Fin udpPcbSize} {s₀ s : AppSys}
    (h₀ : AppStart i s₀) {tr : List (AppAction × AppResult)}
    (hrun : Run (AppSys.Step events) s₀ tr s) : EchoLog i tr s := by
  refine hrun.history (P := EchoLog i) ?_ fun _ _ _ _ _ he hl => he.step hl
  refine ⟨h₀.inv, ?_, List.prefix_refl [], fun _ => ?_⟩
  · rw [h₀.pc]
    rfl
  · rw [h₀.queue]
    rfl

/-- **The echo server.** In every run: what was sent back is a prefix of what was accepted for the
socket, each datagram cut to the buffer and sent to where it came from; while the main thread is
in its loop test or waits, all the rest is in the queue; and after SIGINT at most one more datagram
is received. -/
theorem echo_in_order {addr : SockAddrIn} {s₀ : AppSys} (hstart : AppSys.start addr = some s₀)
    {events : List EventHandler} {tr : List (AppAction × AppResult)} {s : AppSys}
    (hrun : Run (AppSys.Step events) s₀ tr s) :
    echoes tr <+: (acceptances tr).map appCopy ∧
    (∀ i, s.pc = .blocked i ∨ s.pc = .test ∧ i.val = s.soc →
      (acceptances tr).map appCopy = echoes tr ++ (s.pcbs i).queue.map appCopy) ∧
    ∀ before after, tr = before ++ (.sigint, .silent) :: after → (receipts after).length ≤ 1 := by
  obtain ⟨i, h₀⟩ := start_appStart hstart
  have hlog := run_echoLog h₀ hrun
  refine ⟨?_, fun j hj => ?_, fun before after htr => ?_⟩
  · exact (List.prefix_append (echoes tr) s.pc.toEcho).trans (hlog.echoed ▸ hlog.inOrder)
  · have hji : j = i := by
      rcases hj with hpc | ⟨-, hsoc⟩
      · exact hlog.inv.blocked j hpc
      · exact Fin.ext (by have := hlog.inv.soc; omega)
    subst hji
    have hnone : s.pc.toEcho = [] ∧ s.pc ≠ .exited := by
      rcases hj with hpc | ⟨hpc, -⟩
      · rw [hpc]
        exact ⟨rfl, by simp⟩
      · rw [hpc]
        exact ⟨rfl, by simp⟩
    have hall := hlog.queued hnone.2
    rw [hlog.echoed, hnone.1, List.append_nil] at hall
    exact hall
  · subst htr
    rw [← List.singleton_append, ← List.append_assoc] at hrun
    obtain ⟨s₁, hbefore, hafter⟩ := hrun.of_append
    obtain ⟨s₂, -, hsig⟩ := hbefore.of_snoc
    have hterm : s₁.terminate = true := by
      cases hsig
      rfl
    exact due_run (run_echoLog h₀ hbefore).inv hterm hafter

def echoPort : SockAddrIn := ⟨2, 0x0700#16, ipAddrAny⟩

/-- A datagram of two bytes wakes the main thread, which sends it back and sleeps again; then SIGINT
comes. -/
def echoThenSigint : List AppAction :=
  [.main 0 none true, .main 0 none true,
    .udpInput (true, true) helloDatagram 10 0x0100000a#32 0x0200000a#32, .main 0 none true,
    .main 0 (some 0x0200000a#32) true, .main 0 none true, .main 0 none true, .sigint, .kill,
    .networkEventHandler]

/-- SIGINT, and SIGUSR2 as its consequence, have been delivered. -/
structure Interrupted (s : AppSys) : Prop where
  terminate : s.terminate = true
  killing : s.killing = 0
  sigusr2 : s.sigusr2 = false

theorem echoThenSigint_run : ∃ s₀ tr s, AppSys.start echoPort = some s₀ ∧
    Run (AppSys.Step [.udpEventHandler]) s₀ tr s ∧ tr.map Prod.fst = echoThenSigint ∧
    echoes tr = [([104, 105], ⟨0x0100000a#32, 0x3930#16⟩)] ∧ Interrupted s := by
  have hall : ((AppSys.start echoPort).any fun s₀ =>
      (exec (AppSys.step [.udpEventHandler]) s₀ echoThenSigint).any fun r =>
        decide (echoes r.1 = [([104, 105], ⟨0x0100000a#32, 0x3930#16⟩)] ∧
          r.2.terminate = true ∧ r.2.killing = 0 ∧ r.2.sigusr2 = false)) = true := by
    decide +kernel
  obtain ⟨s₀, hstart, hexec⟩ := (Option.any_eq_true _ _).mp hall
  obtain ⟨tr, s, hrun, hmap, hcheck⟩ := exec_check _ s₀ echoThenSigint _ hexec
  obtain ⟨hechoes, hterm, hkilling, hsig⟩ := of_decide_eq_true hcheck
  exact ⟨s₀, tr, s, hstart, hrun, hmap, hechoes, hterm, hkilling, hsig⟩

theorem echoThenSigint_echoed : ∃ s₀ tr s, AppSys.start echoPort = some s₀ ∧
    Run (AppSys.Step [.udpEventHandler]) s₀ tr s ∧ tr.map Prod.fst = echoThenSigint ∧
    [([104, 105], ⟨0x0100000a#32, 0x3930#16⟩)] <+: (acceptances tr).map appCopy := by
  obtain ⟨s₀, tr, s, hstart, hrun, hmap, hechoes, -⟩ := echoThenSigint_run
  exact ⟨s₀, tr, s, hstart, hrun, hmap, hechoes ▸ (echo_in_order hstart hrun).1⟩

/-! ## Termination -/

/-- SIGUSR2 is on its way, or has come and the main thread cannot go to sleep. -/
def Alarmed (i : Fin udpPcbSize) (s : AppSys) : Prop :=
  s.killing ≠ 0 ∨ s.sigusr2 = true ∨
    (s.pcbs i).ctx.interrupted = true ∧ (s.pc = .blocked i → s.signalled = true)

/-- A main thread that is to terminate and is in `udp_recvfrom` is alarmed. -/
def Noticed (i : Fin udpPcbSize) (s : AppSys) : Prop :=
  s.terminate = true → s.Receiving i → Alarmed i s

theorem Alarmed.mono {i : Fin udpPcbSize} {s s' : AppSys} (h : Alarmed i s)
    (hk : s.killing ≠ 0 → s'.killing ≠ 0 ∨ s'.sigusr2 = true)
    (hs : s.sigusr2 = true → s'.sigusr2 = true)
    (hi : (s.pcbs i).ctx.interrupted = true → (s'.pcbs i).ctx.interrupted = true)
    (hpc : s'.pc = s.pc) (hsig : s.signalled = true → s'.signalled = true) : Alarmed i s' := by
  rcases h with h | h | ⟨h, hw⟩
  · exact (hk h).imp_right .inl
  · exact .inr (.inl (hs h))
  · exact .inr (.inr ⟨hi h, fun hb => hsig (hw (hpc ▸ hb))⟩)

theorem noticed_step {events : List EventHandler} (he : .udpEventHandler ∈ events)
    {i : Fin udpPcbSize} {s s' : AppSys} {a : AppAction} {r : AppResult} (hinv : AppInv i s)
    (h : Noticed i s) (ht : AppTrans events i s a r s') : Noticed i s' := by
  intro hterm hr
  cases ht with
  | test hpc =>
    -- the loop is left
    simp only at hterm
    rw [hterm, if_pos rfl] at hr
    rcases hr with hr | hr
    · cases hr
    · cases hr
  | received _ _ | interrupted _ | close _ =>
    rcases hr with hr | hr
    · cases hr
    · cases hr
  | echoed _ hnext =>
    rcases hnext with rfl | rfl
    · rcases hr with hr | hr
      · cases hr
      · cases hr
    · rcases hr with hr | hr
      · cases hr
      · cases hr
  | waiting hr' _ hclear =>
    -- a thread that goes to sleep was not interrupted
    rcases h hterm hr' with hk | hs | ⟨hi, -⟩
    · exact .inl hk
    · exact .inr (.inl hs)
    · rw [hclear] at hi
      cases hi
  | spurious => exact (h hterm hr).mono .inl id id rfl fun _ => rfl
  | sigint => exact .inl (Nat.succ_ne_zero _)
  | kill _ => exact .inr (.inl rfl)
  | event _ =>
    have heff := networkEventHandler_effect events i { s with sigusr2 := false }
    have hrun : s.pc ≠ .exited := heff.pc ▸ hr.running
    obtain ⟨hi, hw⟩ := networkEventHandler_interrupts he (s := { s with sigusr2 := false })
      (hinv.opened hrun)
    exact .inr (.inr ⟨hi, fun hb => hw (heff.pc ▸ hb)⟩)
  | inputDrop => exact h hterm hr
  | inputAccept _ hsig =>
    refine (h hterm hr).mono .inl id (fun hi => ?_) rfl hsig
    simp only [AppSys.setPcb, Function.update_self]
    exact hi

/-- The main thread is on its way out, and nothing can hold it up. -/
structure Leaving (i : Fin udpPcbSize) (s : AppSys) : Prop where
  inv : AppInv i s
  terminate : s.terminate = true
  awake : s.Receiving i → (s.pcbs i).ctx.interrupted = true ∧
    (s.pc = .blocked i → s.signalled = true)

/-- The steps of the main thread to its end, at most. -/
def AppPc.rank : AppPc → Nat
  | .recv | .blocked _ => 4
  | .send _ _ => 3
  | .test => 2
  | .close => 1
  | .exited => 0

def AppAction.isMain : AppAction → Bool
  | .main _ _ _ => true
  | .spuriousWakeup | .sigint | .kill | .networkEventHandler | .udpInput _ _ _ _ _ => false

theorem AppSys.Receiving.rank {i : Fin udpPcbSize} {s : AppSys} (h : s.Receiving i) :
    s.pc.rank = 4 := by
  rcases h with h | h
  · rw [h]
    rfl
  · rw [h]
    rfl

theorem Leaving.step {events : List EventHandler} {i : Fin udpPcbSize} {s s' : AppSys}
    {a : AppAction} {r : AppResult} (h : Leaving i s) (ht : AppTrans events i s a r s') :
    Leaving i s' ∧ s'.pc.rank + (if a.isMain then 1 else 0) ≤ s.pc.rank := by
  have hinv := h.inv.step ht
  have hout : ∀ {s' : AppSys}, AppInv i s' → s'.terminate = true → s'.pc ≠ .recv →
      s'.pc ≠ .blocked i → Leaving i s' := fun hinv hterm h₁ h₂ =>
    ⟨hinv, hterm, fun hr => absurd hr (not_or.mpr ⟨h₁, h₂⟩)⟩
  cases ht with
  | test hpc =>
    simp only [h.terminate, if_true] at hinv ⊢
    exact ⟨hout hinv rfl (by simp) (by simp), by rw [hpc]; exact Nat.le_refl 2⟩
  | received hr _ =>
    exact ⟨hout hinv h.terminate (by simp) (by simp), by rw [hr.rank]; exact Nat.le_refl 4⟩
  | interrupted hr =>
    exact ⟨hout hinv h.terminate (by simp) (by simp),
      by rw [hr.rank]; exact show 2 + 1 ≤ 4 by decide⟩
  | waiting hr _ hclear =>
    rw [(h.awake hr).1] at hclear
    cases hclear
  | echoed hpc hnext =>
    rw [hpc]
    rcases hnext with rfl | rfl
    · exact ⟨hout hinv h.terminate (by simp) (by simp), Nat.le_refl 3⟩
    · exact ⟨hout hinv h.terminate (by simp) (by simp), show 1 + 1 ≤ 3 by decide⟩
  | close hpc =>
    exact ⟨hout hinv h.terminate (by simp) (by simp), by rw [hpc]; exact Nat.le_refl 1⟩
  | spurious =>
    exact ⟨⟨hinv, h.terminate, fun hr => ⟨(h.awake hr).1, fun _ => rfl⟩⟩, Nat.le_refl _⟩
  | sigint => exact ⟨⟨hinv, rfl, h.awake⟩, Nat.le_refl _⟩
  | kill _ => exact ⟨⟨hinv, h.terminate, h.awake⟩, Nat.le_refl _⟩
  | event _ =>
    have heff := networkEventHandler_effect events i { s with sigusr2 := false }
    refine ⟨⟨hinv, heff.terminate.trans h.terminate, fun hr => ?_⟩, by rw [heff.pc]; exact le_rfl⟩
    rw [AppSys.Receiving, heff.pc] at hr
    obtain ⟨hi, hw⟩ := h.awake hr
    exact ⟨heff.interrupted hi, fun hb => heff.signalled (hw (heff.pc ▸ hb))⟩
  | inputDrop => exact ⟨h, Nat.le_refl _⟩
  | inputAccept _ hsig =>
    refine ⟨⟨hinv, h.terminate, fun hr => ?_⟩, Nat.le_refl _⟩
    obtain ⟨hi, hw⟩ := h.awake hr
    refine ⟨?_, fun hb => hsig (hw hb)⟩
    simp only [AppSys.setPcb, Function.update_self]
    exact hi

theorem Leaving.main_isSome {i : Fin udpPcbSize} {s : AppSys} (h : Leaving i s)
    (hpc : s.pc ≠ .exited) (destroy : Nat) (unicast : Option IPAddress) (sent : Bool) :
    (s.main destroy unicast sent).isSome = true := by
  cases hpc' : s.pc with
  | test | close => simp [AppSys.main, hpc']
  | recv | send _ _ => simp [AppSys.main, hpc', h.inv.desc]
  | blocked j =>
    obtain rfl := h.inv.blocked j hpc'
    simp [AppSys.main, hpc', (h.awake (.inr hpc')).2 hpc']
  | exited => exact absurd hpc' hpc

def mainSteps (tr : List (AppAction × AppResult)) : Nat := tr.countP (·.1.isMain)

/-- Whatever happens from `s` on, the main thread comes to its end in at most four more steps and is
never held up. -/
def Ends (events : List EventHandler) (s : AppSys) : Prop :=
  ∀ tr s', Run (AppSys.Step events) s tr s' → mainSteps tr ≤ 4 ∧
    (s'.pc ≠ .exited → ∀ destroy unicast sent, (s'.main destroy unicast sent).isSome = true)

theorem Leaving.ends {events : List EventHandler} {i : Fin udpPcbSize} {s : AppSys}
    (h : Leaving i s) : Ends events s := by
  intro tr s' hrun
  have hall : Leaving i s' ∧ s'.pc.rank + mainSteps tr ≤ s.pc.rank := by
    induction hrun with
    | nil => exact ⟨h, Nat.le_refl _⟩
    | snoc _ hl ih =>
      obtain ⟨hleaving, hle⟩ := ih
      obtain ⟨hleaving', hrank⟩ := hleaving.step (app_trans hleaving.inv hl)
      refine ⟨hleaving', ?_⟩
      rw [mainSteps] at hle ⊢
      rw [List.countP_append, List.countP_singleton]
      omega
  have hfour : s.pc.rank ≤ 4 := by
    cases s.pc with
    | recv | blocked _ => exact Nat.le_refl 4
    | send _ _ => exact show 3 ≤ 4 by decide
    | test => exact show 2 ≤ 4 by decide
    | close => exact show 1 ≤ 4 by decide
    | exited => exact Nat.zero_le 4
  exact ⟨by omega, hall.1.main_isSome⟩

theorem run_noticed {events : List EventHandler} (he : .udpEventHandler ∈ events)
    {i : Fin udpPcbSize} {s₀ s : AppSys} (h₀ : AppStart i s₀)
    {tr : List (AppAction × AppResult)} (hrun : Run (AppSys.Step events) s₀ tr s) :
    AppInv i s ∧ Noticed i s := by
  refine hrun.invariant (P := fun s => AppInv i s ∧ Noticed i s) ⟨h₀.inv, fun hterm => ?_⟩ ?_
  · rw [h₀.terminate] at hterm
    cases hterm
  · rintro s l s' ⟨hinv, hn⟩ hl
    have ht := app_trans hinv hl
    exact ⟨hinv.step ht, noticed_step he hinv hn ht⟩

/-- With no handler subscribed, a main thread that sleeps when SIGINT comes sleeps on. -/
theorem sleeps_on {i : Fin udpPcbSize} {s₀ : AppSys} (h₀ : AppStart i s₀) :
    ∃ tr s, Run (AppSys.Step []) s₀ tr s ∧ Interrupted s ∧ s.pc = .blocked i ∧
      s.signalled = false := by
  have hget : udpPcbGet s₀.pcbs i.val = some i :=
    udpPcbGet_some.mpr ⟨rfl, h₀.inv.opened (by simp [h₀.pc])⟩
  have htest : AppSys.Step [] s₀ (.main 0 none true, .silent) { s₀ with pc := .recv } := by
    simp [stepRel, AppSys.step, AppSys.main, h₀.pc, h₀.terminate]
  have hrecv : ∃ pcbs, AppSys.Step [] { s₀ with pc := .recv } (.main 0 none true, .silent)
      { s₀ with pcbs := pcbs, pc := .blocked i, signalled := false } := by
    simp [stepRel, AppSys.step, AppSys.main, h₀.inv.desc, udpRecvfrom, hget, udpRecvfromLoop,
      h₀.queue, h₀.ctx, schedSleepEnter, schedCtxInit, AppSys.afterRecv]
  obtain ⟨pcbs, hrecv⟩ := hrecv
  generalize ht : ({ s₀ with pcbs := pcbs, pc := .blocked i, signalled := false } : AppSys) = t
    at hrecv
  have hsigint : AppSys.Step [] t (.sigint, .silent)
      { t with terminate := true, killing := t.killing + 1 } := rfl
  have hkill : AppSys.Step [] { t with terminate := true, killing := t.killing + 1 }
      (.kill, .silent) { t with terminate := true, sigusr2 := true } := by
    simp [stepRel, AppSys.step]
  have hevent : AppSys.Step [] { t with terminate := true, sigusr2 := true }
      (.networkEventHandler, .silent) { t with terminate := true, sigusr2 := false } := by
    simp [stepRel, AppSys.step, AppSys.networkEventHandler]
  refine ⟨_, _, ((((Run.nil.snoc htest).snoc hrecv).snoc hsigint).snoc hkill).snoc hevent, ?_⟩
  subst ht
  exact ⟨⟨rfl, h₀.signals.1, rfl⟩, rfl, rfl⟩

/-- **Termination.** Once SIGINT has been delivered the main thread of the echo server comes to its
end, whatever else happens, exactly if the event handler of UDP is subscribed. -/
theorem termination_iff {addr : SockAddrIn} {s₀ : AppSys} (hstart : AppSys.start addr = some s₀)
    (events : List EventHandler) :
    (∀ tr s, Run (AppSys.Step events) s₀ tr s → Interrupted s → Ends events s) ↔
      .udpEventHandler ∈ events := by
  obtain ⟨i, h₀⟩ := start_appStart hstart
  constructor
  · intro hends
    cases events with
    | nil =>
      obtain ⟨tr, s, hrun, hint, hpc, hsig⟩ := sleeps_on h₀
      have hmain := (hends tr s hrun hint [] s .nil).2 (by simp [hpc]) 0 none true
      simp [AppSys.main, hpc, hsig] at hmain
    | cons e events =>
      cases e with
      | udpEventHandler => exact List.mem_cons_self
  · intro he tr s hrun hint
    obtain ⟨hinv, hn⟩ := run_noticed he h₀ hrun
    refine Leaving.ends ⟨hinv, hint.terminate, fun hr => ?_⟩
    rcases hn hint.terminate hr with hk | hs | hawake
    · exact absurd hint.killing hk
    · rw [hint.sigusr2] at hs
      cases hs
    · exact hawake

/-- From there on. -/
theorem echoThenSigint_ends : ∃ s₀ tr s, AppSys.start echoPort = some s₀ ∧
    Run (AppSys.Step [.udpEventHandler]) s₀ tr s ∧ tr.map Prod.fst = echoThenSigint ∧
    Ends [.udpEventHandler] s := by
  obtain ⟨s₀, tr, s, hstart, hrun, hmap, -, hint⟩ := echoThenSigint_run
  exact ⟨s₀, tr, s, hstart, hrun, hmap,
    (termination_iff hstart [.udpEventHandler]).mpr List.mem_cons_self tr s hrun hint⟩

end LLNStack
