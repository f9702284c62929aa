import LLNStack.Lib.Owns
import LLNStack.Udp.Receive

/-!
# LLNStack.Udp.Memory

`udp.c` with the entries of its queues as blocks of memory. `udp_input` allocates an entry and
pushes its address, `udp_recvfrom` pops one, unlocks the mutex, and only then copies the entry and
frees it, and `udp_pcb_release` frees all that is queued. A step that reads or frees a block that is
not allocated is a `fault`.

`udp_memory`: whatever calls run at the same time, there is no fault; a block stays allocated while
it is queued or in the hands of one `udp_recvfrom` call, and after that only if it was lost, which
is what happens to an entry when `queue_push` fails; and the calls behave as those of `UdpSys`,
where a queue holds the entries themselves.
-/

namespace LLNStack

open Lib

/-- A `udp_recvfrom` call behind `mutex_unlock`, with the entry it popped. -/
structure Holder (α : Type) where
  call : Nat
  size : Nat
  entry : α
  deriving DecidableEq, Repr

/-- The addresses in the queue of slot `i` are `queues i`; the queue in `pcbs i` is not used. -/
structure UdpMem (α : Type) where
  pcbs : Pcbs
  queues : Fin udpPcbSize → List α
  heap : α → Option UdpQueueEntry
  waiters : List Waiter
  holders : List (Holder α)

def UdpMem.init {α : Type} : UdpMem α := ⟨udpPcbsInit, fun _ => [], fun _ => none, [], []⟩

/-- As `UdpAction`. `udpInput` has the address of the entry, if there is memory for it, and whether
there is memory for the node of the queue. -/
inductive MemAction (α : Type) where
  | udpOpen
  | udpClose (id : Int) (destroy : Nat)
  | udpBind (id : Int) (localEp : IpEndpoint)
  | udpSendto (id : Int) (unicast : Option IPAddress)
  | udpInput (entry : Option α) (node : Bool) (data : Bytes) (len : Nat) (src dst : IPAddress)
  | eventHandler
  | udpRecvfrom (call : Nat) (id : Int) (size : Nat)
  | condWaitReturn (k : Nat) (destroy : Nat)
  | spuriousWakeup (k : Nat)
  /-- The end of a `udp_recvfrom` call, from `mutex_unlock` on. -/
  | copyEntry (k : Nat)
  deriving DecidableEq, Repr

inductive MemResult (α : Type) where
  | udp (r : UdpResult)
  /-- `udp_input` returns because `queue_push` has failed. -/
  | lost (entry : α)
  /-- A `udp_recvfrom` call has popped an entry and unlocked the mutex. -/
  | popped (call : Nat) (entry : α)
  | returned (call : Nat) (data : Bytes) (foreign : IpEndpoint)
  | fault
  deriving DecidableEq, Repr

namespace UdpMem

variable {α : Type} [DecidableEq α]

def orFault (m : UdpMem α) (r : UdpResult) : Option (UdpMem α) → UdpMem α × MemResult α
  | none => (m, .fault)
  | some m' => (m', .udp r)

def udpPcbRelease (destroy : Int) (m : UdpMem α) (i : Fin udpPcbSize) : Option (UdpMem α) :=
  let r := LLNStack.udpPcbRelease destroy m.pcbs i
  if r.2 then some { m with pcbs := r.1, waiters := broadcast (some i) m.waiters }
  else
    match freeAll m.heap (m.queues i) with
    | none => none
    | some heap =>
      some { m with pcbs := r.1, queues := Function.update m.queues i [], heap := heap }

/-- From the loop test of `udp_recvfrom` to `mutex_unlock` or to `pthread_cond_wait`. -/
def udpRecvfromLoop (m : UdpMem α) (call size : Nat) (i : Fin udpPcbSize) :
    UdpMem α × MemResult α :=
  match m.queues i with
  | entry :: rest =>
    ({ m with
      queues := Function.update m.queues i rest
      holders := m.holders ++ [⟨call, size, entry⟩] }, .popped call entry)
  | [] =>
    match schedSleepEnter (m.pcbs i).ctx with
    | none => (m, .udp (.failed call))
    | some ctx =>
      ({ m with
        pcbs := Function.update m.pcbs i { m.pcbs i with ctx := ctx }
        waiters := m.waiters ++ [⟨call, i, size, false⟩] }, .udp (.parked call i))

def leave (m : UdpMem α) (k : Nat) (w : Waiter) : UdpMem α :=
  { m with
    pcbs := Function.update m.pcbs w.pcb
      { m.pcbs w.pcb with ctx := (schedSleepLeave (m.pcbs w.pcb).ctx).1 }
    waiters := m.waiters.eraseIdx k }

def udpDeliver (m : UdpMem α) (entry : Option α) (node : Bool) (hdr : UdpHdr) (payload : Bytes)
    (src dst : IPAddress) : Option (UdpMem α × MemResult α) :=
  match udpPcbSelect m.pcbs dst hdr.dst with
  | none => some (m, .udp (.accepted none))
  | some i =>
    match entry with
    | none => some (m, .udp (.accepted none))
    | some p =>
      -- `memory_alloc` returns memory that is not in use
      if (m.heap p).isSome then none
      else
        let stored : UdpQueueEntry := ⟨⟨src, hdr.src⟩, payload⟩
        let heap := Function.update m.heap p (some stored)
        if node then
          some ({ m with
            heap := heap
            queues := Function.update m.queues i (m.queues i ++ [p])
            waiters := broadcast (some i) m.waiters }, .udp (.accepted (some (i, stored))))
        else some ({ m with heap := heap }, .lost p)

def step (m : UdpMem α) : MemAction α → Option (UdpMem α × MemResult α)
  | .udpOpen =>
    let r := LLNStack.udpOpen m.pcbs
    some ({ m with pcbs := r.1 }, .udp (.ret r.2))
  | .udpClose id destroy =>
    match udpPcbGet m.pcbs id with
    | none => some (m, .udp (.ret (-1)))
    | some i => some (m.orFault (.ret 0) (m.udpPcbRelease destroy i))
  | .udpBind id localEp =>
    let r := LLNStack.udpBind m.pcbs id localEp
    some ({ m with pcbs := r.1 }, .udp (.ret r.2))
  | .udpSendto id unicast =>
    let r := udpSendtoSource unicast m.pcbs id
    some ({ m with pcbs := r.1 }, .udp (.source r.2))
  | .udpInput entry node data len src dst =>
    match udpCheck data len src dst with
    | none => some (m, .udp (.accepted none))
    | some hdr =>
      m.udpDeliver entry node hdr ((data.drop udpHdrSize).take (len - udpHdrSize)) src dst
  | .eventHandler =>
    some ({ m with
      pcbs := udpEventHandler m.pcbs
      waiters := m.waiters.map fun w =>
        if (m.pcbs w.pcb).state = .stateOpen then { w with signalled := true } else w },
      .udp .done)
  | .udpRecvfrom call id size =>
    -- a thread makes one call at a time
    if m.waiters.any (·.call = call) ∨ m.holders.any (·.call = call) then none
    else
      match udpPcbGet m.pcbs id with
      | none => some (m, .udp (.failed call))
      | some i => some (m.udpRecvfromLoop call size i)
  | .condWaitReturn k destroy =>
    match m.waiters[k]? with
    | none => none
    | some w =>
      if w.signalled then
        let m' := m.leave k w
        if (schedSleepLeave (m.pcbs w.pcb).ctx).2 then some (m', .udp (.failed w.call))
        else if (m'.pcbs w.pcb).state = .stateClosing then
          some (m'.orFault (.failed w.call) (m'.udpPcbRelease destroy w.pcb))
        else some (m'.udpRecvfromLoop w.call w.size w.pcb)
      else none
  | .spuriousWakeup k =>
    match m.waiters[k]? with
    | none => none
    | some w =>
      some ({ m with waiters := m.waiters.set k { w with signalled := true } }, .udp .done)
  | .copyEntry k =>
    match m.holders[k]? with
    | none => none
    | some c =>
      match m.heap c.entry with
      | none => some (m, .fault)
      | some entry =>
        match free m.heap c.entry with
        | none => some (m, .fault)
        | some heap =>
          some ({ m with heap := heap, holders := m.holders.eraseIdx k },
            .returned c.call (udpRecvfromCopy entry c.size).1 (udpRecvfromCopy entry c.size).2)

abbrev Step : UdpMem α → MemAction α × MemResult α → UdpMem α → Prop := stepRel step

end UdpMem

/-! ## The queues as lists of entries -/

def withQueues (pcbs : Pcbs) (queues : Fin udpPcbSize → List UdpQueueEntry) : Pcbs :=
  fun i => { pcbs i with queue := queues i }

section WithQueues

variable (pcbs : Pcbs) (queues : Fin udpPcbSize → List UdpQueueEntry)

theorem withQueues_update (i : Fin udpPcbSize) (pcb : UdpPcb) :
    withQueues (Function.update pcbs i pcb) queues =
      Function.update (withQueues pcbs queues) i { pcb with queue := queues i } := by
  funext j
  by_cases hj : j = i
  · subst hj
    simp only [withQueues, Function.update_self]
  · simp only [withQueues, Function.update_of_ne hj]

theorem withQueues_queue (i : Fin udpPcbSize) (queue : List UdpQueueEntry) :
    withQueues pcbs (Function.update queues i queue) =
      Function.update (withQueues pcbs queues) i { pcbs i with queue := queue } := by
  funext j
  by_cases hj : j = i
  · subst hj
    simp only [withQueues, Function.update_self]
  · simp only [withQueues, Function.update_of_ne hj]

theorem udpPcbGet_withQueues (id : Int) :
    udpPcbGet (withQueues pcbs queues) id = udpPcbGet pcbs id := rfl

theorem firstSlot_withQueues {p : UdpPcb → Prop} [DecidablePred p]
    (hp : ∀ pcb queue, p { pcb with queue := queue } ↔ p pcb) :
    firstSlot (withQueues pcbs queues) p = firstSlot pcbs p := by
  unfold firstSlot
  congr 1
  funext i
  exact decide_eq_decide.mpr (hp (pcbs i) (queues i))

theorem udpPcbSelect_withQueues (addr : IPAddress) (port : BitVec 16) :
    udpPcbSelect (withQueues pcbs queues) addr port = udpPcbSelect pcbs addr port :=
  firstSlot_withQueues pcbs queues fun _ _ => Iff.rfl

theorem udpSourcePort_withQueues (addr : IPAddress) :
    udpSourcePort (withQueues pcbs queues) addr = udpSourcePort pcbs addr := by
  simp only [udpSourcePort, udpPcbSelect_withQueues]

theorem udpOpen_withQueues : udpOpen (withQueues pcbs queues) =
    (withQueues (udpOpen pcbs).1 queues, (udpOpen pcbs).2) := by
  have hfirst : firstSlot (withQueues pcbs queues) (·.state = .stateFree) =
      firstSlot pcbs (·.state = .stateFree) :=
    firstSlot_withQueues pcbs queues fun _ _ => Iff.rfl
  simp only [udpOpen, udpPcbAlloc, hfirst]
  cases firstSlot pcbs (·.state = .stateFree) with
  | none => rfl
  | some i =>
    simp only [withQueues_update]
    rfl

theorem udpBind_withQueues (id : Int) (localEp : IpEndpoint) :
    udpBind (withQueues pcbs queues) id localEp =
      (withQueues (udpBind pcbs id localEp).1 queues, (udpBind pcbs id localEp).2) := by
  simp only [udpBind, udpPcbGet_withQueues, udpPcbSelect_withQueues]
  cases udpPcbGet pcbs id with
  | none => rfl
  | some i =>
    cases udpPcbSelect pcbs localEp.address localEp.port with
    | some j => rfl
    | none =>
      simp only [withQueues_update]
      rfl

theorem udpSendtoSource_withQueues (unicast : Option IPAddress) (id : Int) :
    udpSendtoSource unicast (withQueues pcbs queues) id =
      (withQueues (udpSendtoSource unicast pcbs id).1 queues,
        (udpSendtoSource unicast pcbs id).2) := by
  simp only [udpSendtoSource, udpPcbGet_withQueues, udpSourcePort_withQueues]
  cases udpPcbGet pcbs id with
  | none => rfl
  | some i =>
    have hep : (withQueues pcbs queues i).localEp = (pcbs i).localEp := rfl
    simp only [hep]
    cases (if (pcbs i).localEp.address = ipAddrAny then unicast
      else some (pcbs i).localEp.address) with
    | none => rfl
    | some addr =>
      simp only
      split
      · cases udpSourcePort pcbs addr with
        | none => rfl
        | some port =>
          simp only [withQueues_update]
          rfl
      · rfl

theorem udpEventHandler_withQueues :
    udpEventHandler (withQueues pcbs queues) = withQueues (udpEventHandler pcbs) queues := by
  funext i
  by_cases hopen : (pcbs i).state = .stateOpen
  · simp only [udpEventHandler, withQueues, if_pos hopen]
    exact if_pos hopen
  · simp only [udpEventHandler, withQueues, if_neg hopen]
    exact if_neg hopen

end WithQueues

namespace UdpMem

variable {α : Type}

/-- The entries that the addresses in the queue of slot `i` point to. -/
def entries (m : UdpMem α) (i : Fin udpPcbSize) : List UdpQueueEntry :=
  (m.queues i).filterMap m.heap

/-- What the memory stands for. -/
def abs (m : UdpMem α) : UdpSys := ⟨withQueues m.pcbs m.entries, m.waiters⟩

def owned (m : UdpMem α) : Multiset α := pool m.queues + ↑(m.holders.map (·.entry))

/-- What a `udp_recvfrom` call returns with an entry. -/
def outcome (c : Holder α) (entry : UdpQueueEntry) : Nat × (Bytes × IpEndpoint) :=
  (c.call, udpRecvfromCopy entry c.size)

/-- What the calls behind `mutex_unlock` are going to return. -/
def pending (m : UdpMem α) : List (Nat × (Bytes × IpEndpoint)) :=
  m.holders.filterMap fun c => (m.heap c.entry).map (outcome c)

end UdpMem

/-- The call of `UdpSys` an action is. -/
def MemAction.udp {α : Type} : MemAction α → Option UdpAction
  | .udpOpen => some .udpOpen
  | .udpClose id destroy => some (.udpClose id destroy)
  | .udpBind id localEp => some (.udpBind id localEp)
  | .udpSendto id unicast => some (.udpSendto id unicast)
  | .udpInput entry node data len src dst => some (.udpInput (entry.isSome, node) data len src dst)
  | .eventHandler => some .eventHandler
  | .udpRecvfrom call id size => some (.udpRecvfrom call id size)
  | .condWaitReturn k destroy => some (.condWaitReturn k destroy)
  | .spuriousWakeup k => some (.spuriousWakeup k)
  | .copyEntry _ => none

def lostBy {α : Type} : MemAction α × MemResult α → Option α
  | (_, .lost p) => some p
  | _ => none

def returnedBy {α : Type} : MemAction α × MemResult α → Option (Nat × (Bytes × IpEndpoint))
  | (_, .returned call data foreign) => some (call, data, foreign)
  | _ => none

def receivedBy : UdpAction × UdpResult → Option (Nat × (Bytes × IpEndpoint))
  | (_, .received call _ _ data foreign) => some (call, data, foreign)
  | _ => none

/-! ## One step -/

/-- The step does not fault, keeps track of the blocks, and is a step of `UdpSys` or none. What a
call is given there, it returns when it has copied it. -/
structure Follows {α : Type} (m : UdpMem α) (l : MemAction α × MemResult α) (m' : UdpMem α)
    (lost : Multiset α) : Prop where
  sound : l.2 ≠ .fault
  owns : Owns m'.heap (m'.owned + (lost + ↑(lostBy l).toList))
  abstracts : ∃ labels, Run UdpSys.Step m.abs labels m'.abs ∧
    labels.map Prod.fst = l.1.udp.toList ∧
    ((returnedBy l).toList ++ m'.pending).Perm (m.pending ++ labels.filterMap receivedBy)

theorem owns_none {α : Type} {heap : α → Option UdpQueueEntry} {held lost : Multiset α}
    (h : Owns heap (held + lost)) : Owns heap (held + (lost + ↑(none : Option α).toList)) := by
  rw [Option.toList_none, Multiset.coe_nil, add_zero]
  exact h

namespace Follows

variable {α : Type} {m m' : UdpMem α} {lost : Multiset α} {a : MemAction α} {ua : UdpAction}

theorem of_step {res : MemResult α} {r : UdpResult} {s' : UdpSys} (ha : a.udp = some ua)
    (hstep : m.abs.step ua = some (s', r)) (habs : m'.abs = s')
    (hres : res ≠ .fault) (hret : returnedBy (a, res) = none)
    (howns : Owns m'.heap (m'.owned + (lost + ↑(lostBy (a, res)).toList)))
    (hpending : m'.pending = m.pending ++ (receivedBy (ua, r)).toList) :
    Follows m (a, res) m' lost := by
  subst habs
  refine ⟨hres, howns, [(ua, r)], .snoc .nil hstep, by rw [ha]; rfl, ?_⟩
  rw [hret, Option.toList_none, List.nil_append, hpending]
  cases hrecv : receivedBy (ua, r) with
  | none => simp [hrecv]
  | some x => simp [hrecv]

theorem of_table {r : UdpResult} {pcbs : Pcbs} {waiters : List Waiter}
    (h : Owns m.heap (m.owned + lost)) (ha : a.udp = some ua) (hr : receivedBy (ua, r) = none)
    (hstep : m.abs.step ua = some (⟨withQueues pcbs m.entries, waiters⟩, r)) :
    Follows m (a, .udp r) { m with pcbs := pcbs, waiters := waiters } lost := by
  refine of_step ha hstep rfl (by simp) rfl ?_ ?_
  · exact owns_none h
  · rw [hr, Option.toList_none, List.append_nil]
    rfl

end Follows

namespace UdpMem

variable {α : Type} {m m' : UdpMem α}

theorem mem_owned_of_queue {i : Fin udpPcbSize} {p : α} (h : p ∈ m.queues i) : p ∈ m.owned :=
  Multiset.mem_add.mpr (.inl (mem_pool h))

theorem mem_owned_of_holder {c : Holder α} (h : c ∈ m.holders) : c.entry ∈ m.owned :=
  Multiset.mem_add.mpr (.inr (Multiset.mem_coe.mpr (List.mem_map_of_mem h)))

theorem filterMap_heap {heap heap' : α → Option UdpQueueEntry} {queue : List α}
    (h : ∀ p ∈ queue, heap' p = heap p) : queue.filterMap heap' = queue.filterMap heap :=
  List.filterMap_congr h

theorem pending_eq (hholders : m'.holders = m.holders)
    (hheap : ∀ c ∈ m.holders, m'.heap c.entry = m.heap c.entry) : m'.pending = m.pending := by
  rw [pending, pending, hholders]
  refine List.filterMap_congr fun c hc => ?_
  rw [hheap c hc]

variable {lost : Multiset α}

/-- The loop of `udp_recvfrom`, in a call that may have left a wait before. -/
theorem recvfromLoop_follows (h : Owns m.heap (m.owned + lost)) (m₀ : UdpMem α) (call size : Nat)
    (i : Fin udpPcbSize) {a : MemAction α} {ua : UdpAction} (ha : a.udp = some ua)
    (hpend : m₀.pending = m.pending)
    (hstep : m₀.abs.step ua =
      some (UdpSys.finish m.abs call size (LLNStack.udpRecvfromLoop m.abs.pcbs i))) :
    Follows m₀ (a, (m.udpRecvfromLoop call size i).2) (m.udpRecvfromLoop call size i).1 lost := by
  have hqueue : (m.abs.pcbs i).queue = (m.queues i).filterMap m.heap := rfl
  cases hq : m.queues i with
  | nil =>
    rw [hq, List.filterMap_nil] at hqueue
    have hctx : (m.abs.pcbs i).ctx = (m.pcbs i).ctx := rfl
    simp only [LLNStack.udpRecvfromLoop, hqueue, hctx] at hstep
    simp only [udpRecvfromLoop, hq]
    cases hs : schedSleepEnter (m.pcbs i).ctx with
    | none =>
      rw [hs] at hstep
      refine .of_step ha hstep rfl (by simp) rfl (owns_none h) ?_
      rw [hpend]
      exact (List.append_nil _).symm
    | some ctx =>
      rw [hs] at hstep
      refine .of_step ha hstep ?_ (by simp) rfl (owns_none h) ?_
      · have hempty : m.entries i = [] := hqueue
        have hupdate := withQueues_update m.pcbs m.entries i { m.pcbs i with ctx := ctx }
        rw [hempty] at hupdate
        exact congrArg₂ UdpSys.mk hupdate rfl
      · rw [hpend]
        exact (List.append_nil _).symm
  | cons p rest =>
    obtain ⟨entry, hentry⟩ := h.get (p := p) (Multiset.mem_add.mpr (.inl (mem_owned_of_queue
      (m := m) (i := i) (by rw [hq]; exact List.mem_cons_self))))
    rw [hq, List.filterMap_cons_some hentry] at hqueue
    simp only [LLNStack.udpRecvfromLoop, hqueue] at hstep
    simp only [udpRecvfromLoop, hq]
    refine .of_step ha hstep ?_ (by simp) rfl ?_ ?_
    · have hentries : (fun j => (Function.update m.queues i rest j).filterMap m.heap) =
          Function.update m.entries i (rest.filterMap m.heap) := by
        funext j
        exact Function.apply_update (fun _ (q : List α) => q.filterMap m.heap) m.queues i rest j
      simp only [abs]
      unfold entries
      rw [hentries, withQueues_queue]
      rfl
    · have howned : pool (Function.update m.queues i rest) +
          ↑((m.holders ++ [Holder.mk call size p]).map Holder.entry) = m.owned := by
        rw [owned, ← pool_pop hq, List.map_append, ← Multiset.coe_add, List.map_singleton,
          Multiset.coe_singleton, Multiset.add_comm _ {p}, Multiset.singleton_add,
          Multiset.add_cons, Multiset.cons_add]
      refine owns_none ?_
      rw [owned, howned]
      exact h
    · rw [hpend]
      simp only [pending, List.filterMap_append, List.filterMap_cons, List.filterMap_nil, hentry]
      rfl

variable [DecidableEq α]

theorem update_owned (h : Owns m.heap (m.owned + lost)) {p : α} (hp : m.heap p = none)
    (v : Option UdpQueueEntry) : ∀ q ∈ m.owned, Function.update m.heap p v q = m.heap q := by
  intro q hq
  refine Function.update_of_ne ?_ _ _
  rintro rfl
  exact h.not_mem hp (Multiset.mem_add.mpr (.inl hq))

theorem entries_update (h : Owns m.heap (m.owned + lost)) {p : α} (hp : m.heap p = none)
    (v : Option UdpQueueEntry) (i : Fin udpPcbSize) :
    (m.queues i).filterMap (Function.update m.heap p v) = m.entries i :=
  filterMap_heap fun q hq => update_owned h hp v q (mem_owned_of_queue hq)

theorem pushed_follows (h : Owns m.heap (m.owned + lost)) {p : α} (hp : m.heap p = none)
    {i : Fin udpPcbSize} {stored : UdpQueueEntry} {a : MemAction α} {ua : UdpAction}
    (ha : a.udp = some ua)
    (hstep : m.abs.step ua = some (⟨Function.update m.abs.pcbs i
      { m.abs.pcbs i with queue := m.entries i ++ [stored] }, broadcast (some i) m.waiters⟩,
      .accepted (some (i, stored)))) :
    Follows m (a, .udp (.accepted (some (i, stored))))
      { m with
        heap := Function.update m.heap p (some stored)
        queues := Function.update m.queues i (m.queues i ++ [p])
        waiters := broadcast (some i) m.waiters } lost := by
  have hnew : (m.queues i ++ [p]).filterMap (Function.update m.heap p (some stored)) =
      m.entries i ++ [stored] := by
    rw [List.filterMap_append, entries_update h hp]
    simp
  refine .of_step ha hstep ?_ (by simp) rfl ?_ ?_
  · have hentries : (fun j => (Function.update m.queues i (m.queues i ++ [p]) j).filterMap
        (Function.update m.heap p (some stored))) =
        Function.update m.entries i (m.entries i ++ [stored]) := by
      funext j
      by_cases hj : j = i
      · subst hj
        rw [Function.update_self, Function.update_self, hnew]
      · rw [Function.update_of_ne hj, Function.update_of_ne hj, entries_update h hp]
    simp only [abs]
    unfold entries
    rw [hentries, withQueues_queue]
    rfl
  · have halloc := h.alloc hp stored
    simp only [owned, pool_push, lostBy, Option.toList_none, Multiset.coe_nil, add_zero,
      Multiset.cons_add] at halloc ⊢
    exact halloc
  · change _ = m.pending ++ []
    rw [List.append_nil]
    exact pending_eq rfl fun c hc => update_owned h hp _ c.entry (mem_owned_of_holder hc)

theorem lost_follows (h : Owns m.heap (m.owned + lost)) {p : α} (hp : m.heap p = none)
    {stored : UdpQueueEntry} {a : MemAction α} {ua : UdpAction} (ha : a.udp = some ua)
    (hstep : m.abs.step ua = some (m.abs, .accepted none)) :
    Follows m (a, .lost p) { m with heap := Function.update m.heap p (some stored) } lost := by
  refine .of_step ha hstep ?_ (by simp) rfl ?_ ?_
  · simp only [abs]
    unfold entries
    simp only [entries_update h hp]
    rfl
  · have halloc := h.alloc hp stored
    rw [← Multiset.singleton_add, add_comm, add_assoc] at halloc
    exact halloc
  · change _ = m.pending ++ []
    rw [List.append_nil]
    exact pending_eq rfl fun c hc => update_owned h hp _ c.entry (mem_owned_of_holder hc)

theorem input_follows (h : Owns m.heap (m.owned + lost)) {entry : Option α} {node : Bool}
    {data : Bytes} {len : Nat} {src dst : IPAddress} {r : MemResult α}
    (hstep : m.step (.udpInput entry node data len src dst) = some (m', r)) :
    Follows m (.udpInput entry node data len src dst, r) m' lost := by
  have hdrop : m.abs.step (.udpInput (entry.isSome, node) data len src dst) =
      some (m.abs, .accepted none) →
      Follows m (.udpInput entry node data len src dst, .udp (.accepted none)) m lost :=
    fun habs => .of_table h rfl rfl habs
  simp only [step] at hstep
  cases hck : udpCheck data len src dst with
  | none =>
    rw [hck] at hstep
    cases hstep
    exact hdrop (by simp [UdpSys.step, udpInput, hck, broadcast])
  | some hdr =>
    have hsel : udpPcbSelect m.abs.pcbs dst hdr.dst = udpPcbSelect m.pcbs dst hdr.dst :=
      udpPcbSelect_withQueues m.pcbs m.entries dst hdr.dst
    rw [hck] at hstep
    simp only [udpDeliver] at hstep
    split at hstep
    · rename_i hnone
      cases hstep
      exact hdrop (by
        simp [UdpSys.step, udpInput, hck, LLNStack.udpDeliver, hsel, hnone, broadcast])
    · rename_i i hsome
      split at hstep
      · cases hstep
        exact hdrop (by
          simp [UdpSys.step, udpInput, hck, LLNStack.udpDeliver, hsel, hsome, broadcast])
      · rename_i p
        split at hstep
        · cases hstep
        · rename_i hfree
          have hp : m.heap p = none := by simpa using hfree
          split at hstep
          · rename_i hnode
            cases hstep
            subst hnode
            refine pushed_follows h hp rfl ?_
            simp only [UdpSys.step, udpInput, hck, LLNStack.udpDeliver, hsel, hsome,
              Option.isSome_some, Bool.and_self, if_true, Option.map_some]
            rfl
          · rename_i hnode
            cases hstep
            have hnode' : node = false := by simpa using hnode
            subst hnode'
            refine lost_follows h hp rfl ?_
            simp [UdpSys.step, udpInput, hck, LLNStack.udpDeliver, hsel, hsome, broadcast]

theorem release_follows (h : Owns m.heap (m.owned + lost)) (m₀ : UdpMem α) (destroy : Nat)
    (i : Fin udpPcbSize) {a : MemAction α} {ua : UdpAction} {r : UdpResult} (ha : a.udp = some ua)
    (hpend : m₀.pending = m.pending) (hr : receivedBy (ua, r) = none)
    (hstep : m₀.abs.step ua = some (⟨(LLNStack.udpPcbRelease destroy m.abs.pcbs i).1,
      m.waiters⟩, r)) :
    Follows m₀ (a, (m.orFault r (m.udpPcbRelease destroy i)).2)
      (m.orFault r (m.udpPcbRelease destroy i)).1 lost := by
  have howned : m.owned + lost = ↑(m.queues i) +
      (pool (Function.update m.queues i []) + ↑(m.holders.map (·.entry)) + lost) := by
    rw [owned, ← pool_clear m.queues i]
    simp only [add_assoc]
  rw [howned] at h
  obtain ⟨heap, hfree, howns, hkept⟩ := h.freeAll
  simp only [udpPcbRelease, udpPcbRelease_natCast, hfree, orFault, Bool.false_eq_true, if_false]
  rw [udpPcbRelease_natCast] at hstep
  refine .of_step ha hstep ?_ (by simp) rfl ?_ ?_
  · have hentries : (fun j => (Function.update m.queues i [] j).filterMap heap) =
        Function.update m.entries i [] := by
      funext j
      by_cases hj : j = i
      · subst hj
        simp
      · rw [Function.update_of_ne hj, Function.update_of_ne hj]
        refine filterMap_heap fun p hp => hkept p ?_
        have hmem : p ∈ Function.update m.queues i [] j := by
          rw [Function.update_of_ne hj]
          exact hp
        exact Multiset.mem_add.mpr (.inl (Multiset.mem_add.mpr (.inl (mem_pool hmem))))
    simp only [abs]
    unfold entries
    rw [hentries, withQueues_queue, withQueues_update, Function.update_idem,
      Function.update_self]
    rfl
  · exact owns_none howns
  · rw [hr, Option.toList_none, List.append_nil, hpend]
    refine pending_eq rfl fun c hc => hkept c.entry ?_
    exact Multiset.mem_add.mpr (.inl (Multiset.mem_add.mpr (.inr
      (Multiset.mem_coe.mpr (List.mem_map_of_mem hc)))))

theorem copyEntry_follows (h : Owns m.heap (m.owned + lost)) {k : Nat} {r : MemResult α}
    (hstep : m.step (.copyEntry k) = some (m', r)) : Follows m (.copyEntry k, r) m' lost := by
  simp only [step] at hstep
  split at hstep
  · cases hstep
  · rename_i c hc
    have hperm : (c :: m.holders.eraseIdx k).Perm m.holders := by
      obtain ⟨hk, hget⟩ := List.getElem?_eq_some_iff.mp hc
      rw [← hget]
      exact List.getElem_cons_eraseIdx_perm hk
    have howned : m.owned + lost = c.entry ::ₘ (pool m.queues +
        ↑((m.holders.eraseIdx k).map Holder.entry) + lost) := by
      rw [owned, ← Multiset.coe_eq_coe.mpr (hperm.map Holder.entry), List.map_cons,
        ← Multiset.cons_coe, Multiset.add_cons, Multiset.cons_add]
    rw [howned] at h
    obtain ⟨entry, hentry⟩ := h.get (Multiset.mem_cons_self _ _)
    obtain ⟨hfree, howns⟩ := h.free
    have hother : ∀ p ∈ pool m.queues + ↑((m.holders.eraseIdx k).map Holder.entry),
        Function.update m.heap c.entry none p = m.heap p := by
      intro p hp
      refine Function.update_of_ne ?_ _ _
      rintro rfl
      exact (Multiset.nodup_cons.mp h.nodup).1 (Multiset.mem_add.mpr (.inl hp))
    simp only [hentry, hfree, Option.some.injEq, Prod.mk.injEq] at hstep
    obtain ⟨rfl, rfl⟩ := hstep
    refine ⟨by simp, owns_none howns, [], ?_, rfl, ?_⟩
    · have habs : abs { m with
          heap := Function.update m.heap c.entry none
          holders := m.holders.eraseIdx k } = m.abs := by
        refine congrArg₂ UdpSys.mk (congrArg (withQueues m.pcbs) (funext fun j => ?_)) rfl
        exact filterMap_heap fun p hp => hother p (Multiset.mem_add.mpr (.inl (mem_pool hp)))
      rw [habs]
      exact .nil
    · -- the other calls find their entries as they were
      have hrest : (m.holders.eraseIdx k).filterMap (fun d =>
          (Function.update m.heap c.entry none d.entry).map (outcome d)) =
          (m.holders.eraseIdx k).filterMap (fun d => (m.heap d.entry).map (outcome d)) := by
        refine List.filterMap_congr fun d hd => ?_
        rw [hother d.entry (Multiset.mem_add.mpr (.inr
          (Multiset.mem_coe.mpr (List.mem_map_of_mem hd))))]
      have hfirst := hperm.filterMap fun d => (m.heap d.entry).map (outcome d)
      rw [List.filterMap_cons, hentry] at hfirst
      simp only [pending, returnedBy, hrest, List.filterMap_nil, List.append_nil]
      exact hfirst

theorem condWaitReturn_leave {s : UdpSys} {k : Nat} {w : Waiter} (destroy : Nat)
    (hw : s.waiters[k]? = some w) (hsignalled : w.signalled = true)
    (hintr : ¬ (schedSleepLeave (s.pcbs w.pcb).ctx).2 = true) :
    s.step (.condWaitReturn k destroy) =
      if (s.pcbs w.pcb).state = .stateClosing then
        some (⟨(LLNStack.udpPcbRelease destroy (s.leave k w).pcbs w.pcb).1, (s.leave k w).waiters⟩,
          .failed w.call)
      else
        some ((s.leave k w).finish w.call w.size
          (LLNStack.udpRecvfromLoop (s.leave k w).pcbs w.pcb)) := by
  have hstate : (Function.update s.pcbs w.pcb { s.pcbs w.pcb with
      ctx := (schedSleepLeave (s.pcbs w.pcb).ctx).1 } w.pcb).state = (s.pcbs w.pcb).state := by
    rw [Function.update_self]
  simp only [UdpSys.step, hw, hsignalled, if_true, udpRecvfromWoken, hstate]
  rw [if_neg hintr]
  split
  · rw [udpPcbRelease_natCast]
    rfl
  · rfl

theorem condWaitReturn_follows (h : Owns m.heap (m.owned + lost)) {k destroy : Nat}
    {r : MemResult α} (hstep : m.step (.condWaitReturn k destroy) = some (m', r)) :
    Follows m (.condWaitReturn k destroy, r) m' lost := by
  have habs : ∀ w, (m.leave k w).abs = m.abs.leave k w := fun w =>
    congrArg₂ UdpSys.mk (withQueues_update m.pcbs m.entries w.pcb _) rfl
  simp only [step] at hstep
  split at hstep
  · cases hstep
  · rename_i w hw
    have hw' : m.abs.waiters[k]? = some w := hw
    split at hstep
    · rename_i hsignalled
      have hctx : (m.abs.pcbs w.pcb).ctx = (m.pcbs w.pcb).ctx := rfl
      have hstate : ((m.leave k w).pcbs w.pcb).state = (m.abs.pcbs w.pcb).state := by
        simp only [leave, Function.update_self]
        rfl
      split at hstep
      · rename_i hintr
        cases hstep
        refine .of_step rfl (r := .failed w.call) ?_ (habs w) (by simp) rfl (owns_none h)
          (List.append_nil _).symm
        simp only [UdpSys.step, hw', hsignalled, if_true, udpRecvfromWoken, hctx, hintr]
        rfl
      · rename_i hintr
        split at hstep
        · rename_i hclosing
          rw [hstate] at hclosing
          have heq := Option.some.inj hstep
          have hfollows := release_follows (m := m.leave k w) h m destroy w.pcb
            (a := .condWaitReturn k destroy) (r := .failed w.call) rfl rfl rfl (by
              rw [habs w, condWaitReturn_leave destroy hw' hsignalled hintr, if_pos hclosing]
              rfl)
          rw [heq] at hfollows
          exact hfollows
        · rename_i hclosing
          rw [hstate] at hclosing
          have heq := Option.some.inj hstep
          have hfollows := recvfromLoop_follows (m := m.leave k w) h m w.call w.size w.pcb
            (a := .condWaitReturn k destroy) rfl rfl (by
              rw [habs w, condWaitReturn_leave destroy hw' hsignalled hintr, if_neg hclosing])
          rw [heq] at hfollows
          exact hfollows
    · cases hstep

theorem step_follows (h : Owns m.heap (m.owned + lost)) {l : MemAction α × MemResult α}
    (hstep : Step m l m') : Follows m l m' lost := by
  obtain ⟨a, r⟩ := l
  have hstep : m.step a = some (m', r) := hstep
  cases a with
  | udpOpen =>
    cases hstep
    refine .of_table h rfl rfl ?_
    simp only [UdpSys.step, abs, udpOpen_withQueues]
  | udpClose id destroy =>
    have hget : udpPcbGet m.abs.pcbs id = udpPcbGet m.pcbs id := rfl
    simp only [step] at hstep
    split at hstep
    · rename_i hnone
      cases hstep
      refine .of_table h rfl rfl ?_
      simp only [UdpSys.step, udpClose, hget, hnone]
      rfl
    · rename_i i hsome
      have heq := Option.some.inj hstep
      have hfollows := release_follows h m destroy i
        (a := .udpClose id destroy) (r := .ret 0) rfl rfl rfl (by
          simp only [UdpSys.step, udpClose, hget, hsome, udpPcbRelease_natCast]
          rfl)
      rw [heq] at hfollows
      exact hfollows
  | udpBind id localEp =>
    cases hstep
    refine .of_table h rfl rfl ?_
    simp only [UdpSys.step, abs, udpBind_withQueues]
  | udpSendto id unicast =>
    cases hstep
    refine .of_table h rfl rfl ?_
    simp only [UdpSys.step, abs, udpSendtoSource_withQueues]
  | udpInput entry node data len src dst => exact input_follows h hstep
  | eventHandler =>
    cases hstep
    refine .of_table h rfl rfl ?_
    simp only [UdpSys.step, abs, udpEventHandler_withQueues]
    rfl
  | udpRecvfrom call id size =>
    have hget : udpPcbGet m.abs.pcbs id = udpPcbGet m.pcbs id := rfl
    simp only [step] at hstep
    split at hstep
    · cases hstep
    · rename_i hfresh
      have hnot : m.abs.waiters.any (·.call = call) = false :=
        Bool.eq_false_of_not_eq_true (not_or.mp hfresh).1
      split at hstep
      · rename_i hnone
        cases hstep
        refine .of_table h rfl rfl ?_
        simp only [UdpSys.step, hnot, LLNStack.udpRecvfrom, hget, hnone]
        rfl
      · rename_i i hsome
        have heq := Option.some.inj hstep
        have hfollows := recvfromLoop_follows h m call size i
          (a := .udpRecvfrom call id size) rfl rfl (by
            simp only [UdpSys.step, hnot, LLNStack.udpRecvfrom, hget, hsome]
            rfl)
        rw [heq] at hfollows
        exact hfollows
  | condWaitReturn k destroy => exact condWaitReturn_follows h hstep
  | spuriousWakeup k =>
    simp only [step] at hstep
    split at hstep
    · cases hstep
    · rename_i w hw
      cases hstep
      refine .of_table h rfl rfl ?_
      have hw' : m.abs.waiters[k]? = some w := hw
      simp only [UdpSys.step, hw']
      rfl
  | copyEntry k => exact copyEntry_follows h hstep

end UdpMem

/-! ## Whole runs -/

/-- **Memory of UDP.** For every interleaving of the calls of `udp.c`, `udp_recvfrom` ending outside
of the mutex: no freed block is read or freed again; every block is in one queue, or in the hands of
one `udp_recvfrom` call, or was lost by a `udp_input` in which `queue_push` failed, and those are
all the allocated ones; and the run is one of `UdpSys`, in which the calls receive what they return
here. -/
theorem udp_memory {α : Type} [DecidableEq α] {tr : List (MemAction α × MemResult α)} {m : UdpMem α}
    (hrun : Run UdpMem.Step .init tr m) :
    (∀ l ∈ tr, l.2 ≠ .fault) ∧ Owns m.heap (m.owned + ↑(tr.filterMap lostBy)) ∧
      ∃ labels, Run UdpSys.Step .init labels m.abs ∧
        labels.map Prod.fst = tr.filterMap (·.1.udp) ∧
        (tr.filterMap returnedBy ++ m.pending).Perm (labels.filterMap receivedBy) := by
  refine hrun.history (P := fun tr m => (∀ l ∈ tr, l.2 ≠ .fault) ∧
    Owns m.heap (m.owned + ↑(tr.filterMap lostBy)) ∧
    ∃ labels, Run UdpSys.Step .init labels m.abs ∧ labels.map Prod.fst = tr.filterMap (·.1.udp) ∧
      (tr.filterMap returnedBy ++ m.pending).Perm (labels.filterMap receivedBy)) ?_ ?_
  · refine ⟨by simp, ?_, [], .nil, rfl, .nil⟩
    have hnone : (UdpMem.init : UdpMem α).owned = 0 := by
      simp [UdpMem.init, UdpMem.owned, pool]
    rw [List.filterMap_nil, hnone]
    exact .empty
  · rintro tr m l m' - ⟨hsound, howns, labels, hlabels, hmap, hperm⟩ hl
    obtain ⟨hsound', howns', labels', hlabels', hmap', hperm'⟩ := UdpMem.step_follows howns hl
    refine ⟨forall_mem_snoc hsound hsound', ?_, labels ++ labels', hlabels.append hlabels', ?_, ?_⟩
    · rw [filterMap_snoc, ← Multiset.coe_add]
      exact howns'
    · rw [List.map_append, hmap, hmap', filterMap_snoc]
    · rw [filterMap_snoc, List.filterMap_append, List.append_assoc]
      refine (hperm'.append_left _).trans ?_
      rw [← List.append_assoc]
      exact hperm.append_right _

/-- Two datagrams, of which the second is lost; the first is popped, and returned when the PCB has
been closed. -/
def closedUnderCopy : List (MemAction Nat) :=
  [.udpOpen, .udpBind 0 ⟨ipAddrAny, 0x0700#16⟩,
    .udpInput (some 0) true helloDatagram 10 0x0100000a#32 0x0200000a#32,
    .udpInput (some 1) false helloDatagram 10 0x0100000a#32 0x0200000a#32,
    .udpRecvfrom 0 0 1, .udpClose 0 0, .copyEntry 0]

/-- At the end the lost block is the only one. -/
theorem closedUnderCopy_lost : ∃ tr m, Run UdpMem.Step UdpMem.init tr m ∧
    tr.map Prod.fst = closedUnderCopy ∧ tr.filterMap lostBy = [1] ∧
    (tr.filterMap returnedBy).length = 1 ∧ (∀ l ∈ tr, l.2 ≠ .fault) ∧
    ∀ p, (m.heap p).isSome ↔ p = 1 := by
  obtain ⟨tr, m, hrun, hmap, hcheck⟩ := exec_check UdpMem.step UdpMem.init closedUnderCopy
    (fun r => decide (r.1.filterMap lostBy = [1] ∧ (r.1.filterMap returnedBy).length = 1 ∧
      (∀ i, r.2.queues i = []) ∧ r.2.holders = [])) (by decide +kernel)
  obtain ⟨hlost, hreturned, hqueues, hholders⟩ := of_decide_eq_true hcheck
  obtain ⟨hsound, howns, -⟩ := udp_memory hrun
  have hpool : pool m.queues = 0 := Finset.sum_eq_zero fun i _ => congrArg _ (hqueues i)
  refine ⟨tr, m, hrun, hmap, hlost, hreturned, hsound, fun p => ?_⟩
  rw [howns.allocated p, hlost, UdpMem.owned, hholders, hpool]
  simp

end LLNStack
