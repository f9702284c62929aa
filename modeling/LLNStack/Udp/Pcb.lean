import LLNStack.Lib.Table
import LLNStack.Udp.Datagram
import LLNStack.Sync

/-!
# LLNStack.Udp.Pcb

The PCB table of `udp.c` and the parts of the UDP operations that run with the mutex held. Each
takes the table and returns the new one with its result. What comes from outside is an argument:
whether `memory_alloc` succeeds, the result of `pthread_cond_destroy`, and for `udp_sendto` the
unicast address of the interface that `ip_get_interface` finds.

`udp_recvfrom` is cut at `pthread_cond_wait`: `udpRecvfrom` runs up to the return or the wait,
`udpRecvfromWoken` from the end of a wait to the return or the next wait.
-/

namespace LLNStack

open Lib

inductive UdpPcbState where
  | stateFree
  | stateOpen
  | stateClosing
  deriving DecidableEq, Repr

structure UdpQueueEntry where
  foreign : IpEndpoint
  data : Bytes
  deriving DecidableEq, Repr

structure UdpPcb where
  state : UdpPcbState
  localEp : IpEndpoint
  queue : List UdpQueueEntry
  ctx : SchedCtx
  deriving DecidableEq, Repr

abbrev udpPcbSize : Nat := 16

abbrev Pcbs := Fin udpPcbSize → UdpPcb

/-- The table before the first call: static storage, all zero. -/
def udpPcbsInit : Pcbs := fun _ => ⟨.stateFree, ⟨ipAddrAny, 0⟩, [], ⟨false, 0⟩⟩

/-! ## The table -/

def udpPcbAlloc (pcbs : Pcbs) : Option (Fin udpPcbSize × Pcbs) :=
  match firstSlot pcbs (·.state = .stateFree) with
  | some i =>
    some (i, Function.update pcbs i { pcbs i with state := .stateOpen, ctx := schedCtxInit })
  | none => none

/-- `destroy` is what `sched_ctx_destroy` returns. The flag says whether the waiters were woken. -/
def udpPcbRelease (destroy : Int) (pcbs : Pcbs) (i : Fin udpPcbSize) : Pcbs × Bool :=
  if destroy = -1 then
    (Function.update pcbs i { pcbs i with state := .stateClosing }, true)
  else
    (Function.update pcbs i
      { pcbs i with state := .stateFree, localEp := ⟨ipAddrAny, 0⟩, queue := [] }, false)

/-- The test of `udp_pcb_select` on one PCB. -/
def UdpPcb.Eligible (pcb : UdpPcb) (addr : IPAddress) (port : BitVec 16) : Prop :=
  pcb.state = .stateOpen ∧
    (pcb.localEp.address = ipAddrAny ∨ pcb.localEp.address = addr) ∧ pcb.localEp.port = port

instance (pcb : UdpPcb) (addr : IPAddress) (port : BitVec 16) :
    Decidable (pcb.Eligible addr port) :=
  inferInstanceAs (Decidable (_ ∧ (_ ∨ _) ∧ _))

def udpPcbSelect (pcbs : Pcbs) (addr : IPAddress) (port : BitVec 16) : Option (Fin udpPcbSize) :=
  firstSlot pcbs (·.Eligible addr port)

def udpPcbGet (pcbs : Pcbs) (id : Int) : Option (Fin udpPcbSize) :=
  if h : 0 ≤ id ∧ id < udpPcbSize then
    let i : Fin udpPcbSize := ⟨id.toNat, by omega⟩
    if (pcbs i).state = .stateOpen then some i else none
  else none

/-! ## The operations -/

/-- `udp_input` from `mutex_lock` on, for a datagram that passed its checks. The result names the
PCB whose waiters were woken and the entry pushed on its queue. -/
def udpDeliver (allocs : Bool × Bool) (pcbs : Pcbs) (hdr : UdpHdr) (payload : Bytes)
    (src dst : IPAddress) : Pcbs × Option (Fin udpPcbSize × UdpQueueEntry) :=
  match udpPcbSelect pcbs dst hdr.dst with
  | none => (pcbs, none)
  | some i =>
    if allocs.1 && allocs.2 then
      let entry : UdpQueueEntry := ⟨⟨src, hdr.src⟩, payload⟩
      (Function.update pcbs i { pcbs i with queue := (pcbs i).queue ++ [entry] },
        some (i, entry))
    else (pcbs, none)

/-- `allocs`: whether the entry and its queue node can be allocated. -/
def udpInput (allocs : Bool × Bool) (pcbs : Pcbs) (data : Bytes) (len : Nat)
    (src dst : IPAddress) : Pcbs × Option (Fin udpPcbSize × UdpQueueEntry) :=
  match udpCheck data len src dst with
  | none => (pcbs, none)
  | some hdr =>
    udpDeliver allocs pcbs hdr ((data.drop udpHdrSize).take (len - udpHdrSize)) src dst

def udpEventHandler (pcbs : Pcbs) : Pcbs := fun i =>
  if (pcbs i).state = .stateOpen then { pcbs i with ctx := schedInterrupt (pcbs i).ctx }
  else pcbs i

def udpOpen (pcbs : Pcbs) : Pcbs × Int :=
  match udpPcbAlloc pcbs with
  | none => (pcbs, -1)
  | some (i, pcbs') => (pcbs', i.val)

/-- The slot, if any, is the one whose waiters were woken. -/
def udpClose (destroy : Int) (pcbs : Pcbs) (id : Int) : Pcbs × Int × Option (Fin udpPcbSize) :=
  match udpPcbGet pcbs id with
  | none => (pcbs, -1, none)
  | some i =>
    ((udpPcbRelease destroy pcbs i).1, 0,
      if (udpPcbRelease destroy pcbs i).2 then some i else none)

def udpBind (pcbs : Pcbs) (id : Int) (localEp : IpEndpoint) : Pcbs × Int :=
  match udpPcbGet pcbs id with
  | none => (pcbs, -1)
  | some i =>
    match udpPcbSelect pcbs localEp.address localEp.port with
    | some _ => (pcbs, -1)
    | none => (Function.update pcbs i { pcbs i with localEp := localEp }, 0)

def udpSourcePortMin : Nat := 49152
def udpSourcePortMax : Nat := 65535

/-- The search of `udp_sendto` for a local port, in network order. -/
def udpSourcePort (pcbs : Pcbs) (addr : IPAddress) : Option (BitVec 16) :=
  ((List.range' udpSourcePortMin (udpSourcePortMax + 1 - udpSourcePortMin)).map
    fun p => hton16 .little (BitVec.ofNat 16 p)).find?
      fun port => (udpPcbSelect pcbs addr port).isNone

/-- `udp_sendto` up to `mutex_unlock`: the source endpoint, or `none` if it returns -1. `unicast`
is the unicast address of `ip_get_interface(foreign->address)`. -/
def udpSendtoSource (unicast : Option IPAddress) (pcbs : Pcbs) (id : Int) :
    Pcbs × Option IpEndpoint :=
  match udpPcbGet pcbs id with
  | none => (pcbs, none)
  | some i =>
    match if (pcbs i).localEp.address = ipAddrAny then unicast
      else some (pcbs i).localEp.address with
    | none => (pcbs, none)
    | some addr =>
      if (pcbs i).localEp.port = 0 then
        match udpSourcePort pcbs addr with
        | none => (pcbs, none)
        | some port =>
          (Function.update pcbs i
            { pcbs i with localEp := ⟨(pcbs i).localEp.address, port⟩ }, some ⟨addr, port⟩)
      else (pcbs, some ⟨addr, (pcbs i).localEp.port⟩)

/-- How far a `udp_recvfrom` call gets, and on which PCB. All but `received` and `waiting` return
-1. -/
inductive UdpRecv where
  | notFound
  | received (i : Fin udpPcbSize) (entry : UdpQueueEntry)
  | interrupted
  | closed
  | waiting (i : Fin udpPcbSize)
  deriving DecidableEq, Repr

/-- From the loop test of `udp_recvfrom` to the return or to `pthread_cond_wait`. -/
def udpRecvfromLoop (pcbs : Pcbs) (i : Fin udpPcbSize) : Pcbs × UdpRecv :=
  match (pcbs i).queue with
  | entry :: rest => (Function.update pcbs i { pcbs i with queue := rest }, .received i entry)
  | [] =>
    match schedSleepEnter (pcbs i).ctx with
    | none => (pcbs, .interrupted)
    | some ctx => (Function.update pcbs i { pcbs i with ctx := ctx }, .waiting i)

def udpRecvfrom (pcbs : Pcbs) (id : Int) : Pcbs × UdpRecv :=
  match udpPcbGet pcbs id with
  | none => (pcbs, .notFound)
  | some i => udpRecvfromLoop pcbs i

/-- `udp_recvfrom` on PCB `i` once `pthread_cond_wait` has returned. The slot, if any, is the one
whose waiters were woken by the release. -/
def udpRecvfromWoken (destroy : Int) (pcbs : Pcbs) (i : Fin udpPcbSize) :
    Pcbs × UdpRecv × Option (Fin udpPcbSize) :=
  let leave := schedSleepLeave (pcbs i).ctx
  let pcbs' := Function.update pcbs i { pcbs i with ctx := leave.1 }
  if leave.2 then (pcbs', .interrupted, none)
  else if (pcbs' i).state = .stateClosing then
    ((udpPcbRelease destroy pcbs' i).1, .closed,
      if (udpPcbRelease destroy pcbs' i).2 then some i else none)
  else ((udpRecvfromLoop pcbs' i).1, (udpRecvfromLoop pcbs' i).2, none)

/-- What a successful `udp_recvfrom` stores for its caller: `MIN(size, entry->len)` bytes and the
sender. -/
def udpRecvfromCopy (entry : UdpQueueEntry) (size : Nat) : Bytes × IpEndpoint :=
  (entry.data.take size, entry.foreign)

/-! ## What the lookups find -/

theorem udpPcbAlloc_some {pcbs pcbs' : Pcbs} {i : Fin udpPcbSize}
    (h : udpPcbAlloc pcbs = some (i, pcbs')) :
    (pcbs i).state = .stateFree ∧
      pcbs' = Function.update pcbs i { pcbs i with state := .stateOpen, ctx := schedCtxInit } := by
  simp only [udpPcbAlloc] at h
  split at h
  · rename_i j hj
    cases h
    exact ⟨firstSlot_some hj, rfl⟩
  · cases h

theorem udpPcbAlloc_none {pcbs : Pcbs} :
    udpPcbAlloc pcbs = none ↔ ∀ i, (pcbs i).state ≠ .stateFree := by
  rw [udpPcbAlloc]
  split
  · rename_i i hi
    simp only [reduceCtorEq, false_iff, not_forall, not_not]
    exact ⟨i, firstSlot_some hi⟩
  · rename_i hn
    simpa only [true_iff] using firstSlot_none.mp hn

theorem udpPcbSelect_some {pcbs : Pcbs} {addr : IPAddress} {port : BitVec 16}
    {i : Fin udpPcbSize} (h : udpPcbSelect pcbs addr port = some i) :
    (pcbs i).Eligible addr port := firstSlot_some h

theorem udpPcbSelect_none {pcbs : Pcbs} {addr : IPAddress} {port : BitVec 16} :
    udpPcbSelect pcbs addr port = none ↔ ∀ i, ¬ (pcbs i).Eligible addr port := firstSlot_none

theorem udpPcbGet_some {pcbs : Pcbs} {id : Int} {i : Fin udpPcbSize} :
    udpPcbGet pcbs id = some i ↔ id = i.val ∧ (pcbs i).state = .stateOpen := by
  simp only [udpPcbGet]
  split
  · rename_i h
    split
    · rename_i hs
      constructor
      · intro hi; cases hi; exact ⟨by simp [Int.toNat_of_nonneg h.1], hs⟩
      · rintro ⟨rfl, _⟩; simp
    · rename_i hs
      simp only [reduceCtorEq, false_iff]
      rintro ⟨rfl, ho⟩
      exact hs (by simpa using ho)
  · rename_i h
    simp only [reduceCtorEq, false_iff]
    rintro ⟨rfl, _⟩
    exact h ⟨by omega, by have := i.isLt; omega⟩

theorem udpSourcePort_some {pcbs : Pcbs} {addr : IPAddress} {port : BitVec 16}
    (h : udpSourcePort pcbs addr = some port) :
    (∃ p, 49152 ≤ p ∧ p ≤ 65535 ∧ port = hton16 .little (BitVec.ofNat 16 p)) ∧
      ∀ i, ¬ (pcbs i).Eligible addr port := by
  rw [udpSourcePort] at h
  have hmem := List.mem_of_find?_eq_some h
  have hsel := List.find?_some h
  rw [List.mem_map] at hmem
  obtain ⟨p, hp, rfl⟩ := hmem
  rw [List.mem_range'_1] at hp
  simp only [udpSourcePortMin, udpSourcePortMax] at hp
  refine ⟨⟨p, by omega, by omega, rfl⟩, ?_⟩
  rw [Option.isNone_iff_eq_none] at hsel
  exact udpPcbSelect_none.mp hsel

theorem hton16_ofNat_ne_zero {p : Nat} (h0 : p ≠ 0) (h : p ≤ 65535) :
    hton16 .little (BitVec.ofNat 16 p) ≠ 0 := by
  intro h'
  have h0' : hton16 .little (BitVec.ofNat 16 p) = hton16 .little 0 := h'
  have := congrArg BitVec.toNat (hton16_injective _ h0')
  simp only [BitVec.toNat_ofNat, BitVec.ofNat_eq_ofNat, Nat.zero_mod] at this
  omega

theorem udpSourcePort_ne_zero {pcbs : Pcbs} {addr : IPAddress} {port : BitVec 16}
    (h : udpSourcePort pcbs addr = some port) : port ≠ 0 := by
  obtain ⟨⟨p, hlo, hhi, rfl⟩, _⟩ := udpSourcePort_some h
  exact hton16_ofNat_ne_zero (by omega) hhi

/-- There are more ephemeral ports than PCBs, so the search finds one. -/
theorem udpSourcePort_isSome (pcbs : Pcbs) (addr : IPAddress) :
    ∃ port, udpSourcePort pcbs addr = some port := by
  rw [← Option.isSome_iff_exists]
  by_contra hn
  rw [Option.not_isSome_iff_eq_none, udpSourcePort, List.find?_eq_none] at hn
  -- otherwise each of the first 17 ports of the range is held by a PCB of its own
  have hheld : ∀ k : Fin 17, ∃ i,
      (pcbs i).Eligible addr (hton16 .little (BitVec.ofNat 16 (49152 + k.val))) := by
    intro k
    have hk := hn (hton16 .little (BitVec.ofNat 16 (49152 + k.val)))
      (List.mem_map.mpr ⟨_, List.mem_range'_1.mpr ⟨?_, ?_⟩, rfl⟩)
    · rw [Option.isNone_iff_eq_none, udpPcbSelect_none] at hk
      push Not at hk
      exact hk
    · simp [udpSourcePortMin]
    · have := k.isLt
      simp only [udpSourcePortMin, udpSourcePortMax]
      omega
  choose f hf using hheld
  have hinj : Function.Injective f := by
    intro k l hkl
    have h1 := (hf k).2.2
    have h2 := (hf l).2.2
    rw [hkl] at h1
    have h3 := congrArg BitVec.toNat (hton16_injective _ (h1.symm.trans h2))
    have hk := k.isLt; have hl := l.isLt
    simp only [BitVec.toNat_ofNat] at h3
    apply Fin.ext
    omega
  have hcard := Fintype.card_le_of_injective f hinj
  simp [udpPcbSize] at hcard

/-! ## Sent datagrams are received -/

theorem udpSendtoSource_unicast {pcbs : Pcbs} {i : Fin udpPcbSize} {unicast : IPAddress}
    (hopen : (pcbs i).state = .stateOpen)
    (haddr : (pcbs i).localEp.address = ipAddrAny ∨ (pcbs i).localEp.address = unicast) :
    ∃ pcbs' port, udpSendtoSource (some unicast) pcbs i.val = (pcbs', some ⟨unicast, port⟩) ∧
      (pcbs' i).localEp.port = port := by
  have hget := udpPcbGet_some.mpr ⟨rfl, hopen⟩
  have hsrc : (if (pcbs i).localEp.address = ipAddrAny then some unicast
      else some (pcbs i).localEp.address) = some unicast := by
    split
    · rfl
    · rw [haddr.resolve_left ‹_›]
  simp only [udpSendtoSource, hget, hsrc]
  by_cases hport : (pcbs i).localEp.port = 0
  · obtain ⟨port, hp⟩ := udpSourcePort_isSome pcbs unicast
    simp only [hport, if_true, hp]
    exact ⟨_, port, rfl, by rw [Function.update_self]⟩
  · rw [if_neg hport]
    exact ⟨pcbs, _, rfl, rfl⟩

theorem udpInput_udpDatagram {pcbs : Pcbs} {src dst : IpEndpoint} {data d : Bytes}
    {i : Fin udpPcbSize} (hd : udpDatagram src dst data = some d)
    (hsel : udpPcbSelect pcbs dst.address dst.port = some i) (rest : Bytes) :
    (udpInput (true, true) pcbs (d ++ rest) d.length src.address dst.address).1 =
      Function.update pcbs i { pcbs i with queue := (pcbs i).queue ++ [⟨src, data⟩] } := by
  obtain ⟨hdr, hck, hsrc, hdst, hdrop⟩ := udpCheck_udpDatagram hd rest
  have htake : (data ++ rest).take (d.length - 8) = data := by
    rw [length_udpDatagram hd, Nat.add_sub_cancel_left, List.take_left]
  simp only [udpInput, hck, udpDeliver, hdst, hsel, hsrc, udpHdrSize, hdrop, htake]
  rfl

theorem udpRecvfrom_enqueued {pcbs : Pcbs} {i : Fin udpPcbSize} {entry : UdpQueueEntry}
    (hopen : (pcbs i).state = .stateOpen) (before : List UdpQueueEntry)
    (hq : (pcbs i).queue = before ++ [entry]) :
    (udpRecvfrom ((fun pcbs => (udpRecvfrom pcbs i.val).1)^[before.length] pcbs) i.val).2 =
      .received i entry := by
  have hget := udpPcbGet_some.mpr ⟨rfl, hopen⟩
  induction before generalizing pcbs with
  | nil =>
    rw [List.nil_append] at hq
    simp only [List.length_nil, Function.iterate_zero, id_eq, udpRecvfrom, hget, udpRecvfromLoop,
      hq]
  | cons e before ih =>
    have hrecv : (udpRecvfrom pcbs i.val).1 =
        Function.update pcbs i { pcbs i with queue := before ++ [entry] } := by
      simp only [udpRecvfrom, hget, udpRecvfromLoop, hq, List.cons_append]
    have hopen' : ((udpRecvfrom pcbs i.val).1 i).state = .stateOpen := by
      rw [hrecv, Function.update_self]
      exact hopen
    rw [List.length_cons, Function.iterate_succ_apply]
    refine ih hopen' ?_ (udpPcbGet_some.mpr ⟨rfl, hopen'⟩)
    rw [hrecv, Function.update_self]

end LLNStack
