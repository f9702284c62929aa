import LLNStack.Net.Device

/-!
# LLNStack.Net.Protocol

The protocol list of `net.c` with its input queues. `networkProtocolRegister` adds to the list,
`networkInputHandler` queues received data and `networkProtocolHandler` drains the queues. Handlers
are named by a type `η` and act on a state `σ`; a handler returns the calls of
`network_input_handler` that were made while it ran, which is how a loopback device feeds the queues
that are being drained.

* `networkProtocolHandler_input`: data that arrives when every queue is empty is handled once, and
  if its handler causes no further input then the queues are empty again.
* `frame_received`: a frame is queued once by the device it is addressed to, with its padding.
-/

namespace LLNStack

open Lib

variable {η σ : Type}

/-- `struct network_protocol`; a queue entry is the data and the index of its device. -/
structure NetworkProtocol (η : Type) where
  type : BitVec 16
  queue : List (Bytes × Nat)
  handler : η

/-- `alloc`: whether the protocol can be allocated. -/
def networkProtocolRegister (alloc : Bool) (type : BitVec 16) (handler : η)
    (protocols : List (NetworkProtocol η)) : List (NetworkProtocol η) × Int :=
  if protocols.any (·.type = type) then (protocols, -1)
  else if alloc then (⟨type, [], handler⟩ :: protocols, 0) else (protocols, -1)

structure NetworkInput where
  type : BitVec 16
  data : Bytes
  dev : Nat
  deriving DecidableEq, Repr

/-- `alloc`: whether the entry and its queue node can be allocated. -/
def networkInputHandler (alloc : Bool) (input : NetworkInput) :
    List (NetworkProtocol η) → List (NetworkProtocol η) × Int
  | [] => ([], 0)
  | proto :: rest =>
    if proto.type = input.type then
      if alloc then
        ({ proto with queue := proto.queue ++ [(input.data, input.dev)] } :: rest, 0)
      else (proto :: rest, -1)
    else
      (proto :: (networkInputHandler alloc input rest).1,
        (networkInputHandler alloc input rest).2)

def networkInputs (protocols : List (NetworkProtocol η)) (inputs : List NetworkInput) :
    List (NetworkProtocol η) :=
  inputs.foldl (fun protocols input => (networkInputHandler true input protocols).1) protocols

/-- `network_protocol_handler` at the protocol in position `k`. -/
def networkProtocolLoop (handle : η → Bytes × Nat → σ → σ × List NetworkInput) :
    Nat → Nat → List (NetworkProtocol η) → σ → Option (List (NetworkProtocol η) × σ)
  | 0, _, _, _ => none
  | fuel + 1, k, protocols, s =>
    match protocols[k]? with
    | none => some (protocols, s)
    | some proto =>
      match proto.queue with
      | [] => networkProtocolLoop handle fuel (k + 1) protocols s
      | entry :: rest =>
        networkProtocolLoop handle fuel k
          (networkInputs (protocols.set k { proto with queue := rest })
            (handle proto.handler entry s).2)
          (handle proto.handler entry s).1

def networkProtocolHandler (handle : η → Bytes × Nat → σ → σ × List NetworkInput) (fuel : Nat)
    (protocols : List (NetworkProtocol η)) (s : σ) : Option (List (NetworkProtocol η) × σ) :=
  networkProtocolLoop handle fuel 0 protocols s

/-! ## Input to idle queues -/

def Idle (protocols : List (NetworkProtocol η)) : Prop := ∀ proto ∈ protocols, proto.queue = []

theorem networkProtocolLoop_skip (handle : η → Bytes × Nat → σ → σ × List NetworkInput)
    {protocols : List (NetworkProtocol η)} {proto : NetworkProtocol η} {k : Nat}
    (hk : protocols[k]? = some proto) (hq : proto.queue = []) (fuel : Nat) (s : σ) :
    networkProtocolLoop handle (fuel + 1) k protocols s =
      networkProtocolLoop handle fuel (k + 1) protocols s := by
  simp only [networkProtocolLoop, hk, hq]

theorem networkProtocolLoop_idle (handle : η → Bytes × Nat → σ → σ × List NetworkInput)
    {protocols : List (NetworkProtocol η)} (hidle : Idle protocols) {fuel k : Nat}
    (hfuel : protocols.length < fuel + k) (s : σ) (h0 : 0 < fuel) :
    networkProtocolLoop handle fuel k protocols s = some (protocols, s) := by
  induction fuel generalizing k with
  | zero => omega
  | succ fuel ih =>
    cases hk : protocols[k]? with
    | none => simp only [networkProtocolLoop, hk]
    | some proto =>
      have hlt := (List.getElem?_eq_some_iff.mp hk).1
      rw [networkProtocolLoop_skip handle hk (hidle proto (List.mem_of_getElem? hk))]
      exact ih (by omega) (by omega)

theorem networkProtocolLoop_append (handle : η → Bytes × Nat → σ → σ × List NetworkInput)
    (pre done post : List (NetworkProtocol η)) (hpre : Idle pre) (fuel : Nat) (s : σ) :
    networkProtocolLoop handle (pre.length + fuel) done.length (done ++ (pre ++ post)) s =
      networkProtocolLoop handle fuel (done.length + pre.length) (done ++ (pre ++ post)) s := by
  induction pre generalizing done with
  | nil => simp
  | cons proto pre ih =>
    have hk : (done ++ (proto :: pre ++ post))[done.length]? = some proto := by simp
    have hq := hpre proto List.mem_cons_self
    have ih := ih (done ++ [proto]) fun p hp => hpre p (List.mem_cons_of_mem _ hp)
    simp only [List.append_assoc, List.cons_append, List.nil_append, List.length_append,
      List.length_cons, List.length_nil] at ih hk ⊢
    rw [Nat.add_right_comm, networkProtocolLoop_skip handle hk hq, ih]
    congr 1
    omega

theorem networkInputHandler_append {pre post : List (NetworkProtocol η)}
    {proto : NetworkProtocol η} {input : NetworkInput} (hpre : ∀ p ∈ pre, p.type ≠ input.type)
    (hproto : proto.type = input.type) :
    (networkInputHandler true input (pre ++ proto :: post)).1 =
      pre ++ { proto with queue := proto.queue ++ [(input.data, input.dev)] } :: post := by
  induction pre with
  | nil => simp [networkInputHandler, hproto]
  | cons p pre ih =>
    have hp := hpre p List.mem_cons_self
    have ih := ih fun q hq => hpre q (List.mem_cons_of_mem _ hq)
    simp only [List.cons_append, networkInputHandler, hp, if_false, ih]

theorem networkInputHandler_noMemory (input : NetworkInput)
    (protocols : List (NetworkProtocol η)) :
    (networkInputHandler false input protocols).1 = protocols := by
  induction protocols with
  | nil => rfl
  | cons proto rest ih =>
    rw [networkInputHandler]
    split
    · rfl
    · simp only [ih]

theorem networkProtocolHandler_input (handle : η → Bytes × Nat → σ → σ × List NetworkInput)
    {protocols : List (NetworkProtocol η)} {proto : NetworkProtocol η} {input : NetworkInput}
    {s s' : σ} (hidle : Idle protocols)
    (hproto : protocols.find? (·.type = input.type) = some proto)
    (hhandle : handle proto.handler (input.data, input.dev) s = (s', [])) {fuel : Nat}
    (hfuel : protocols.length + 2 ≤ fuel) :
    networkProtocolHandler handle fuel (networkInputHandler true input protocols).1 s =
      some (protocols, s') := by
  obtain ⟨htype, pre, post, rfl, hpre⟩ := List.find?_eq_some_iff_append.mp hproto
  have hproto' : proto.type = input.type := by simpa using htype
  have hpre' : ∀ p ∈ pre, p.type ≠ input.type := by simpa using hpre
  have hq : proto.queue = [] := hidle proto (by simp)
  have hidle' : Idle pre := fun p hp => hidle p (by simp [hp])
  have hset : (pre ++ { proto with queue := [(input.data, input.dev)] } :: post).set pre.length
      { proto with queue := [] } = pre ++ proto :: post := by
    rw [List.set_append_right _ _ (Nat.le_refl _), Nat.sub_self, List.set_cons_zero, ← hq]
  rw [networkInputHandler_append hpre' hproto', hq, List.nil_append, networkProtocolHandler]
  -- past the protocols before this one, then the entry, then the rest
  obtain ⟨fuel, rfl⟩ : ∃ f, fuel = pre.length + (f + 1) := ⟨fuel - pre.length - 1, by
    simp only [List.length_append, List.length_cons] at hfuel; omega⟩
  simp only [List.length_append, List.length_cons] at hfuel
  have hskip := networkProtocolLoop_append handle pre []
    ({ proto with queue := [(input.data, input.dev)] } :: post) hidle' (fuel + 1) s
  simp only [List.nil_append, List.length_nil, Nat.zero_add] at hskip
  rw [hskip, networkProtocolLoop]
  simp only [List.getElem?_append_right (Nat.le_refl _), Nat.sub_self, List.getElem?_cons_zero,
    hhandle, networkInputs, List.foldl_nil, hset]
  refine networkProtocolLoop_idle handle hidle ?_ s' (by omega)
  simp only [List.length_append, List.length_cons]
  omega

/-! ## Frames -/

/-- The whole of `ether_poll_helper`, on a device and with the protocols of its host. -/
def etherPollInput (alloc : Bool) (dev : NetworkDevice) (frame : Bytes)
    (protocols : List (NetworkProtocol η)) : List (NetworkProtocol η) × Int :=
  match etherPollHelper dev.address frame with
  | none => (protocols, -1)
  | some (type, data) => networkInputHandler alloc ⟨type, data, dev.index⟩ protocols

theorem etherPollInput_etherFrame (alloc : Bool) (dev : NetworkDevice) {src dst : EtherAddr}
    {type : BitVec 16} {data : Bytes} (hlen : data.length ≤ 1500)
    (protocols : List (NetworkProtocol η)) :
    etherPollInput alloc dev (etherFrame src type data dst) protocols =
      if dst = dev.address ∨ dst = etherAddrBroadcast then
        networkInputHandler alloc
          ⟨type, data ++ List.replicate (46 - data.length) 0, dev.index⟩ protocols
      else (protocols, -1) := by
  rw [etherPollInput, etherPollHelper_etherFrame hlen]
  split
  · rename_i h
    split at h
    · cases h
    · rename_i hdst
      rw [if_neg hdst]
  · rename_i h
    split at h
    · rename_i hdst
      cases h
      rw [if_pos hdst]
    · cases h

/-- **Frames.** A frame that one device sends with up to 1500 bytes of a type that is registered at
the receiver: if it is addressed to the receiving device or to all, the payload with its padding is
one more entry of the queue of this type, and nothing else changes; otherwise nothing changes at
all. -/
theorem frame_received (sender dev : NetworkDevice) (type : BitVec 16) {data : Bytes}
    (dst : EtherAddr) {protocols : List (NetworkProtocol η)} (hlen : data.length ≤ 1500)
    (hreg : ∃ proto ∈ protocols, proto.type = type) :
    (dst = dev.address ∨ dst = etherAddrBroadcast →
      (∃ pre proto post, protocols = pre ++ proto :: post ∧ proto.type = type ∧
        (∀ p ∈ pre, p.type ≠ type) ∧
        (etherPollInput true dev (etherFrame sender.address type data dst) protocols).1 =
          pre ++ { proto with
            queue := proto.queue ++
              [(data ++ List.replicate (46 - data.length) 0, dev.index)] } :: post) ∧
      (etherPollInput false dev (etherFrame sender.address type data dst) protocols).1 =
        protocols) ∧
    (¬ (dst = dev.address ∨ dst = etherAddrBroadcast) → ∀ alloc,
      (etherPollInput alloc dev (etherFrame sender.address type data dst) protocols).1 =
        protocols) := by
  refine ⟨fun hdst => ⟨?_, ?_⟩, fun hdst alloc => ?_⟩
  · obtain ⟨proto, hproto⟩ : ∃ proto, protocols.find? (·.type = type) = some proto := by
      rw [← Option.isSome_iff_exists, List.find?_isSome]
      simpa using hreg
    obtain ⟨htype, pre, post, hsplit, hpre⟩ := List.find?_eq_some_iff_append.mp hproto
    have htype' : proto.type = type := by simpa using htype
    have hpre' : ∀ p ∈ pre, p.type ≠ type := by simpa using hpre
    refine ⟨pre, proto, post, hsplit, htype', hpre', ?_⟩
    rw [etherPollInput_etherFrame true dev hlen, if_pos hdst, hsplit]
    exact networkInputHandler_append hpre' htype'
  · rw [etherPollInput_etherFrame false dev hlen, if_pos hdst, networkInputHandler_noMemory]
  · rw [etherPollInput_etherFrame alloc dev hlen, if_neg hdst]

/-- One byte in a broadcast frame, with 45 bytes of padding. -/
theorem shortFrame_received :
    let dev : NetworkDevice := ⟨[], 0, networkDeviceTypeEthernet, 1500, networkDeviceFlagUp,
      .ofBytes 2 0 0 0 0 1, etherAddrBroadcast, .etherTransmit⟩
    let protocols : List (NetworkProtocol Unit) :=
      [⟨networkProtocolTypeArp, [], ()⟩, ⟨networkProtocolTypeIp, [], ()⟩]
    ∃ pre proto post, protocols = pre ++ proto :: post ∧ proto.type = networkProtocolTypeIp ∧
      (etherPollInput true dev (etherFrame (.ofBytes 2 0 0 0 0 2) networkProtocolTypeIp [0x61]
        etherAddrBroadcast) protocols).1 =
        pre ++ { proto with
          queue := proto.queue ++ [([0x61] ++ List.replicate 45 0, 0)] } :: post := by
  intro dev protocols
  have hlen : ([0x61] : Bytes).length ≤ 1500 := by decide
  have hreg : ∃ proto ∈ protocols, proto.type = networkProtocolTypeIp :=
    ⟨_, List.mem_cons_of_mem _ List.mem_cons_self, rfl⟩
  obtain ⟨⟨pre, proto, post, hsplit, htype, -, hres⟩, -⟩ := (frame_received
    { dev with address := .ofBytes 2 0 0 0 0 2 } dev networkProtocolTypeIp etherAddrBroadcast
    hlen hreg).1 (.inr rfl)
  exact ⟨pre, proto, post, hsplit, htype, hres⟩

end LLNStack
