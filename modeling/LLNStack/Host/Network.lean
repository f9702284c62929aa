import LLNStack.Host.Traffic
import LLNStack.Udp.System

/-!
# LLNStack.Host.Network

Stacks on one Ethernet, each with its own applications, in any interleaving. The network does not
make frames up, but it may do anything with those that were sent: lose them, hold them back, and
give them to any device of any stack, as often as it likes.

`datagram_integrity`: what `udp_recvfrom` can return is what some `udp_sendto` was called with.

The argument follows the data. What a stack gives to a device is `Genuine`: an ARP message, an ICMP
message, or a datagram that was sent. Frames and queues hold nothing else, and of these only a
datagram gets into a PCB.
-/

namespace LLNStack

open Lib

structure Datagram where
  src : IpEndpoint
  dst : IpEndpoint
  data : Bytes
  deriving DecidableEq, Repr

/-- The stacks, and every frame that was given to a driver. -/
structure Network (H : Type) where
  hosts : H → Stack
  wire : List Bytes

inductive NetworkAction (H : Type) where
  /-- An action of stack `h`, other than the arrival of a frame. -/
  | act (h : H) (a : StackAction)
  /-- Frame `k` of those that were sent arrives at device `n` of stack `h`. -/
  | deliver (h : H) (n k : Nat)

def Transmission.frame : Transmission → Option Bytes
  | .wire _ frame => some frame
  | .loopback _ _ _ => none

def StackAction.isPoll : StackAction → Bool
  | .poll _ _ => true
  | _ => false

/-- The call of `udp_output` that `udp_sendto` makes. -/
def Stack.output (s : Stack) : StackAction → Option Datagram
  | .udpSendto id data foreign =>
    (udpSendtoSource ((ipGetInterface s.host.routes foreign.address).map (·.unicast))
      s.host.pcbs id).2.map fun src => ⟨src, foreign, data⟩
  | _ => none

namespace Network

variable {H : Type} [DecidableEq H]

def init (nodes : H → Node) : Network H := ⟨fun h => (nodes h).stack, []⟩

def move (env : H → Env) (s : Network H) (h : H) (a : StackAction) :
    Option (Network H × Option Datagram) :=
  ((s.hosts h).step (env h) a).map fun r =>
    (⟨Function.update s.hosts h r.1, s.wire ++ r.2.filterMap Transmission.frame⟩,
      (s.hosts h).output a)

def step (env : H → Env) (s : Network H) : NetworkAction H → Option (Network H × Option Datagram)
  | .act h a => if a.isPoll then none else s.move env h a
  | .deliver h n k =>
    match s.wire[k]? with
    | none => none
    | some frame => s.move env h (.poll n frame)

abbrev Step (env : H → Env) :
    Network H → NetworkAction H × Option Datagram → Network H → Prop := stepRel (step env)

end Network

def sentDatagrams {H : Type} (tr : List (NetworkAction H × Option Datagram)) : List Datagram :=
  tr.filterMap Prod.snd

/-! ## Genuine data -/

/-- What devices are given, of a type, when these datagrams were sent. -/
inductive Genuine (sent : List Datagram) : BitVec 16 → Bytes → Prop where
  | arp (data : Bytes) : Genuine sent networkProtocolTypeArp data
  | icmp {msg : Bytes} (src dst : IPAddress) (id : BitVec 16) : msg.length ≤ 65515 →
      Genuine sent networkProtocolTypeIp (ipPacket icmpProtocol msg src dst id 0)
  | udp {d : Datagram} {bytes : Bytes} (id : BitVec 16) : d ∈ sent →
      udpDatagram d.src d.dst d.data = some bytes →
      Genuine sent networkProtocolTypeIp
        (ipPacket udpProtocol bytes d.src.address d.dst.address id 0)

theorem Genuine.mono {sent sent' : List Datagram} (h : sent ⊆ sent') {type : BitVec 16}
    {data : Bytes} (hg : Genuine sent type data) : Genuine sent' type data := by
  cases hg with
  | arp data => exact .arp data
  | icmp src dst id hlen => exact .icmp src dst id hlen
  | udp id hd hbytes => exact .udp id (h hd) hbytes

def GenuineInput (sent : List Datagram) (input : NetworkInput) : Prop :=
  ∃ data rest, Genuine sent input.type data ∧ input.data = data ++ rest

theorem GenuineInput.mono {sent sent' : List Datagram} (h : sent ⊆ sent') {input : NetworkInput}
    (hg : GenuineInput sent input) : GenuineInput sent' input := by
  obtain ⟨data, rest, hgenuine, heq⟩ := hg
  exact ⟨data, rest, hgenuine.mono h, heq⟩

def GenuineFrame (sent : List Datagram) (frame : Bytes) : Prop :=
  ∃ address type data dst, Genuine sent type data ∧ data.length ≤ 1500 ∧
    frame = etherFrame address type data dst

theorem GenuineFrame.mono {sent sent' : List Datagram} (h : sent ⊆ sent') {frame : Bytes}
    (hg : GenuineFrame sent frame) : GenuineFrame sent' frame := by
  obtain ⟨address, type, data, dst, hgenuine, hlen, heq⟩ := hg
  exact ⟨address, type, data, dst, hgenuine.mono h, hlen, heq⟩

def GenuineTransmission (sent : List Datagram) (devices : List NetworkDevice) (t : Transmission) :
    Prop :=
  ∃ dev ∈ devices, ∃ type data dst, Genuine sent type data ∧ data.length ≤ dev.mtu.toNat ∧
    t = dev.transmit type data dst

theorem NetworkDevice.Built.etherType {dev : NetworkDevice} (h : dev.Built)
    (hops : dev.ops = .etherTransmit) : dev.type = networkDeviceTypeEthernet := by
  induction h with
  | loopback dev => cases hops
  | ether dev address => rfl
  | registered index _ ih => exact ih hops
  | @opened dev driver _ ih =>
    have hs := networkDeviceOpen_sameLink driver dev
    exact hs.type.trans (ih (hs.ops.symm.trans hops))
  | @closed dev driver _ ih =>
    have hs := networkDeviceClose_sameLink driver dev
    exact hs.type.trans (ih (hs.ops.symm.trans hops))
  | interfaceAdded _ hadd ih =>
    have hs := networkDeviceAddInterface_sameLink hadd
    exact hs.type.trans (ih (hs.ops.symm.trans hops))

namespace GenuineTransmission

variable {sent : List Datagram} {devices : List NetworkDevice} {t : Transmission}

theorem frame (ht : GenuineTransmission sent devices t) (hb : ∀ dev ∈ devices, dev.Built)
    {frame : Bytes} (hf : t.frame = some frame) : GenuineFrame sent frame := by
  obtain ⟨dev, hdev, type, data, dst, hg, hfits, rfl⟩ := ht
  cases hops : dev.ops with
  | loopbackTransmit => simp [NetworkDevice.transmit, hops, Transmission.frame] at hf
  | etherTransmit =>
    simp only [NetworkDevice.transmit, hops, Transmission.frame, Option.some.injEq] at hf
    rw [((hb dev hdev).etherLink ((hb dev hdev).etherType hops)).mtu] at hfits
    exact ⟨dev.address, type, data, dst, hg, hfits, hf.symm⟩

theorem input (ht : GenuineTransmission sent devices t) {input : NetworkInput}
    (hi : t.input = some input) : GenuineInput sent input := by
  obtain ⟨dev, -, type, data, dst, hg, -, rfl⟩ := ht
  obtain ⟨-, rfl⟩ := Host.input_transmit hi
  exact ⟨data, [], hg, (List.append_nil data).symm⟩

end GenuineTransmission

/-! ## Sending -/

namespace Host

variable (env : Env) {h : Host}

@[simp] theorem transmit_pcbs (t : Option Transmission) :
    (h.transmit env t).1.pcbs = h.pcbs := by
  cases t with
  | none => rfl
  | some t => cases t <;> rfl

@[simp] theorem arpResolve_pcbs (iface : IpInterface) (dev : NetworkDevice) (pa : IPAddress) :
    (h.arpResolve env iface dev pa).1.pcbs = h.pcbs := transmit_pcbs env _

@[simp] theorem ipOutputDevice_pcbs (iface : IpInterface) (data : Bytes) (dst : IPAddress) :
    (h.ipOutputDevice env iface data dst).1.pcbs = h.pcbs := by
  rw [ipOutputDevice]
  split
  · rfl
  · split
    · split
      · exact transmit_pcbs env _
      · rename_i dev _ _ _
        have hres := arpResolve_pcbs env (h := h) iface dev dst
        revert hres
        generalize h.arpResolve env iface dev dst = r
        obtain ⟨h', ret⟩ := r
        intro hres
        cases ret with
        | error => exact hres
        | incomplete => exact hres
        | found ha => exact (transmit_pcbs env _).trans hres
    · exact transmit_pcbs env _

@[simp] theorem ipSendPacket_pcbs (protocol : Byte) (data : Bytes) (src dst : IPAddress) :
    (h.ipSendPacket env protocol data src dst).1.pcbs = h.pcbs := by
  by_cases hr : ∃ route dev, h.Routed data.length src dst route dev
  · obtain ⟨route, dev, hr⟩ := hr
    obtain ⟨h', ret, hout, hsend⟩ := ipSendPacket_routed env protocol hr
    have hpcbs := congrArg (·.1.pcbs) hout
    rw [hsend]
    exact hpcbs.symm.trans (ipOutputDevice_pcbs env _ _ _)
  · rw [ipSendPacket_unrouted env protocol fun route dev hr' => hr ⟨route, dev, hr'⟩]

def Speaks (sent : List Datagram) (h h' : Host) : Prop :=
  ∃ ts, Sent h h' ts ∧ ∀ t ∈ ts, GenuineTransmission sent h.devices t

variable {sent : List Datagram}

theorem Speaks.silent {h' : Host} (hs : Sent h h' []) : Speaks sent h h' := ⟨[], hs, by simp⟩

theorem output_genuine {dev : NetworkDevice} (hdev : dev ∈ h.devices) {type : BitVec 16}
    {data : Bytes} {dst : EtherAddr} (hg : Genuine sent type data) :
    ∀ t ∈ (networkDeviceOutput dev type data dst).toList, GenuineTransmission sent h.devices t := by
  intro t ht
  obtain ⟨-, hfits, rfl⟩ := networkDeviceOutput_some (Option.mem_toList.mp ht)
  exact ⟨dev, hdev, type, data, dst, hg, hfits, rfl⟩

theorem ipSendPacket_speaks {protocol : Byte} {data : Bytes} {src dst : IPAddress}
    (hg : ∀ route dev, h.Routed data.length src dst route dev →
      Genuine sent networkProtocolTypeIp (h.packet protocol data dst route)) :
    Speaks sent h (h.ipSendPacket env protocol data src dst).1 := by
  have ht := send_trans env h protocol data src dst
  generalize (h.ipSendPacket env protocol data src dst).1 = h' at ht ⊢
  generalize (h.ipSendPacket env protocol data src dst).2 = ret at ht
  cases ht with
  | refused _ hs => exact .silent hs
  | @transmitted route dev ha _ _ hr _ ht hs =>
    refine ⟨_, hs, List.forall_mem_singleton.mpr ⟨dev, List.mem_of_find?_eq_some hr.device, _, _,
      ha, hg route dev hr, ?_, ht⟩⟩
    have hfits := hr.fits
    have hmtu := dev.mtu.isLt
    rw [packet, length_ipPacket _ _ _ _ _ (by omega)]
    exact hfits
  | @awaits route dev _ hr _ hs =>
    exact ⟨_, hs, output_genuine (List.mem_of_find?_eq_some hr.device) (.arp _)⟩

end Host

theorem udpSendtoSource_address {unicast : Option IPAddress} {pcbs pcbs' : Pcbs} {id : Int}
    {src : IpEndpoint} (h : udpSendtoSource unicast pcbs id = (pcbs', some src)) :
    unicast = some src.address ∨ src.address ≠ ipAddrAny := by
  unfold udpSendtoSource at h
  split at h
  · cases h
  · rename_i i _
    split at h
    · cases h
    · rename_i addr haddr
      have hsrc : src.address = addr := by
        split at h
        · split at h
          · cases h
          · cases h
            rfl
        · cases h
          rfl
      rw [hsrc]
      split at haddr
      · exact .inl haddr
      · rename_i hne
        cases haddr
        exact .inr hne

theorem Host.Routed.unicast_eq {h : Host} {len : Nat} {src : IpEndpoint} {dst : IPAddress}
    {route : IpRoute} {dev : NetworkDevice} (hr : h.Routed len src.address dst route dev)
    (hsrc : (ipGetInterface h.routes dst).map (·.unicast) = some src.address ∨
      src.address ≠ ipAddrAny) : route.iface.unicast = src.address := by
  rcases hsrc with hsrc | hne
  · rw [ipGetInterface, hr.routed] at hsrc
    exact Option.some.inj hsrc
  · exact (hr.source.resolve_left hne).symm

theorem Host.udpSendto_speaks (env : Env) {s : Stack} (id : Int) (data : Bytes)
    (foreign : IpEndpoint) (sent : List Datagram) :
    Speaks (sent ++ (s.output (.udpSendto id data foreign)).toList) s.host
        (s.host.udpSendto env id data foreign).1 ∧
      (s.host.udpSendto env id data foreign).1.pcbs = (udpSendtoSource
        ((ipGetInterface s.host.routes foreign.address).map (·.unicast)) s.host.pcbs id).1 := by
  rw [udpSendto, Stack.output]
  split
  · rename_i pcbs hsource
    rw [hsource]
    exact ⟨.silent ⟨rfl, rfl, by simp⟩, rfl⟩
  · rename_i pcbs src hsource
    rw [hsource, udpOutput]
    split
    · exact ⟨.silent ⟨rfl, rfl, by simp⟩, rfl⟩
    · rename_i bytes hbytes
      have hspeaks : Speaks (sent ++ [⟨src, foreign, data⟩]) { s.host with pcbs := pcbs }
          (Host.ipSendPacket env { s.host with pcbs := pcbs } udpProtocol bytes src.address
            foreign.address).1 := by
        refine ipSendPacket_speaks env fun route dev hr => ?_
        rw [packet, hr.unicast_eq (udpSendtoSource_address hsource)]
        exact .udp (d := ⟨src, foreign, data⟩) _ (by simp) hbytes
      have hpcbs := ipSendPacket_pcbs env (h := { s.host with pcbs := pcbs }) udpProtocol bytes
        src.address foreign.address
      revert hspeaks hpcbs
      generalize Host.ipSendPacket env { s.host with pcbs := pcbs } udpProtocol bytes src.address
        foreign.address = r
      intro hspeaks hpcbs
      obtain ⟨ts, hs, hts⟩ := hspeaks
      simp only
      split
      · exact ⟨⟨ts, ⟨hs.devices, hs.ipProtocols, hs.sent⟩, hts⟩, hpcbs⟩
      · exact ⟨⟨ts, ⟨hs.devices, hs.ipProtocols, hs.sent⟩, hts⟩, hpcbs⟩

/-! ## Receiving -/

theorem ipInput_ipPacket_some {η : Type} {protocols : List (IpProtocol η)} {dev : NetworkDevice}
    {protocol : Byte} {data rest : Bytes} {src dst : IPAddress} {id : BitVec 16}
    {delivery : IpDelivery η} (hlen : data.length ≤ 65515)
    (h : ipInput protocols dev (ipPacket protocol data src dst id 0 ++ rest) = some delivery) :
    ∃ proto ∈ protocols, ∃ iface, proto.type = protocol ∧
      networkDeviceGetInterface dev networkInterfaceFamilyIp = some iface ∧ iface.Accepts dst ∧
      delivery = ⟨proto.handler, data ++ rest, BitVec.ofNat 64 data.length, src, dst, iface⟩ := by
  obtain ⟨hadmitted, -, -, iface, hiface, -, -⟩ := ipInput_some h
  obtain ⟨hdr, sum, hhdr, hp, -⟩ := ipPacket_eq protocol src dst id 0 hlen
  have hof : IpHdr.ofBytes (ipPacket protocol data src dst id 0 ++ rest) = hdr := by
    rw [hp, List.append_assoc, IpHdr.ofBytes_toBytes]
  have haccepts : iface.Accepts dst := by
    obtain ⟨iface', hiface', hacc⟩ := hadmitted.addressed
    rw [hiface] at hiface'
    cases hiface'
    rw [hof, hhdr] at hacc
    exact hacc
  obtain ⟨registered, hmem, htype⟩ := hadmitted.registered
  have htype' : registered.type = protocol := by
    rw [htype, hof, hhdr]
    rfl
  -- the search for the protocol stops at the first one of this type
  obtain ⟨proto, hfind⟩ : ∃ proto, protocols.find? (·.type = protocol) = some proto := by
    rw [← Option.isSome_iff_exists, List.find?_isSome]
    exact ⟨registered, hmem, by simpa using htype'⟩
  have hproto : proto.type = protocol := by simpa using List.find?_some hfind
  subst hproto
  rw [ipInput_ipPacket proto src id hiface hfind hlen haccepts rest] at h
  exact ⟨proto, List.mem_of_find?_eq_some hfind, iface, rfl, hiface, haccepts,
    (Option.some.inj h).symm⟩

/-- A datagram that was sent is pushed on PCB `i` of the host, whose local endpoint matches its
destination. A PCB that is not bound matches port 0. -/
structure Receives (sent : List Datagram) (h : Host) (i : Fin udpPcbSize)
    (queue : List UdpQueueEntry) (d : Datagram) : Prop where
  sent : d ∈ sent
  accepted : ∃ dev ∈ h.devices, ∃ iface,
    networkDeviceGetInterface dev networkInterfaceFamilyIp = some iface ∧
      iface.Accepts d.dst.address
  eligible : (h.pcbs i).Eligible d.dst.address d.dst.port
  pushed : queue = (h.pcbs i).queue ++ [⟨d.src, d.data⟩]

def QueuesMove (sent : List Datagram) (h : Host) (pcbs : Pcbs) : Prop :=
  ∀ i, (pcbs i).queue <:+ (h.pcbs i).queue ∨ ∃ d, Receives sent h i (pcbs i).queue d

theorem QueuesMove.same (sent : List Datagram) (h : Host) : QueuesMove sent h h.pcbs :=
  fun _ => .inl (List.suffix_refl _)

namespace Host

variable (env : Env) {h : Host} {sent : List Datagram}

theorem udpInput_queues {d : Datagram} {bytes : Bytes} (hd : d ∈ sent)
    (hbytes : udpDatagram d.src d.dst d.data = some bytes) {dev : NetworkDevice}
    (hdev : dev ∈ h.devices) {iface : IpInterface}
    (hiface : networkDeviceGetInterface dev networkInterfaceFamilyIp = some iface)
    (haccepts : iface.Accepts d.dst.address) (rest : Bytes) :
    QueuesMove sent h (udpInput (true, true) h.pcbs (bytes ++ rest) bytes.length d.src.address
      d.dst.address).1 := by
  cases hsel : udpPcbSelect h.pcbs d.dst.address d.dst.port with
  | none =>
    obtain ⟨hdr, hck, -, hdst, -⟩ := udpCheck_udpDatagram hbytes rest
    simp only [udpInput, hck, udpDeliver, hdst, hsel]
    exact .same sent h
  | some i =>
    rw [udpInput_udpDatagram hbytes hsel rest]
    intro j
    refine update_at (P := fun pcb => pcb.queue <:+ (h.pcbs j).queue ∨
      ∃ d, Receives sent h j pcb.queue d) (fun he => ?_) fun _ => .inl (List.suffix_refl _)
    subst he
    exact .inr ⟨d, hd, ⟨dev, hdev, iface, hiface, haccepts⟩, udpPcbSelect_some hsel, rfl⟩

theorem ipInput_genuine (hop : h.Operational) {dev : NetworkDevice} (hdev : dev ∈ h.devices)
    {data rest : Bytes} (hg : Genuine sent networkProtocolTypeIp data) :
    Speaks sent h (h.ipInput env (data ++ rest) dev) ∧
      QueuesMove sent h (h.ipInput env (data ++ rest) dev).pcbs := by
  rw [ipInput]
  split
  · exact ⟨.silent (.refl h), .same sent h⟩
  · rename_i delivery hin
    generalize htype : networkProtocolTypeIp = type at hg
    cases hg with
    | arp => exact absurd htype (by decide)
    | icmp src dst id hlen =>
      obtain ⟨proto, hproto, iface, htype, -, -, rfl⟩ := ipInput_ipPacket_some hlen hin
      simp only [ipHandler, (hop.ipProtocols proto hproto).mpr htype]
      split
      · exact ⟨.silent (.refl h), .same sent h⟩
      · rename_i out _
        refine ⟨ipSendPacket_speaks env fun route dev hr => .icmp _ _ _ ?_, ?_⟩
        · have hfits := hr.fits
          have hmtu := dev.mtu.isLt
          omega
        · rw [icmpOutput, ipSendPacket_pcbs]
          exact .same sent h
    | @udp d bytes id hd hbytes =>
      have hlen : bytes.length ≤ 65515 := by
        have hmax := (udpDatagram_some hbytes).1
        have heq := length_udpDatagram hbytes
        omega
      obtain ⟨proto, hproto, iface, htype, hiface, haccepts, rfl⟩ := ipInput_ipPacket_some hlen hin
      have hhandler : proto.handler = .udpInput := by
        cases hcases : proto.handler with
        | udpInput => rfl
        | icmpInput =>
          have hicmp := (hop.ipProtocols proto hproto).mp hcases
          exact absurd (htype.symm.trans hicmp) (by decide)
      have hnat : (BitVec.ofNat 64 bytes.length).toNat = bytes.length := by
        rw [BitVec.toNat_ofNat]
        omega
      simp only [ipHandler, hhandler, hnat]
      exact ⟨.silent ⟨rfl, rfl, by simp⟩, udpInput_queues hd hbytes hdev hiface haccepts rest⟩

theorem arpInput_answer {caches : Caches} {now : Timeval} {dev : NetworkDevice} {data : Bytes}
    {t : Transmission} (ht : (LLNStack.arpInput caches now dev data).2 = some t) :
    ∃ reply dst, networkDeviceOutput dev networkProtocolTypeArp reply dst = some t := by
  unfold LLNStack.arpInput at ht
  split at ht
  · cases ht
  · simp only at ht
    split at ht
    · cases ht
    · simp only [arpInputReply] at ht
      split at ht
      · exact ⟨_, _, ht⟩
      · cases ht

theorem arpInput_genuine {dev : NetworkDevice} (hdev : dev ∈ h.devices) (data : Bytes) :
    Speaks sent h (h.arpInput env data dev) ∧
      QueuesMove sent h (h.arpInput env data dev).pcbs := by
  constructor
  · have hs := transmit_sent env { h with
      caches := (LLNStack.arpInput h.caches (env.now h.clock) dev data).1
      clock := h.clock + 1 } (LLNStack.arpInput h.caches (env.now h.clock) dev data).2
    refine ⟨_, ⟨hs.devices, hs.ipProtocols, hs.sent⟩, fun t ht => ?_⟩
    obtain ⟨reply, dst, hout⟩ := arpInput_answer (Option.mem_toList.mp ht)
    exact output_genuine hdev (.arp reply) t (by rw [hout]; exact List.mem_singleton_self t)
  · have hpcbs : (h.arpInput env data dev).pcbs = h.pcbs := transmit_pcbs env _
    rw [hpcbs]
    exact .same sent h

theorem netHandler_genuine (hop : h.Operational) {type : BitVec 16} {handler : NetHandler}
    (hhandler : (type, handler) ∈ initTable) {entry : Bytes × Nat}
    (hg : GenuineInput sent ⟨type, entry.1, entry.2⟩) :
    Speaks sent h (h.netHandler env handler entry) ∧
      QueuesMove sent h (h.netHandler env handler entry).pcbs := by
  rw [netHandler]
  split
  · exact ⟨.silent (.refl h), .same sent h⟩
  · rename_i dev hfound
    have hdev : dev ∈ h.devices := List.mem_of_find?_eq_some hfound
    cases handler with
    | ipInput =>
      have htype : type = networkProtocolTypeIp := by
        simpa [initTable] using hhandler
      obtain ⟨data, rest, hgenuine, hdata⟩ := hg
      simp only [htype] at hgenuine hdata
      rw [hdata]
      exact ipInput_genuine env hop hdev hgenuine
    | arpInput => exact arpInput_genuine env hdev entry.1

end Host

/-! ## One stack -/

/-- Only `udp_input` puts anything on a queue. -/
theorem SlotTrans.queue_suffix {i : Fin udpPcbSize} {pcb pcb' : UdpPcb} {a : UdpAction}
    {r : UdpResult} (h : SlotTrans i pcb (a, r) pcb')
    (ha : ∀ allocs data len src dst, a ≠ .udpInput allocs data len src dst) :
    pcb'.queue <:+ pcb.queue := by
  cases h with
  | same | bound | opened => exact List.suffix_refl _
  | closed | released => exact List.nil_suffix
  | pushed => exact absurd rfl (ha _ _ _ _ _)
  | popped hq _ =>
    rw [hq]
    exact List.suffix_cons _ _

theorem udp_queue_suffix {pcbs : Pcbs} {a : UdpAction} {s' : UdpSys} {r : UdpResult}
    (h : UdpSys.step ⟨pcbs, []⟩ a = some (s', r))
    (ha : ∀ allocs data len src dst, a ≠ .udpInput allocs data len src dst) (i : Fin udpPcbSize) :
    (s'.pcbs i).queue <:+ (pcbs i).queue :=
  (slot_trans (step_trans h) i).queue_suffix ha

theorem finish_pcbs (s : UdpSys) (call size : Nat) (r : Pcbs × UdpRecv) :
    (s.finish call size r).1.pcbs = r.1 := by
  obtain ⟨pcbs, recv⟩ := r
  cases recv <;> rfl

structure Behaves (sent : List Datagram) (s : Stack) (a : StackAction) (s' : Stack)
    (ts : List Transmission) : Prop where
  log : s'.host.sent = s.host.sent ++ ts
  genuine : ∀ t ∈ ts, GenuineTransmission (sent ++ (s.output a).toList) s.host.devices t
  queued : AllQueued (GenuineInput (sent ++ (s.output a).toList)) s'.protocols
  queues : QueuesMove sent s.host s'.host.pcbs

namespace Behaves

variable {sent : List Datagram} {s : Stack} {a : StackAction}

theorem of_host {host : Host} (hqueued : AllQueued (GenuineInput sent) s.protocols)
    (hlog : host.sent = s.host.sent)
    (hpcbs : ∀ i, (host.pcbs i).queue <:+ (s.host.pcbs i).queue) :
    Behaves sent s a { s with host := host } [] where
  log := by rw [List.append_nil]; exact hlog
  genuine := by simp
  queued := hqueued.mono fun _ hg => GenuineInput.mono (List.subset_append_left _ _) hg
  queues := fun i => .inl (hpcbs i)

theorem of_speaks {host : Host} {protocols : List (NetworkProtocol NetHandler)}
    (hqueued : AllQueued (GenuineInput sent) protocols)
    (hspeaks : s.host.Speaks (sent ++ (s.output a).toList) host)
    (hqueues : QueuesMove sent s.host host.pcbs) :
    ∃ ts, Behaves sent s a ⟨host, networkInputs protocols (s.host.inputs host)⟩ ts := by
  obtain ⟨ts, hs, hts⟩ := hspeaks
  have hkept : AllQueued (GenuineInput (sent ++ (s.output a).toList)) protocols :=
    hqueued.mono fun _ hg => GenuineInput.mono (List.subset_append_left _ _) hg
  refine ⟨ts, hs.sent, hts, hkept.inputs fun input hinput => ?_, hqueues⟩
  rw [hs.inputs] at hinput
  obtain ⟨t, ht, hinput⟩ := List.mem_filterMap.mp hinput
  exact (hts t ht).input hinput

end Behaves

theorem poll_behaves {sent : List Datagram} {s : Stack}
    (hqueued : AllQueued (GenuineInput sent) s.protocols) (n : Nat) {frame : Bytes}
    (hframe : GenuineFrame sent frame) :
    Behaves sent s (.poll n frame) (s.etherPollHelper n frame) [] := by
  have hnothing : Behaves sent s (.poll n frame) s [] :=
    .of_host hqueued rfl fun _ => List.suffix_refl _
  rw [Stack.etherPollHelper]
  split
  · exact hnothing
  · split
    · exact hnothing
    · rename_i type data hpoll
      obtain ⟨address, type', payload, dst, hg, hlen, rfl⟩ := hframe
      rw [etherPollHelper_etherFrame hlen] at hpoll
      split at hpoll
      · cases hpoll
        refine ⟨hnothing.log, hnothing.genuine, hnothing.queued.input ?_, hnothing.queues⟩
        exact ⟨payload, _, hg.mono (List.subset_append_left _ _), rfl⟩
      · cases hpoll

theorem handle_behaves (env : Env) {sent : List Datagram} {s s' : Stack} (hinv : StackInv s)
    (hqueued : AllQueued (GenuineInput sent) s.protocols) {k : Nat}
    (h : s.next env (.handle k) = some s') : ∃ ts, Behaves sent s (.handle k) s' ts := by
  simp only [Stack.next] at h
  split at h
  · cases h
  · rename_i proto hk
    split at h
    · cases h
    · rename_i entry rest hq
      cases h
      have hhandler : (proto.type, proto.handler) ∈ initTable :=
        hinv.table (List.mem_map_of_mem (List.mem_of_getElem? hk))
      obtain ⟨hentry, hrest⟩ := hqueued.pop hk hq
      obtain ⟨hspeaks, hqueues⟩ := Host.netHandler_genuine env hinv.operational hhandler hentry
      have hout : sent ++ (s.output (.handle k)).toList = sent := List.append_nil sent
      exact Behaves.of_speaks hrest (hout.symm ▸ hspeaks) hqueues

theorem next_behaves (env : Env) {sent : List Datagram} {s s' : Stack} {a : StackAction}
    (hinv : StackInv s) (hqueued : AllQueued (GenuineInput sent) s.protocols)
    (hpoll : ∀ n frame, a = .poll n frame → GenuineFrame sent frame)
    (h : s.next env a = some s') : ∃ ts, Behaves sent s a s' ts := by
  have hcall : ∀ (ua : UdpAction) {u : UdpSys} {r : UdpResult},
      UdpSys.step ⟨s.host.pcbs, []⟩ ua = some (u, r) →
      (∀ allocs data len src dst, ua ≠ .udpInput allocs data len src dst) →
      Behaves sent s a (s.setPcbs u.pcbs) [] :=
    fun ua u r hstep hua => .of_host hqueued rfl (udp_queue_suffix hstep hua)
  cases a with
  | udpOpen =>
    cases h
    exact ⟨[], hcall .udpOpen rfl (by simp)⟩
  | udpBind id localEp =>
    cases h
    exact ⟨[], hcall (.udpBind id localEp) rfl (by simp)⟩
  | udpClose id destroy =>
    cases h
    exact ⟨[], hcall (.udpClose id destroy) rfl (by simp)⟩
  | udpRecvfrom id =>
    cases h
    let call := UdpSys.finish ⟨s.host.pcbs, []⟩ 0 0 (udpRecvfrom s.host.pcbs id)
    have hrecv := hcall (.udpRecvfrom 0 id 0) (u := call.1) (r := call.2) rfl (by simp)
    rw [finish_pcbs] at hrecv
    exact ⟨[], hrecv⟩
  | udpEventHandler =>
    cases h
    exact ⟨[], hcall .eventHandler rfl (by simp)⟩
  | udpSendto id data foreign =>
    cases h
    obtain ⟨hspeaks, hpcbs⟩ := Host.udpSendto_speaks env (s := s) id data foreign sent
    have hqueues : QueuesMove sent s.host (s.host.udpSendto env id data foreign).1.pcbs := by
      rw [hpcbs]
      exact fun i => .inl (udp_queue_suffix (a := .udpSendto id _) rfl (by simp) i)
    exact Behaves.of_speaks hqueued hspeaks hqueues
  | arpTimer =>
    cases h
    exact ⟨[], .of_host hqueued rfl fun _ => List.suffix_refl _⟩
  | deviceOpen n driver =>
    cases h
    exact ⟨[], .of_host hqueued rfl fun _ => List.suffix_refl _⟩
  | deviceClose n driver =>
    cases h
    exact ⟨[], .of_host hqueued rfl fun _ => List.suffix_refl _⟩
  | poll n frame =>
    cases h
    exact ⟨[], poll_behaves hqueued n (hpoll n frame rfl)⟩
  | handle k => exact handle_behaves env hinv hqueued h

theorem step_behaves {env : Env} {sent : List Datagram} {s s' : Stack}
    {l : StackAction × List Transmission} (hinv : StackInv s)
    (hqueued : AllQueued (GenuineInput sent) s.protocols)
    (hpoll : ∀ n frame, l.1 = .poll n frame → GenuineFrame sent frame)
    (h : Stack.Step env s l s') : Behaves sent s l.1 s' l.2 := by
  obtain ⟨s₁, hs₁, heq⟩ := Option.map_eq_some_iff.mp h
  obtain ⟨ts, hb⟩ := next_behaves env hinv hqueued hpoll hs₁
  have hts : s₁.host.sent.drop s.host.sent.length = ts := by rw [hb.log, List.drop_left]
  rw [hts] at heq
  cases heq
  exact hb

theorem QueuesMove.received {sent : List Datagram} {h : Host} {pcbs : Pcbs}
    (hq : QueuesMove sent h pcbs) {i : Fin udpPcbSize}
    (hold : ∀ entry ∈ (h.pcbs i).queue, ∃ d ∈ sent, entry = ⟨d.src, d.data⟩) :
    ∀ entry ∈ (pcbs i).queue, ∃ d ∈ sent, entry = ⟨d.src, d.data⟩ := by
  rcases hq i with hsuffix | ⟨d, hd⟩
  · exact fun entry hentry => hold entry (hsuffix.subset hentry)
  · rw [hd.pushed]
    exact forall_mem_snoc hold ⟨d, hd.sent, rfl⟩

/-! ## The network -/

section

variable {H : Type}

structure NetworkInv (sent : List Datagram) (s : Network H) : Prop where
  hosts : ∀ h, StackInv (s.hosts h)
  queued : ∀ h, AllQueued (GenuineInput sent) (s.hosts h).protocols
  wire : ∀ frame ∈ s.wire, GenuineFrame sent frame
  received : ∀ h i, ∀ entry ∈ ((s.hosts h).host.pcbs i).queue,
    ∃ d ∈ sent, entry = ⟨d.src, d.data⟩

theorem Node.stack_idle {calls : List (NodeAction × Int)} {n : Node}
    (h : Run Node.Step .zero calls n) : Idle n.stack.protocols := by
  obtain ⟨table, -, htable⟩ := (run_nodeHist h).inv.stage
  change Idle n.protocols
  rw [htable]
  exact idle_emptyQueues table

theorem Network.init_inv {nodes : H → Node}
    (hconf : ∀ h, ∃ calls, Run Node.Step .zero calls (nodes h)) :
    NetworkInv [] (Network.init nodes) where
  hosts := fun h => by
    obtain ⟨calls, hrun⟩ := hconf h
    exact Node.stackInv hrun
  queued := fun h => by
    obtain ⟨calls, hrun⟩ := hconf h
    exact .of_idle (Node.stack_idle hrun)
  wire := by simp [Network.init]
  received := fun h i entry hentry => by
    cases hentry

variable [DecidableEq H] {env : H → Env}

inductive NetworkTrans (env : H → Env) (s : Network H) :
    NetworkAction H × Option Datagram → Network H → Prop where
  | moved {action : NetworkAction H} {h : H} {a : StackAction} {stack : Stack}
      {ts : List Transmission} : Stack.Step (env h) (s.hosts h) (a, ts) stack →
      (∀ n frame, a = .poll n frame → frame ∈ s.wire) → action = .act h a ∨ a.isPoll = true →
      NetworkTrans env s (action, (s.hosts h).output a)
        ⟨Function.update s.hosts h stack, s.wire ++ ts.filterMap Transmission.frame⟩

theorem network_move {s s' : Network H} {action : NetworkAction H} {h : H} {a : StackAction}
    {out : Option Datagram} (hmove : s.move env h a = some (s', out))
    (hpoll : ∀ n frame, a = .poll n frame → frame ∈ s.wire)
    (hact : action = .act h a ∨ a.isPoll = true) : NetworkTrans env s (action, out) s' := by
  obtain ⟨⟨stack, ts⟩, hstep, heq⟩ := Option.map_eq_some_iff.mp hmove
  cases heq
  exact .moved hstep hpoll hact

theorem network_trans {s s' : Network H} {l : NetworkAction H × Option Datagram}
    (h : Network.Step env s l s') : NetworkTrans env s l s' := by
  obtain ⟨action, out⟩ := l
  simp only [Network.Step, stepRel, Network.step] at h
  cases action with
  | act host a =>
    simp only at h
    split at h
    · cases h
    · rename_i hnot
      refine network_move h (fun n frame ha => ?_) (.inl rfl)
      rw [ha] at hnot
      exact absurd rfl hnot
  | deliver host n k =>
    simp only at h
    split at h
    · cases h
    · rename_i frame hk
      refine network_move h (fun n' frame' ha => ?_) (.inr rfl)
      cases ha
      exact List.mem_of_getElem? hk

theorem network_step {sent : List Datagram} {s s' : Network H}
    {l : NetworkAction H × Option Datagram} (hinv : NetworkInv sent s)
    (hstep : Network.Step env s l s') : NetworkInv (sent ++ l.2.toList) s' ∧
      ∀ h, QueuesMove sent (s.hosts h).host (s'.hosts h).host.pcbs := by
  obtain ⟨action, out⟩ := l
  cases network_trans hstep with
  | @moved _ h a stack ts hs hpoll _ =>
    have hb := step_behaves (hinv.hosts h) (hinv.queued h)
      (fun n frame ha => hinv.wire frame (hpoll n frame ha)) hs
    have hgrow : sent ⊆ sent ++ ((s.hosts h).output a).toList := List.subset_append_left _ _
    have hqueues : ∀ h', QueuesMove sent (s.hosts h').host
        (Function.update s.hosts h stack h').host.pcbs := by
      intro h'
      by_cases he : h' = h
      · subst he
        rw [Function.update_self]
        exact hb.queues
      · rw [Function.update_of_ne he]
        exact .same sent _
    refine ⟨⟨fun h' => ?_, fun h' => ?_, ?_, fun h' i entry hentry => ?_⟩, hqueues⟩
    · by_cases he : h' = h
      · subst he
        simp only [Function.update_self]
        exact (step_moves (env h') (hinv.hosts h') hs).inv
      · simp only [Function.update_of_ne he]
        exact hinv.hosts h'
    · by_cases he : h' = h
      · subst he
        simp only [Function.update_self]
        exact hb.queued
      · simp only [Function.update_of_ne he]
        exact (hinv.queued h').mono fun _ hg => GenuineInput.mono hgrow hg
    · refine List.forall_mem_append.mpr ⟨fun frame hf => (hinv.wire frame hf).mono hgrow, ?_⟩
      intro frame hf
      obtain ⟨t, ht, hf⟩ := List.mem_filterMap.mp hf
      exact (hb.genuine t ht).frame (hinv.hosts h).operational.configured hf
    · obtain ⟨d, hd, heq⟩ := (hqueues h').received (hinv.received h' i) entry hentry
      exact ⟨d, hgrow hd, heq⟩

/-- **Datagram integrity.** Stacks that were configured in any way share a network that loses,
repeats, reorders and misdelivers frames. Whatever the applications and the network do: every
datagram in the queue of a PCB has the sender and the data of one that an application gave to
`udp_sendto` before; and a queue only gets a datagram when the local endpoint of the PCB matches the
one it was sent to, and an interface of its host takes the address. -/
theorem datagram_integrity {nodes : H → Node}
    (hconf : ∀ h, ∃ calls, Run Node.Step .zero calls (nodes h)) (env : H → Env)
    {tr : List (NetworkAction H × Option Datagram)} {s : Network H}
    (hrun : Run (Network.Step env) (.init nodes) tr s) (h : H) (i : Fin udpPcbSize) :
    (∀ entry ∈ ((s.hosts h).host.pcbs i).queue,
      ∃ d ∈ sentDatagrams tr, entry = ⟨d.src, d.data⟩) ∧
    ∀ l s', Network.Step env s l s' →
      ((s'.hosts h).host.pcbs i).queue <:+ ((s.hosts h).host.pcbs i).queue ∨
        ∃ d, Receives (sentDatagrams tr) (s.hosts h).host i ((s'.hosts h).host.pcbs i).queue d := by
  have hinv : NetworkInv (sentDatagrams tr) s := by
    refine hrun.history (P := fun tr s => NetworkInv (sentDatagrams tr) s)
      (Network.init_inv hconf) fun tr s l s' _ hi hl => ?_
    rw [sentDatagrams, filterMap_snoc]
    exact (network_step hi hl).1
  exact ⟨hinv.received h i, fun l s' hl => (network_step hinv hl).2 h i⟩

end

def neighbourSetup : List NodeAction :=
  [.networkInit ⟨true, true, true, true, true, true⟩ ⟨0, 0⟩,
    .etherTapInit ⟨true, true, true⟩ (some ("00:00:5e:00:53:02".toList.map ascii ++ [0])),
    .addInterface (true, true) 0 ("192.0.2.1".toList.map ascii ++ [0])
      ("255.255.255.0".toList.map ascii ++ [0]),
    .networkRun true fun _ => some etherAddrBroadcast]

/-- A datagram that is lost to an ARP request, the reply, and a datagram that arrives. -/
def lostThenArrives : List (NetworkAction Bool) :=
  [.act false .udpOpen, .act false (.udpBind 0 ⟨ipAddrAny, 0x0700#16⟩), .act true .udpOpen,
    .act true (.udpSendto 0 [0x61] ⟨0x010200c0#32, 0x0700#16⟩), .deliver false 0 0,
    .act false (.handle 1), .deliver true 0 1, .act true (.handle 1),
    .act true (.udpSendto 0 [0x62] ⟨0x010200c0#32, 0x0700#16⟩), .deliver false 0 2]

def firstQueue (s : Network Bool) (i : Fin udpPcbSize) : List UdpQueueEntry :=
  ((s.hosts false).host.pcbs i).queue

/-- Handling what has arrived gives the second datagram to the PCB. -/
theorem lostThenArrives_received : ∃ (tr : List (NetworkAction Bool × Option Datagram))
    (s s' : Network Bool) (d : Datagram), tr.map Prod.fst = lostThenArrives ∧
    (sentDatagrams tr).map (·.data) = [[0x61], [0x62]] ∧ firstQueue s 0 = [] ∧
    (firstQueue s' 0).map (·.data) = [[0x62]] ∧
    Receives (sentDatagrams tr) (s.hosts false).host 0 (firstQueue s' 0) d := by
  obtain ⟨calls, n, hconf, -, hcheck⟩ := exec_check Node.step .zero udpAppSetup
    (fun r => (exec Node.step .zero neighbourSetup).any fun r' =>
      (exec (Network.step fun _ => quietEnv) (.init fun b => cond b r.2 r'.2) lostThenArrives).any
        fun q => decide ((sentDatagrams q.1).map (·.data) = [[0x61], [0x62]] ∧
          firstQueue q.2 0 = []) &&
          (q.2.step (fun _ => quietEnv) (.act false (.handle 0))).any fun q' =>
            decide ((firstQueue q'.1 0).map (·.data) = [[0x62]])) (by decide +kernel)
  obtain ⟨calls', n', hconf', -, hcheck⟩ := exec_check Node.step .zero neighbourSetup _ hcheck
  obtain ⟨tr, s, hrun, hmap, hcheck⟩ := exec_check (Network.step fun _ => quietEnv)
    (.init fun b => cond b n n') lostThenArrives _ hcheck
  obtain ⟨hbefore, hafter⟩ := (Bool.and_eq_true _ _).mp hcheck
  obtain ⟨hsent, hempty⟩ := of_decide_eq_true hbefore
  obtain ⟨⟨s', out⟩, hstep, hgot⟩ := (Option.any_eq_true _ _).mp hafter
  have hgot := of_decide_eq_true hgot
  have hnodes : ∀ b, ∃ calls, Run Node.Step .zero calls (cond b n n') := by
    intro b
    cases b with
    | true => exact ⟨calls, hconf⟩
    | false => exact ⟨calls', hconf'⟩
  have hmoves := (datagram_integrity hnodes (fun _ => quietEnv) hrun false 0).2
    (.act false (.handle 0), out) s' hstep
  rcases hmoves with hsuffix | ⟨d, hd⟩
  · have hnil : firstQueue s' 0 = [] := List.suffix_nil.mp (hempty ▸ hsuffix)
    rw [hnil] at hgot
    cases hgot
  · exact ⟨tr, s, s', d, hmap, hsent, hempty, hgot, hd⟩

end LLNStack
