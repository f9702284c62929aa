import LLNStack.Host.Model

/-!
# LLNStack.Host.Delivery

A datagram that `udp_sendto` gives to a device is received: over Ethernet by the host whose address
the frame carries, over the loopback device by the host itself.

* `Host.Sends`: what makes `udp_sendto` reach the device. It then transmits one packet
  (`Host.udpSendto_sent`).
* `Host.Listens`: what makes a host take a datagram for an endpoint. Handling the packet then adds
  one entry to the queue of one PCB and changes nothing else (`Host.handle_udpPacket`).
* `udp_delivery` puts the two together, with the frame in between.
-/

namespace LLNStack

open Lib

namespace Host

/-! ## The sender -/

/-- The hardware address `ip_output_device` sends to: the one cached for the next hop, the
broadcast address, or none at all. -/
inductive LinkDst (caches : Caches) (iface : IpInterface) (dev : NetworkDevice)
    (nexthop : IPAddress) : EtherAddr → Prop where
  | resolved {i : Fin arpCacheSize} : dev.needArp = true →
      dev.type = networkDeviceTypeEthernet → iface.family = networkInterfaceFamilyIp →
      nexthop ≠ iface.broadcast → nexthop ≠ ipAddrBroadcast →
      arpCacheSelect caches nexthop = some i → (caches i).state ≠ .stateIncomplete →
      LinkDst caches iface dev nexthop (caches i).ha
  | broadcast : dev.needArp = true → nexthop = iface.broadcast ∨ nexthop = ipAddrBroadcast →
      LinkDst caches iface dev nexthop dev.broadcast
  | unaddressed : dev.needArp = false → LinkDst caches iface dev nexthop etherAddrAny

/-- `udp_sendto` on the PCB in slot `i` with `len` bytes for `foreign` reaches the device `dev`,
addressed to `ha`: the route is found, the source address is that of its interface, and the device
is up, takes a packet of this size and needs no further address resolution. -/
structure Sends (h : Host) (i : Fin udpPcbSize) (len : Nat) (foreign : IpEndpoint)
    (route : IpRoute) (dev : NetworkDevice) (ha : EtherAddr) : Prop where
  isOpen : (h.pcbs i).state = .stateOpen
  source : (h.pcbs i).localEp.address = ipAddrAny ∨
    (h.pcbs i).localEp.address = route.iface.unicast
  routed : ipRouteLookup h.routes foreign.address = some route
  addressed : ¬ (route.iface.unicast = ipAddrAny ∧ foreign.address = ipAddrBroadcast)
  device : h.device route.iface.dev = some dev
  up : dev.isUp = true
  fits : len + 28 ≤ dev.mtu.toNat
  link : LinkDst h.caches route.iface dev (route.nexthopTo foreign.address) ha

theorem transmit_some (env : Env) (h : Host) (t : Transmission) :
    (h.transmit env (some t)).1 = { h with sent := h.sent ++ [t] } := by
  cases t <;> rfl

theorem ipOutputDevice_link (env : Env) {h : Host} {iface : IpInterface} {dev : NetworkDevice}
    {nexthop : IPAddress} {ha : EtherAddr} (data : Bytes) (hdev : h.device iface.dev = some dev)
    (hlink : LinkDst h.caches iface dev nexthop ha) :
    ∃ clock, h.ipOutputDevice env iface data nexthop =
      { h with clock := clock }.transmit env
        (networkDeviceOutput dev networkProtocolTypeIp data ha) := by
  cases hlink with
  | @resolved i harp htype hfam hb hb' hsel hst =>
    have hres : h.arpResolve env iface dev nexthop =
        ({ h with clock := h.clock + 1 }, .found (h.caches i).ha) := by
      simp only [arpResolve, arpResolve_cached htype hfam hsel hst, transmit]
    refine ⟨h.clock + 1, ?_⟩
    simp only [ipOutputDevice, hdev, harp, if_true, hb, hb', or_self, if_false, hres]
  | broadcast harp hb =>
    refine ⟨h.clock, ?_⟩
    simp only [ipOutputDevice, hdev, harp, if_true, hb]
  | unaddressed harp =>
    refine ⟨h.clock, ?_⟩
    simp only [ipOutputDevice, hdev, harp, Bool.false_eq_true, if_false]

/-- `ip_send_packet` finds the route and its device, and nothing is wrong with the call. -/
structure Routed (h : Host) (len : Nat) (src dst : IPAddress) (route : IpRoute)
    (dev : NetworkDevice) : Prop where
  addressed : ¬ (src = ipAddrAny ∧ dst = ipAddrBroadcast)
  routed : ipRouteLookup h.routes dst = some route
  source : src = ipAddrAny ∨ src = route.iface.unicast
  device : h.device route.iface.dev = some dev
  fits : 20 + len ≤ dev.mtu.toNat

theorem ipSendPacket_routed (env : Env) {h : Host} (protocol : Byte) {data : Bytes}
    {src dst : IPAddress} {route : IpRoute} {dev : NetworkDevice}
    (hr : h.Routed data.length src dst route dev) :
    ∃ h' ret, { h with id := h.id + 1 }.ipOutputDevice env route.iface
        (ipPacket protocol data route.iface.unicast dst h.id 0) (route.nexthopTo dst) = (h', ret) ∧
      h.ipSendPacket env protocol data src dst =
        (h', if ret = -1 then -1 else (data.length : Int)) := by
  have hsrc : ¬ (src ≠ ipAddrAny ∧ src ≠ route.iface.unicast) := by
    rintro ⟨hany, hne⟩
    exact hr.source.elim hany hne
  have hmtu : ¬ dev.mtu.toNat < minIpHeaderSize + data.length := by
    have := hr.fits
    rw [minIpHeaderSize]
    omega
  rcases hout : { h with id := h.id + 1 }.ipOutputDevice env route.iface
    (ipPacket protocol data route.iface.unicast dst h.id 0) (route.nexthopTo dst) with ⟨h', ret⟩
  refine ⟨h', ret, hout, ?_⟩
  simp only [ipSendPacket, hr.routed, hr.device]
  rw [if_neg hr.addressed, if_neg hsrc, if_neg hmtu]
  simp only [ipGenerateId, ipOutputCore, hout]
  split <;> rfl

theorem ipSendPacket_unrouted (env : Env) {h : Host} (protocol : Byte) {data : Bytes}
    {src dst : IPAddress} (hn : ∀ route dev, ¬ h.Routed data.length src dst route dev) :
    h.ipSendPacket env protocol data src dst = (h, -1) := by
  rw [ipSendPacket]
  split
  · rfl
  · rename_i haddr
    split
    · rfl
    · rename_i route hroute
      split
      · rfl
      · rename_i hsrc
        split
        · rfl
        · rename_i dev hdev
          split
          · rfl
          · rename_i hmtu
            refine absurd ⟨haddr, hroute, ?_, hdev, ?_⟩ (hn route dev)
            · by_contra hboth
              exact hsrc (not_or.mp hboth)
            · rw [minIpHeaderSize] at hmtu
              omega

theorem ipSendPacket_sent (env : Env) {h : Host} {route : IpRoute} {dev : NetworkDevice}
    {dst : IPAddress} {ha : EtherAddr} (protocol : Byte) {data : Bytes}
    (hroute : ipRouteLookup h.routes dst = some route)
    (haddr : ¬ (route.iface.unicast = ipAddrAny ∧ dst = ipAddrBroadcast))
    (hdev : h.device route.iface.dev = some dev) (hup : dev.isUp = true)
    (hlen : 20 + data.length ≤ dev.mtu.toNat)
    (hlink : LinkDst h.caches route.iface dev (route.nexthopTo dst) ha) :
    ∃ clock, (h.ipSendPacket env protocol data route.iface.unicast dst).1 =
      { h with
        id := h.id + 1
        clock := clock
        sent := h.sent ++ [dev.transmit networkProtocolTypeIp
          (ipPacket protocol data route.iface.unicast dst h.id 0) ha] } := by
  have hmax := dev.mtu.isLt
  have hpkt := length_ipPacket protocol route.iface.unicast dst h.id 0
    (show data.length ≤ 65515 by omega)
  obtain ⟨h', ret, hout, hsend⟩ := ipSendPacket_routed env protocol
    ⟨haddr, hroute, .inr rfl, hdev, hlen⟩
  obtain ⟨clock, hlinked⟩ := ipOutputDevice_link env (h := { h with id := h.id + 1 })
    (ipPacket protocol data route.iface.unicast dst h.id 0) hdev hlink
  rw [networkDeviceOutput_fits hup networkProtocolTypeIp (by rw [hpkt]; exact hlen), hout]
    at hlinked
  refine ⟨clock, ?_⟩
  rw [hsend]
  exact (congrArg Prod.fst hlinked).trans (transmit_some env _ _)

theorem udpSendto_sent (env : Env) {h : Host} {i : Fin udpPcbSize} {data : Bytes}
    {foreign : IpEndpoint} {route : IpRoute} {dev : NetworkDevice} {ha : EtherAddr}
    (hs : h.Sends i data.length foreign route dev ha) :
    ∃ h' d, (h.udpSendto env i.val data foreign).1 = h' ∧
      udpDatagram ⟨route.iface.unicast, (h'.pcbs i).localEp.port⟩ foreign data = some d ∧
      h'.sent = h.sent ++ [dev.transmit networkProtocolTypeIp
        (ipPacket udpProtocol d route.iface.unicast foreign.address h.id 0) ha] := by
  obtain ⟨pcbs', port, hsrc, hport⟩ := udpSendtoSource_unicast hs.isOpen hs.source
  have hmax := dev.mtu.isLt
  have hfits := hs.fits
  obtain ⟨d, hd⟩ : ∃ d, udpDatagram ⟨route.iface.unicast, port⟩ foreign data = some d := by
    simp only [udpDatagram]
    rw [if_neg (by
      simp only [maxIpPayloadSize, maxIpPacketSize, minIpHeaderSize, udpHdrSize]
      omega)]
    exact ⟨_, rfl⟩
  obtain ⟨clock, hsent⟩ := ipSendPacket_sent env (h := { h with pcbs := pcbs' }) udpProtocol
    hs.routed hs.addressed hs.device hs.up
    (by rw [length_udpDatagram hd]; omega) hs.link
  refine ⟨_, d, rfl, ?_⟩
  have hiface : (ipGetInterface h.routes foreign.address).map (·.unicast) =
      some route.iface.unicast := by
    rw [ipGetInterface, hs.routed]; rfl
  have hres : (h.udpSendto env i.val data foreign).1 =
      ({ h with pcbs := pcbs' }.ipSendPacket env udpProtocol d route.iface.unicast
        foreign.address).1 := by
    simp only [udpSendto, hiface, hsrc, udpOutput, hd]
    split <;> rfl
  rw [hres, hsent]
  exact ⟨by rw [hport]; exact hd, rfl⟩

/-! ## The receiver -/

/-- The host takes datagrams for `dst` that arrive on device `n`, on the PCB in slot `i`. -/
structure Listens (h : Host) (n : Nat) (dst : IpEndpoint) (i : Fin udpPcbSize) : Prop where
  protocols : h.ipProtocols = [⟨udpProtocol, .udpInput⟩, ⟨icmpProtocol, .icmpInput⟩]
  iface : ∃ dev iface, h.device n = some dev ∧
    networkDeviceGetInterface dev networkInterfaceFamilyIp = some iface ∧
    iface.unicast = dst.address
  selected : udpPcbSelect h.pcbs dst.address dst.port = some i

def enqueue (h : Host) (i : Fin udpPcbSize) (entry : UdpQueueEntry) : Host :=
  { h with
    pcbs := Function.update h.pcbs i
      { h.pcbs i with queue := (h.pcbs i).queue ++ [entry] } }

theorem handle_udpPacket (env : Env) {h : Host} {n : Nat} {src dst : IpEndpoint}
    {data d : Bytes} {i : Fin udpPcbSize} (hd : udpDatagram src dst data = some d)
    (hl : h.Listens n dst i) (id : BitVec 16) (rest : Bytes) :
    h.handle env .ipInput (ipPacket udpProtocol d src.address dst.address id 0 ++ rest, n) =
      (h.enqueue i ⟨src, data⟩, []) := by
  obtain ⟨dev, iface, hdev, hiface, hunicast⟩ := hl.iface
  have hlen := length_udpDatagram hd
  have hmax := (udpDatagram_some hd).1
  have hproto : h.ipProtocols.find? (·.type = udpProtocol) =
      some ⟨udpProtocol, .udpInput⟩ := by
    rw [hl.protocols]
    rfl
  have hin := ipInput_ipPacket ⟨udpProtocol, IpHandler.udpInput⟩ src.address id hiface hproto
    (show d.length ≤ 65515 by omega) (.inl hunicast.symm) rest
  have hnat : (BitVec.ofNat 64 d.length).toNat = d.length := by
    rw [BitVec.toNat_ofNat]
    omega
  have hres : h.netHandler env .ipInput
      (ipPacket udpProtocol d src.address dst.address id 0 ++ rest, n) =
        h.enqueue i ⟨src, data⟩ := by
    simp only [netHandler, hdev, ipInput, hin, ipHandler, hnat,
      udpInput_udpDatagram hd hl.selected rest]
    rfl
  simp only [handle, hres]
  simp [inputs, enqueue]

end Host

/-! ## Delivery -/

/-- `s₁` is `s` after a packet arrived on device `n`, and the packet carries the datagram `entry`
for `dst`. -/
structure Delivered (s s₁ : Stack) (n : Nat) (dst : IpEndpoint) (entry : UdpQueueEntry) :
    Prop where
  /-- The packet is one entry of the IP queue. Whenever it is handled, it becomes one entry of the
  PCB that is selected then. -/
  once : ∃ packet,
    s₁ = { s with
      protocols := (networkInputHandler true ⟨networkProtocolTypeIp, packet, n⟩ s.protocols).1 } ∧
    ∀ (env : Env) (h : Host) (i : Fin udpPcbSize), h.Listens n dst i →
      h.handle env .ipInput (packet, n) = (h.enqueue i entry, [])
  /-- If nothing else is queued, `network_protocol_handler` ends with it on the PCB. -/
  drained : ∀ (env : Env) (i : Fin udpPcbSize), s.Initialised → Idle s.protocols →
    s.host.Listens n dst i → ∀ fuel, 4 ≤ fuel →
      s₁.networkProtocolHandler env fuel = some { s with host := s.host.enqueue i entry }
  /-- After those before it, `udp_recvfrom` returns it, whole if the buffer is large enough. -/
  received : ∀ i : Fin udpPcbSize, s.host.Listens n dst i →
    (udpRecvfrom ((fun pcbs => (udpRecvfrom pcbs i.val).1)^[(s.host.pcbs i).queue.length]
      (s.host.enqueue i entry).pcbs) i.val).2 = .received i entry ∧
    ∀ size, entry.data.length ≤ size → udpRecvfromCopy entry size = (entry.data, entry.foreign)

theorem Stack.Initialised.ipInput {s : Stack} (h : s.Initialised) :
    ∃ proto, s.protocols.find? (·.type = networkProtocolTypeIp) = some proto ∧
      proto.handler = .ipInput ∧ s.protocols.length = 2 := by
  have hmap := h.1
  have hlen : s.protocols.length = 2 := by simpa using congrArg List.length hmap
  obtain ⟨p, q, hpq⟩ := List.length_eq_two.mp hlen
  rw [hpq] at hmap ⊢
  simp only [List.map_cons, List.map_nil, List.cons.injEq, Prod.mk.injEq] at hmap
  exact ⟨p, by simp [hmap.1.1], hmap.1.2, rfl⟩

theorem Stack.etherPollHelper_eq {s : Stack} {n : Nat} {dev : NetworkDevice}
    (hdev : s.host.device n = some dev) (frame : Bytes) :
    s.etherPollHelper n frame =
      { s with protocols := (etherPollInput true dev frame s.protocols).1 } := by
  have hn : dev.index = n := by simpa using List.find?_some hdev
  simp only [Stack.etherPollHelper, hdev, etherPollInput, hn]
  cases LLNStack.etherPollHelper dev.address frame <;> rfl

theorem delivered_udpPacket {s s₁ : Stack} {n : Nat} {src dst : IpEndpoint} {data d : Bytes}
    (hd : udpDatagram src dst data = some d) (id : BitVec 16) (rest : Bytes)
    (hs₁ : s₁ = { s with
      protocols := (networkInputHandler true ⟨networkProtocolTypeIp,
        ipPacket udpProtocol d src.address dst.address id 0 ++ rest, n⟩ s.protocols).1 }) :
    Delivered s s₁ n dst ⟨src, data⟩ where
  once := ⟨_, hs₁, fun env _ _ hl => Host.handle_udpPacket env hd hl id rest⟩
  drained := by
    intro env i hinit hidle hl fuel hfuel
    obtain ⟨proto, hproto, hip, hlen⟩ := hinit.ipInput
    have hhandle := Host.handle_udpPacket env hd hl id rest
    rw [← hip] at hhandle
    rw [hs₁, Stack.networkProtocolHandler]
    simp only
    rw [networkProtocolHandler_input (Host.handle env) hidle hproto hhandle (by omega)]
    rfl
  received := by
    intro i hl
    refine ⟨udpRecvfrom_enqueued ?_ _ ?_, fun size hsize => ?_⟩
    · simp only [Host.enqueue, Function.update_self]
      exact (udpPcbSelect_some hl.selected).1
    · simp only [Host.enqueue, Function.update_self]
    · rw [udpRecvfromCopy, List.take_of_length_le hsize]

/-- **End-to-end delivery.** A datagram for which `udp_sendto` reaches the device is one
transmission. Over Ethernet it reaches the host the frame is addressed to, padding and all; over
loopback it reaches the sender's own queues. -/
theorem udp_delivery (env : Env) (s : Stack) (i : Fin udpPcbSize) (data : Bytes)
    (foreign : IpEndpoint) {route : IpRoute} {dev : NetworkDevice} {ha : EtherAddr}
    (hs : s.host.Sends i data.length foreign route dev ha) :
    ∃ s', (s.udpSendto env i.val data foreign).1 = s' ∧
      ∃ entry, entry = ⟨⟨route.iface.unicast, (s'.host.pcbs i).localEp.port⟩, data⟩ ∧
        (dev.ops = .etherTransmit → dev.mtu.toNat ≤ etherPayloadSizeMax →
          ∃ frame, s'.host.sent = s.host.sent ++ [.wire dev.index frame] ∧
            ∀ (peer : Stack) (n : Nat) (peerDev : NetworkDevice),
              peer.host.device n = some peerDev →
              ha = peerDev.address ∨ ha = etherAddrBroadcast →
              Delivered peer (peer.etherPollHelper n frame) n foreign entry) ∧
        (dev.ops = .loopbackTransmit →
          Delivered { s with host := s'.host } s' dev.index foreign entry) := by
  obtain ⟨h', d, hh', hd, hsent⟩ := Host.udpSendto_sent env hs
  set packet := ipPacket udpProtocol d route.iface.unicast foreign.address s.host.id 0 with hpacket
  have hinputs : s.host.inputs h' =
      [dev.transmit networkProtocolTypeIp packet ha].filterMap Transmission.input := by
    rw [Host.inputs, hsent, List.drop_left]
  have hs' : (s.udpSendto env i.val data foreign).1 =
      ⟨h', networkInputs s.protocols (s.host.inputs h')⟩ := by
    simp only [Stack.udpSendto, hh']
  refine ⟨_, hs', _, rfl, fun hops hmtu => ?_, fun hops => ?_⟩
  · have hlen : packet.length ≤ 1500 := by
      have hfits := hs.fits
      have hdl := length_udpDatagram hd
      simp only [etherPayloadSizeMax, etherFrameSizeMax, etherHdrSize] at hmtu
      rw [hpacket, length_ipPacket _ _ _ _ _ (by omega)]
      omega
    refine ⟨etherFrame dev.address networkProtocolTypeIp packet ha, ?_, ?_⟩
    · rw [hsent]
      simp only [NetworkDevice.transmit, hops]
    · intro peer n peerDev hdev hha
      have hn : peerDev.index = n := by simpa using List.find?_some hdev
      refine delivered_udpPacket hd s.host.id (List.replicate (46 - packet.length) 0) ?_
      rw [Stack.etherPollHelper_eq hdev, etherPollInput_etherFrame true peerDev hlen, if_pos hha,
        hn]
  · refine delivered_udpPacket hd s.host.id [] ?_
    rw [List.append_nil, hinputs]
    simp only [NetworkDevice.transmit, hops]
    rfl

def oneDeviceStack (dev : NetworkDevice) (iface : IpInterface) (caches : Caches)
    (localEp : IpEndpoint) : Stack where
  host :=
    { devices := [{ dev with
        interfaces := [iface]
        flags := dev.flags ||| networkDeviceFlagUp }]
      routes := [⟨iface.unicast &&& iface.netmask, iface.netmask, ipAddrAny, iface⟩]
      ipProtocols := [⟨udpProtocol, .udpInput⟩, ⟨icmpProtocol, .icmpInput⟩]
      caches := caches
      pcbs := Function.update udpPcbsInit 0 ⟨.stateOpen, localEp, [], schedCtxInit⟩
      id := 128
      clock := 0
      sent := [] }
  protocols := [⟨networkProtocolTypeIp, [], .ipInput⟩, ⟨networkProtocolTypeArp, [], .arpInput⟩]

/-- The host 10.0.0.`k`, which has resolved 10.0.0.`peer`. -/
def lanStack (k peer : Byte) (port : BitVec 16) : Stack :=
  oneDeviceStack
    (etherSetupHelper ⟨[], 0, 0, 0, 0, .ofBytes 2 0 0 0 0 k, etherAddrBroadcast,
      .etherTransmit⟩)
    ⟨networkInterfaceFamilyIp, 0, k ++ 0x00000a#24, 0x00ffffff#32, 0xff00000a#32⟩
    (Function.update cachesInit 0
      ⟨.stateResolved, peer ++ 0x00000a#24, .ofBytes 2 0 0 0 0 peer, ⟨0, 0⟩⟩)
    ⟨ipAddrAny, port⟩

def loopbackStack (port : BitVec 16) : Stack :=
  oneDeviceStack
    (loopbackSetup ⟨[], 0, 0, 0, 0, etherAddrAny, etherAddrBroadcast,
      .loopbackTransmit⟩)
    ⟨networkInterfaceFamilyIp, 0, 0x0100007f#32, 0x000000ff#32, 0xffffff7f#32⟩ cachesInit
    ⟨ipAddrAny, port⟩

def quietEnv : Env := ⟨fun _ => ⟨0, 0⟩, fun _ => true⟩

/-- One byte from 10.0.0.1 to 10.0.0.2, from a port that is assigned, and an empty datagram over
loopback. -/
theorem shortPayloads_delivered :
    (∃ frame, ((lanStack 1 2 0).udpSendto quietEnv 0 [0x61] ⟨0x0200000a#32, 7⟩).1.host.sent =
        [.wire 0 frame] ∧
      ((lanStack 2 1 7).etherPollHelper 0 frame).networkProtocolHandler quietEnv 4 =
        some { lanStack 2 1 7 with
          host := (lanStack 2 1 7).host.enqueue 0
            ⟨⟨0x0100000a#32, hton16 .little 49152⟩, [0x61]⟩ }) ∧
    (((loopbackStack 7).udpSendto quietEnv 0 [] ⟨0x0100007f#32, 7⟩).1.networkProtocolHandler
      quietEnv 4).map (fun s => (s.host.pcbs 0).queue) = some [⟨⟨0x0100007f#32, 7⟩, []⟩] := by
  constructor
  · obtain ⟨s', hs', entry, hentry, hether, -⟩ := udp_delivery quietEnv
      (lanStack 1 2 0) 0 [0x61] ⟨0x0200000a#32, 7⟩
      { isOpen := rfl, source := .inl rfl, routed := rfl, addressed := by decide, device := rfl,
        up := by decide, fits := by decide,
        link := .resolved (i := 0) (by decide) rfl rfl (by decide) (by decide) (by decide +kernel)
          (by decide) }
    obtain ⟨frame, hsent, hdel⟩ := hether rfl (by decide)
    have hport : (s'.host.pcbs 0).localEp.port = hton16 .little 49152 := by
      rw [← hs']; decide +kernel
    rw [hentry, hport] at hdel
    refine ⟨frame, (congrArg (·.host.sent) hs').trans hsent, ?_⟩
    exact (hdel (lanStack 2 1 7) 0 _ rfl (.inl rfl)).drained _ 0 ⟨rfl, rfl⟩
      (by simp [Idle, lanStack, oneDeviceStack])
      ⟨rfl, ⟨_, _, rfl, rfl, rfl⟩, by decide +kernel⟩ 4 (by decide)
  · obtain ⟨s', hs', entry, hentry, -, hloop⟩ := udp_delivery quietEnv
      (loopbackStack 7) 0 [] ⟨0x0100007f#32, 7⟩
      { isOpen := rfl, source := .inl rfl, routed := rfl, addressed := by decide, device := rfl,
        up := by decide, fits := by decide, link := .unaddressed (by decide) }
    have hpcbs : s'.host.pcbs 0 = (loopbackStack 7).host.pcbs 0 := by
      rw [← hs']; decide +kernel
    have hlisten : s'.host.Listens 0 ⟨0x0100007f#32, 7⟩ 0 := by
      rw [← hs']
      exact ⟨by decide +kernel,
        ⟨_, _, (by decide +kernel : _ = (loopbackStack 7).host.device 0), rfl, rfl⟩,
        by decide +kernel⟩
    have hrun := (hloop rfl).drained quietEnv 0 ⟨rfl, hlisten.protocols⟩
      (by simp [Idle, loopbackStack, oneDeviceStack]) hlisten 4 (by decide)
    refine (congrArg (fun s : Stack => (s.networkProtocolHandler quietEnv 4).map
      fun s => (s.host.pcbs 0).queue) hs').trans ?_
    simp only [hrun, hentry, Host.enqueue, Option.map_some, Function.update_self, hpcbs]
    rfl

end LLNStack
