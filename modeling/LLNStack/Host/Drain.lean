import LLNStack.Net.Drain
import LLNStack.Host.Memory
import LLNStack.Host.Send

/-!
# LLNStack.Host.Drain

`network_protocol_handler` on a host whose loopback device feeds the queues that are drained. A
received packet is answered at most once, by an echo reply or an ARP reply, and such a reply is
never answered (`Silent`), wherever it came from and whatever addresses it carries.

* `Host.netHandlerMem_inputs`: a handler that returns causes at most one input, and that one is
  `Silent`.
* `Host.handleMem_quiet`: handling a `Silent` input causes none and does not fault.
* `drain_iff`: the loop ends, after at most two handler calls for each entry, exactly if no packet
  that is queued overruns (`Overruns`); a queued packet of total length 0 can stop the host
  (`zeroTotal_faults`).
-/

namespace LLNStack

open Lib

namespace Host

def Configured (h : Host) : Prop := ∀ dev ∈ h.devices, dev.Built

theorem Configured.device {h : Host} (hc : h.Configured) {n : Nat} {dev : NetworkDevice}
    (hdev : h.device n = some dev) : dev.Built :=
  hc dev (List.mem_of_find?_eq_some hdev)

theorem Configured.sent {h h' : Host} {ts : List Transmission} (hc : h.Configured)
    (hs : Sent h h' ts) : h'.Configured := by
  unfold Configured
  rw [hs.devices]
  exact hc

end Host

/-! ## Replies are not answered -/

def initTable : List (BitVec 16 × NetHandler) :=
  [(networkProtocolTypeIp, .ipInput), (networkProtocolTypeArp, .arpInput)]

theorem handler_ip {handler : NetHandler} (h : (networkProtocolTypeIp, handler) ∈ initTable) :
    handler = .ipInput := by
  revert h
  cases handler <;> decide

theorem handler_arp {handler : NetHandler} (h : (networkProtocolTypeArp, handler) ∈ initTable) :
    handler = .arpInput := by
  revert h
  cases handler <;> decide

/-- An echo reply in a packet, or an ARP reply. -/
inductive Silent : NetworkInput → Prop where
  | echoreply {msg : Bytes} {src dst : IPAddress} {id : BitVec 16} {n : Nat} :
      msg.getD 0 0 = icmpTypeEchoreply → msg.length ≤ 65515 →
      Silent ⟨networkProtocolTypeIp, ipPacket icmpProtocol msg src dst id 0, n⟩
  | arpReply {sha tha : EtherAddr} {spa tpa : IPAddress} {n : Nat} :
      Silent ⟨networkProtocolTypeArp, (arpEther arpOpReply sha spa tha tpa).toBytes, n⟩

namespace Host

variable (env : Env) {h : Host}

theorem tick_sent (h : Host) (caches : Caches) :
    Sent h { h with caches := caches, clock := h.clock + 1 } [] := ⟨rfl, rfl, by simp⟩

theorem ipHandler_udp {d : IpDelivery IpHandler} (hd : d.handler = .udpInput) :
    Sent h (h.ipHandler env d) [] := by
  simp only [ipHandler, hd]
  exact ⟨rfl, rfl, by simp⟩

theorem ipHandler_echoreply {d : IpDelivery IpHandler}
    (htype : d.data.getD 0 0 = icmpTypeEchoreply) : Sent h (h.ipHandler env d) [] := by
  cases hd : d.handler with
  | icmpInput =>
    have hnone := icmpInput_echoreply htype d.len.toNat d.src d.dst d.iface
    simp only [ipHandler, hd, hnone]
    exact .refl h
  | udpInput => exact ipHandler_udp env hd

theorem ipInput_echoreply {msg : Bytes} (htype : msg.getD 0 0 = icmpTypeEchoreply)
    (hlen : msg.length ≤ 65515) (src dst : IPAddress) (id : BitVec 16) (dev : NetworkDevice) :
    Sent h (h.ipInput env (ipPacket icmpProtocol msg src dst id 0) dev) [] := by
  obtain ⟨hdr, sum, hhdr, hp, -⟩ := ipPacket_eq icmpProtocol src dst id 0 hlen
  have hof : IpHdr.ofBytes (ipPacket icmpProtocol msg src dst id 0) = hdr := by
    rw [hp, IpHdr.ofBytes_toBytes]
  have hhlen : hdr.hlen = 20 := by
    refine IpHdr.hlen_of_vhl ?_
    rw [hhdr]
    exact vhl_ipOutputHdr icmpProtocol (BitVec.ofNat 16 (20 + msg.length)) src dst id 0
  rw [ipInput]
  cases hin : LLNStack.ipInput h.ipProtocols dev (ipPacket icmpProtocol msg src dst id 0) with
  | none => exact .refl h
  | some d =>
    obtain ⟨-, proto, -, iface, -, -, rfl⟩ := ipInput_some hin
    refine ipHandler_echoreply env ?_
    rw [hof, hhlen, hp, List.drop_left' (by simp)]
    exact htype

theorem arpInput_reply (sha tha : EtherAddr) (spa tpa : IPAddress) (dev : NetworkDevice) :
    Sent h (h.arpInput env (arpEther arpOpReply sha spa tha tpa).toBytes dev) [] := by
  have hck := arpCheck_toBytes arpOpReply sha tha spa tpa []
  rw [List.append_nil] at hck
  have hreply : ∀ iface, arpInputReply iface dev (arpEther arpOpReply sha spa tha tpa) = none := by
    intro iface
    simp only [arpInputReply, arpEther, ntoh16_hton16]
    exact if_neg (by decide)
  simp only [arpInput, LLNStack.arpInput, hck, hreply]
  split <;> exact ⟨rfl, rfl, by simp [transmit]⟩

theorem handle_silent {input : NetworkInput} (hs : Silent input) {handler : NetHandler}
    (hhandler : (input.type, handler) ∈ initTable) (h : Host) :
    (h.handle env handler (input.data, input.dev)).2 = [] := by
  have hsent : Sent h (h.netHandler env handler (input.data, input.dev)) [] := by
    rw [netHandler]
    split
    · exact .refl h
    · rename_i dev hdev
      cases hs with
      | echoreply htype hlen =>
        have hip : handler = .ipInput := handler_ip hhandler
        subst hip
        exact ipInput_echoreply env htype hlen _ _ _ dev
      | arpReply =>
        have harp : handler = .arpInput := handler_arp hhandler
        subst harp
        exact arpInput_reply env _ _ _ _ dev
  exact hsent.inputs

/-! ## What a handler sends -/

/-- At most one input is made on the way, and it meets `P`. -/
def AtMostOne (h h' : Host) (P : NetworkInput → Prop) : Prop :=
  ∃ ts, Sent h h' ts ∧ (ts.filterMap Transmission.input = [] ∨
    ∃ input, ts.filterMap Transmission.input = [input] ∧ P input)

namespace AtMostOne

variable {h' h'' : Host} {P Q : NetworkInput → Prop}

theorem of_sent (hs : Sent h h' []) : AtMostOne h h' P := ⟨[], hs, .inl rfl⟩

theorem mono (ho : AtMostOne h h' P) (hPQ : ∀ input, P input → Q input) : AtMostOne h h' Q := by
  obtain ⟨ts, hs, hnone | ⟨input, hone, hP⟩⟩ := ho
  · exact ⟨ts, hs, .inl hnone⟩
  · exact ⟨ts, hs, .inr ⟨input, hone, hPQ input hP⟩⟩

theorem after {ts : List Transmission} (hs : Sent h h' ts)
    (hts : ts.filterMap Transmission.input = []) (ho : AtMostOne h' h'' P) :
    AtMostOne h h'' P := by
  obtain ⟨ts', hs', ho⟩ := ho
  refine ⟨ts ++ ts', hs.trans hs', ?_⟩
  rw [List.filterMap_append, hts, List.nil_append]
  exact ho

end AtMostOne

theorem transmit_inputs (h : Host) (dev : NetworkDevice) (type : BitVec 16) (data : Bytes)
    (dst : EtherAddr) :
    AtMostOne h (h.transmit env (networkDeviceOutput dev type data dst)).1
      (fun input => input = ⟨type, data, dev.index⟩) := by
  refine ⟨_, transmit_sent env h _, ?_⟩
  cases hout : networkDeviceOutput dev type data dst with
  | none => exact .inl rfl
  | some t =>
    obtain ⟨-, -, rfl⟩ := networkDeviceOutput_some hout
    unfold NetworkDevice.transmit
    cases dev.ops with
    | etherTransmit => exact .inl rfl
    | loopbackTransmit => exact .inr ⟨_, rfl, rfl⟩

theorem arpRequest_inputs {dev : NetworkDevice} (hdev : dev.Built)
    (htype : dev.type = networkDeviceTypeEthernet) (iface : IpInterface) (pa : IPAddress) :
    (arpRequest iface dev pa).toList.filterMap Transmission.input = [] := by
  cases hreq : arpRequest iface dev pa with
  | none => rfl
  | some t =>
    obtain ⟨-, -, rfl⟩ := networkDeviceOutput_some hreq
    simp only [NetworkDevice.transmit, (hdev.etherLink htype).ops]
    rfl

theorem ipSendPacket_inputs (hc : h.Configured) (protocol : Byte) (data : Bytes)
    (src dst : IPAddress) :
    AtMostOne h (h.ipSendPacket env protocol data src dst).1 (fun input => ∃ src' id n,
      input = ⟨networkProtocolTypeIp, ipPacket protocol data src' dst id 0, n⟩ ∧
        data.length ≤ 65515) := by
  have htrans := send_trans env h protocol data src dst
  generalize (h.ipSendPacket env protocol data src dst).1 = h' at htrans ⊢
  generalize (h.ipSendPacket env protocol data src dst).2 = ret at htrans
  cases htrans with
  | refused _ hs => exact .of_sent hs
  | @transmitted route dev ha _ t hr _ ht hs =>
    have hlen : data.length ≤ 65515 := by
      have hfits := hr.fits
      have hmtu := dev.mtu.isLt
      omega
    refine ⟨_, hs, ?_⟩
    rw [ht, NetworkDevice.transmit]
    cases dev.ops with
    | etherTransmit => exact .inl rfl
    | loopbackTransmit => exact .inr ⟨_, rfl, _, _, _, rfl, hlen⟩
  | awaits hr hawaits hs =>
    exact ⟨_, hs, .inl (arpRequest_inputs (hc.device hr.device) hawaits.type _ _)⟩

/-- Whatever `ip_input` hands to a protocol, and whatever is in memory behind it. -/
theorem ipHandler_inputs (hc : h.Configured) (d : IpDelivery IpHandler) :
    AtMostOne h (h.ipHandler env d) Silent := by
  cases hd : d.handler with
  | udpInput => exact .of_sent (ipHandler_udp env hd)
  | icmpInput =>
    simp only [ipHandler, hd]
    split
    · exact .of_sent (.refl h)
    · rename_i out hout
      refine (ipSendPacket_inputs env hc icmpProtocol _ out.src out.dst).mono ?_
      rintro input ⟨src', id, n, rfl, hlen⟩
      refine .echoreply ?_ hlen
      rw [icmpInput_some hout]
      rfl

theorem arpInput_inputs (h : Host) (data : Bytes) (dev : NetworkDevice) :
    AtMostOne h (h.arpInput env data dev) Silent := by
  have hnone : ∀ caches, AtMostOne h
      (Host.transmit env { h with caches := caches, clock := h.clock + 1 } none).1 Silent :=
    fun caches => .of_sent (tick_sent h caches)
  have hreply : ∀ caches iface tha tpa dst, AtMostOne h (Host.transmit env
      { h with caches := caches, clock := h.clock + 1 } (arpReply iface dev tha tpa dst)).1
      Silent := by
    intro caches iface tha tpa dst
    refine .after (tick_sent h caches) rfl
      ((transmit_inputs env _ dev etherTypeArp _ dst).mono ?_)
    rintro input rfl
    exact .arpReply
  simp only [arpInput, LLNStack.arpInput]
  split
  · exact hnone _
  · rename_i msg hmsg
    split
    · exact hnone _
    · rename_i iface hiface
      by_cases hop : ntoh16 .little msg.op = arpOpRequest
      · rw [arpInputReply, if_pos hop]
        exact hreply _ iface _ _ _
      · rw [arpInputReply, if_neg hop]
        exact hnone _

theorem netHandlerMem_inputs (hc : h.Configured) {h' : Host} {behind : Bytes}
    {handler : NetHandler} {entry : Bytes × Nat}
    (hs : h.netHandlerMem env behind handler entry = some h') : AtMostOne h h' Silent := by
  rw [netHandlerMem] at hs
  split at hs
  · cases hs
    exact .of_sent (.refl h)
  · cases handler with
    | ipInput =>
      rcases ipInputMem_some env h hs with rfl | ⟨d, rfl⟩
      · exact .of_sent (.refl _)
      · exact ipHandler_inputs env hc d
    | arpInput =>
      cases hs
      exact arpInput_inputs env h _ _

end Host

/-! ## The handlers answer -/

theorem wellSized_ipPacket (protocol : Byte) {data : Bytes} (hlen : data.length ≤ 65515)
    (src dst : IPAddress) (id offset : BitVec 16) :
    WellSized (ipPacket protocol data src dst id offset) := by
  obtain ⟨hdr, sum, hhdr, hp, -⟩ := ipPacket_eq protocol src dst id offset hlen
  have hof : IpHdr.ofBytes (ipPacket protocol data src dst id offset) = hdr := by
    rw [hp, IpHdr.ofBytes_toBytes]
  have hhlen : hdr.hlen = 20 := by
    refine IpHdr.hlen_of_vhl ?_
    rw [hhdr]
    exact vhl_ipOutputHdr protocol (BitVec.ofNat 16 (20 + data.length)) src dst id offset
  have htotal : hdr.totalLen = 20 + data.length := by
    rw [hhdr, IpHdr.totalLen, ipOutputHdr, ntoh16_hton16]
    exact toNat_count (by omega)
  rw [wellSized_iff, hof, hhlen, htotal, minIpHeaderSize]
  omega

structure Host.Alike (h₀ h : Host) : Prop where
  configured : h.Configured
  devices : h.devices = h₀.devices
  ipProtocols : h.ipProtocols = h₀.ipProtocols

theorem Host.Alike.sent {h₀ h h' : Host} {ts : List Transmission} (ha : h₀.Alike h)
    (hs : Sent h h' ts) : h₀.Alike h' :=
  ⟨ha.configured.sent hs, hs.devices.trans ha.devices, hs.ipProtocols.trans ha.ipProtocols⟩

theorem Host.Alike.overruns {h₀ h : Host} (ha : h₀.Alike h) {behind : Bytes}
    {entry : Bytes × Nat} : Overruns h behind entry ↔ Overruns h₀ behind entry := by
  have hdev : h.device entry.2 = h₀.device entry.2 := by rw [device, device, ha.devices]
  constructor
  · rintro ⟨hill, hadm, hf⟩
    rw [hdev, ha.ipProtocols] at hadm
    rw [ha.ipProtocols] at hf
    exact ⟨hill, hadm, hf⟩
  · rintro ⟨hill, hadm, hf⟩
    rw [← hdev, ← ha.ipProtocols] at hadm
    rw [← ha.ipProtocols] at hf
    exact ⟨hill, hadm, hf⟩

/-- The input is not a packet, or one with its lengths in order. -/
def IpWellSized (input : NetworkInput) : Prop :=
  input.type = networkProtocolTypeIp → WellSized input.data

theorem Silent.ipWellSized {input : NetworkInput} (hs : Silent input) : IpWellSized input := by
  intro htype
  cases hs with
  | echoreply _ hlen => exact wellSized_ipPacket icmpProtocol hlen _ _ _ 0
  | arpReply => exact absurd htype (show networkProtocolTypeArp ≠ networkProtocolTypeIp by decide)

theorem ipWellSized_handler {t : BitVec 16} {handler : NetHandler} {entry : Bytes × Nat}
    (hmem : (t, handler) ∈ initTable) (hw : IpWellSized ⟨t, entry.1, entry.2⟩)
    (hip : handler = .ipInput) : WellSized entry.1 := by
  refine hw ?_
  subst hip
  simpa [initTable] using hmem

namespace Host

variable (env : Env) (behind : Nat → Bytes)

theorem handleMem_quiet {table : List (BitVec 16 × NetHandler)} (htable : table ⊆ initTable)
    (h₀ : Host) {input : NetworkInput} (hs : Silent input) :
    Quiet (Host.handleMem env behind) table h₀.Alike input := by
  intro handler hmem n h _
  have hreturns := netHandlerMem_wellSized env h handler (input.data, input.dev)
    (ipWellSized_handler (htable hmem) hs.ipWellSized) (behind n)
  refine ⟨h.netHandler env handler (input.data, input.dev), ?_⟩
  rw [handleMem, hreturns]
  exact congrArg (fun inputs => some (_, inputs)) (handle_silent env hs (htable hmem) h)

theorem handleMem_answers {table : List (BitVec 16 × NetHandler)} (htable : table ⊆ initTable)
    (h₀ : Host) :
    Answers (Host.handleMem env behind) table h₀.Alike
      (fun handler n entry => handler = .ipInput ∧ Overruns h₀ (behind n) entry) where
  faults := by
    intro handler n entry h ha
    rw [handleMem, Option.map_eq_none_iff, netHandlerMem_none_iff, ha.overruns]
  returns := by
    intro handler n entry h r ha hr
    obtain ⟨h', hs, rfl⟩ := Option.map_eq_some_iff.mp hr
    obtain ⟨ts, hsent, hts⟩ := netHandlerMem_inputs env ha.configured hs
    refine ⟨ha.sent hsent, ?_⟩
    rw [hsent.inputs]
    rcases hts with hnone | ⟨input, hone, hsilent⟩
    · exact .inl hnone
    · exact .inr ⟨input, hone, handleMem_quiet env behind htable h₀ hsilent⟩

end Host

/-! ## The loop -/

/-- `behind`: what can be read behind each of the packets that `ip_input` is given. -/
def Stack.networkProtocolHandlerMem (env : Env) (behind : Nat → Bytes) (fuel : Nat) (s : Stack) :
    DrainEnd NetHandler Host :=
  networkProtocolLoopMem (Host.handleMem env behind) fuel 0 s.protocols s.host []

/-- **The model without memory.** If all queued packets have their lengths in order, the handlers of
`Host.Model` do what those with memory do. -/
theorem networkProtocolHandlerMem_wellSized (env : Env) (behind : Nat → Bytes) {s : Stack}
    (htable : protocolTable s.protocols ⊆ initTable) (hdev : ∀ dev ∈ s.host.devices, dev.Built)
    (hsized : AllQueued IpWellSized s.protocols) (fuel : Nat) :
    (s.networkProtocolHandlerMem env behind fuel).left.map (fun r => (⟨r.2, r.1⟩ : Stack)) =
      s.networkProtocolHandler env fuel := by
  have hsame : ∀ t handler n entry (h : Host), (t, handler) ∈ protocolTable s.protocols →
      h.Configured → IpWellSized ⟨t, entry.1, entry.2⟩ →
      Host.handleMem env behind handler n entry h = some (h.handle env handler entry) ∧
        (h.handle env handler entry).1.Configured ∧
        ∀ input ∈ (h.handle env handler entry).2, IpWellSized input := by
    intro t handler n entry h hmem hc hentry
    have hreturns := Host.netHandlerMem_wellSized env h handler entry
      (ipWellSized_handler (htable hmem) hentry) (behind n)
    obtain ⟨ts, hsent, hts⟩ := Host.netHandlerMem_inputs env hc hreturns
    refine ⟨by rw [Host.handleMem, hreturns]; rfl, hc.sent hsent, ?_⟩
    intro input hin
    rw [Host.handle, hsent.inputs] at hin
    rcases hts with hnone | ⟨reply, hone, hsilent⟩
    · rw [hnone] at hin
      cases hin
    · rw [hone, List.mem_singleton] at hin
      exact hin ▸ hsilent.ipWellSized
  rw [Stack.networkProtocolHandlerMem, networkProtocolLoopMem_left hsame rfl hdev hsized]
  rfl

/-- **The drain loop.** Whatever is queued, whatever the tables of the host hold, and whatever is in
memory behind the packets, `network_protocol_handler` returns, after at most twice as many handler
calls as there were entries, exactly if no packet in the queue of `ip_input` overruns. -/
theorem drain_iff (env : Env) (behind : Nat → Bytes) {s : Stack}
    (htable : (protocolTable s.protocols).Subperm initTable)
    (hdev : ∀ dev ∈ s.host.devices, dev.Built) :
    (∃ fuel protocols host log, log.length ≤ 2 * queued s.protocols ∧
        s.networkProtocolHandlerMem env behind fuel = .returned protocols host log) ↔
      ∀ proto ∈ s.protocols, proto.handler = .ipInput →
        ∀ n entry, proto.queue[n]? = some entry → ¬ Overruns s.host (behind n) entry := by
  have hnodup : ((protocolTable s.protocols).map Prod.fst).Nodup := by
    obtain ⟨table, hperm, hsub⟩ := htable
    exact (hperm.map Prod.fst).nodup_iff.mp ((hsub.map Prod.fst).nodup (by decide))
  have hiff := networkProtocolLoopMem_iff
    (Host.handleMem_answers env behind htable.subset s.host) hnodup rfl ⟨hdev, rfl, rfl⟩
  refine hiff.trans (forall₂_congr fun proto _ => ?_)
  constructor
  · exact fun h hip n entry hn hover => h n entry hn ⟨hip, hover⟩
  · exact fun h n entry hn hbad => h hbad.1 n entry hn hbad.2

def selfPing : Stack :=
  { loopbackStack 7 with
    protocols := [⟨networkProtocolTypeIp, [(ipPacket icmpProtocol
      (icmpOutput ⟨icmpTypeEcho, 0, 0, [0x61], 1, 0, 0⟩) 0x0100007f#32 0x0100007f#32 0 0, 0)],
      .ipInput⟩, ⟨networkProtocolTypeArp, [], .arpInput⟩] }

theorem selfPing_built : ∀ dev ∈ selfPing.host.devices, dev.Built := by
  intro dev hdev
  have hloop := NetworkDevice.Built.loopback
    ⟨[], 0, 0, 0, 0, etherAddrAny, etherAddrBroadcast, .loopbackTransmit⟩
  rw [List.mem_singleton.mp hdev]
  exact @NetworkDevice.Built.interfaceAdded _ _
    ⟨networkInterfaceFamilyIp, 0, 0x0100007f#32, 0x000000ff#32, 0xffffff7f#32⟩
    (hloop.opened (some etherAddrAny)) rfl

/-- The request has its lengths in order, so the handler returns although nothing can be read behind
it. -/
theorem selfPing_drained : ∃ fuel protocols host log, log.length ≤ 2 ∧
    selfPing.networkProtocolHandlerMem quietEnv (fun _ => []) fuel =
      .returned protocols host log := by
  refine (drain_iff quietEnv (fun _ => []) (s := selfPing) (List.Subperm.refl initTable)
    selfPing_built).mpr ?_
  intro proto hproto hip n entry hentry hover
  rcases List.mem_cons.mp hproto with rfl | hproto
  · rw [List.mem_singleton.mp (List.mem_of_getElem? hentry)] at hover
    exact hover.illSized (wellSized_ipPacket icmpProtocol (by decide) _ _ 0 0)
  · rw [List.mem_singleton.mp hproto] at hip
    cases hip

def zeroTotalReceived : Stack :=
  { lanStack 1 2 0 with
    protocols := [⟨networkProtocolTypeIp, [(zeroTotal, 0)], .ipInput⟩,
      ⟨networkProtocolTypeArp, [], .arpInput⟩] }

theorem zeroTotalReceived_built : ∀ dev ∈ zeroTotalReceived.host.devices, dev.Built := by
  intro dev hdev
  have hether := NetworkDevice.Built.ether
    ⟨[], 0, 0, 0, 0, .ofBytes 2 0 0 0 0 1, etherAddrBroadcast, .etherTransmit⟩
    (.ofBytes 2 0 0 0 0 1)
  rw [List.mem_singleton.mp hdev]
  exact @NetworkDevice.Built.interfaceAdded _ _
    ⟨networkInterfaceFamilyIp, 0, 0x0100000a#32, 0x00ffffff#32, 0xff00000a#32⟩
    (hether.opened (some (.ofBytes 2 0 0 0 0 1))) rfl

theorem zeroTotal_overruns : Overruns zeroTotalReceived.host echoBehind (zeroTotal, 0) := by
  have hhlen : (IpHdr.ofBytes zeroTotal).hlen = 20 := by decide
  have hlen : (IpHdr.ofBytes zeroTotal).handlerLen = 2 ^ 64 - 20 := by decide +kernel
  refine ⟨by rw [WellSized]; decide, ⟨_, rfl, ?_⟩, ⟨icmpProtocol, .icmpInput⟩, rfl, ?_⟩
  · exact
      { length := by decide, version := by decide, hlen := by decide, total := by decide
        sum := by decide +kernel, whole := by decide
        addressed := ⟨_, rfl, .inl (by decide)⟩
        registered := ⟨⟨icmpProtocol, .icmpInput⟩, List.mem_cons_of_mem _ List.mem_cons_self,
          by decide⟩ }
  · have hmem : zeroTotal.drop 20 ++ echoBehind = echoBehind := rfl
    rw [hhlen, hlen, hmem]
    exact ⟨by decide, .inr ⟨by decide, echoBehind_verifies, rfl⟩⟩

/-- **A packet that stops the host.** If the memory behind a packet of total length 0 reads as an
echo request, the handler faults before it has handled anything. -/
theorem zeroTotal_faults :
    (protocolTable zeroTotalReceived.protocols).Subperm initTable ∧
    (∀ dev ∈ zeroTotalReceived.host.devices, dev.Built) ∧
    (∀ fuel, zeroTotalReceived.networkProtocolHandlerMem quietEnv (fun _ => echoBehind) (fuel + 1) =
      .fault) ∧
    ¬ ∃ fuel protocols host log, zeroTotalReceived.networkProtocolHandlerMem quietEnv
      (fun _ => echoBehind) fuel = .returned protocols host log := by
  have hfault : Host.handleMem quietEnv (fun _ => echoBehind) .ipInput 0 (zeroTotal, 0)
      zeroTotalReceived.host = none := by
    rw [Host.handleMem, Option.map_eq_none_iff, Host.netHandlerMem_none_iff]
    exact ⟨rfl, zeroTotal_overruns⟩
  have hrun : ∀ fuel, zeroTotalReceived.networkProtocolHandlerMem quietEnv (fun _ => echoBehind)
      (fuel + 1) = .fault := networkProtocolLoopMem_fault rfl rfl hfault
  refine ⟨List.Subperm.refl initTable, zeroTotalReceived_built, hrun, ?_⟩
  rintro ⟨fuel, protocols, host, log, hreturned⟩
  cases fuel with
  | zero => cases hreturned
  | succ fuel =>
    rw [hrun fuel] at hreturned
    cases hreturned

end LLNStack
