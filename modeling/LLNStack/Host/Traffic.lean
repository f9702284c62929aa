import LLNStack.Host.Config

/-!
# LLNStack.Host.Traffic

A configured stack in operation: frames that arrive, handler calls, the calls of an application, the
timer of ARP and devices that are opened and closed, in any order.

* `transmissions_truthful`: whatever it receives, a stack transmits only on devices that are up, and
  only ARP messages and packets that say where they come from and that are well formed.
* `transmissions_bounded`: every transmission is paid for, by a call of `udp_sendto` or by a request
  that arrived in a frame of its own.

The send path is followed once (`Emits`), for both.
-/

namespace LLNStack

open Lib

/-! ## Requests -/

def NetworkInput.IsRequest (input : NetworkInput) : Prop :=
  (input.type = networkProtocolTypeIp ∧ (IpHdr.ofBytes input.data).protocol = icmpProtocol ∧
    input.data.getD (IpHdr.ofBytes input.data).hlen 0 = icmpTypeEcho) ∨
  (input.type = networkProtocolTypeArp ∧
    ntoh16 .little (ArpEther.ofBytes input.data).op = arpOpRequest)

instance (input : NetworkInput) : Decidable input.IsRequest :=
  inferInstanceAs (Decidable (_ ∨ _))

theorem ipPacket_head (protocol : Byte) {data : Bytes} (src dst : IPAddress) (id : BitVec 16)
    (hlen : data.length ≤ 65515) :
    (IpHdr.ofBytes (ipPacket protocol data src dst id 0)).protocol = protocol ∧
      (ipPacket protocol data src dst id 0).getD
        (IpHdr.ofBytes (ipPacket protocol data src dst id 0)).hlen 0 = data.getD 0 0 := by
  obtain ⟨hdr, sum, hhdr, hp, -⟩ := ipPacket_eq protocol src dst id 0 hlen
  have hhlen : hdr.hlen = 20 := by
    refine IpHdr.hlen_of_vhl ?_
    rw [hhdr]
    exact vhl_ipOutputHdr protocol (BitVec.ofNat 16 (20 + data.length)) src dst id 0
  rw [hp, IpHdr.ofBytes_toBytes, hhlen]
  constructor
  · rw [hhdr]
    rfl
  · rw [List.getD_append_right _ _ _ _ (by simp)]
    simp

theorem not_isRequest_ipPacket {protocol : Byte} {data : Bytes} {src dst : IPAddress}
    {id : BitVec 16} (hlen : data.length ≤ 65515)
    (h : protocol = icmpProtocol → data.getD 0 0 ≠ icmpTypeEcho) (n : Nat) :
    ¬ NetworkInput.IsRequest
      ⟨networkProtocolTypeIp, ipPacket protocol data src dst id 0, n⟩ := by
  obtain ⟨hprotocol, hfirst⟩ := ipPacket_head protocol src dst id hlen
  rintro (⟨-, hp, hd⟩ | ⟨htype, -⟩)
  · rw [hprotocol] at hp
    rw [hfirst] at hd
    exact h hp hd
  · exact absurd htype (show networkProtocolTypeIp ≠ networkProtocolTypeArp by decide)

theorem not_isRequest_arpReply (sha tha : EtherAddr) (spa tpa : IPAddress) (n : Nat) :
    ¬ NetworkInput.IsRequest
      ⟨networkProtocolTypeArp, (arpEther arpOpReply sha spa tha tpa).toBytes, n⟩ := by
  have hof := ArpEther.ofBytes_toBytes (arpEther arpOpReply sha spa tha tpa) []
  rw [List.append_nil] at hof
  rintro (⟨htype, -⟩ | ⟨-, hop⟩)
  · exact absurd htype (show networkProtocolTypeArp ≠ networkProtocolTypeIp by decide)
  · rw [hof, arpEther, ntoh16_hton16] at hop
    exact absurd hop (by decide)

/-! ## What a transmission says -/

/-- A whole packet with this source, as long as its header says, and with a checksum that
verifies. -/
structure ValidPacket (src : IPAddress) (data : Bytes) : Prop where
  vhl : (IpHdr.ofBytes data).vhl = 0x45#8
  total : (IpHdr.ofBytes data).totalLen = data.length
  offset : (IpHdr.ofBytes data).offset = 0
  sum : cksum16 .little data 20 0 = 0#16
  src : (IpHdr.ofBytes data).src = src

def ValidArp (sha : EtherAddr) (spa : IPAddress) (data : Bytes) : Prop :=
  ∃ msg, arpCheck data = some msg ∧ msg.sha = sha ∧ msg.spa = spa

/-- The transmission is by one of the devices, which is up, and names the addresses of the device
and of its interface as its source. -/
inductive Truthful (devices : List NetworkDevice) : Transmission → Prop where
  | ip {dev : NetworkDevice} {iface : IpInterface} {data : Bytes} {dst : EtherAddr} :
      dev ∈ devices → dev.isUp = true →
      networkDeviceGetInterface dev networkInterfaceFamilyIp = some iface →
      data.length ≤ dev.mtu.toNat → ValidPacket iface.unicast data →
      Truthful devices (dev.transmit networkProtocolTypeIp data dst)
  | arp {dev : NetworkDevice} {iface : IpInterface} {data : Bytes} {dst : EtherAddr} :
      dev ∈ devices → dev.isUp = true →
      networkDeviceGetInterface dev networkInterfaceFamilyIp = some iface →
      data.length ≤ dev.mtu.toNat → ValidArp dev.address iface.unicast data →
      Truthful devices (dev.transmit networkProtocolTypeArp data dst)

theorem validPacket_ipPacket (protocol : Byte) {data : Bytes} (src dst : IPAddress)
    (id : BitVec 16) (hlen : data.length ≤ 65515) :
    ValidPacket src (ipPacket protocol data src dst id 0) := by
  obtain ⟨hdr, sum, hhdr, hp, hsum⟩ := ipPacket_eq protocol src dst id 0 hlen
  have hof : IpHdr.ofBytes (ipPacket protocol data src dst id 0) = hdr := by
    rw [hp, IpHdr.ofBytes_toBytes]
  refine ⟨?_, ?_, ?_, ?_, ?_⟩
  · rw [hof, hhdr]
    exact vhl_ipOutputHdr protocol (BitVec.ofNat 16 (20 + data.length)) src dst id 0
  · rw [hof, length_ipPacket protocol src dst id 0 hlen, IpHdr.totalLen, hhdr]
    simp only [ipOutputHdr, ntoh16_hton16, BitVec.toNat_ofNat]
    omega
  · rw [hof, hhdr]
    rfl
  · rw [hp, cksum16_append (by simp), hsum]
  · rw [hof, hhdr]
    rfl

theorem validArp_arpEther (op : BitVec 16) (sha tha : EtherAddr) (spa tpa : IPAddress) :
    ValidArp sha spa (arpEther op sha spa tha tpa).toBytes := by
  have hck := arpCheck_toBytes op sha tha spa tpa []
  rw [List.append_nil] at hck
  exact ⟨_, hck, rfl, rfl⟩

theorem arpCheck_some {data : Bytes} {msg : ArpEther} (h : arpCheck data = some msg) :
    msg = ArpEther.ofBytes data := by
  simp only [arpCheck] at h
  split at h
  · cases h
  · split at h
    · cases h
    · split at h
      · cases h
      · cases h
        rfl

theorem arpInputTarget_some {dev : NetworkDevice} {msg : ArpEther} {iface : IpInterface}
    (h : arpInputTarget dev msg = some iface) :
    networkDeviceGetInterface dev networkInterfaceFamilyIp = some iface := by
  simp only [arpInputTarget] at h
  split at h
  · cases h
  · rename_i found hfound
    split at h
    · cases h
      exact hfound
    · cases h

namespace Host

/-! ## The send path -/

/-- From `h` to `h'` at most `n` transmissions were made, truthful ones, and none is a request to
the host itself. The tables that the configuration fills are the same. -/
structure Emits (h h' : Host) (n : Nat) : Prop where
  devices : h'.devices = h.devices
  routes : h'.routes = h.routes
  ipProtocols : h'.ipProtocols = h.ipProtocols
  sent : ∃ ts, h'.sent = h.sent ++ ts ∧ ts.length ≤ n ∧ ∀ t ∈ ts, Truthful h.devices t ∧
    ∀ input ∈ t.input, ¬ input.IsRequest

/-- Every route has an interface that its device has, and the devices and protocols are those of the
drivers and of `network_init`. -/
structure Operational (h : Host) : Prop where
  configured : h.Configured
  attached : ∀ route ∈ h.routes, ∀ dev, h.device route.iface.dev = some dev →
    networkDeviceGetInterface dev networkInterfaceFamilyIp = some route.iface
  ipProtocols : ∀ proto ∈ h.ipProtocols, proto.handler = .icmpInput ↔ proto.type = icmpProtocol

variable (env : Env) {h h' h'' : Host} {m n : Nat}

namespace Emits

theorem refl (h : Host) : Emits h h n := ⟨rfl, rfl, rfl, [], by simp, by simp, nofun⟩

theorem trans (h₁ : Emits h h' m) (h₂ : Emits h' h'' n) : Emits h h'' (m + n) := by
  obtain ⟨ts, hs, hlen, hts⟩ := h₁.sent
  obtain ⟨ts', hs', hlen', hts'⟩ := h₂.sent
  refine ⟨h₂.devices.trans h₁.devices, h₂.routes.trans h₁.routes,
    h₂.ipProtocols.trans h₁.ipProtocols, ts ++ ts', ?_, ?_, ?_⟩
  · rw [hs', hs, List.append_assoc]
  · rw [List.length_append]
    omega
  · intro t ht
    rcases List.mem_append.mp ht with ht | ht
    · exact hts t ht
    · rw [← h₁.devices]
      exact hts' t ht

theorem mono (he : Emits h h' m) (hmn : m ≤ n) : Emits h h' n := by
  obtain ⟨ts, hs, hlen, hts⟩ := he.sent
  exact ⟨he.devices, he.routes, he.ipProtocols, ts, hs, hlen.trans hmn, hts⟩

theorem of_same (hdev : h'.devices = h.devices) (hroutes : h'.routes = h.routes)
    (hip : h'.ipProtocols = h.ipProtocols) (hsent : h'.sent = h.sent) : Emits h h' 0 :=
  ⟨hdev, hroutes, hip, [], by rw [hsent, List.append_nil], Nat.le_refl 0, nofun⟩

end Emits

theorem Operational.emits (hop : h.Operational) (he : Emits h h' n) : h'.Operational where
  configured := by
    unfold Configured
    rw [he.devices]
    exact hop.configured
  attached := by
    unfold device
    rw [he.devices, he.routes]
    exact hop.attached
  ipProtocols := by
    rw [he.ipProtocols]
    exact hop.ipProtocols

theorem transmit_emits (o : Option Transmission)
    (ho : ∀ t ∈ o, Truthful h.devices t ∧ ∀ input ∈ t.input, ¬ input.IsRequest) :
    Emits h (h.transmit env o).1 1 := by
  cases o with
  | none => exact .refl h
  | some t =>
    have hlog : ∀ t' ∈ [t], Truthful h.devices t' ∧ ∀ input ∈ t'.input, ¬ input.IsRequest := by
      intro t' ht'
      rw [List.mem_singleton.mp ht']
      exact ho t rfl
    cases t with
    | wire k frame => exact ⟨rfl, rfl, rfl, _, rfl, Nat.le_refl 1, hlog⟩
    | loopback k type data => exact ⟨rfl, rfl, rfl, _, rfl, Nat.le_refl 1, hlog⟩

theorem input_transmit {dev : NetworkDevice} {type : BitVec 16} {data : Bytes} {dst : EtherAddr}
    {input : NetworkInput} (h : input ∈ (dev.transmit type data dst).input) :
    dev.ops = .loopbackTransmit ∧ input = ⟨type, data, dev.index⟩ := by
  unfold NetworkDevice.transmit at h
  cases hops : dev.ops with
  | etherTransmit =>
    rw [hops] at h
    cases h
  | loopbackTransmit =>
    rw [hops] at h
    cases h
    exact ⟨rfl, rfl⟩

theorem output_emits {dev : NetworkDevice} {type : BitVec 16} {data : Bytes} {dst : EtherAddr}
    (htrue : dev.isUp = true → data.length ≤ dev.mtu.toNat →
      Truthful h.devices (dev.transmit type data dst))
    (hquiet : dev.ops = .loopbackTransmit → ¬ NetworkInput.IsRequest ⟨type, data, dev.index⟩) :
    Emits h (h.transmit env (networkDeviceOutput dev type data dst)).1 1 := by
  refine transmit_emits env _ fun t ht => ?_
  obtain ⟨hup, hfits, rfl⟩ := networkDeviceOutput_some ht
  refine ⟨htrue hup hfits, fun input hinput => ?_⟩
  obtain ⟨hops, rfl⟩ := input_transmit hinput
  exact hquiet hops

/-- Only Ethernet devices have ARP requests, and theirs go to the wire. -/
theorem arpRequest_emits (hop : h.Operational) {dev : NetworkDevice} (hdev : dev ∈ h.devices)
    {iface : IpInterface}
    (hi : networkDeviceGetInterface dev networkInterfaceFamilyIp = some iface)
    (htype : dev.type = networkDeviceTypeEthernet) (pa : IPAddress) :
    Emits h (h.transmit env (arpRequest iface dev pa)).1 1 := by
  refine output_emits env (fun hup hfits => ?_) fun hops => ?_
  · exact .arp hdev hup hi hfits (validArp_arpEther ..)
  · rw [((hop.configured dev hdev).etherLink htype).ops] at hops
    cases hops

theorem arpResolve_emits (hop : h.Operational) {dev : NetworkDevice} (hdev : dev ∈ h.devices)
    {iface : IpInterface}
    (hi : networkDeviceGetInterface dev networkInterfaceFamilyIp = some iface) (pa : IPAddress) :
    Emits h (h.arpResolve env iface dev pa).1 1 ∧
      ∀ ha, (h.arpResolve env iface dev pa).2 = .found ha →
        Emits h (h.arpResolve env iface dev pa).1 0 := by
  have htick : ∀ caches, Emits h { h with caches := caches, clock := h.clock + 1 } 0 :=
    fun caches => .of_same rfl rfl rfl rfl
  by_cases htype : dev.type = networkDeviceTypeEthernet
  · have hreq : ∀ caches, Emits h (Host.transmit env
        { h with caches := caches, clock := h.clock + 1 } (arpRequest iface dev pa)).1 1 :=
      fun caches => ((htick caches).trans (arpRequest_emits env (hop.emits (htick caches)) hdev hi
        htype pa)).mono (Nat.le_refl 1)
    have ht := arpResolve_trans h.caches (env.now h.clock) iface dev pa
    simp only [arpResolve]
    generalize (LLNStack.arpResolve h.caches (env.now h.clock) iface dev pa).1 = caches at ht ⊢
    generalize (LLNStack.arpResolve h.caches (env.now h.clock) iface dev pa).2.1 = r at ht ⊢
    generalize (LLNStack.arpResolve h.caches (env.now h.clock) iface dev pa).2.2 = out at ht ⊢
    cases ht with
    | error => exact ⟨(htick _).mono (Nat.zero_le 1), fun _ he => by cases he⟩
    | new _ _ => exact ⟨hreq _, fun _ he => by cases he⟩
    | again _ _ => exact ⟨hreq _, fun _ he => by cases he⟩
    | found _ _ => exact ⟨(htick _).mono (Nat.zero_le 1), fun _ _ => htick _⟩
  · simp only [arpResolve, arpResolve_unsupported (.inl htype)]
    exact ⟨(htick _).mono (Nat.zero_le 1), fun _ he => by cases he⟩

theorem ipOutputDevice_emits (hop : h.Operational) {iface : IpInterface}
    (hi : ∀ dev, h.device iface.dev = some dev →
      networkDeviceGetInterface dev networkInterfaceFamilyIp = some iface)
    {data : Bytes} (hvalid : ValidPacket iface.unicast data)
    (hquiet : ∀ n, ¬ NetworkInput.IsRequest ⟨networkProtocolTypeIp, data, n⟩)
    (dst : IPAddress) : Emits h (h.ipOutputDevice env iface data dst).1 1 := by
  rw [ipOutputDevice]
  split
  · exact .refl h
  · rename_i dev hdev
    have hmem : dev ∈ h.devices := List.mem_of_find?_eq_some hdev
    have hpacket : ∀ h' : Host, h'.devices = h.devices → ∀ ha, Emits h'
        (h'.transmit env (networkDeviceOutput dev networkProtocolTypeIp data ha)).1 1 :=
      fun h' hsame ha => output_emits env (fun hup hfits =>
        .ip (by rw [hsame]; exact hmem) hup (hi dev hdev) hfits hvalid) fun _ => hquiet dev.index
    split
    · split
      · exact hpacket h rfl _
      · have hres := arpResolve_emits env hop hmem (hi dev hdev) dst
        revert hres
        generalize h.arpResolve env iface dev dst = r
        obtain ⟨h', ret⟩ := r
        intro hres
        cases ret with
        | error => exact hres.1
        | incomplete => exact hres.1
        | found ha =>
          have hzero := hres.2 ha rfl
          exact (hzero.trans (hpacket h' hzero.devices ha)).mono (Nat.le_refl 1)
    · exact hpacket h rfl _

theorem ipSendPacket_emits (hop : h.Operational) {protocol : Byte} {data : Bytes}
    (hquiet : protocol = icmpProtocol → data.getD 0 0 ≠ icmpTypeEcho) (src dst : IPAddress) :
    Emits h (h.ipSendPacket env protocol data src dst).1 1 := by
  by_cases hr : ∃ route dev, h.Routed data.length src dst route dev
  · obtain ⟨route, dev, hr⟩ := hr
    have hlen : data.length ≤ 65515 := by
      have hfits := hr.fits
      have hmtu := dev.mtu.isLt
      omega
    have hid : Emits h { h with id := h.id + 1 } 0 := .of_same rfl rfl rfl rfl
    have hout := ipOutputDevice_emits env (hop.emits hid)
      (hop.attached route (ipRouteLookup_mem hr.routed).1)
      (validPacket_ipPacket protocol route.iface.unicast dst h.id hlen)
      (not_isRequest_ipPacket hlen hquiet) (route.nexthopTo dst)
    obtain ⟨h', ret, heq, hsend⟩ := ipSendPacket_routed env protocol hr
    rw [heq] at hout
    rw [hsend]
    exact (hid.trans hout).mono (Nat.le_refl 1)
  · rw [ipSendPacket_unrouted env protocol fun route dev hr' => hr ⟨route, dev, hr'⟩]
    exact .refl h

theorem udpSendto_emits (hop : h.Operational) (id : Int) (data : Bytes) (foreign : IpEndpoint) :
    Emits h (h.udpSendto env id data foreign).1 1 := by
  have hpcbs : ∀ pcbs, Emits h { h with pcbs := pcbs } 0 := fun pcbs => .of_same rfl rfl rfl rfl
  rw [udpSendto]
  split
  · exact (hpcbs _).mono (Nat.zero_le 1)
  · rename_i pcbs src _
    rw [udpOutput]
    split
    · exact (hpcbs _).mono (Nat.zero_le 1)
    · rename_i d _
      have hsend : Emits { h with pcbs := pcbs } (Host.ipSendPacket env { h with pcbs := pcbs }
          udpProtocol d src.address foreign.address).1 1 :=
        ipSendPacket_emits env (hop.emits (hpcbs pcbs))
          (fun hne => absurd hne (show udpProtocol ≠ icmpProtocol by decide)) _ _
      revert hsend
      generalize Host.ipSendPacket env { h with pcbs := pcbs } udpProtocol d src.address
        foreign.address = r
      intro hsend
      have hall := ((hpcbs pcbs).trans hsend).mono (Nat.le_refl 1)
      simp only
      split
      · exact hall
      · exact hall

/-! ## The receive path -/

def cost (input : NetworkInput) : Nat := if input.IsRequest then 1 else 0

theorem ipInput_emits (hop : h.Operational) (data : Bytes) (dev : NetworkDevice) (k : Nat) :
    Emits h (h.ipInput env data dev) (cost ⟨networkProtocolTypeIp, data, k⟩) := by
  rw [ipInput]
  cases hin : LLNStack.ipInput h.ipProtocols dev data with
  | none => exact .refl h
  | some d =>
    obtain ⟨-, proto, hproto, iface, -, htype, rfl⟩ := ipInput_some hin
    have hmem := List.mem_of_find?_eq_some hproto
    simp only [ipHandler]
    cases hhandler : proto.handler with
    | udpInput =>
      refine Emits.mono ?_ (Nat.zero_le _)
      exact .of_same rfl rfl rfl rfl
    | icmpInput =>
      simp only
      split
      · exact .refl h
      · rename_i out hout
        have hecho := hout
        rw [icmpInput_eq] at hecho
        split at hecho
        · rename_i hcond
          have hreq : NetworkInput.IsRequest ⟨networkProtocolTypeIp, data, k⟩ := by
            refine .inl ⟨rfl, htype.symm.trans ((hop.ipProtocols proto hmem).mp hhandler), ?_⟩
            simpa using hcond.2.2
          rw [cost, if_pos hreq]
          refine ipSendPacket_emits env hop (fun _ => ?_) out.src out.dst
          rw [icmpInput_some hout]
          exact show icmpTypeEchoreply ≠ icmpTypeEcho by decide
        · cases hecho

theorem arpInput_emits (data : Bytes) {dev : NetworkDevice} (hdev : dev ∈ h.devices) (k : Nat) :
    Emits h (h.arpInput env data dev) (cost ⟨networkProtocolTypeArp, data, k⟩) := by
  have htick : ∀ caches, Emits h { h with caches := caches, clock := h.clock + 1 } 0 :=
    fun caches => .of_same rfl rfl rfl rfl
  have hnone : ∀ caches, Emits h (Host.transmit env
      { h with caches := caches, clock := h.clock + 1 } none).1
      (cost ⟨networkProtocolTypeArp, data, k⟩) := fun caches => (htick caches).mono (Nat.zero_le _)
  simp only [arpInput, LLNStack.arpInput]
  split
  · exact hnone _
  · rename_i msg hmsg
    split
    · exact hnone _
    · rename_i iface hiface
      by_cases hreq : ntoh16 .little msg.op = arpOpRequest
      · rw [arpInputReply, if_pos hreq]
        have hone : cost ⟨networkProtocolTypeArp, data, k⟩ = 1 := by
          refine if_pos (.inr ⟨rfl, ?_⟩)
          rw [← arpCheck_some hmsg]
          exact hreq
        rw [hone]
        refine ((htick _).trans (output_emits env (fun hup hfits => ?_) fun _ => ?_)).mono
          (Nat.le_refl 1)
        · exact .arp hdev hup (arpInputTarget_some hiface) hfits (validArp_arpEther ..)
        · exact not_isRequest_arpReply _ _ _ _ _
      · rw [arpInputReply, if_neg hreq]
        exact hnone _

theorem netHandler_emits (hop : h.Operational) {type : BitVec 16} {handler : NetHandler}
    (hhandler : (type, handler) ∈ initTable) (entry : Bytes × Nat) :
    Emits h (h.netHandler env handler entry) (cost ⟨type, entry.1, entry.2⟩) := by
  rw [netHandler]
  split
  · exact .refl h
  · rename_i dev hdev
    cases handler with
    | ipInput =>
      have htype : type = networkProtocolTypeIp := by
        simpa [initTable] using hhandler
      rw [htype]
      exact ipInput_emits env hop entry.1 dev entry.2
    | arpInput =>
      have htype : type = networkProtocolTypeArp := by
        simpa [initTable] using hhandler
      rw [htype]
      exact arpInput_emits env entry.1 (List.mem_of_find?_eq_some hdev) entry.2

end Host

/-! ## The stack in operation -/

inductive StackAction where
  | udpOpen
  | udpBind (id : Int) (localEp : IpEndpoint)
  | udpClose (id : Int) (destroy : Nat)
  | udpRecvfrom (id : Int)
  | udpEventHandler
  | udpSendto (id : Int) (data : Bytes) (foreign : IpEndpoint)
  | arpTimer
  | deviceOpen (n : Nat) (driver : Option EtherAddr)
  | deviceClose (n : Nat) (driver : Bool)
  /-- `ether_poll_helper` on device `n`. -/
  | poll (n : Nat) (frame : Bytes)
  /-- One call of a handler by `network_protocol_handler`. -/
  | handle (k : Nat)

namespace Stack

def setPcbs (s : Stack) (pcbs : Pcbs) : Stack := { s with host := { s.host with pcbs := pcbs } }

/-- A call of `network_device_open` or `network_device_close` on device `n`. -/
def mapDevice (s : Stack) (n : Nat) (f : NetworkDevice → NetworkDevice) : Stack :=
  { s with host := { s.host with
      devices := s.host.devices.map fun dev => if dev.index = n then f dev else dev } }

def next (env : Env) (s : Stack) : StackAction → Option Stack
  | .udpOpen => some (s.setPcbs (LLNStack.udpOpen s.host.pcbs).1)
  | .udpBind id localEp => some (s.setPcbs (LLNStack.udpBind s.host.pcbs id localEp).1)
  | .udpClose id destroy => some (s.setPcbs (LLNStack.udpClose destroy s.host.pcbs id).1)
  | .udpRecvfrom id => some (s.setPcbs (LLNStack.udpRecvfrom s.host.pcbs id).1)
  | .udpEventHandler => some (s.setPcbs (LLNStack.udpEventHandler s.host.pcbs))
  | .udpSendto id data foreign => some (s.udpSendto env id data foreign).1
  | .arpTimer => some { s with host := { s.host with
      caches := LLNStack.arpTimer s.host.caches (env.now s.host.clock)
      clock := s.host.clock + 1 } }
  | .deviceOpen n driver => some (s.mapDevice n fun dev => (networkDeviceOpen driver dev).1)
  | .deviceClose n driver => some (s.mapDevice n fun dev => (networkDeviceClose driver dev).1)
  | .poll n frame => some (s.etherPollHelper n frame)
  | .handle k =>
    match s.protocols[k]? with
    | none => none
    | some proto =>
      match proto.queue with
      | [] => none
      | entry :: rest =>
        let r := Host.handle env proto.handler entry s.host
        some ⟨r.1, networkInputs (s.protocols.set k { proto with queue := rest }) r.2⟩

def step (env : Env) (s : Stack) (a : StackAction) : Option (Stack × List Transmission) :=
  (s.next env a).map fun s' => (s', s'.host.sent.drop s.host.sent.length)

abbrev Step (env : Env) : Stack → StackAction × List Transmission → Stack → Prop :=
  stepRel (step env)

end Stack

/-- The data of a frame, for the device that takes it. -/
def frameInput (n : Nat) (frame : Bytes) : NetworkInput :=
  let frame := frame.take etherFrameSizeMax
  ⟨ntoh16 .little (EtherHdr.ofBytes frame).type, frame.drop etherHdrSize, n⟩

def StackAction.cost : StackAction → Nat
  | .udpSendto _ _ _ => 1
  | .poll n frame => Host.cost (frameInput n frame)
  | _ => 0

def pendingRequests (s : Stack) : Nat := queuedWeight Host.cost s.protocols

structure StackInv (s : Stack) : Prop where
  operational : s.host.Operational
  table : protocolTable s.protocols ⊆ initTable

theorem networkDeviceOpen_fixed (driver : Option EtherAddr) (dev : NetworkDevice) :
    (networkDeviceOpen driver dev).1.index = dev.index ∧
      (networkDeviceOpen driver dev).1.interfaces = dev.interfaces := by
  unfold networkDeviceOpen
  split
  · exact ⟨rfl, rfl⟩
  · cases driver <;> exact ⟨rfl, rfl⟩

theorem networkDeviceClose_fixed (driver : Bool) (dev : NetworkDevice) :
    (networkDeviceClose driver dev).1.index = dev.index ∧
      (networkDeviceClose driver dev).1.interfaces = dev.interfaces := by
  unfold networkDeviceClose
  split
  · exact ⟨rfl, rfl⟩
  · cases driver <;> exact ⟨rfl, rfl⟩

theorem Host.Operational.mapDevices {h : Host} (hop : h.Operational)
    {f : NetworkDevice → NetworkDevice}
    (hf : ∀ dev, (f dev).index = dev.index ∧ (f dev).interfaces = dev.interfaces)
    (hb : ∀ dev, dev.Built → (f dev).Built) :
    Host.Operational { h with devices := h.devices.map f } where
  configured := by
    intro dev hdev
    obtain ⟨old, hold, rfl⟩ := List.mem_map.mp hdev
    exact hb old (hop.configured old hold)
  attached := by
    intro route hroute dev hdev
    have hsame : ((fun dev : NetworkDevice => decide (dev.index = route.iface.dev)) ∘ f) =
        fun dev => decide (dev.index = route.iface.dev) := by
      funext dev
      simp only [Function.comp_apply, (hf dev).1]
    rw [device, List.find?_map, hsame, Option.map_eq_some_iff] at hdev
    obtain ⟨old, hold, rfl⟩ := hdev
    rw [networkDeviceGetInterface, (hf old).2]
    exact hop.attached route hroute old hold
  ipProtocols := hop.ipProtocols

/-- What an action does: truthful transmissions, each paid for by a request that was queued or by
the action itself. -/
structure Moves (s : Stack) (a : StackAction) (s' : Stack) (ts : List Transmission) : Prop where
  inv : StackInv s'
  sent : s'.host.sent = s.host.sent ++ ts
  truthful : ∀ t ∈ ts, Truthful s.host.devices t
  paid : ts.length + pendingRequests s' ≤ pendingRequests s + a.cost

namespace Moves

variable {s s' : Stack} {a : StackAction}

theorem silent (hop : s'.host.Operational) (htable : protocolTable s'.protocols ⊆ initTable)
    (hsent : s'.host.sent = s.host.sent)
    (hpaid : pendingRequests s' ≤ pendingRequests s + a.cost) : Moves s a s' [] := by
  refine ⟨⟨hop, htable⟩, by rw [hsent, List.append_nil], nofun, ?_⟩
  rw [List.length_nil, Nat.zero_add]
  exact hpaid

theorem of_host {host : Host} (hinv : StackInv s) (hop : host.Operational)
    (hsent : host.sent = s.host.sent) : Moves s a { s with host := host } [] :=
  silent hop hinv.table hsent (Nat.le_add_right _ _)

theorem of_emits {host : Host} {n : Nat} {protocols : List (NetworkProtocol NetHandler)}
    (hinv : StackInv s) (he : s.host.Emits host n) (htable : protocolTable protocols ⊆ initTable)
    (hpaid : n + queuedWeight Host.cost protocols ≤ pendingRequests s + a.cost) :
    ∃ ts, Moves s a ⟨host, networkInputs protocols (s.host.inputs host)⟩ ts := by
  obtain ⟨ts, hs, hlen, hts⟩ := he.sent
  refine ⟨ts, ⟨hinv.operational.emits he, ?_⟩, hs, fun t ht => (hts t ht).1, ?_⟩
  · rw [protocolTable_networkInputs]
    exact htable
  · have hinputs : s.host.inputs host = ts.filterMap Transmission.input := by
      rw [Host.inputs, hs, List.drop_left]
    -- what the host gives to itself costs nothing
    have hzero : ((s.host.inputs host).map Host.cost).sum = 0 := by
      refine List.sum_eq_zero fun c hc => ?_
      obtain ⟨input, hinput, rfl⟩ := List.mem_map.mp hc
      rw [hinputs] at hinput
      obtain ⟨t, ht, hinput⟩ := List.mem_filterMap.mp hinput
      exact if_neg ((hts t ht).2 input hinput)
    have hweight := queuedWeight_networkInputs Host.cost (s.host.inputs host) protocols
    change ts.length + queuedWeight Host.cost (networkInputs protocols (s.host.inputs host)) ≤ _
    omega

end Moves

theorem poll_moves {s : Stack} (hinv : StackInv s) (n : Nat) (frame : Bytes) :
    Moves s (.poll n frame) (s.etherPollHelper n frame) [] := by
  rw [Stack.etherPollHelper]
  split
  · exact .of_host hinv hinv.operational rfl
  · rename_i dev hdev
    split
    · exact .of_host hinv hinv.operational rfl
    · rename_i type data hpoll
      have hinput : (⟨type, data, n⟩ : NetworkInput) = frameInput n frame := by
        simp only [etherPollHelper] at hpoll
        split at hpoll
        · cases hpoll
        · split at hpoll
          · cases hpoll
          · cases hpoll
            rfl
      refine .silent hinv.operational ?_ rfl ?_
      · have hsame : protocolTable (networkInputHandler true ⟨type, data, n⟩ s.protocols).1 =
            protocolTable s.protocols := map_networkInputHandler (fun _ _ => rfl) _ s.protocols
        rw [hsame]
        exact hinv.table
      · rw [hinput]
        exact queuedWeight_networkInputHandler Host.cost (frameInput n frame) s.protocols

theorem handle_moves (env : Env) {s s' : Stack} (hinv : StackInv s) {k : Nat}
    (h : s.next env (.handle k) = some s') : ∃ ts, Moves s (.handle k) s' ts := by
  simp only [Stack.next] at h
  split at h
  · cases h
  · rename_i proto hk
    split at h
    · cases h
    · rename_i entry rest hq
      cases h
      have hhandler : (proto.type, proto.handler) ∈ initTable :=
        hinv.table (List.mem_map_of_mem (List.mem_of_getElem? hk))
      have hpop := queuedWeight_pop Host.cost hk hq
      refine Moves.of_emits hinv (Host.netHandler_emits env hinv.operational hhandler entry) ?_ ?_
      · rw [protocolTable_pop hk]
        exact hinv.table
      · rw [pendingRequests]
        omega

theorem next_moves (env : Env) {s s' : Stack} {a : StackAction} (hinv : StackInv s)
    (h : s.next env a = some s') : ∃ ts, Moves s a s' ts := by
  have hpcbs : ∀ pcbs, Moves s a (s.setPcbs pcbs) [] := fun pcbs =>
    .of_host hinv (hinv.operational.emits (.of_same rfl rfl rfl rfl)) rfl
  cases a with
  | udpOpen | udpBind _ _ | udpClose _ _ | udpRecvfrom _ | udpEventHandler =>
    cases h
    exact ⟨[], hpcbs _⟩
  | udpSendto id data foreign =>
    cases h
    exact Moves.of_emits hinv (Host.udpSendto_emits env hinv.operational id data foreign) hinv.table
      (Nat.add_comm _ _).le
  | arpTimer =>
    cases h
    exact ⟨[], .of_host hinv (hinv.operational.emits (.of_same rfl rfl rfl rfl)) rfl⟩
  | deviceOpen n driver =>
    cases h
    refine ⟨[], .of_host hinv (hinv.operational.mapDevices (fun dev => ?_) fun dev hb => ?_) rfl⟩
    · split
      · exact networkDeviceOpen_fixed driver dev
      · exact ⟨rfl, rfl⟩
    · split
      · exact .opened driver hb
      · exact hb
  | deviceClose n driver =>
    cases h
    refine ⟨[], .of_host hinv (hinv.operational.mapDevices (fun dev => ?_) fun dev hb => ?_) rfl⟩
    · split
      · exact networkDeviceClose_fixed driver dev
      · exact ⟨rfl, rfl⟩
    · split
      · exact .closed driver hb
      · exact hb
  | poll n frame =>
    cases h
    exact ⟨[], poll_moves hinv n frame⟩
  | handle k => exact handle_moves env hinv h

theorem step_moves (env : Env) {s s' : Stack} {l : StackAction × List Transmission}
    (hinv : StackInv s) (h : Stack.Step env s l s') : Moves s l.1 s' l.2 := by
  obtain ⟨s₁, hs₁, heq⟩ := Option.map_eq_some_iff.mp h
  obtain ⟨ts, hmoves⟩ := next_moves env hinv hs₁
  have hts : s₁.host.sent.drop s.host.sent.length = ts := by rw [hmoves.sent, List.drop_left]
  rw [hts] at heq
  cases heq
  exact hmoves

/-! ## Whole runs -/

theorem Node.stackInv {tr : List (NodeAction × Int)} {n : Node} (h : Run Node.Step .zero tr n) :
    StackInv n.stack := by
  have hinv := (run_nodeHist h).inv
  obtain ⟨table, hstage, htable⟩ := hinv.stage
  refine ⟨⟨fun dev hdev => (hinv.devices dev hdev).built, ?_, ?_⟩, ?_⟩
  · intro route hroute dev hdev
    obtain ⟨dev', hmem, hget⟩ := hinv.routes route hroute
    obtain ⟨hindex, -⟩ := (hinv.devices dev' hmem).getInterface hget
    have hfind : n.stack.host.device route.iface.dev = some dev' := by
      rw [hindex]
      exact find_key_of_mem hinv.distinct hmem
    rw [Option.some.inj (hdev.symm.trans hfind)]
    exact hget
  · intro proto hproto
    change proto ∈ n.ipProtocols at hproto
    generalize n.ipProtocols = ipProtocols at hstage hproto
    cases hstage with
    | fresh | arp | ip => cases hproto
    | icmp =>
      rw [List.mem_singleton.mp hproto]
      decide
    | complete =>
      rcases List.mem_cons.mp hproto with rfl | hproto
      · decide
      · rw [List.mem_singleton.mp hproto]
        decide
  · change protocolTable n.protocols ⊆ initTable
    rw [htable, protocolTable_emptyQueues]
    exact hstage.subset

theorem run_stackInv (env : Env) {s₀ s : Stack} {tr : List (StackAction × List Transmission)}
    (hinv : StackInv s₀) (hrun : Run (Stack.Step env) s₀ tr s) : StackInv s :=
  hrun.invariant hinv fun _ _ _ hi hl => (step_moves env hi hl).inv

/-- 192.0.2.1 asks for the address of the stack that `udp_app.c` sets up, and is sent a byte. -/
def askedThenSends : List StackAction :=
  [.poll 0 (etherFrame (.ofBytes 2 0 0 0 0 1) networkProtocolTypeArp
      (arpEther arpOpRequest (.ofBytes 2 0 0 0 0 1) 0x010200c0#32 etherAddrAny
        0x020200c0#32).toBytes etherAddrBroadcast),
    .handle 1, .udpOpen, .udpSendto 0 [0x61] ⟨0x010200c0#32, 0x0700#16⟩]

def sentTypes (tr : List (StackAction × List Transmission)) : List (List (BitVec 16)) :=
  tr.map fun l => l.2.map Transmission.type

theorem askedThenSends_run : ∃ calls n tr s, Run Node.Step .zero calls n ∧
    Run (Stack.Step quietEnv) n.stack tr s ∧ tr.map Prod.fst = askedThenSends ∧
    sentTypes tr = [[], [networkProtocolTypeArp], [], [networkProtocolTypeIp]] := by
  obtain ⟨calls, n, hconf, -, hcheck⟩ := exec_check Node.step .zero udpAppSetup
    (fun r => (exec (Stack.step quietEnv) r.2.stack askedThenSends).any fun r' =>
      decide (sentTypes r'.1 = [[], [networkProtocolTypeArp], [], [networkProtocolTypeIp]]))
    (by decide +kernel)
  obtain ⟨tr, s, hrun, hmap, htypes⟩ := exec_check (Stack.step quietEnv) n.stack askedThenSends _
    hcheck
  exact ⟨calls, n, tr, s, hconf, hrun, hmap, of_decide_eq_true htypes⟩

/-- **Truthful transmissions.** Whatever a configured stack receives and is asked to send, each of
its transmissions is on a device that is up and fits its MTU, and is a packet with a verifying
checksum and the address of the device's interface as its source, or an ARP message with the
hardware address and the protocol address of the device as its sender. -/
theorem transmissions_truthful {calls : List (NodeAction × Int)} {n : Node}
    (hconf : Run Node.Step .zero calls n) (env : Env)
    {tr : List (StackAction × List Transmission)} {s : Stack}
    (hrun : Run (Stack.Step env) n.stack tr s) :
    Run (Guarded (Stack.Step env) fun s l => ∀ t ∈ l.2, Truthful s.host.devices t)
      n.stack tr s := by
  induction hrun with
  | nil => exact .nil
  | snoc hr hl ih =>
    have hinv := run_stackInv env (Node.stackInv hconf) hr
    exact .snoc ih ⟨hl, (step_moves env hinv hl).truthful⟩

/-- The reply and the packet. -/
theorem askedThenSends_truthful : ∃ (n : Node) (tr : List (StackAction × List Transmission))
    (s : Stack), Run (Guarded (Stack.Step quietEnv) fun s l => ∀ t ∈ l.2, Truthful s.host.devices t)
      n.stack tr s ∧ tr.map Prod.fst = askedThenSends ∧
    sentTypes tr = [[], [networkProtocolTypeArp], [], [networkProtocolTypeIp]] := by
  obtain ⟨calls, n, tr, s, hconf, hrun, hmap, htypes⟩ := askedThenSends_run
  exact ⟨n, tr, s, transmissions_truthful hconf quietEnv hrun, hmap, htypes⟩

theorem pendingRequests_emptyQueues (table : List (BitVec 16 × NetHandler)) (h : Host) :
    pendingRequests ⟨h, emptyQueues table⟩ = 0 := by
  rw [pendingRequests, queuedWeight, emptyQueues, List.map_map]
  refine List.sum_eq_zero fun c hc => ?_
  obtain ⟨entry, -, rfl⟩ := List.mem_map.mp hc
  rfl

theorem run_paid (env : Env) {s₀ s : Stack} {tr : List (StackAction × List Transmission)}
    (hinv : StackInv s₀) (hrun : Run (Stack.Step env) s₀ tr s) :
    s.host.sent = s₀.host.sent ++ tr.flatMap Prod.snd ∧
      (tr.flatMap Prod.snd).length + pendingRequests s ≤
        pendingRequests s₀ + (tr.map (·.1.cost)).sum := by
  induction hrun with
  | nil => exact ⟨by simp, by simp⟩
  | snoc hr hl ih =>
    have hmoves := step_moves env (run_stackInv env hinv hr) hl
    have hpaid := hmoves.paid
    obtain ⟨hsent, hle⟩ := ih
    refine ⟨by rw [hmoves.sent, hsent]; simp, ?_⟩
    simp only [List.flatMap_append, List.flatMap_cons, List.flatMap_nil, List.append_nil,
      List.length_append, List.map_append, List.map_cons, List.map_nil, List.sum_append,
      List.sum_cons, List.sum_nil]
    omega

/-- **No amplification.** The number of transmissions a configured stack has made is at most the
number of calls of `udp_sendto` and of received frames that hold an echo request or an ARP request:
nothing is sent unasked, no request is answered twice, and no answer causes another one, whatever
loops there are through the loopback device. -/
theorem transmissions_bounded {calls : List (NodeAction × Int)} {n : Node}
    (hconf : Run Node.Step .zero calls n) (env : Env)
    {tr : List (StackAction × List Transmission)} {s : Stack}
    (hrun : Run (Stack.Step env) n.stack tr s) :
    s.host.sent = tr.flatMap Prod.snd ∧ s.host.sent.length ≤ (tr.map (·.1.cost)).sum := by
  obtain ⟨hsent, hle⟩ := run_paid env (Node.stackInv hconf) hrun
  obtain ⟨table, -, htable⟩ := (run_nodeHist hconf).inv.stage
  have hidle : pendingRequests n.stack = 0 := by
    rw [Node.stack, htable]
    exact pendingRequests_emptyQueues table _
  have hlog : s.host.sent = tr.flatMap Prod.snd := hsent
  exact ⟨hlog, by rw [hlog]; omega⟩

/-- One request and one call: the bound is reached. -/
theorem askedThenSends_bounded : ∃ (n : Node) (tr : List (StackAction × List Transmission))
    (s : Stack), Run (Stack.Step quietEnv) n.stack tr s ∧
    tr.map Prod.fst = askedThenSends ∧ s.host.sent = tr.flatMap Prod.snd ∧
    s.host.sent.length = 2 ∧ s.host.sent.length ≤ (askedThenSends.map (·.cost)).sum ∧
    (askedThenSends.map (·.cost)).sum = 2 := by
  obtain ⟨calls, n, tr, s, hconf, hrun, hmap, htypes⟩ := askedThenSends_run
  obtain ⟨hsent, hle⟩ := transmissions_bounded hconf quietEnv hrun
  have hcost : tr.map (·.1.cost) = askedThenSends.map (·.cost) := by
    rw [← hmap, List.map_map]
    rfl
  have htwo : s.host.sent.length = 2 := by
    have hlen := congrArg (fun types => (types.map List.length).sum) htypes
    simpa [hsent, sentTypes, List.length_flatMap, Function.comp_def] using hlen
  exact ⟨n, tr, s, hrun, hmap, hsent, htwo, hcost ▸ hle, by decide +kernel⟩

end LLNStack
