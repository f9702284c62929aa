import LLNStack.Host.Network

/-!
# LLNStack.Host.Addressing

Hardware addresses on a network of stacks. No stack lies about its addresses, so no cache gets a
wrong entry, whatever the network does with the frames; and then no packet is sent to the wrong
device.

`frames_addressed`: every cache entry is the address of a device that has the protocol address, and
every frame goes to all, or to a device that has the address of the next hop.

The invariant is about three places where a pair of addresses is kept: the caches, the ARP messages
in the queues, and the frames.
-/

namespace LLNStack

open Lib

/-! ## Caches -/

def Tells (P : IPAddress → EtherAddr → Prop) (caches : Caches) : Prop :=
  ∀ i, (caches i).state ≠ .stateFree → (caches i).state ≠ .stateIncomplete →
    P (caches i).pa (caches i).ha

def Reports (P : IPAddress → EtherAddr → Prop) (input : NetworkInput) : Prop :=
  input.type = networkProtocolTypeArp → ∀ msg, arpCheck input.data = some msg → P msg.spa msg.sha

namespace Tells

variable {P : IPAddress → EtherAddr → Prop} {caches : Caches}

theorem init : Tells P cachesInit := fun _ hfree => absurd rfl hfree

theorem update (h : Tells P caches) (i : Fin arpCacheSize) {entry : ArpCache}
    (hentry : entry.state ≠ .stateIncomplete → P entry.pa entry.ha) :
    Tells P (Function.update caches i entry) := by
  refine (Function.forall_update_iff caches fun _ e => e.state ≠ .stateFree →
    e.state ≠ .stateIncomplete → P e.pa e.ha).mpr ?_
  exact ⟨fun _ => hentry, fun j _ => h j⟩

theorem resolve (h : Tells P caches) (now : Timeval) (iface : IpInterface) (dev : NetworkDevice)
    (pa : IPAddress) : Tells P (arpResolve caches now iface dev pa).1 := by
  rcases arpResolve_caches caches now iface dev pa with heq | ⟨-, i, heq⟩
  · rw [heq]
    exact h
  · rw [heq]
    exact h.update i fun hne => absurd rfl hne

theorem learn (h : Tells P caches) {now : Timeval} {msg : ArpEther} {caches' : Caches}
    (hlearn : ArpLearn caches now msg caches') (hmsg : P msg.spa msg.sha) : Tells P caches' := by
  cases hlearn with
  | @refresh i hsel =>
    refine h.update i fun _ => ?_
    rw [(arpCacheSelect_some hsel).2]
    exact hmsg
  | ignore _ => exact h
  | @insert i _ _ => exact h.update i fun _ => hmsg

theorem input (h : Tells P caches) {data : Bytes} {n : Nat}
    (hin : Reports P ⟨networkProtocolTypeArp, data, n⟩) (now : Timeval) (dev : NetworkDevice) :
    Tells P (arpInput caches now dev data).1 := by
  have ht := arpInput_trans caches now dev data
  cases hc : arpCheck data with
  | none =>
    rw [hc] at ht
    rw [ht]
    exact h
  | some msg =>
    rw [hc] at ht
    exact h.learn ht (hin rfl msg hc)

theorem timer (h : Tells P caches) (now : Timeval) : Tells P (arpTimer caches now) := by
  intro i hfree hincomplete
  rcases arpTimer_eq caches now i with heq | heq
  · rw [heq] at hfree hincomplete ⊢
    exact h i hfree hincomplete
  · rw [heq] at hfree
    exact absurd rfl hfree

end Tells

namespace Host

variable (env : Env) {h : Host} {P : IPAddress → EtherAddr → Prop}

@[simp] theorem transmit_caches (t : Option Transmission) :
    (h.transmit env t).1.caches = h.caches := by
  cases t with
  | none => rfl
  | some t => cases t <;> rfl

theorem ipOutputDevice_tells (hk : Tells P h.caches) (iface : IpInterface) (data : Bytes)
    (dst : IPAddress) : Tells P (h.ipOutputDevice env iface data dst).1.caches := by
  rw [ipOutputDevice]
  split
  · exact hk
  · rename_i dev _
    split
    · split
      · rw [transmit_caches]
        exact hk
      · have hres : Tells P (h.arpResolve env iface dev dst).1.caches := by
          simp only [arpResolve, transmit_caches]
          exact hk.resolve _ iface dev dst
        revert hres
        generalize h.arpResolve env iface dev dst = r
        obtain ⟨h', ret⟩ := r
        intro hres
        cases ret with
        | error => exact hres
        | incomplete => exact hres
        | found ha =>
          simp only [transmit_caches]
          exact hres
    · rw [transmit_caches]
      exact hk

theorem ipSendPacket_tells (hk : Tells P h.caches) (protocol : Byte) (data : Bytes)
    (src dst : IPAddress) : Tells P (h.ipSendPacket env protocol data src dst).1.caches := by
  by_cases hr : ∃ route dev, h.Routed data.length src dst route dev
  · obtain ⟨route, dev, hr⟩ := hr
    obtain ⟨h', ret, hout, hsend⟩ := ipSendPacket_routed env protocol hr
    have htells := ipOutputDevice_tells env (h := { h with id := h.id + 1 }) hk route.iface
      (ipPacket protocol data route.iface.unicast dst h.id 0) (route.nexthopTo dst)
    rw [hout] at htells
    rw [hsend]
    exact htells
  · rw [ipSendPacket_unrouted env protocol fun route dev hr' => hr ⟨route, dev, hr'⟩]
    exact hk

theorem udpSendto_tells (hk : Tells P h.caches) (id : Int) (data : Bytes) (foreign : IpEndpoint) :
    Tells P (h.udpSendto env id data foreign).1.caches := by
  rw [udpSendto]
  split
  · exact hk
  · rename_i pcbs src _
    rw [udpOutput]
    split
    · exact hk
    · rename_i d _
      have htells := ipSendPacket_tells env (h := { h with pcbs := pcbs }) hk udpProtocol d
        src.address foreign.address
      revert htells
      generalize Host.ipSendPacket env { h with pcbs := pcbs } udpProtocol d src.address
        foreign.address = r
      intro htells
      simp only
      split
      · exact htells
      · exact htells

theorem ipInput_tells (hk : Tells P h.caches) (data : Bytes) (dev : NetworkDevice) :
    Tells P (h.ipInput env data dev).caches := by
  rw [ipInput]
  split
  · exact hk
  · rename_i d _
    rw [ipHandler]
    split
    · split
      · exact hk
      · exact ipSendPacket_tells env hk _ _ _ _
    · exact hk

end Host

/-! ## Where packets are sent -/

/-- What a host gives to a device: an ARP message about the device, for all or for the host it asked
or answers; or a packet on the route to its destination, for the hardware address that
`ip_output_device` finds. -/
inductive Host.Addressed (P : IPAddress → EtherAddr → Prop) (h : Host) : Transmission → Prop where
  | arp {dev : NetworkDevice} {iface : IpInterface} {dst tha : EtherAddr} {op : BitVec 16}
      {tpa : IPAddress} : dev ∈ h.devices →
      networkDeviceGetInterface dev networkInterfaceFamilyIp = some iface →
      dst = dev.broadcast ∨ P tpa dst →
      Addressed P h (dev.transmit networkProtocolTypeArp
        (arpEther op dev.address iface.unicast tha tpa).toBytes dst)
  | ip {dev : NetworkDevice} {route : IpRoute} {data : Bytes} {dst : EtherAddr} :
      ipRouteLookup h.routes (IpHdr.ofBytes data).dst = some route →
      h.device route.iface.dev = some dev → data.length ≤ dev.mtu.toNat →
      LinkDst h.caches route.iface dev (route.nexthopTo (IpHdr.ofBytes data).dst) dst →
      Addressed P h (dev.transmit networkProtocolTypeIp data dst)

theorem ipPacket_dst (protocol : Byte) {data : Bytes} (src dst : IPAddress) (id : BitVec 16)
    (hlen : data.length ≤ 65515) :
    (IpHdr.ofBytes (ipPacket protocol data src dst id 0)).dst = dst := by
  obtain ⟨hdr, sum, hhdr, hp, -⟩ := ipPacket_eq protocol src dst id 0 hlen
  rw [hp, IpHdr.ofBytes_toBytes, hhdr]
  rfl

namespace Host

def Directs (P : IPAddress → EtherAddr → Prop) (h h' : Host) : Prop :=
  ∃ ts, Sent h h' ts ∧ ∀ t ∈ ts, h.Addressed P t

variable (env : Env) {P : IPAddress → EtherAddr → Prop} {h : Host}

theorem Directs.silent {h' : Host} (hs : Sent h h' []) : Directs P h h' := ⟨[], hs, by simp⟩

theorem ipSendPacket_directs (hop : h.Operational) (protocol : Byte) (data : Bytes)
    (src dst : IPAddress) : Directs P h (h.ipSendPacket env protocol data src dst).1 := by
  have ht := send_trans env h protocol data src dst
  generalize (h.ipSendPacket env protocol data src dst).1 = h' at ht ⊢
  generalize (h.ipSendPacket env protocol data src dst).2 = ret at ht
  cases ht with
  | refused _ hs => exact .silent hs
  | @transmitted route dev ha _ _ hr hlink ht hs =>
    have hfits := hr.fits
    have hmtu := dev.mtu.isLt
    have hdst : (IpHdr.ofBytes (h.packet protocol data dst route)).dst = dst :=
      ipPacket_dst protocol route.iface.unicast dst h.id (by omega)
    have hlen : (h.packet protocol data dst route).length = 20 + data.length :=
      length_ipPacket protocol route.iface.unicast dst h.id 0 (by omega)
    refine ⟨_, hs, List.forall_mem_singleton.mpr ?_⟩
    rw [ht]
    refine .ip ?_ hr.device ?_ ?_
    · rw [hdst]
      exact hr.routed
    · rw [hlen]
      exact hfits
    · rw [hdst]
      exact hlink
  | @awaits route dev _ hr _ hs =>
    refine ⟨_, hs, fun t ht => ?_⟩
    obtain ⟨-, -, rfl⟩ := networkDeviceOutput_some (Option.mem_toList.mp ht)
    exact .arp (List.mem_of_find?_eq_some hr.device)
      (hop.attached route (ipRouteLookup_mem hr.routed).1 dev hr.device) (.inl rfl)

theorem udpSendto_directs (hop : h.Operational) (id : Int) (data : Bytes) (foreign : IpEndpoint) :
    Directs P h (h.udpSendto env id data foreign).1 := by
  rw [udpSendto]
  split
  · exact .silent ⟨rfl, rfl, by simp⟩
  · rename_i pcbs src _
    rw [udpOutput]
    split
    · exact .silent ⟨rfl, rfl, by simp⟩
    · rename_i d _
      have hsame : Emits h { h with pcbs := pcbs } 0 := .of_same rfl rfl rfl rfl
      have hdirects := ipSendPacket_directs env (P := P) (hop.emits hsame) udpProtocol d src.address
        foreign.address
      revert hdirects
      generalize Host.ipSendPacket env { h with pcbs := pcbs } udpProtocol d src.address
        foreign.address = r
      intro hdirects
      obtain ⟨ts, hs, hts⟩ := hdirects
      have haddressed : ∀ t ∈ ts, h.Addressed P t := by
        intro t ht
        cases hts t ht with
        | arp hdev hiface hdst => exact .arp hdev hiface hdst
        | ip hroute hdev hlen hlink => exact .ip hroute hdev hlen hlink
      simp only
      split
      · exact ⟨ts, ⟨hs.devices, hs.ipProtocols, hs.sent⟩, haddressed⟩
      · exact ⟨ts, ⟨hs.devices, hs.ipProtocols, hs.sent⟩, haddressed⟩

theorem ipInput_directs (hop : h.Operational) (data : Bytes) (dev : NetworkDevice) :
    Directs P h (h.ipInput env data dev) := by
  rw [ipInput]
  split
  · exact .silent (.refl h)
  · rename_i d _
    rw [ipHandler]
    split
    · split
      · exact .silent (.refl h)
      · exact ipSendPacket_directs env hop _ _ _ _
    · exact .silent ⟨rfl, rfl, by simp⟩

theorem arpInput_directs {dev : NetworkDevice} (hdev : dev ∈ h.devices) {data : Bytes} {n : Nat}
    (hin : Reports P ⟨networkProtocolTypeArp, data, n⟩) :
    Directs P h (h.arpInput env data dev) := by
  have hs := transmit_sent env { h with
    caches := (LLNStack.arpInput h.caches (env.now h.clock) dev data).1
    clock := h.clock + 1 } (LLNStack.arpInput h.caches (env.now h.clock) dev data).2
  refine ⟨_, ⟨hs.devices, hs.ipProtocols, hs.sent⟩, fun t ht => ?_⟩
  have hsome := Option.mem_toList.mp ht
  unfold LLNStack.arpInput at hsome
  split at hsome
  · cases hsome
  · rename_i msg hmsg
    simp only at hsome
    split at hsome
    · cases hsome
    · rename_i iface hiface
      simp only [arpInputReply] at hsome
      split at hsome
      · obtain ⟨-, -, rfl⟩ := networkDeviceOutput_some hsome
        exact .arp hdev (arpInputTarget_some hiface) (.inr (hin rfl msg hmsg))
      · cases hsome

theorem netHandler_directs (hop : h.Operational) {type : BitVec 16} {handler : NetHandler}
    (hhandler : (type, handler) ∈ initTable) {entry : Bytes × Nat}
    (hin : Reports P ⟨type, entry.1, entry.2⟩) (hk : Tells P h.caches) :
    Directs P h (h.netHandler env handler entry) ∧
      Tells P (h.netHandler env handler entry).caches := by
  rw [netHandler]
  split
  · exact ⟨.silent (.refl h), hk⟩
  · rename_i dev hdev
    cases handler with
    | ipInput => exact ⟨ipInput_directs env hop entry.1 dev, ipInput_tells env hk entry.1 dev⟩
    | arpInput =>
      have htype : type = networkProtocolTypeArp := by
        simpa [initTable] using hhandler
      rw [htype] at hin
      refine ⟨arpInput_directs env (List.mem_of_find?_eq_some hdev) hin, ?_⟩
      simp only [arpInput, transmit_caches]
      exact hk.input hin _ dev

end Host

/-! ## One stack -/

/-- What stays the same of a device that is opened and closed. -/
def NetworkDevice.station (dev : NetworkDevice) : Nat × EtherAddr × List IpInterface :=
  (dev.index, dev.address, dev.interfaces)

/-- The drivers leave the devices the addresses that they have. -/
def KeepsAddress (devices : List NetworkDevice) : StackAction → Prop
  | .deviceOpen n (some address) => ∀ dev ∈ devices, dev.index = n → dev.address = address
  | _ => True

/-- The addresses of the devices and of their interfaces have the property. -/
def Stations (P : IPAddress → EtherAddr → Prop) (devices : List NetworkDevice) : Prop :=
  ∀ dev ∈ devices, ∀ iface, networkDeviceGetInterface dev networkInterfaceFamilyIp = some iface →
    P iface.unicast dev.address

structure Directed (P : IPAddress → EtherAddr → Prop) (s s' : Stack) (ts : List Transmission) :
    Prop where
  log : s'.host.sent = s.host.sent ++ ts
  addressed : ∀ t ∈ ts, s.host.Addressed P t
  queued : AllQueued (Reports P) s'.protocols
  caches : Tells P s'.host.caches
  routes : s'.host.routes = s.host.routes
  stations : s'.host.devices.map NetworkDevice.station =
    s.host.devices.map NetworkDevice.station

section

variable {P : IPAddress → EtherAddr → Prop} {s s' : Stack}

theorem Host.Addressed.reports {h : Host} (hst : Stations P h.devices) {t : Transmission}
    (ht : h.Addressed P t) {input : NetworkInput} (hin : t.input = some input) :
    Reports P input := by
  intro htype msg hmsg
  cases ht with
  | @arp dev iface dst tha op tpa hdev hiface _ =>
    obtain ⟨-, rfl⟩ := Host.input_transmit hin
    have hck := arpCheck_toBytes op dev.address tha iface.unicast tpa []
    rw [List.append_nil] at hck
    cases hck.symm.trans hmsg
    exact hst dev hdev iface hiface
  | ip =>
    obtain ⟨-, rfl⟩ := Host.input_transmit hin
    exact absurd htype (show networkProtocolTypeIp ≠ networkProtocolTypeArp by decide)

namespace Directed

theorem of_host {host : Host} (hqueued : AllQueued (Reports P) s.protocols)
    (hcaches : Tells P host.caches) (hlog : host.sent = s.host.sent)
    (hroutes : host.routes = s.host.routes)
    (hstations : host.devices.map NetworkDevice.station =
      s.host.devices.map NetworkDevice.station) : Directed P s { s with host := host } [] :=
  ⟨by rw [List.append_nil]; exact hlog, by simp, hqueued, hcaches, hroutes, hstations⟩

theorem of_directs {host : Host} {n : Nat} {protocols : List (NetworkProtocol NetHandler)}
    (hst : Stations P s.host.devices) (hqueued : AllQueued (Reports P) protocols)
    (hdirects : s.host.Directs P host) (hemits : s.host.Emits host n)
    (hcaches : Tells P host.caches) :
    ∃ ts, Directed P s ⟨host, networkInputs protocols (s.host.inputs host)⟩ ts := by
  obtain ⟨ts, hs, hts⟩ := hdirects
  refine ⟨ts, hs.sent, hts, hqueued.inputs fun input hinput => ?_, hcaches, hemits.routes, ?_⟩
  · rw [hs.inputs] at hinput
    obtain ⟨t, ht, hinput⟩ := List.mem_filterMap.mp hinput
    exact (hts t ht).reports hst hinput
  · rw [hs.devices]

end Directed

theorem map_station_mapDevice {n : Nat} {f : NetworkDevice → NetworkDevice}
    (hf : ∀ dev ∈ s.host.devices, dev.index = n → (f dev).station = dev.station) :
    (s.mapDevice n f).host.devices.map NetworkDevice.station =
      s.host.devices.map NetworkDevice.station := by
  simp only [Stack.mapDevice, List.map_map]
  refine List.map_congr_left fun dev hdev => ?_
  simp only [Function.comp_apply]
  split
  · exact hf dev hdev ‹_›
  · rfl

theorem networkDeviceOpen_station {driver : Option EtherAddr} {dev : NetworkDevice}
    (h : ∀ address, driver = some address → dev.address = address) :
    (networkDeviceOpen driver dev).1.station = dev.station := by
  unfold networkDeviceOpen
  split
  · rfl
  · cases driver with
    | none => rfl
    | some address => simp only [NetworkDevice.station, h address rfl]

theorem networkDeviceClose_station (driver : Bool) (dev : NetworkDevice) :
    (networkDeviceClose driver dev).1.station = dev.station := by
  unfold networkDeviceClose
  split
  · rfl
  · cases driver <;> rfl

theorem handle_directed (env : Env) (hinv : StackInv s) (hst : Stations P s.host.devices)
    (hqueued : AllQueued (Reports P) s.protocols) (hcaches : Tells P s.host.caches) {k : Nat}
    (h : s.next env (.handle k) = some s') : ∃ ts, Directed P s s' ts := by
  simp only [Stack.next] at h
  split at h
  · cases h
  · rename_i proto hk
    split at h
    · cases h
    · rename_i entry rest hq
      cases h
      have hhandler : (proto.type, proto.handler) ∈ initTable :=
        hinv.table (List.mem_map_of_mem (List.mem_of_getElem? hk))
      obtain ⟨hentry, hrest⟩ := hqueued.pop hk hq
      obtain ⟨hdirects, htells⟩ := Host.netHandler_directs env hinv.operational hhandler hentry
        hcaches
      exact Directed.of_directs hst hrest hdirects
        (Host.netHandler_emits env hinv.operational hhandler entry) htells

theorem next_directed (env : Env) {a : StackAction} (hinv : StackInv s)
    (hst : Stations P s.host.devices) (hqueued : AllQueued (Reports P) s.protocols)
    (hcaches : Tells P s.host.caches) (hkeeps : KeepsAddress s.host.devices a)
    (hpoll : ∀ n frame, a = .poll n frame → ∀ address type data,
      LLNStack.etherPollHelper address frame = some (type, data) → Reports P ⟨type, data, n⟩)
    (h : s.next env a = some s') : ∃ ts, Directed P s s' ts := by
  cases a with
  | udpOpen | udpBind _ _ | udpClose _ _ | udpRecvfrom _ | udpEventHandler =>
    cases h
    exact ⟨[], .of_host hqueued hcaches rfl rfl rfl⟩
  | udpSendto id data foreign =>
    cases h
    exact Directed.of_directs hst hqueued
      (Host.udpSendto_directs env hinv.operational id data foreign)
      (Host.udpSendto_emits env hinv.operational id data foreign)
      (Host.udpSendto_tells env hcaches id data foreign)
  | arpTimer =>
    cases h
    exact ⟨[], .of_host hqueued (hcaches.timer _) rfl rfl rfl⟩
  | deviceOpen n driver =>
    cases h
    refine ⟨[], .of_host hqueued hcaches rfl rfl (map_station_mapDevice fun dev hdev hn => ?_)⟩
    refine networkDeviceOpen_station fun address heq => ?_
    subst heq
    exact hkeeps dev hdev hn
  | deviceClose n driver =>
    cases h
    exact ⟨[], .of_host hqueued hcaches rfl rfl
      (map_station_mapDevice fun dev _ _ => networkDeviceClose_station driver dev)⟩
  | poll n frame =>
    cases h
    refine ⟨[], ?_⟩
    have hnothing : Directed P s s [] := .of_host hqueued hcaches rfl rfl rfl
    rw [Stack.etherPollHelper]
    split
    · exact hnothing
    · split
      · exact hnothing
      · rename_i type data hframe
        exact { hnothing with queued := hqueued.input (hpoll n frame rfl _ type data hframe) }
  | handle k => exact handle_directed env hinv hst hqueued hcaches h

theorem step_directed {env : Env} {l : StackAction × List Transmission} (hinv : StackInv s)
    (hst : Stations P s.host.devices) (hqueued : AllQueued (Reports P) s.protocols)
    (hcaches : Tells P s.host.caches) (hkeeps : KeepsAddress s.host.devices l.1)
    (hpoll : ∀ n frame, l.1 = .poll n frame → ∀ address type data,
      LLNStack.etherPollHelper address frame = some (type, data) → Reports P ⟨type, data, n⟩)
    (h : Stack.Step env s l s') : Directed P s s' l.2 := by
  obtain ⟨s₁, hs₁, heq⟩ := Option.map_eq_some_iff.mp h
  obtain ⟨ts, hd⟩ := next_directed env hinv hst hqueued hcaches hkeeps hpoll hs₁
  have hts : s₁.host.sent.drop s.host.sent.length = ts := by rw [hd.log, List.drop_left]
  rw [hts] at heq
  cases heq
  exact hd

end

/-! ## Frames -/

section

variable {H : Type}

def Station (nodes : H → Node) (pa : IPAddress) (ha : EtherAddr) : Prop :=
  ∃ h, ∃ dev ∈ (nodes h).devices, ∃ iface,
    networkDeviceGetInterface dev networkInterfaceFamilyIp = some iface ∧ iface.unicast = pa ∧
      dev.address = ha

/-- Node `h` sent this frame: from one of its devices, and to all or to a station. An ARP message
is for the station that it names as its target; a packet is for the next hop of its route. -/
inductive FrameAddressed (nodes : H → Node) (h : H) : Bytes → Prop where
  | arp {dev : NetworkDevice} {iface : IpInterface} {dst tha : EtherAddr} {op : BitVec 16}
      {tpa : IPAddress} : dev ∈ (nodes h).devices →
      networkDeviceGetInterface dev networkInterfaceFamilyIp = some iface →
      dst = etherAddrBroadcast ∨ Station nodes tpa dst →
      FrameAddressed nodes h (etherFrame dev.address networkProtocolTypeArp
        (arpEther op dev.address iface.unicast tha tpa).toBytes dst)
  | ip {dev : NetworkDevice} {route : IpRoute} {data : Bytes} {dst : EtherAddr} :
      dev ∈ (nodes h).devices → route.iface.dev = dev.index → data.length ≤ 1500 →
      ipRouteLookup (nodes h).tables.routes (IpHdr.ofBytes data).dst = some route →
      (Host.IsBroadcast route.iface (route.nexthopTo (IpHdr.ofBytes data).dst) ∧
          dst = etherAddrBroadcast) ∨
        Station nodes (route.nexthopTo (IpHdr.ofBytes data).dst) dst →
      FrameAddressed nodes h (etherFrame dev.address networkProtocolTypeIp data dst)

theorem networkDeviceOpen_needArp (driver : Option EtherAddr) (dev : NetworkDevice) :
    (networkDeviceOpen driver dev).1.needArp = dev.needArp := by
  have hother : networkDeviceFlagUp &&& networkDeviceFlagNeedArp = 0#16 := by decide
  unfold networkDeviceOpen
  split
  · rfl
  · cases driver with
    | none => rfl
    | some address =>
      simp only [NetworkDevice.needArp, BitVec.and_or_distrib_right, hother, BitVec.or_zero]

theorem networkDeviceClose_needArp (driver : Bool) (dev : NetworkDevice) :
    (networkDeviceClose driver dev).1.needArp = dev.needArp := by
  have hother : ~~~networkDeviceFlagUp &&& networkDeviceFlagNeedArp =
      networkDeviceFlagNeedArp := by decide
  unfold networkDeviceClose
  split
  · rfl
  · split
    · simp only [NetworkDevice.needArp, BitVec.and_assoc, hother]
    · rfl

/-- A device of the Ethernet drivers needs ARP, whether it is up or not. -/
theorem NetworkDevice.Built.needArp {dev : NetworkDevice} (h : dev.Built)
    (htype : dev.type = networkDeviceTypeEthernet) : dev.needArp = true := by
  induction h with
  | loopback dev => cases htype
  | ether dev address =>
    exact show ((networkDeviceFlagBroadcast ||| networkDeviceFlagNeedArp) &&&
      networkDeviceFlagNeedArp != 0) = true by decide
  | registered index _ ih => exact ih htype
  | @opened dev driver _ ih =>
    rw [networkDeviceOpen_needArp]
    exact ih ((networkDeviceOpen_sameLink driver dev).type.symm.trans htype)
  | @closed dev driver _ ih =>
    rw [networkDeviceClose_needArp]
    exact ih ((networkDeviceClose_sameLink driver dev).type.symm.trans htype)
  | interfaceAdded _ hadd ih =>
    unfold networkDeviceAddInterface at hadd
    split at hadd
    · cases hadd
    · cases hadd
      exact ih htype

theorem exists_station {devices devices' : List NetworkDevice}
    (h : devices.map NetworkDevice.station = devices'.map NetworkDevice.station)
    {dev : NetworkDevice} (hdev : dev ∈ devices) :
    ∃ dev' ∈ devices', dev'.index = dev.index ∧ dev'.address = dev.address ∧
      dev'.interfaces = dev.interfaces := by
  have hmem : dev.station ∈ devices'.map NetworkDevice.station := by
    rw [← h]
    exact List.mem_map_of_mem hdev
  obtain ⟨dev', hdev', heq⟩ := List.mem_map.mp hmem
  simp only [NetworkDevice.station, Prod.mk.injEq] at heq
  exact ⟨dev', hdev', heq⟩

theorem Host.Addressed.frame {nodes : H → Node} {h : H} {host : Host} {t : Transmission}
    (ht : host.Addressed (Station nodes) t) (hconf : host.Configured)
    (hst : host.devices.map NetworkDevice.station =
      (nodes h).devices.map NetworkDevice.station)
    (hroutes : host.routes = (nodes h).tables.routes) (htells : Tells (Station nodes) host.caches)
    {frame : Bytes} (hf : t.frame = some frame) : FrameAddressed nodes h frame := by
  have hether : ∀ {dev : NetworkDevice} {type : BitVec 16} {data : Bytes} {dst : EtherAddr},
      dev ∈ host.devices → (dev.transmit type data dst).frame = some frame →
      dev.type = networkDeviceTypeEthernet ∧ dev.EtherLink ∧
        frame = etherFrame dev.address type data dst := by
    intro dev type data dst hdev hf
    cases hops : dev.ops with
    | loopbackTransmit => simp [NetworkDevice.transmit, hops, Transmission.frame] at hf
    | etherTransmit =>
      simp only [NetworkDevice.transmit, hops, Transmission.frame, Option.some.injEq] at hf
      have htype := (hconf dev hdev).etherType hops
      exact ⟨htype, (hconf dev hdev).etherLink htype, hf.symm⟩
  cases ht with
  | @arp dev iface dst tha op tpa hdev hiface hdst =>
    obtain ⟨-, hlink, rfl⟩ := hether hdev hf
    obtain ⟨dev₀, hdev₀, -, haddr, hifaces⟩ := exists_station hst hdev
    rw [hlink.broadcast] at hdst
    rw [← haddr]
    refine .arp hdev₀ ?_ hdst
    rw [networkDeviceGetInterface, hifaces]
    exact hiface
  | @ip dev route data dst hroute hdev hlen hld =>
    have hmem : dev ∈ host.devices := List.mem_of_find?_eq_some hdev
    obtain ⟨htype, hlink, rfl⟩ := hether hmem hf
    obtain ⟨dev₀, hdev₀, hindex, haddr, -⟩ := exists_station hst hmem
    have hn : dev.index = route.iface.dev := by simpa using List.find?_some hdev
    rw [hlink.mtu] at hlen
    rw [hroutes] at hroute
    rw [← haddr]
    refine .ip hdev₀ (hn.symm.trans hindex.symm) hlen hroute ?_
    cases hld with
    | @resolved i _ _ _ _ _ hsel hst =>
      obtain ⟨hfree, hpa⟩ := arpCacheSelect_some hsel
      have hstation := htells i hfree hst
      rw [hpa] at hstation
      exact .inr hstation
    | broadcast _ hb => exact .inl ⟨hb, hlink.broadcast⟩
    | unaddressed hno =>
      rw [(hconf dev hmem).needArp htype] at hno
      cases hno

theorem FrameAddressed.reports {nodes : H → Node} {h : H} {frame : Bytes}
    (hf : FrameAddressed nodes h frame) {address : EtherAddr} {type : BitVec 16} {data : Bytes}
    (hpoll : etherPollHelper address frame = some (type, data)) (n : Nat) :
    Reports (Station nodes) ⟨type, data, n⟩ := by
  intro htype msg hmsg
  cases hf with
  | @arp dev iface dst tha op tpa hdev hiface _ =>
    rw [etherPollHelper_etherFrame (by simp)] at hpoll
    split at hpoll
    · cases hpoll
      cases (arpCheck_toBytes op dev.address tha iface.unicast tpa _).symm.trans hmsg
      exact ⟨h, dev, hdev, iface, hiface, rfl, rfl⟩
    · cases hpoll
  | ip _ _ hlen _ _ =>
    rw [etherPollHelper_etherFrame hlen] at hpoll
    split at hpoll
    · cases hpoll
      exact absurd htype (show networkProtocolTypeIp ≠ networkProtocolTypeArp by decide)
    · cases hpoll

/-! ## The network -/

def NetworkAction.KeepsAddress (nodes : H → Node) : NetworkAction H → Prop
  | .act h a => LLNStack.KeepsAddress (nodes h).devices a
  | .deliver _ _ _ => True

structure AddressInv (nodes : H → Node) (s : Network H) : Prop where
  hosts : ∀ h, StackInv (s.hosts h)
  stations : ∀ h, (s.hosts h).host.devices.map NetworkDevice.station =
    (nodes h).devices.map NetworkDevice.station
  routes : ∀ h, (s.hosts h).host.routes = (nodes h).tables.routes
  caches : ∀ h, Tells (Station nodes) (s.hosts h).host.caches
  queued : ∀ h, AllQueued (Reports (Station nodes)) (s.hosts h).protocols
  wire : ∀ frame ∈ s.wire, ∃ h, FrameAddressed nodes h frame

theorem AddressInv.init {nodes : H → Node}
    (hconf : ∀ h, ∃ calls, Run Node.Step .zero calls (nodes h)) :
    AddressInv nodes (Network.init nodes) where
  hosts := (Network.init_inv hconf).hosts
  stations := fun _ => rfl
  routes := fun _ => rfl
  caches := fun _ => .init
  queued := fun h => by
    obtain ⟨calls, hrun⟩ := hconf h
    exact .of_idle (Node.stack_idle hrun)
  wire := by simp [Network.init]

theorem AddressInv.isStation {nodes : H → Node} {s : Network H} (hinv : AddressInv nodes s)
    (h : H) : Stations (Station nodes) (s.hosts h).host.devices := by
  intro dev hdev iface hiface
  obtain ⟨dev₀, hdev₀, -, haddr, hifaces⟩ := exists_station (hinv.stations h) hdev
  refine ⟨h, dev₀, hdev₀, iface, ?_, rfl, haddr⟩
  rw [networkDeviceGetInterface, hifaces]
  exact hiface

theorem KeepsAddress.of_stations {devices devices' : List NetworkDevice}
    (h : devices.map NetworkDevice.station = devices'.map NetworkDevice.station)
    {a : StackAction} (ha : KeepsAddress devices' a) : KeepsAddress devices a := by
  cases a with
  | deviceOpen n driver =>
    cases driver with
    | none => trivial
    | some address =>
      intro dev hdev hn
      obtain ⟨dev', hdev', hindex, haddr, -⟩ := exists_station h hdev
      exact haddr.symm.trans (ha dev' hdev' (hindex.trans hn))
  | _ => trivial

variable [DecidableEq H] {env : H → Env}

theorem address_step {nodes : H → Node} {s s' : Network H}
    {l : NetworkAction H × Option Datagram} (hinv : AddressInv nodes s)
    (hkeeps : l.1.KeepsAddress nodes) (hstep : Network.Step env s l s') :
    AddressInv nodes s' := by
  obtain ⟨action, out⟩ := l
  cases network_trans hstep with
  | @moved _ h a stack ts hs hpoll hact =>
    have hk : KeepsAddress (s.hosts h).host.devices a := by
      rcases hact with rfl | hp
      · exact KeepsAddress.of_stations (hinv.stations h) hkeeps
      · cases a with
        | poll n frame => trivial
        | _ => cases hp
    have hd : Directed (Station nodes) (s.hosts h) stack ts := by
      refine step_directed (hinv.hosts h) (hinv.isStation h) (hinv.queued h) (hinv.caches h) hk
        (fun n frame ha address type data hp => ?_) hs
      obtain ⟨g, hg⟩ := hinv.wire frame (hpoll n frame ha)
      exact hg.reports hp n
    have hat : ∀ {Q : H → Stack → Prop}, Q h stack → (∀ g, Q g (s.hosts g)) →
        ∀ g, Q g (Function.update s.hosts h stack g) := by
      intro Q hnew hold
      exact (Function.forall_update_iff s.hosts Q).mpr ⟨hnew, fun g _ => hold g⟩
    refine ⟨?_, ?_, ?_, ?_, ?_, ?_⟩
    · exact hat (Q := fun _ stack => StackInv stack) (step_moves (env h) (hinv.hosts h) hs).inv
        hinv.hosts
    · exact hat (Q := fun g stack => stack.host.devices.map NetworkDevice.station =
        (nodes g).devices.map NetworkDevice.station) (hd.stations.trans (hinv.stations h))
        hinv.stations
    · exact hat (Q := fun g stack => stack.host.routes = (nodes g).tables.routes)
        (hd.routes.trans (hinv.routes h)) hinv.routes
    · exact hat (Q := fun _ stack => Tells (Station nodes) stack.host.caches) hd.caches hinv.caches
    · exact hat (Q := fun _ stack => AllQueued (Reports (Station nodes)) stack.protocols) hd.queued
        hinv.queued
    · refine List.forall_mem_append.mpr ⟨hinv.wire, fun frame hf => ?_⟩
      obtain ⟨t, ht, hf⟩ := List.mem_filterMap.mp hf
      exact ⟨h, (hd.addressed t ht).frame (hinv.hosts h).operational.configured (hinv.stations h)
        (hinv.routes h) (hinv.caches h) hf⟩

theorem AddressInv.run {nodes : H → Node} {tr : List (NetworkAction H × Option Datagram)}
    {s s' : Network H} (hinv : AddressInv nodes s) (hrun : Run (Network.Step env) s tr s')
    (hkeeps : ∀ l ∈ tr, l.1.KeepsAddress nodes) : AddressInv nodes s' := by
  have hguarded := hrun.guard (C := fun _ l => l.1.KeepsAddress nodes) fun l hl _ => hkeeps l hl
  exact hguarded.invariant hinv fun _ _ _ hi hl => address_step hi hl.2 hl.1

/-- **Frames are rightly addressed.** Stacks that were configured in any way share a network that
loses, repeats, reorders and misdelivers frames, and the drivers leave the devices their addresses.
Whatever happens: each entry that an ARP cache resolves is the pair of addresses of some device; and
each frame comes from a device of a stack, and goes to all, or to a device with the address that an
ARP message is for, or that is the next hop to the packet's destination. -/
theorem frames_addressed {nodes : H → Node}
    (hconf : ∀ h, ∃ calls, Run Node.Step .zero calls (nodes h)) (env : H → Env)
    {tr : List (NetworkAction H × Option Datagram)} {s : Network H}
    (hrun : Run (Network.Step env) (.init nodes) tr s)
    (hkeeps : ∀ l ∈ tr, l.1.KeepsAddress nodes) :
    (∀ h, Tells (Station nodes) (s.hosts h).host.caches) ∧
      ∀ frame ∈ s.wire, ∃ h, FrameAddressed nodes h frame := by
  have hinv := (AddressInv.init hconf).run hrun hkeeps
  exact ⟨hinv.caches, hinv.wire⟩

end

def frameDsts (s : Network Bool) : List EtherAddr :=
  s.wire.map fun frame => (EtherHdr.ofBytes frame).dst

/-- The request goes to all, the reply to who asked, and the datagram to who was asked for. -/
theorem lostThenArrives_addressed : ∃ (nodes : Bool → Node)
    (tr : List (NetworkAction Bool × Option Datagram)) (s : Network Bool),
    tr.map Prod.fst = lostThenArrives ∧ frameDsts s =
      [etherAddrBroadcast, .ofBytes 0 0 0x5e 0 0x53 1, .ofBytes 0 0 0x5e 0 0x53 2] ∧
    ∀ frame ∈ s.wire, ∃ h, FrameAddressed nodes h frame := by
  obtain ⟨calls, n, hconf, -, hcheck⟩ := exec_check Node.step .zero udpAppSetup
    (fun r => (exec Node.step .zero neighbourSetup).any fun r' =>
      (exec (Network.step fun _ => quietEnv) (.init fun b => cond b r.2 r'.2) lostThenArrives).any
        fun q => decide (frameDsts q.2 =
          [etherAddrBroadcast, .ofBytes 0 0 0x5e 0 0x53 1, .ofBytes 0 0 0x5e 0 0x53 2]))
    (by decide +kernel)
  obtain ⟨calls', n', hconf', -, hcheck⟩ := exec_check Node.step .zero neighbourSetup _ hcheck
  obtain ⟨tr, s, hrun, hmap, hcheck⟩ := exec_check (Network.step fun _ => quietEnv)
    (.init fun b => cond b n n') lostThenArrives _ hcheck
  have hnodes : ∀ b, ∃ calls, Run Node.Step .zero calls (cond b n n') := by
    intro b
    cases b with
    | true => exact ⟨calls, hconf⟩
    | false => exact ⟨calls', hconf'⟩
  -- no device is opened in this run
  have hkeeps : ∀ a ∈ lostThenArrives, a.KeepsAddress fun b => cond b n n' := by
    simp [lostThenArrives, NetworkAction.KeepsAddress, KeepsAddress]
  have haddressed := frames_addressed hnodes (fun _ => quietEnv) hrun fun l hl =>
    hkeeps l.1 (hmap ▸ List.mem_map_of_mem hl)
  exact ⟨_, tr, s, hmap, of_decide_eq_true hcheck, haddressed.2⟩

end LLNStack
