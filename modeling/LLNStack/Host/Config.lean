import LLNStack.Arp.Staleness
import LLNStack.Host.Drain
import LLNStack.Intr.Irq
import LLNStack.Net.AddressText

/-!
# LLNStack.Host.Config

How a stack comes to be: `network_init`, the `init` functions of the drivers, interfaces and routes
from their texts, `network_run` and `network_shutdown`, in any order and with any allocation
failing. `configuration_sound` says what always holds of the result, which the theorems about a
running stack assume.

Devices are known by their index; fewer than 2^32 are registered. A text that is not terminated is
read past its end: then the call has no result here.
-/

namespace LLNStack

open Lib

inductive EventHandler where
  | udpEventHandler
  deriving DecidableEq, Repr

/-- The lists and counters that the configuration works on. -/
structure Node where
  nextIndex : Nat
  devices : List NetworkDevice
  irqs : IrqTable
  timers : List (NetworkTimer TimerHandler)
  events : List EventHandler
  protocols : List (NetworkProtocol NetHandler)
  ipProtocols : List (IpProtocol IpHandler)
  tables : IpTables

def networkEventSubscribe (alloc : Bool) (handler : EventHandler) (events : List EventHandler) :
    List EventHandler × Int :=
  if alloc then (handler :: events, 0) else (events, -1)

/-- `ip_allocate_interface`: `some none` if it returns NULL. -/
def ipAllocateInterface (alloc : Bool) (unicast netmask : Bytes) : Option (Option IpInterface) :=
  if alloc then
    match ipStringToAddress .little unicast 0 with
    | none => none
    | some (unicast, ret) =>
      if ret = -1 then some none
      else
        match ipStringToAddress .little netmask 0 with
        | none => none
        | some (netmask, ret) =>
          if ret = -1 then some none
          else some (some ⟨networkInterfaceFamilyIp, 0, unicast, netmask,
            (unicast &&& netmask) ||| ~~~netmask⟩)
  else some none

/-- A device as `memory_alloc` gives it. -/
def NetworkDevice.zero : NetworkDevice :=
  ⟨[], 0, 0, 0, 0, etherAddrAny, etherAddrAny, .etherTransmit⟩

/-- What a driver's `open` does to the address of the device; `hw` is what the system says it is, or
`none` if a system call fails. The loopback device has no `open`. -/
def driverOpen (hw : Option EtherAddr) (dev : NetworkDevice) : Option EtherAddr :=
  match dev.ops with
  | .loopbackTransmit => some dev.address
  | .etherTransmit => hw.map fun address =>
    if dev.address = etherAddrAny then address else dev.address

/-- Whether the allocations of `network_init` succeed, in their order. -/
structure InitAllocs where
  arp : Bool
  timer : Bool
  ip : Bool
  icmp : Bool
  udp : Bool
  event : Bool
  deriving DecidableEq, Repr

/-- Whether the allocations of `ether_tap_init` and `ether_pcap_init` succeed. -/
structure DriverAllocs where
  device : Bool
  priv : Bool
  irq : Bool
  deriving DecidableEq, Repr

namespace Node

def zero : Node := ⟨0, [], .zero, [], [], [], [], ⟨[], []⟩⟩

/-! ## The functions -/

def andThen (r : Node × Int) (f : Node → Node × Int) : Node × Int :=
  if r.2 = -1 then (r.1, -1) else f r.1

def registerNet (alloc : Bool) (type : BitVec 16) (handler : NetHandler) (n : Node) : Node × Int :=
  let r := networkProtocolRegister alloc type handler n.protocols
  ({ n with protocols := r.1 }, r.2)

def registerIp (alloc : Bool) (type : Byte) (handler : IpHandler) (n : Node) : Node × Int :=
  let r := ipRegisterProtocol alloc n.ipProtocols type handler
  ({ n with ipProtocols := r.1 }, r.2)

def arpInit (allocs : InitAllocs) (now : Timeval) (n : Node) : Node × Int :=
  andThen (n.registerNet allocs.arp networkProtocolTypeArp .arpInput) fun n =>
    let r := networkTimerRegister allocs.timer now arpTimerInterval .arpTimer n.timers
    ({ n with timers := r.1 }, r.2)

def ipInitialize (allocs : InitAllocs) (n : Node) : Node × Int :=
  n.registerNet allocs.ip networkProtocolTypeIp .ipInput

def icmpInit (allocs : InitAllocs) (n : Node) : Node × Int :=
  n.registerIp allocs.icmp icmpProtocol .icmpInput

/-- The result of `network_event_subscribe` is ignored. -/
def udpInit (allocs : InitAllocs) (n : Node) : Node × Int :=
  andThen (n.registerIp allocs.udp udpProtocol .udpInput) fun n =>
    ({ n with events := (networkEventSubscribe allocs.event .udpEventHandler n.events).1 }, 0)

def networkInit (allocs : InitAllocs) (now : Timeval) (n : Node) : Node × Int :=
  andThen (andThen (andThen (arpInit allocs now { n with irqs := intrInit n.irqs })
    (ipInitialize allocs)) (icmpInit allocs)) (udpInit allocs)

def networkDeviceRegister (dev : NetworkDevice) (n : Node) : Node :=
  { n with
    nextIndex := n.nextIndex + 1
    devices := { dev with index := n.nextIndex } :: n.devices }

def loopbackInit (alloc : Bool) (n : Node) : Node × Int :=
  if alloc then (n.networkDeviceRegister (loopbackSetup .zero), n.nextIndex) else (n, -1)

/-- `ether_tap_init` and `ether_pcap_init`, which differ in their interrupt. The result of
`intr_request_irq` is ignored. -/
def etherDriverInit (irq : Nat) (handler : IrqHandler) (allocs : DriverAllocs)
    (addr : Option Bytes) (n : Node) : Option (Node × Int) :=
  if allocs.device then
    let dev := etherSetupHelper .zero
    let parsed :=
      match addr with
      | none => some (dev.address, 0)
      | some text => (etherAddrPtonText text dev.address)
    match parsed with
    | none => none
    | some (address, ret) =>
      if ret = -1 then some (n, -1)
      else if allocs.priv then
        let dev := { dev with address := address, ops := .etherTransmit }
        let n' := n.networkDeviceRegister dev
        some ({ n' with
          irqs := (intrRequestIrq allocs.irq ⟨irq, handler, networkIrqShared, n.nextIndex⟩
            n'.irqs).1 }, n.nextIndex)
      else some (n, -1)
  else some (n, -1)

def etherTapInit : DriverAllocs → Option Bytes → Node → Option (Node × Int) :=
  etherDriverInit etherTapIrq .etherTapIsr

def etherPcapInit : DriverAllocs → Option Bytes → Node → Option (Node × Int) :=
  etherDriverInit etherPcapIrq .etherPcapIsr

/-- `ip_allocate_interface` and then `ip_register_interface` on device `k`. -/
def addInterface (allocs : Bool × Bool) (k : Nat) (unicast netmask : Bytes) (n : Node) :
    Option (Node × Int) :=
  match ipAllocateInterface allocs.1 unicast netmask with
  | none => none
  | some none => some (n, -1)
  | some (some iface) =>
    match n.devices.find? (·.index = k) with
    | none => none
    | some dev =>
      let r := ipRegisterInterface allocs.2 n.tables dev iface
      some ({ n with
        tables := r.1
        devices := n.devices.map fun d => if d.index = k then r.2.1 else d }, r.2.2)

/-- `ip_set_default_gateway` with the interface of device `k`. -/
def setDefaultGateway (alloc : Bool) (k : Nat) (gateway : Bytes) (n : Node) :
    Option (Node × Int) :=
  match (n.devices.find? (·.index = k)).bind
      (networkDeviceGetInterface · networkInterfaceFamilyIp) with
  | none => none
  | some iface =>
    match ipStringToAddress .little gateway 0 with
    | none => none
    | some (gw, ret) =>
      let r := ipSetDefaultGateway alloc n.tables iface (if ret = -1 then none else some gw)
      some ({ n with tables := r.1 }, r.2)

/-- `intr`: whether `intr_run` succeeds. The results of `network_device_open` are ignored. -/
def networkRun (intr : Bool) (hw : Nat → Option EtherAddr) (n : Node) : Node × Int :=
  if intr then
    ({ n with devices := n.devices.map fun dev =>
      (networkDeviceOpen (driverOpen (hw dev.index) dev) dev).1 }, 0)
  else (n, -1)

def networkShutdown (n : Node) : Node :=
  { n with devices := n.devices.map fun dev => (networkDeviceClose true dev).1 }

end Node

inductive NodeAction where
  | networkInit (allocs : InitAllocs) (now : Timeval)
  | loopbackInit (alloc : Bool)
  | etherTapInit (allocs : DriverAllocs) (addr : Option Bytes)
  | etherPcapInit (allocs : DriverAllocs) (addr : Option Bytes)
  | addInterface (allocs : Bool × Bool) (k : Nat) (unicast netmask : Bytes)
  | setDefaultGateway (alloc : Bool) (k : Nat) (gateway : Bytes)
  | networkRun (intr : Bool) (hw : Nat → Option EtherAddr)
  | networkShutdown

def Node.step (n : Node) : NodeAction → Option (Node × Int)
  | .networkInit allocs now => some (n.networkInit allocs now)
  | .loopbackInit alloc => some (n.loopbackInit alloc)
  | .etherTapInit allocs addr => n.etherTapInit allocs addr
  | .etherPcapInit allocs addr => n.etherPcapInit allocs addr
  | .addInterface allocs k unicast netmask => n.addInterface allocs k unicast netmask
  | .setDefaultGateway alloc k gateway => n.setDefaultGateway alloc k gateway
  | .networkRun intr hw => some (n.networkRun intr hw)
  | .networkShutdown => some (n.networkShutdown, 0)

abbrev Node.Step : Node → NodeAction × Int → Node → Prop := stepRel Node.step

/-! ## Initialisation -/

/-- How far `network_init` got: the protocols of `net.c` and those of `ip.c`. -/
inductive InitStage : List (BitVec 16 × NetHandler) → List (IpProtocol IpHandler) → Prop where
  | fresh : InitStage [] []
  | arp : InitStage [(networkProtocolTypeArp, .arpInput)] []
  | ip : InitStage initTable []
  | icmp : InitStage initTable [⟨icmpProtocol, .icmpInput⟩]
  | complete : InitStage initTable [⟨udpProtocol, .udpInput⟩, ⟨icmpProtocol, .icmpInput⟩]

theorem InitStage.subset {table : List (BitVec 16 × NetHandler)}
    {ipProtocols : List (IpProtocol IpHandler)} (h : InitStage table ipProtocols) :
    table ⊆ initTable := by
  cases h with
  | fresh => exact List.nil_subset _
  | arp => exact List.subset_cons_self _ _
  | ip | icmp | complete => exact List.Subset.refl _

def emptyQueues (table : List (BitVec 16 × NetHandler)) : List (NetworkProtocol NetHandler) :=
  table.map fun entry => ⟨entry.1, [], entry.2⟩

theorem protocolTable_emptyQueues (table : List (BitVec 16 × NetHandler)) :
    protocolTable (emptyQueues table) = table := by
  rw [protocolTable, emptyQueues, List.map_map]
  exact List.map_id table

theorem idle_emptyQueues (table : List (BitVec 16 × NetHandler)) : Idle (emptyQueues table) := by
  intro proto hproto
  obtain ⟨entry, -, rfl⟩ := List.mem_map.mp hproto
  rfl

structure InitResult (n n' : Node) (table : List (BitVec 16 × NetHandler))
    (ipProtocols : List (IpProtocol IpHandler)) : Prop where
  protocols : n'.protocols = emptyQueues table
  ipProtocols : n'.ipProtocols = ipProtocols
  devices : n'.devices = n.devices
  nextIndex : n'.nextIndex = n.nextIndex
  tables : n'.tables = n.tables

theorem registerNet_old {alloc : Bool} {type : BitVec 16} {handler : NetHandler} {n : Node}
    (hold : ∃ proto ∈ n.protocols, proto.type = type) :
    n.registerNet alloc type handler = (n, -1) := by
  have hany : n.protocols.any (·.type = type) = true := by simpa using hold
  simp only [Node.registerNet, networkProtocolRegister, hany, if_true]

/-- A second `network_init` fails at ARP; it has emptied the set of signals by then. -/
theorem networkInit_again {n : Node} {allocs : InitAllocs} {now : Timeval}
    (h : ∃ proto ∈ n.protocols, proto.type = networkProtocolTypeArp) :
    n.networkInit allocs now = ({ n with irqs := intrInit n.irqs }, -1) := by
  have harp : Node.arpInit allocs now { n with irqs := intrInit n.irqs } =
      ({ n with irqs := intrInit n.irqs }, -1) := by
    rw [Node.arpInit, registerNet_old (n := { n with irqs := intrInit n.irqs }) h]
    rfl
  rw [Node.networkInit, harp]
  rfl

/-- The first `network_init` gets as far as memory lasts. -/
inductive FirstInit (n : Node) (allocs : InitAllocs) : Node × Int → Prop where
  | failed {n' : Node} {table : List (BitVec 16 × NetHandler)}
      {ipProtocols : List (IpProtocol IpHandler)} : InitStage table ipProtocols →
      InitResult n n' table ipProtocols → ipProtocols.length < 2 →
      (allocs.arp = true → table ≠ []) → FirstInit n allocs (n', -1)
  | succeeded {n' : Node} : InitResult n n' initTable
      [⟨udpProtocol, .udpInput⟩, ⟨icmpProtocol, .icmpInput⟩] → FirstInit n allocs (n', 0)

theorem networkInit_fresh {n : Node} (hp : n.protocols = []) (hi : n.ipProtocols = [])
    (allocs : InitAllocs) (now : Timeval) : FirstInit n allocs (n.networkInit allocs now) := by
  obtain ⟨nextIndex, devices, irqs, timers, events, protocols, ipProtocols, tables⟩ := n
  obtain ⟨arp, timer, ip, icmp, udp, event⟩ := allocs
  simp only at hp hi
  subst hp hi
  cases arp with
  | false => exact .failed .fresh ⟨rfl, rfl, rfl, rfl, rfl⟩ (by decide) nofun
  | true =>
    cases timer with
    | false => exact .failed .arp ⟨rfl, rfl, rfl, rfl, rfl⟩ (by decide) nofun
    | true =>
      cases ip with
      | false => exact .failed .arp ⟨rfl, rfl, rfl, rfl, rfl⟩ (by decide) nofun
      | true =>
        cases icmp with
        | false => exact .failed .ip ⟨rfl, rfl, rfl, rfl, rfl⟩ (by decide) nofun
        | true =>
          cases udp with
          | false => exact .failed .icmp ⟨rfl, rfl, rfl, rfl, rfl⟩ (by decide) nofun
          | true => exact .succeeded ⟨rfl, rfl, rfl, rfl, rfl⟩

/-! ## Devices and interfaces -/

/-- The addresses of the interface belong together. -/
structure IpInterface.Regular (iface : IpInterface) : Prop where
  family : iface.family = networkInterfaceFamilyIp
  broadcast : iface.broadcast = (iface.unicast &&& iface.netmask) ||| ~~~iface.netmask

/-- A device that was built, with no interface or with one that names it. -/
structure DeviceOk (dev : NetworkDevice) : Prop where
  built : dev.Built
  iface : dev.interfaces = [] ∨
    ∃ iface, dev.interfaces = [iface] ∧ iface.dev = dev.index ∧ iface.Regular

structure DeviceKept (dev dev' : NetworkDevice) : Prop where
  ok : DeviceOk dev'
  index : dev'.index = dev.index
  iface : ∀ iface, networkDeviceGetInterface dev networkInterfaceFamilyIp = some iface →
    networkDeviceGetInterface dev' networkInterfaceFamilyIp = some iface

theorem DeviceOk.refl {dev : NetworkDevice} (h : DeviceOk dev) : DeviceKept dev dev :=
  ⟨h, rfl, fun _ hi => hi⟩

theorem DeviceOk.getInterface {dev : NetworkDevice} (h : DeviceOk dev) {iface : IpInterface}
    (hget : networkDeviceGetInterface dev networkInterfaceFamilyIp = some iface) :
    iface.dev = dev.index ∧ iface.Regular := by
  have hmem := List.mem_of_find?_eq_some hget
  rcases h.iface with hnil | ⟨iface', hone, hdev, hreg⟩
  · rw [hnil] at hmem
    cases hmem
  · rw [hone, List.mem_singleton] at hmem
    subst hmem
    exact ⟨hdev, hreg⟩

theorem DeviceOk.opened {dev : NetworkDevice} (h : DeviceOk dev) (driver : Option EtherAddr) :
    DeviceKept dev (networkDeviceOpen driver dev).1 := by
  have hbuilt := NetworkDevice.Built.opened driver h.built
  revert hbuilt
  unfold networkDeviceOpen
  split
  · exact fun _ => h.refl
  · split
    · exact fun _ => h.refl
    · exact fun hbuilt => ⟨⟨hbuilt, h.iface⟩, rfl, fun _ hi => hi⟩

theorem DeviceOk.closed {dev : NetworkDevice} (h : DeviceOk dev) (driver : Bool) :
    DeviceKept dev (networkDeviceClose driver dev).1 := by
  have hbuilt := NetworkDevice.Built.closed driver h.built
  revert hbuilt
  rw [networkDeviceClose]
  split
  · exact fun _ => h.refl
  · split
    · exact fun hbuilt => ⟨⟨hbuilt, h.iface⟩, rfl, fun _ hi => hi⟩
    · exact fun _ => h.refl

/-- `ip_register_interface` on a device: nothing new, a half registered interface, or an interface
with its connected route. -/
inductive AttachTrans (tables : IpTables) (dev : NetworkDevice) :
    IpTables × NetworkDevice × Int → Prop where
  | refused : AttachTrans tables dev (tables, dev, -1)
  | half {dev' : NetworkDevice} : DeviceKept dev dev' → AttachTrans tables dev (tables, dev', -1)
  | attached {dev' : NetworkDevice} {iface : IpInterface} : DeviceKept dev dev' →
      networkDeviceGetInterface dev' networkInterfaceFamilyIp = some iface →
      AttachTrans tables dev (⟨⟨iface.unicast &&& iface.netmask, iface.netmask, ipAddrAny,
        iface⟩ :: tables.routes, iface :: tables.ifaces⟩, dev', 0)

theorem ipRegisterInterface_trans {dev : NetworkDevice} (h : DeviceOk dev) {iface : IpInterface}
    (hreg : iface.Regular) (alloc : Bool) (tables : IpTables) :
    AttachTrans tables dev (ipRegisterInterface alloc tables dev iface) := by
  rw [ipRegisterInterface]
  split
  · exact .refused
  · rename_i dev' hadd
    have hbuilt := NetworkDevice.Built.interfaceAdded h.built hadd
    rw [networkDeviceAddInterface] at hadd
    split at hadd
    · cases hadd
    · rename_i hnone
      cases hadd
      -- a device that has an interface has one of this family
      have hnil : dev.interfaces = [] := by
        rcases h.iface with hnil | ⟨old, hone, -, hold⟩
        · exact hnil
        · rw [hone] at hnone
          simp [hold.family, hreg.family] at hnone
      have hkept : DeviceKept dev
          { dev with interfaces := { iface with dev := dev.index } :: dev.interfaces } := by
        refine ⟨⟨hbuilt, .inr ⟨{ iface with dev := dev.index }, ?_, rfl, ?_⟩⟩, rfl, ?_⟩
        · rw [hnil]
        · exact ⟨hreg.family, hreg.broadcast⟩
        · intro old hold
          rw [networkDeviceGetInterface, hnil] at hold
          cases hold
      cases alloc with
      | false => exact .half hkept
      | true => exact .attached hkept (by simp [networkDeviceGetInterface, hreg.family])

theorem ipAllocateInterface_regular {alloc : Bool} {unicast netmask : Bytes} {iface : IpInterface}
    (h : ipAllocateInterface alloc unicast netmask = some (some iface)) : iface.Regular := by
  simp only [ipAllocateInterface] at h
  split at h
  · split at h
    · cases h
    · split at h
      · cases h
      · split at h
        · cases h
        · split at h
          · cases h
          · cases h
            exact ⟨rfl, rfl⟩
  · cases h

/-! ## What always holds -/

structure NodeInv (n : Node) : Prop where
  stage : ∃ table, InitStage table n.ipProtocols ∧ n.protocols = emptyQueues table
  next : n.nextIndex = n.devices.length
  indices : n.devices.map (·.index) = (List.range n.devices.length).reverse
  devices : ∀ dev ∈ n.devices, DeviceOk dev
  routes : ∀ route ∈ n.tables.routes, ∃ dev ∈ n.devices,
    networkDeviceGetInterface dev networkInterfaceFamilyIp = some route.iface

theorem NodeInv.distinct {n : Node} (h : NodeInv n) : (n.devices.map (·.index)).Nodup := by
  rw [h.indices, List.nodup_reverse]
  exact List.nodup_range

structure NodeKept (n n' : Node) : Prop where
  inv : NodeInv n'
  protocols : n'.protocols = n.protocols
  ipProtocols : n'.ipProtocols = n.ipProtocols

theorem NodeInv.mapDevices {n n' : Node} (h : NodeInv n) {f : NetworkDevice → NetworkDevice}
    (hf : ∀ dev ∈ n.devices, DeviceKept dev (f dev)) (hdev : n'.devices = n.devices.map f)
    (hnext : n'.nextIndex = n.nextIndex) (hp : n'.protocols = n.protocols)
    (hip : n'.ipProtocols = n.ipProtocols)
    (hroutes : ∀ route ∈ n'.tables.routes, route ∈ n.tables.routes ∨ ∃ dev ∈ n'.devices,
      networkDeviceGetInterface dev networkInterfaceFamilyIp = some route.iface) :
    NodeKept n n' := by
  refine ⟨⟨?_, ?_, ?_, ?_, ?_⟩, hp, hip⟩
  · rw [hp, hip]
    exact h.stage
  · rw [hnext, h.next, hdev, List.length_map]
  · rw [hdev, List.map_map, List.length_map, ← h.indices]
    exact List.map_congr_left fun dev hm => (hf dev hm).index
  · intro dev hm
    rw [hdev] at hm
    obtain ⟨old, hold, rfl⟩ := List.mem_map.mp hm
    exact (hf old hold).ok
  · intro route hroute
    rcases hroutes route hroute with hold | hnew
    · obtain ⟨dev, hm, hget⟩ := h.routes route hold
      exact ⟨f dev, by rw [hdev]; exact List.mem_map_of_mem hm, (hf dev hm).iface _ hget⟩
    · exact hnew

theorem NodeInv.registered {n n' : Node} (h : NodeInv n) {dev : NetworkDevice} (hbuilt : dev.Built)
    (hnone : dev.interfaces = [])
    (hdev : n'.devices = { dev with index := n.nextIndex } :: n.devices)
    (hnext : n'.nextIndex = n.nextIndex + 1) (hp : n'.protocols = n.protocols)
    (hip : n'.ipProtocols = n.ipProtocols) (htables : n'.tables = n.tables) : NodeKept n n' := by
  refine ⟨⟨?_, ?_, ?_, ?_, ?_⟩, hp, hip⟩
  · rw [hp, hip]
    exact h.stage
  · rw [hnext, h.next, hdev, List.length_cons]
  · rw [hdev, List.map_cons, List.length_cons, List.range_succ, List.reverse_append, h.indices,
      h.next]
    rfl
  · intro d hm
    rw [hdev] at hm
    rcases List.mem_cons.mp hm with rfl | hm
    · exact ⟨.registered _ hbuilt, .inl hnone⟩
    · exact h.devices d hm
  · intro route hroute
    rw [htables] at hroute
    obtain ⟨d, hm, hget⟩ := h.routes route hroute
    exact ⟨d, by rw [hdev]; exact List.mem_cons_of_mem _ hm, hget⟩

theorem NodeInv.refl {n : Node} (h : NodeInv n) : NodeKept n n := ⟨h, rfl, rfl⟩

theorem NodeInv.etherDriverInit {n : Node} (h : NodeInv n) {irq : Nat} {handler : IrqHandler}
    {allocs : DriverAllocs} {addr : Option Bytes} {r : Node × Int}
    (hr : n.etherDriverInit irq handler allocs addr = some r) : NodeKept n r.1 := by
  simp only [Node.etherDriverInit] at hr
  split at hr
  · split at hr
    · cases hr
    · split at hr
      · cases hr
        exact h.refl
      · split at hr
        · cases hr
          exact h.registered (.ether _ _) rfl rfl rfl rfl rfl rfl
        · cases hr
          exact h.refl
  · cases hr
    exact h.refl

theorem NodeInv.addInterface {n : Node} (h : NodeInv n) {allocs : Bool × Bool} {k : Nat}
    {unicast netmask : Bytes} {r : Node × Int}
    (hr : n.addInterface allocs k unicast netmask = some r) : NodeKept n r.1 := by
  simp only [Node.addInterface] at hr
  split at hr
  · cases hr
  · cases hr
    exact h.refl
  · rename_i iface halloc
    split at hr
    · cases hr
    · rename_i dev hdev
      have hmem := List.mem_of_find?_eq_some hdev
      have hk : dev.index = k := by simpa using List.find?_some hdev
      have hattach := ipRegisterInterface_trans (h.devices dev hmem)
        (ipAllocateInterface_regular halloc) allocs.2 n.tables
      revert hr hattach
      generalize ipRegisterInterface allocs.2 n.tables dev iface = attached
      intro hr hattach
      cases hr
      -- the device of index `k` is this one
      have hone : ∀ d ∈ n.devices, d.index = k → d = dev := fun d hd hdk =>
        List.inj_on_of_nodup_map h.distinct hd hmem (hdk.trans hk.symm)
      have hf : DeviceKept dev attached.2.1 → ∀ d ∈ n.devices,
          DeviceKept d (if d.index = k then attached.2.1 else d) := by
        intro hkept d hd
        split
        · rename_i hdk
          rw [hone d hd hdk]
          exact hkept
        · exact (h.devices d hd).refl
      cases hattach with
      | refused =>
        exact h.mapDevices (hf (h.devices dev hmem).refl) rfl rfl rfl rfl fun _ hold => .inl hold
      | half hkept => exact h.mapDevices (hf hkept) rfl rfl rfl rfl fun _ hold => .inl hold
      | @attached dev' iface hkept hget =>
        refine h.mapDevices (hf hkept) rfl rfl rfl rfl fun route hroute => ?_
        rcases List.mem_cons.mp hroute with rfl | hold
        · refine .inr ⟨dev', List.mem_map.mpr ⟨dev, hmem, if_pos hk⟩, hget⟩
        · exact .inl hold

theorem NodeInv.setDefaultGateway {n : Node} (h : NodeInv n) {alloc : Bool} {k : Nat}
    {gateway : Bytes} {r : Node × Int} (hr : n.setDefaultGateway alloc k gateway = some r) :
    NodeKept n r.1 := by
  simp only [Node.setDefaultGateway] at hr
  split at hr
  · cases hr
  · rename_i iface hiface
    obtain ⟨dev, hdev, hget⟩ := Option.bind_eq_some_iff.mp hiface
    have hmem := List.mem_of_find?_eq_some hdev
    split at hr
    · cases hr
    · rename_i gw ret _
      cases hr
      refine h.mapDevices (f := id) (fun dev hm => (h.devices dev hm).refl) (by simp) rfl rfl rfl
        fun route hroute => ?_
      by_cases hret : ret = -1
      · simp only [hret, if_true, ipSetDefaultGateway] at hroute
        exact .inl hroute
      · cases alloc with
        | false =>
          simp only [hret, if_false, ipSetDefaultGateway, ipRouteAdd] at hroute
          exact .inl hroute
        | true =>
          simp only [hret, if_false, ipSetDefaultGateway, ipRouteAdd] at hroute
          rcases List.mem_cons.mp hroute with rfl | hold
          · exact .inr ⟨dev, hmem, hget⟩
          · exact .inl hold

theorem NodeInv.networkRun {n : Node} (h : NodeInv n) (intr : Bool)
    (hw : Nat → Option EtherAddr) : NodeKept n (n.networkRun intr hw).1 := by
  cases intr with
  | false => exact h.refl
  | true =>
    exact h.mapDevices (fun dev hm => (h.devices dev hm).opened _) rfl rfl rfl rfl
      fun _ hold => .inl hold

theorem NodeInv.networkShutdown {n : Node} (h : NodeInv n) : NodeKept n n.networkShutdown :=
  h.mapDevices (fun dev hm => (h.devices dev hm).closed true) rfl rfl rfl rfl
    fun _ hold => .inl hold

theorem NodeInv.loopbackInit {n : Node} (h : NodeInv n) (alloc : Bool) :
    NodeKept n (n.loopbackInit alloc).1 := by
  cases alloc with
  | false => exact h.refl
  | true => exact h.registered (.loopback _) rfl rfl rfl rfl rfl rfl

theorem NodeInv.of_init {n n' : Node} (h : NodeInv n) {table : List (BitVec 16 × NetHandler)}
    {ipProtocols : List (IpProtocol IpHandler)} (hstage : InitStage table ipProtocols)
    (hr : InitResult n n' table ipProtocols) : NodeInv n' where
  stage := ⟨table, hr.ipProtocols ▸ hstage, hr.protocols⟩
  next := by rw [hr.nextIndex, hr.devices, h.next]
  indices := by rw [hr.devices, h.indices]
  devices := by
    rw [hr.devices]
    exact h.devices
  routes := by
    rw [hr.tables, hr.devices]
    exact h.routes

/-! ## Runs -/

def FailsInit (l : NodeAction × Int) : Prop :=
  ∀ allocs now, l.1 = .networkInit allocs now → l.2 = -1

/-- A call of `network_init` that had the memory for the entry of ARP. -/
def RegistersArp (l : NodeAction × Int) : Prop :=
  ∃ allocs now, l.1 = .networkInit allocs now ∧ allocs.arp = true

def InitSucceeds (l : NodeAction × Int) : Prop :=
  (∃ allocs now, l.1 = .networkInit allocs now) ∧ l.2 = 0

inductive NodeTrans (n : Node) : NodeAction × Int → Node → Prop where
  | first {allocs : InitAllocs} {now : Timeval} {r : Node × Int} : n.protocols = [] →
      FirstInit n allocs r → NodeTrans n (.networkInit allocs now, r.2) r.1
  | again {allocs : InitAllocs} {now : Timeval} : n.protocols ≠ [] →
      NodeTrans n (.networkInit allocs now, -1) { n with irqs := intrInit n.irqs }
  | other {l : NodeAction × Int} {n' : Node} : (∀ allocs now, l.1 ≠ .networkInit allocs now) →
      NodeKept n n' → NodeTrans n l n'

theorem NodeInv.arp_registered {n : Node} (h : NodeInv n) (hp : n.protocols ≠ []) :
    ∃ proto ∈ n.protocols, proto.type = networkProtocolTypeArp := by
  obtain ⟨table, hstage, htable⟩ := h.stage
  rw [htable] at hp ⊢
  generalize n.ipProtocols = ipProtocols at hstage
  cases hstage with
  | fresh => exact absurd rfl hp
  | arp => exact ⟨_, .head _, rfl⟩
  | ip | icmp | complete => exact ⟨_, .tail _ (.head _), rfl⟩

theorem NodeInv.no_ipProtocol {n : Node} (h : NodeInv n) (hp : n.protocols = []) :
    n.ipProtocols = [] := by
  obtain ⟨table, hstage, htable⟩ := h.stage
  rw [hp] at htable
  generalize n.ipProtocols = ipProtocols at hstage ⊢
  cases hstage with
  | fresh => rfl
  | arp | ip | icmp | complete => cases htable

theorem node_trans {n n' : Node} {l : NodeAction × Int} (h : NodeInv n) (hstep : Node.Step n l n') :
    NodeTrans n l n' := by
  obtain ⟨a, ret⟩ := l
  cases a with
  | networkInit allocs now =>
    have heq : n.networkInit allocs now = (n', ret) := Option.some.inj hstep
    by_cases hp : n.protocols = []
    · have hfirst := networkInit_fresh hp (h.no_ipProtocol hp) allocs now
      rw [heq] at hfirst
      exact .first (r := (n', ret)) hp hfirst
    · rw [networkInit_again (h.arp_registered hp)] at heq
      cases heq
      exact .again hp
  | loopbackInit alloc =>
    have heq : n.loopbackInit alloc = (n', ret) := Option.some.inj hstep
    have hkept := h.loopbackInit alloc
    rw [heq] at hkept
    exact .other nofun hkept
  | etherTapInit allocs addr => exact .other nofun (h.etherDriverInit hstep)
  | etherPcapInit allocs addr => exact .other nofun (h.etherDriverInit hstep)
  | addInterface allocs k unicast netmask => exact .other nofun (h.addInterface hstep)
  | setDefaultGateway alloc k gateway => exact .other nofun (h.setDefaultGateway hstep)
  | networkRun intr hw =>
    have heq : n.networkRun intr hw = (n', ret) := Option.some.inj hstep
    have hkept := h.networkRun intr hw
    rw [heq] at hkept
    exact .other nofun hkept
  | networkShutdown =>
    cases hstep
    exact .other nofun h.networkShutdown

structure NodeHist (tr : List (NodeAction × Int)) (n : Node) : Prop where
  inv : NodeInv n
  complete : n.ipProtocols.length = 2 ↔ ∃ l ∈ tr, InitSucceeds l
  arp : ∀ l ∈ tr, RegistersArp l → n.protocols ≠ []
  once : tr.Pairwise fun earlier l => RegistersArp earlier → FailsInit l

theorem NodeHist.snoc {tr : List (NodeAction × Int)} {n n' : Node} {l : NodeAction × Int}
    (h : NodeHist tr n) (hinv : NodeInv n')
    (hcomplete : n'.ipProtocols.length = 2 ↔ n.ipProtocols.length = 2 ∨ InitSucceeds l)
    (hkeep : n.protocols ≠ [] → n'.protocols ≠ []) (harp : RegistersArp l → n'.protocols ≠ [])
    (honce : n.protocols ≠ [] → FailsInit l) : NodeHist (tr ++ [l]) n' where
  inv := hinv
  complete := by
    rw [hcomplete, h.complete]
    simp only [List.mem_append, List.mem_singleton, or_and_right, exists_or, exists_eq_left]
  arp := by
    intro l' hl'
    rcases List.mem_append.mp hl' with hold | hnew
    · exact fun hreg => hkeep (h.arp l' hold hreg)
    · rw [List.mem_singleton.mp hnew]
      exact harp
  once := by
    refine List.pairwise_append.mpr ⟨h.once, List.pairwise_singleton _ _, ?_⟩
    intro earlier hearlier l' hl' hreg
    rw [List.mem_singleton.mp hl']
    exact honce (h.arp earlier hearlier hreg)

theorem nodeHist_step {tr : List (NodeAction × Int)} {n n' : Node} {l : NodeAction × Int}
    (h : NodeHist tr n) (hstep : Node.Step n l n') : NodeHist (tr ++ [l]) n' := by
  cases node_trans h.inv hstep with
  | @first allocs now r hp hfirst =>
    have hempty : n.ipProtocols.length ≠ 2 := by simp [h.inv.no_ipProtocol hp]
    cases hfirst with
    | failed hstage hr hlen harp =>
      refine h.snoc (h.inv.of_init hstage hr) ?_ (absurd hp) ?_ (absurd hp)
      · rw [hr.ipProtocols]
        exact iff_of_false (by omega) (not_or.mpr ⟨hempty, fun hs => nomatch hs.2⟩)
      · rintro ⟨_, _, heq, htrue⟩
        cases heq
        rw [hr.protocols]
        simpa [emptyQueues] using harp htrue
    | succeeded hr =>
      refine h.snoc (h.inv.of_init .complete hr) ?_ (absurd hp) ?_ (absurd hp)
      · rw [hr.ipProtocols]
        exact iff_of_true rfl (.inr ⟨⟨allocs, now, rfl⟩, rfl⟩)
      · rw [hr.protocols]
        exact fun _ => nofun
  | again hp =>
    refine h.snoc ⟨h.inv.stage, h.inv.next, h.inv.indices, h.inv.devices, h.inv.routes⟩ ?_ id
      (fun _ => hp) fun _ _ _ _ => rfl
    exact (or_iff_left fun hs => nomatch hs.2).symm
  | other hother hkept =>
    refine h.snoc hkept.inv ?_ ?_ ?_ ?_
    · rw [hkept.ipProtocols]
      exact (or_iff_left fun ⟨⟨allocs, now, heq⟩, _⟩ => hother allocs now heq).symm
    · rw [hkept.protocols]
      exact id
    · rintro ⟨allocs, now, heq, -⟩
      exact absurd heq (hother allocs now)
    · exact fun _ allocs now heq => absurd heq (hother allocs now)

theorem run_nodeHist {tr : List (NodeAction × Int)} {n : Node} (h : Run Node.Step .zero tr n) :
    NodeHist tr n := by
  refine h.history (P := NodeHist) ?_ fun _ _ _ _ _ hn hl => nodeHist_step hn hl
  refine ⟨⟨⟨[], .fresh, rfl⟩, rfl, rfl, nofun, nofun⟩, ?_, nofun, .nil⟩
  exact iff_of_false nofun nofun

/-! ## The stack -/

/-- The stack that has been set up, before the first frame. -/
def Node.stack (n : Node) : Stack :=
  ⟨⟨n.devices, n.tables.routes, n.ipProtocols, cachesInit, udpPcbsInit, 128, 0, []⟩, n.protocols⟩

theorem InitStage.complete_iff {table : List (BitVec 16 × NetHandler)}
    {ipProtocols : List (IpProtocol IpHandler)} (h : InitStage table ipProtocols) :
    (table = initTable ∧ ipProtocols = [⟨udpProtocol, .udpInput⟩, ⟨icmpProtocol, .icmpInput⟩]) ↔
      ipProtocols.length = 2 := by
  cases h with
  | fresh | arp | ip | icmp => exact iff_of_false (fun h => nomatch h.2) (by decide)
  | complete => exact iff_of_true ⟨rfl, rfl⟩ rfl

theorem NodeInv.initialised_iff {n : Node} (h : NodeInv n) :
    n.stack.Initialised ↔ n.ipProtocols.length = 2 := by
  obtain ⟨table, hstage, htable⟩ := h.stage
  rw [← hstage.complete_iff]
  change (protocolTable n.protocols = initTable ∧ _) ↔ _
  rw [htable, protocolTable_emptyQueues]
  rfl

/-- **What a configuration comes to.** However the calls are ordered and whichever allocations,
texts and drivers fail: the devices are as their drivers built them, nothing is queued, only the
protocols of `network_init` are registered, and each route has an interface that its device has.
The stack is initialised just if a `network_init` returned 0, and there is no second chance: once
one has registered ARP, every later one fails. -/
theorem configuration_sound {tr : List (NodeAction × Int)} {n : Node}
    (hrun : Run Node.Step .zero tr n) :
    (n.stack.host.Configured ∧ Idle n.stack.protocols ∧
      protocolTable n.stack.protocols ⊆ initTable) ∧
    (∀ route ∈ n.stack.host.routes, route.iface.Regular ∧
      ∃ dev, n.stack.host.device route.iface.dev = some dev ∧
        networkDeviceGetInterface dev networkInterfaceFamilyIp = some route.iface) ∧
    (n.stack.Initialised ↔ ∃ l ∈ tr, InitSucceeds l) ∧
    tr.Pairwise fun earlier l => RegistersArp earlier → FailsInit l := by
  obtain ⟨hinv, hcomplete, -, honce⟩ := run_nodeHist hrun
  refine ⟨⟨fun dev hdev => (hinv.devices dev hdev).built, ?_, ?_⟩, ?_, ?_, honce⟩
  · obtain ⟨table, -, htable⟩ := hinv.stage
    change Idle n.protocols
    rw [htable]
    exact idle_emptyQueues table
  · obtain ⟨table, hstage, htable⟩ := hinv.stage
    change protocolTable n.protocols ⊆ initTable
    rw [htable, protocolTable_emptyQueues]
    exact hstage.subset
  · intro route hroute
    obtain ⟨dev, hmem, hget⟩ := hinv.routes route hroute
    obtain ⟨hindex, hreg⟩ := (hinv.devices dev hmem).getInterface hget
    refine ⟨hreg, dev, ?_, hget⟩
    rw [hindex]
    exact find_key_of_mem hinv.distinct hmem
  · exact hinv.initialised_iff.trans hcomplete

/-- The calls of `setup` in `udp_app.c`, with the texts of `params.h`, and one more
`network_init`. -/
def udpAppSetup : List NodeAction :=
  [.networkInit ⟨true, true, true, true, true, true⟩ ⟨0, 0⟩,
    .etherTapInit ⟨true, true, true⟩ (some ("00:00:5e:00:53:01".toList.map ascii ++ [0])),
    .addInterface (true, true) 0 ("192.0.2.2".toList.map ascii ++ [0])
      ("255.255.255.0".toList.map ascii ++ [0]),
    .setDefaultGateway true 0 ("192.0.2.1".toList.map ascii ++ [0]),
    .networkRun true fun _ => some etherAddrBroadcast,
    .networkInit ⟨true, true, true, true, true, true⟩ ⟨0, 0⟩]

/-- The device is up with its own address, and its interface has the connected route and the default
one. -/
theorem udpAppSetup_sound : ∃ tr n, Run Node.Step .zero tr n ∧ tr.map Prod.fst = udpAppSetup ∧
    tr.map Prod.snd = [0, 0, 0, 0, 0, -1] ∧ n.devices.map (·.isUp) = [true] ∧
    n.stack.host.routes.map (·.nexthop) = [0x010200c0#32, ipAddrAny] ∧
    n.stack.host.Configured ∧ n.stack.Initialised := by
  obtain ⟨tr, n, hrun, hmap, hcheck⟩ := exec_check Node.step .zero udpAppSetup
    (fun r => decide (r.1.map Prod.snd = [0, 0, 0, 0, 0, -1] ∧ r.2.devices.map (·.isUp) = [true] ∧
      r.2.stack.host.routes.map (·.nexthop) = [0x010200c0#32, ipAddrAny])) (by decide +kernel)
  obtain ⟨hrets, hup, hroutes⟩ := of_decide_eq_true hcheck
  obtain ⟨⟨hconf, -, -⟩, -, hinit, -⟩ := configuration_sound hrun
  refine ⟨tr, n, hrun, hmap, hrets, hup, hroutes, hconf, hinit.mpr ?_⟩
  cases tr with
  | nil => cases hmap
  | cons l tr =>
    exact ⟨l, .head _, ⟨_, _, (List.cons.inj hmap).1⟩, (List.cons.inj hrets).1⟩

end LLNStack
