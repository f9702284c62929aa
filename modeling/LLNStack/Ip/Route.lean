import LLNStack.Net.Device

/-!
# LLNStack.Ip.Route

The route table of `ip.c`, most recently added route first, its lookup and the two calls that add to
it. `alloc` says whether memory can be allocated. `ip_register_interface` attaches the interface to
the device before it adds the route; `registersAtomically_iff` says when the call is nevertheless
all or nothing.
-/

namespace LLNStack

open Lib

structure IpRoute where
  network : IPAddress
  netmask : IPAddress
  nexthop : IPAddress
  iface : IpInterface
  deriving DecidableEq, Repr

/-- Where `ip_send_packet` sends a packet for `dst` on this route. -/
def IpRoute.nexthopTo (route : IpRoute) (dst : IPAddress) : IPAddress :=
  if route.nexthop ≠ ipAddrAny then route.nexthop else dst

/-- The loop of `ip_route_lookup` over the routes still to come. -/
def ipRouteLookupLoop (dst : IPAddress) : Option IpRoute → List IpRoute → Option IpRoute
  | candidate, [] => candidate
  | candidate, route :: rest =>
    if dst &&& route.netmask = route.network then
      match candidate with
      | none => ipRouteLookupLoop dst (some route) rest
      | some c =>
        if ntoh32 .little c.netmask < ntoh32 .little route.netmask then
          ipRouteLookupLoop dst (some route) rest
        else ipRouteLookupLoop dst (some c) rest
    else ipRouteLookupLoop dst candidate rest

def ipRouteLookup (routes : List IpRoute) (dst : IPAddress) : Option IpRoute :=
  ipRouteLookupLoop dst none routes

def ipGetInterface (routes : List IpRoute) (dst : IPAddress) : Option IpInterface :=
  (ipRouteLookup routes dst).map (·.iface)

/-! ## Adding routes -/

/-- The lists `routes` and `ifaces` of `ip.c`. -/
structure IpTables where
  routes : List IpRoute
  ifaces : List IpInterface

def ipRouteAdd (alloc : Bool) (routes : List IpRoute) (network netmask nexthop : IPAddress)
    (iface : IpInterface) : Option (List IpRoute) :=
  if alloc then some (⟨network, netmask, nexthop, iface⟩ :: routes) else none

/-- `gateway` is what `ip_string_to_address` makes of the text. -/
def ipSetDefaultGateway (alloc : Bool) (tables : IpTables) (iface : IpInterface)
    (gateway : Option IPAddress) : IpTables × Int :=
  match gateway with
  | none => (tables, -1)
  | some gw =>
    match ipRouteAdd alloc tables.routes ipAddrAny ipAddrAny gw iface with
    | none => (tables, -1)
    | some routes => ({ tables with routes := routes }, 0)

/-- The device keeps the interface when the route cannot be allocated. -/
def ipRegisterInterface (alloc : Bool) (tables : IpTables) (dev : NetworkDevice)
    (iface : IpInterface) : IpTables × NetworkDevice × Int :=
  match networkDeviceAddInterface dev iface with
  | none => (tables, dev, -1)
  | some dev =>
    let iface := { iface with dev := dev.index }
    match ipRouteAdd alloc tables.routes (iface.unicast &&& iface.netmask) iface.netmask ipAddrAny
        iface with
    | none => (tables, dev, -1)
    | some routes => (⟨routes, iface :: tables.ifaces⟩, dev, 0)

/-! ## Registration as a whole -/

/-- A registration that fails leaves the device, the routes and the interfaces as they were; one
that succeeds adds the interface to the device and to the list, and its connected route. -/
def RegistersAtomically (alloc : Bool) (tables : IpTables) (dev : NetworkDevice)
    (iface : IpInterface) : Prop :=
  let (tables', dev', ret) := ipRegisterInterface alloc tables dev iface
  let iface' : IpInterface := { iface with dev := dev.index }
  (ret = -1 → tables' = tables ∧ dev' = dev) ∧
    (ret = 0 → dev' = { dev with interfaces := iface' :: dev.interfaces } ∧
      tables'.routes =
        ⟨iface.unicast &&& iface.netmask, iface.netmask, ipAddrAny, iface'⟩ :: tables.routes ∧
      tables'.ifaces = iface' :: tables.ifaces)

/-- **Atomic registration.** `ip_register_interface` does all or nothing exactly if the device
already has an interface of the family or the route can be allocated. -/
theorem registersAtomically_iff (alloc : Bool) (tables : IpTables) (dev : NetworkDevice)
    (iface : IpInterface) :
    RegistersAtomically alloc tables dev iface ↔
      (∃ old ∈ dev.interfaces, old.family = iface.family) ∨ alloc = true := by
  unfold RegistersAtomically ipRegisterInterface networkDeviceAddInterface
  by_cases hold : ∃ old ∈ dev.interfaces, old.family = iface.family
  · have hany : dev.interfaces.any (·.family = iface.family) = true := by simpa using hold
    simp [hany, hold]
  · have hany : dev.interfaces.any (·.family = iface.family) = false := by simpa using hold
    cases alloc with
    | false =>
      -- the interface is on the device, and nothing takes it off again
      have hdev : { dev with interfaces := { iface with dev := dev.index } :: dev.interfaces } ≠
          dev := fun he => by simpa using congrArg (·.interfaces.length) he
      simp [hany, hold, ipRouteAdd, hdev]
    | true => simp [hany, hold, ipRouteAdd]

/-- No memory for the route: the call fails, but the device has the interface, and a second call
with memory fails because of it. -/
theorem noRoute_halfRegistered :
    let iface : IpInterface := ⟨networkInterfaceFamilyIp, 0, 0x020200c0#32, 0x00ffffff#32,
      0xff0200c0#32⟩
    let dev : NetworkDevice := ⟨[], 0, networkDeviceTypeEthernet, 1500, 0, etherAddrAny,
      etherAddrBroadcast, .etherTransmit⟩
    let (tables, dev', ret) := ipRegisterInterface false ⟨[], []⟩ dev iface
    ret = -1 ∧ tables.routes = [] ∧ dev'.interfaces = [iface] ∧
      (ipRegisterInterface true tables dev' iface).2.2 = -1 := by
  decide

/-! ## Runs -/

structure RouteSys where
  devices : Nat → NetworkDevice
  tables : IpTables

inductive RouteAction where
  | registerInterface (alloc : Bool) (dev : Nat) (iface : IpInterface)
  | setDefaultGateway (alloc : Bool) (iface : IpInterface) (gateway : Option IPAddress)

namespace RouteSys

def init (devices : Nat → NetworkDevice) : RouteSys := ⟨devices, [], []⟩

def step (s : RouteSys) : RouteAction → Option (RouteSys × Int)
  | .registerInterface alloc n iface =>
    let (tables, dev, ret) := ipRegisterInterface alloc s.tables (s.devices n) iface
    some (⟨Function.update s.devices n dev, tables⟩, ret)
  | .setDefaultGateway alloc iface gateway =>
    let (tables, ret) := ipSetDefaultGateway alloc s.tables iface gateway
    some ({ s with tables := tables }, ret)

end RouteSys

end LLNStack
