import LLNStack.Net.Ether
import LLNStack.Ip.Addr

/-!
# LLNStack.Net.Device

Devices and the interfaces attached to them. A device is known to an interface by its index.
`networkDeviceOutput` is `network_device_output` up to the effect of the driver: a frame for the
wire, or data that `loopback_transmit` gives back to `network_input_handler`.
-/

namespace LLNStack

open Lib

def networkDeviceTypeLoopback : BitVec 16 := 0x0001#16
def networkDeviceTypeEthernet : BitVec 16 := 0x0002#16

def networkDeviceFlagUp : BitVec 16 := 0x0001#16
def networkDeviceFlagLoopback : BitVec 16 := 0x0010#16
def networkDeviceFlagBroadcast : BitVec 16 := 0x0020#16
def networkDeviceFlagNeedArp : BitVec 16 := 0x0100#16

def networkInterfaceFamilyIp : Int := 1

def networkProtocolTypeIp : BitVec 16 := 0x0800#16
def networkProtocolTypeArp : BitVec 16 := 0x0806#16

/-- `struct IP_INTERFACE` with the `struct network_interface` it begins with. -/
structure IpInterface where
  family : Int
  dev : Nat
  unicast : IPAddress
  netmask : IPAddress
  broadcast : IPAddress
  deriving DecidableEq, Repr

/-- The `transmit` operation of a device. -/
inductive DeviceOps where
  | loopbackTransmit
  | etherTransmit
  deriving DecidableEq, Repr

structure NetworkDevice where
  interfaces : List IpInterface
  index : Nat
  type : BitVec 16
  mtu : BitVec 16
  flags : BitVec 16
  address : EtherAddr
  broadcast : EtherAddr
  ops : DeviceOps
  deriving DecidableEq

def NetworkDevice.isUp (dev : NetworkDevice) : Bool := dev.flags &&& networkDeviceFlagUp != 0

def NetworkDevice.needArp (dev : NetworkDevice) : Bool :=
  dev.flags &&& networkDeviceFlagNeedArp != 0

def etherSetupHelper (dev : NetworkDevice) : NetworkDevice :=
  { dev with
    type := networkDeviceTypeEthernet
    mtu := BitVec.ofNat 16 etherPayloadSizeMax
    flags := networkDeviceFlagBroadcast ||| networkDeviceFlagNeedArp
    broadcast := etherAddrBroadcast }

def loopbackMtu : Nat := 65535

def loopbackSetup (dev : NetworkDevice) : NetworkDevice :=
  { dev with
    type := networkDeviceTypeLoopback
    mtu := BitVec.ofNat 16 loopbackMtu
    flags := networkDeviceFlagLoopback
    ops := .loopbackTransmit }

/-- `driver` is what the driver's `open` leads to: the hardware address of the device after it, or
`none` if it fails. -/
def networkDeviceOpen (driver : Option EtherAddr) (dev : NetworkDevice) : NetworkDevice × Int :=
  if dev.isUp then (dev, -1)
  else
    match driver with
    | none => (dev, -1)
    | some address =>
      ({ dev with address := address, flags := dev.flags ||| networkDeviceFlagUp }, 0)

/-- `driver`: whether the driver's `close` succeeds. -/
def networkDeviceClose (driver : Bool) (dev : NetworkDevice) : NetworkDevice × Int :=
  if ¬ dev.isUp then (dev, -1)
  else if driver then ({ dev with flags := dev.flags &&& ~~~networkDeviceFlagUp }, 0)
  else (dev, -1)

/-- `none` if the device has an interface of this family. -/
def networkDeviceAddInterface (dev : NetworkDevice) (iface : IpInterface) :
    Option NetworkDevice :=
  if dev.interfaces.any (·.family = iface.family) then none
  else some { dev with interfaces := { iface with dev := dev.index } :: dev.interfaces }

def networkDeviceGetInterface (dev : NetworkDevice) (family : Int) : Option IpInterface :=
  dev.interfaces.find? (·.family = family)

/-- The devices that can be: the loopback device and those of the Ethernet drivers, in any state
they get into. -/
inductive NetworkDevice.Built : NetworkDevice → Prop where
  | loopback (dev : NetworkDevice) : Built (loopbackSetup dev)
  | ether (dev : NetworkDevice) (address : EtherAddr) :
      Built { etherSetupHelper dev with address := address, ops := .etherTransmit }
  | registered {dev : NetworkDevice} (index : Nat) : Built dev → Built { dev with index := index }
  | opened {dev : NetworkDevice} (driver : Option EtherAddr) : Built dev →
      Built (networkDeviceOpen driver dev).1
  | closed {dev : NetworkDevice} (driver : Bool) : Built dev →
      Built (networkDeviceClose driver dev).1
  | interfaceAdded {dev dev' : NetworkDevice} {iface : IpInterface} : Built dev →
      networkDeviceAddInterface dev iface = some dev' → Built dev'

inductive Transmission where
  /-- The frame given to the driver's write. -/
  | wire (dev : Nat) (frame : Bytes)
  /-- The call of `network_input_handler`. -/
  | loopback (dev : Nat) (type : BitVec 16) (data : Bytes)
  deriving DecidableEq, Repr

def NetworkDevice.transmit (dev : NetworkDevice) (type : BitVec 16) (data : Bytes)
    (dst : EtherAddr) : Transmission :=
  match dev.ops with
  | .loopbackTransmit => .loopback dev.index type data
  | .etherTransmit => .wire dev.index (etherFrame dev.address type data dst)

/-- `none` if the device is down or the data exceeds its MTU. -/
def networkDeviceOutput (dev : NetworkDevice) (type : BitVec 16) (data : Bytes) (dst : EtherAddr) :
    Option Transmission :=
  if ¬ dev.isUp then none
  else if dev.mtu.toNat < data.length then none
  else some (dev.transmit type data dst)

theorem networkDeviceAddInterface_index {dev dev' : NetworkDevice} {iface : IpInterface}
    (h : networkDeviceAddInterface dev iface = some dev') : dev'.index = dev.index := by
  unfold networkDeviceAddInterface at h
  split at h
  · cases h
  · cases h; rfl

/-- The devices have the same driver: opening, closing and attaching interfaces do not change what
it set. -/
structure NetworkDevice.SameLink (dev dev' : NetworkDevice) : Prop where
  type : dev'.type = dev.type
  mtu : dev'.mtu = dev.mtu
  broadcast : dev'.broadcast = dev.broadcast
  ops : dev'.ops = dev.ops

theorem networkDeviceOpen_sameLink (driver : Option EtherAddr) (dev : NetworkDevice) :
    dev.SameLink (networkDeviceOpen driver dev).1 := by
  unfold networkDeviceOpen
  split
  · exact ⟨rfl, rfl, rfl, rfl⟩
  · cases driver <;> exact ⟨rfl, rfl, rfl, rfl⟩

theorem networkDeviceClose_sameLink (driver : Bool) (dev : NetworkDevice) :
    dev.SameLink (networkDeviceClose driver dev).1 := by
  unfold networkDeviceClose
  split
  · exact ⟨rfl, rfl, rfl, rfl⟩
  · cases driver <;> exact ⟨rfl, rfl, rfl, rfl⟩

theorem networkDeviceAddInterface_sameLink {dev dev' : NetworkDevice} {iface : IpInterface}
    (h : networkDeviceAddInterface dev iface = some dev') : dev.SameLink dev' := by
  unfold networkDeviceAddInterface at h
  split at h
  · cases h
  · cases h
    exact ⟨rfl, rfl, rfl, rfl⟩

/-- What `ether_setup_helper` and the Ethernet drivers set. -/
structure NetworkDevice.EtherLink (dev : NetworkDevice) : Prop where
  mtu : dev.mtu = BitVec.ofNat 16 etherPayloadSizeMax
  broadcast : dev.broadcast = etherAddrBroadcast
  ops : dev.ops = .etherTransmit

theorem NetworkDevice.EtherLink.same {dev dev' : NetworkDevice} (h : dev.EtherLink)
    (hs : dev.SameLink dev') : dev'.EtherLink :=
  ⟨hs.mtu.trans h.mtu, hs.broadcast.trans h.broadcast, hs.ops.trans h.ops⟩

/-- Only the Ethernet drivers have Ethernet devices. -/
theorem NetworkDevice.Built.etherLink {dev : NetworkDevice} (h : dev.Built)
    (htype : dev.type = networkDeviceTypeEthernet) : dev.EtherLink := by
  induction h with
  | loopback dev => cases htype
  | ether dev address => exact ⟨rfl, rfl, rfl⟩
  | registered index _ ih =>
    have hlink := ih htype
    exact ⟨hlink.mtu, hlink.broadcast, hlink.ops⟩
  | @opened dev driver _ ih =>
    have hs := networkDeviceOpen_sameLink driver dev
    exact (ih (hs.type.symm.trans htype)).same hs
  | @closed dev driver _ ih =>
    have hs := networkDeviceClose_sameLink driver dev
    exact (ih (hs.type.symm.trans htype)).same hs
  | interfaceAdded _ hadd ih =>
    have hs := networkDeviceAddInterface_sameLink hadd
    exact (ih (hs.type.symm.trans htype)).same hs

theorem networkDeviceOutput_some {dev : NetworkDevice} {type : BitVec 16} {data : Bytes}
    {dst : EtherAddr} {t : Transmission} (h : networkDeviceOutput dev type data dst = some t) :
    dev.isUp = true ∧ data.length ≤ dev.mtu.toNat ∧ t = dev.transmit type data dst := by
  simp only [networkDeviceOutput] at h
  split at h
  · cases h
  · rename_i hup
    split at h
    · cases h
    · rename_i hmtu
      cases h
      exact ⟨by simpa using hup, by omega, rfl⟩

theorem networkDeviceOutput_fits {dev : NetworkDevice} (hup : dev.isUp = true) (type : BitVec 16)
    {data : Bytes} (hlen : data.length ≤ dev.mtu.toNat) (dst : EtherAddr) :
    networkDeviceOutput dev type data dst = some (dev.transmit type data dst) := by
  simp only [networkDeviceOutput, hup, not_true_eq_false, if_false]
  rw [if_neg (by omega)]

end LLNStack
