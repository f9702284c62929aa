import LLNStack.Net.Protocol
import LLNStack.Arp.Cache
import LLNStack.Ip.Route
import LLNStack.Icmp
import LLNStack.Udp.Pcb

/-!
# LLNStack.Host.Model

One host: the send path from `udp_sendto` and `icmp_output` down to the driver, the receive path
from `ether_poll_helper` through the protocol queues up to the PCBs, and the tables they share.
Calls do not overlap and memory allocation succeeds. A handler sees a packet as far as it was
received; `Host.Memory` has the handlers that also see what is in memory behind it, which is the
same as long as the lengths in its header are in order.

`sent` logs the calls of a device's `transmit` operation. What a loopback device was given is input
for the host itself and is queued when the call that sent it is over; nothing that runs in between
looks at the queues.
-/

namespace LLNStack

open Lib

inductive NetHandler where
  | ipInput
  | arpInput
  deriving DecidableEq, Repr

inductive IpHandler where
  | icmpInput
  | udpInput
  deriving DecidableEq, Repr

/-- What a host gets from outside: the clock, by the number of earlier readings, and whether a
driver's write succeeds, by the number of earlier transmissions. -/
structure Env where
  now : Nat → Timeval
  written : Nat → Bool

structure Host where
  devices : List NetworkDevice
  routes : List IpRoute
  ipProtocols : List (IpProtocol IpHandler)
  caches : Caches
  pcbs : Pcbs
  id : BitVec 16
  clock : Nat
  sent : List Transmission

namespace Host

def device (h : Host) (n : Nat) : Option NetworkDevice := h.devices.find? (·.index = n)

/-! ## Sending -/

/-- The end of `network_device_output`: the call of `transmit`, if its checks passed. -/
def transmit (env : Env) (h : Host) : Option Transmission → Host × Int
  | none => (h, -1)
  | some (.wire dev frame) =>
    ({ h with sent := h.sent ++ [.wire dev frame] }, if env.written h.sent.length then 0 else -1)
  | some (.loopback dev type data) => ({ h with sent := h.sent ++ [.loopback dev type data] }, 0)

/-- `arp_resolve` with the transmission of its request, whose result is ignored. -/
def arpResolve (env : Env) (h : Host) (iface : IpInterface) (dev : NetworkDevice)
    (pa : IPAddress) : Host × ArpResolve :=
  let (caches, ret, request) := LLNStack.arpResolve h.caches (env.now h.clock) iface dev pa
  let h := { h with caches := caches, clock := h.clock + 1 }
  ((h.transmit env request).1, ret)

def ipOutputDevice (env : Env) (h : Host) (iface : IpInterface) (data : Bytes) (dst : IPAddress) :
    Host × Int :=
  match h.device iface.dev with
  | none => (h, -1)
  | some dev =>
    if dev.needArp then
      if dst = iface.broadcast ∨ dst = ipAddrBroadcast then
        h.transmit env (networkDeviceOutput dev networkProtocolTypeIp data dev.broadcast)
      else
        match h.arpResolve env iface dev dst with
        | (h, .error) => (h, -1)
        | (h, .incomplete) => (h, 0)
        | (h, .found ha) =>
          h.transmit env (networkDeviceOutput dev networkProtocolTypeIp data ha)
    else
      h.transmit env
        (networkDeviceOutput dev networkProtocolTypeIp data etherAddrAny)

def ipOutputCore (env : Env) (h : Host) (iface : IpInterface) (protocol : Byte) (data : Bytes)
    (src dst nexthop : IPAddress) (id offset : BitVec 16) : Host × Int :=
  h.ipOutputDevice env iface (ipPacket protocol data src dst id offset) nexthop

def ipGenerateId (h : Host) : Host × BitVec 16 := ({ h with id := h.id + 1 }, h.id)

def ipSendPacket (env : Env) (h : Host) (protocol : Byte) (data : Bytes) (src dst : IPAddress) :
    Host × Int :=
  if src = ipAddrAny ∧ dst = ipAddrBroadcast then (h, -1)
  else
    match ipRouteLookup h.routes dst with
    | none => (h, -1)
    | some route =>
      if src ≠ ipAddrAny ∧ src ≠ route.iface.unicast then (h, -1)
      else
        match h.device route.iface.dev with
        | none => (h, -1)
        | some dev =>
          if dev.mtu.toNat < minIpHeaderSize + data.length then (h, -1)
          else
            let (h, id) := h.ipGenerateId
            let (h, ret) := h.ipOutputCore env route.iface protocol data route.iface.unicast dst
              (route.nexthopTo dst) id 0
            if ret = -1 then (h, -1) else (h, data.length)

def udpOutput (env : Env) (h : Host) (src dst : IpEndpoint) (data : Bytes) : Host × Int :=
  match udpDatagram src dst data with
  | none => (h, -1)
  | some d =>
    let (h, ret) := h.ipSendPacket env udpProtocol d src.address dst.address
    if ret = -1 then (h, -1) else (h, data.length)

def udpSendto (env : Env) (h : Host) (id : Int) (data : Bytes) (foreign : IpEndpoint) :
    Host × Int :=
  match udpSendtoSource ((ipGetInterface h.routes foreign.address).map (·.unicast)) h.pcbs id with
  | (pcbs, none) => ({ h with pcbs := pcbs }, -1)
  | (pcbs, some src) => { h with pcbs := pcbs }.udpOutput env src foreign data

/-- The length of the message is that of what was received; see `icmpOutputMem`. -/
def icmpOutput (env : Env) (h : Host) (out : IcmpOutput) : Host × Int :=
  h.ipSendPacket env icmpProtocol (LLNStack.icmpOutput out) out.src out.dst

/-! ## Receiving -/

/-- For packets whose total length is not below their header length; see `ipHandlerMem` for all. -/
def ipHandler (env : Env) (h : Host) (d : IpDelivery IpHandler) : Host :=
  match d.handler with
  | .icmpInput =>
    match icmpInput d.data d.len.toNat d.src d.dst d.iface with
    | none => h
    | some out => (h.icmpOutput env out).1
  | .udpInput =>
    { h with pcbs := (udpInput (true, true) h.pcbs d.data d.len.toNat d.src d.dst).1 }

def ipInput (env : Env) (h : Host) (data : Bytes) (dev : NetworkDevice) : Host :=
  match LLNStack.ipInput h.ipProtocols dev data with
  | none => h
  | some d => h.ipHandler env d

def arpInput (env : Env) (h : Host) (data : Bytes) (dev : NetworkDevice) : Host :=
  let (caches, reply) := LLNStack.arpInput h.caches (env.now h.clock) dev data
  ({ h with caches := caches, clock := h.clock + 1 }.transmit env reply).1

def netHandler (env : Env) (h : Host) (handler : NetHandler) (entry : Bytes × Nat) : Host :=
  match h.device entry.2 with
  | none => h
  | some dev =>
    match handler with
    | .ipInput => h.ipInput env entry.1 dev
    | .arpInput => h.arpInput env entry.1 dev

end Host

/-! ## The queues -/

/-- The call of `network_input_handler` by a loopback device. -/
def Transmission.input : Transmission → Option NetworkInput
  | .wire _ _ => none
  | .loopback dev type data => some ⟨type, data, dev⟩

/-- The input a host made for itself on the way from `h` to `h'`. -/
def Host.inputs (h h' : Host) : List NetworkInput :=
  (h'.sent.drop h.sent.length).filterMap Transmission.input

def Host.handle (env : Env) (handler : NetHandler) (entry : Bytes × Nat) (h : Host) :
    Host × List NetworkInput :=
  (h.netHandler env handler entry, h.inputs (h.netHandler env handler entry))

structure Stack where
  host : Host
  protocols : List (NetworkProtocol NetHandler)

namespace Stack

/-- What `network_init` registers. -/
def Initialised (s : Stack) : Prop :=
  s.protocols.map (fun proto => (proto.type, proto.handler)) =
      [(networkProtocolTypeIp, .ipInput), (networkProtocolTypeArp, .arpInput)] ∧
    s.host.ipProtocols = [⟨udpProtocol, .udpInput⟩, ⟨icmpProtocol, .icmpInput⟩]

def udpSendto (env : Env) (s : Stack) (id : Int) (data : Bytes) (foreign : IpEndpoint) :
    Stack × Int :=
  let (host, ret) := s.host.udpSendto env id data foreign
  (⟨host, networkInputs s.protocols (s.host.inputs host)⟩, ret)

/-- `ether_poll_helper` on device `n` when the driver has read this frame. -/
def etherPollHelper (s : Stack) (n : Nat) (frame : Bytes) : Stack :=
  match s.host.device n with
  | none => s
  | some dev =>
    match LLNStack.etherPollHelper dev.address frame with
    | none => s
    | some (type, data) =>
      { s with protocols := (networkInputHandler true ⟨type, data, n⟩ s.protocols).1 }

def networkProtocolHandler (env : Env) (fuel : Nat) (s : Stack) : Option Stack :=
  (LLNStack.networkProtocolHandler (Host.handle env) fuel s.protocols s.host).map
    fun (protocols, host) => ⟨host, protocols⟩

end Stack

end LLNStack
