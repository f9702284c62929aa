import LLNStack.Ip.Prefix
import LLNStack.Host.Delivery

/-!
# LLNStack.Host.Send

What a call of `ip_send_packet` hands to a device, and what its result says about it.

* `Host.Sent`: what the functions of the send path do to a host.
* `Host.SendTrans`: the ways a call can end, from which everything here follows. A packet whose next
  hop is still being resolved is dropped, after a request for the address (`awaits`), and the call
  nevertheless returns the number of bytes.
* `Host.send_reported_iff`: the result tells whether the packet was transmitted, exactly if the
  call does not end that way.
* `Host.send_linkAddressed_iff`: the frame of a packet has the hardware address its destination
  calls for, as long as the next hop is a broadcast address exactly if the destination is one. A
  default gateway breaks that: the broadcast test is made on the next hop.
-/

namespace LLNStack

open Lib

/-! ## What is transmitted -/

def Transmission.type : Transmission → BitVec 16
  | .wire _ frame => ntoh16 .little (EtherHdr.ofBytes frame).type
  | .loopback _ type _ => type

/-- The device operation succeeds, as the `n`-th one of the host. -/
def Transmission.succeeds (env : Env) (n : Nat) : Transmission → Bool
  | .wire _ _ => env.written n
  | .loopback _ _ _ => true

theorem ofBytes_etherFrame (address : EtherAddr) (type : BitVec 16) (data : Bytes)
    (dst : EtherAddr) :
    EtherHdr.ofBytes (etherFrame address type data dst) = ⟨dst, address, hton16 .little type⟩ :=
  EtherHdr.ofBytes_toBytes ..

theorem type_transmit (dev : NetworkDevice) (type : BitVec 16) (data : Bytes) (dst : EtherAddr) :
    (dev.transmit type data dst).type = type := by
  unfold NetworkDevice.transmit
  cases dev.ops with
  | loopbackTransmit => rfl
  | etherTransmit => simp only [Transmission.type, ofBytes_etherFrame, ntoh16_hton16]

namespace Host

structure Sent (h h' : Host) (ts : List Transmission) : Prop where
  devices : h'.devices = h.devices
  ipProtocols : h'.ipProtocols = h.ipProtocols
  sent : h'.sent = h.sent ++ ts

namespace Sent

variable {h h' h'' : Host} {ts ts' : List Transmission}

theorem refl (h : Host) : Sent h h [] := ⟨rfl, rfl, by simp⟩

theorem trans (h₁ : Sent h h' ts) (h₂ : Sent h' h'' ts') : Sent h h'' (ts ++ ts') :=
  ⟨h₂.devices.trans h₁.devices, h₂.ipProtocols.trans h₁.ipProtocols,
    by rw [h₂.sent, h₁.sent, List.append_assoc]⟩

theorem inputs (hs : Sent h h' ts) : h.inputs h' = ts.filterMap Transmission.input := by
  rw [Host.inputs, hs.sent, List.drop_left]

end Sent

theorem transmit_sent (env : Env) (h : Host) (t : Option Transmission) :
    Sent h (h.transmit env t).1 t.toList := by
  cases t with
  | none => exact .refl h
  | some t => cases t <;> exact ⟨rfl, rfl, rfl⟩

/-! ## How the next hop is addressed -/

/-- A broadcast address, as `ip_output_device` tests for it. -/
def IsBroadcast (iface : IpInterface) (addr : IPAddress) : Prop :=
  addr = iface.broadcast ∨ addr = ipAddrBroadcast

instance (iface : IpInterface) (addr : IPAddress) : Decidable (IsBroadcast iface addr) :=
  inferInstanceAs (Decidable (_ ∨ _))

structure AwaitsArp (caches : Caches) (iface : IpInterface) (dev : NetworkDevice)
    (nexthop : IPAddress) : Prop where
  needArp : dev.needArp = true
  type : dev.type = networkDeviceTypeEthernet
  family : iface.family = networkInterfaceFamilyIp
  unicast : ¬ IsBroadcast iface nexthop
  unresolved : ∀ i, arpCacheSelect caches nexthop = some i → (caches i).state = .stateIncomplete

structure Unsupported (iface : IpInterface) (dev : NetworkDevice) (nexthop : IPAddress) :
    Prop where
  needArp : dev.needArp = true
  unicast : ¬ IsBroadcast iface nexthop
  unsupported : dev.type ≠ networkDeviceTypeEthernet ∨ iface.family ≠ networkInterfaceFamilyIp

theorem link_cases (caches : Caches) (iface : IpInterface) (dev : NetworkDevice)
    (nexthop : IPAddress) :
    (∃ ha, LinkDst caches iface dev nexthop ha) ∨ AwaitsArp caches iface dev nexthop ∨
      Unsupported iface dev nexthop := by
  cases harp : dev.needArp with
  | false => exact .inl ⟨_, .unaddressed harp⟩
  | true =>
    by_cases hb : IsBroadcast iface nexthop
    · exact .inl ⟨_, .broadcast harp hb⟩
    · by_cases hsup : dev.type = networkDeviceTypeEthernet ∧
          iface.family = networkInterfaceFamilyIp
      · obtain ⟨htype, hfam⟩ := hsup
        by_cases hres : ∃ i, arpCacheSelect caches nexthop = some i ∧
            (caches i).state ≠ .stateIncomplete
        · obtain ⟨i, hi, hst⟩ := hres
          exact .inl ⟨_, .resolved harp htype hfam (fun he => hb (.inl he))
            (fun he => hb (.inr he)) hi hst⟩
        · refine .inr (.inl ⟨harp, htype, hfam, hb, fun i hi => ?_⟩)
          by_contra hst
          exact hres ⟨i, hi, hst⟩
      · exact .inr (.inr ⟨harp, hb, not_and_or.mp hsup⟩)

theorem LinkDst.not_awaits {caches : Caches} {iface : IpInterface} {dev : NetworkDevice}
    {nexthop : IPAddress} {ha : EtherAddr} (h : LinkDst caches iface dev nexthop ha) :
    ¬ AwaitsArp caches iface dev nexthop := by
  intro hn
  cases h with
  | resolved _ _ _ _ _ hi hst => exact hst (hn.unresolved _ hi)
  | broadcast _ hb => exact hn.unicast hb
  | unaddressed harp =>
    have htrue := hn.needArp
    rw [harp] at htrue
    cases htrue

theorem ipOutputDevice_awaits (env : Env) {h : Host} {iface : IpInterface} {dev : NetworkDevice}
    {nexthop : IPAddress} (data : Bytes) (hdev : h.device iface.dev = some dev)
    (ha : AwaitsArp h.caches iface dev nexthop) :
    ∃ h', h.ipOutputDevice env iface data nexthop = (h', 0) ∧
      Sent h h' (arpRequest iface dev nexthop).toList := by
  have hb : ¬ (nexthop = iface.broadcast ∨ nexthop = ipAddrBroadcast) := ha.unicast
  obtain ⟨caches, hres⟩ := arpResolve_unresolved ha.type ha.family ha.unresolved (env.now h.clock)
  refine ⟨({ h with caches := caches, clock := h.clock + 1 }.transmit env
    (arpRequest iface dev nexthop)).1, ?_, ?_⟩
  · simp only [ipOutputDevice, hdev, ha.needArp, if_true, hb, if_false, arpResolve, hres]
  · have hs := transmit_sent env { h with caches := caches, clock := h.clock + 1 }
      (arpRequest iface dev nexthop)
    exact ⟨hs.devices, hs.ipProtocols, hs.sent⟩

theorem ipOutputDevice_unsupported (env : Env) {h : Host} {iface : IpInterface}
    {dev : NetworkDevice} {nexthop : IPAddress} (data : Bytes)
    (hdev : h.device iface.dev = some dev) (hu : Unsupported iface dev nexthop) :
    ∃ h', h.ipOutputDevice env iface data nexthop = (h', -1) ∧ Sent h h' [] := by
  have hb : ¬ (nexthop = iface.broadcast ∨ nexthop = ipAddrBroadcast) := hu.unicast
  refine ⟨{ h with clock := h.clock + 1 }, ?_, rfl, rfl, by simp⟩
  simp only [ipOutputDevice, hdev, hu.needArp, if_true, hb, if_false, arpResolve,
    arpResolve_unsupported hu.unsupported, transmit]

/-! ## How a call ends -/

def packet (h : Host) (protocol : Byte) (data : Bytes) (dst : IPAddress) (route : IpRoute) :
    Bytes :=
  ipPacket protocol data route.iface.unicast dst h.id 0

/-- The call gets as far as an address resolution that is not done. -/
def DropsUnresolved (h : Host) (len : Nat) (src dst : IPAddress) : Prop :=
  ∃ route dev, h.Routed len src dst route dev ∧
    AwaitsArp h.caches route.iface dev (route.nexthopTo dst)

theorem Routed.unique {h : Host} {len : Nat} {src dst : IPAddress} {r₁ r₂ : IpRoute}
    {d₁ d₂ : NetworkDevice} (h₁ : h.Routed len src dst r₁ d₁) (h₂ : h.Routed len src dst r₂ d₂) :
    r₁ = r₂ ∧ d₁ = d₂ := by
  have hr : r₁ = r₂ := Option.some.inj (h₁.routed.symm.trans h₂.routed)
  subst hr
  exact ⟨rfl, Option.some.inj (h₁.device.symm.trans h₂.device)⟩

theorem Routed.drops_iff {h : Host} {len : Nat} {src dst : IPAddress} {route : IpRoute}
    {dev : NetworkDevice} (hr : h.Routed len src dst route dev) :
    h.DropsUnresolved len src dst ↔
      AwaitsArp h.caches route.iface dev (route.nexthopTo dst) := by
  constructor
  · rintro ⟨route', dev', hr', hawaits⟩
    obtain ⟨rfl, rfl⟩ := hr.unique hr'
    exact hawaits
  · exact fun hawaits => ⟨route, dev, hr, hawaits⟩

inductive SendTrans (env : Env) (h : Host) (protocol : Byte) (data : Bytes)
    (src dst : IPAddress) : Host → Int → Prop where
  | refused {h' : Host} : ¬ h.DropsUnresolved data.length src dst → Sent h h' [] →
      SendTrans env h protocol data src dst h' (-1)
  | transmitted {route : IpRoute} {dev : NetworkDevice} {ha : EtherAddr} {h' : Host}
      {t : Transmission} : h.Routed data.length src dst route dev →
      LinkDst h.caches route.iface dev (route.nexthopTo dst) ha →
      t = dev.transmit networkProtocolTypeIp (h.packet protocol data dst route) ha →
      Sent h h' [t] →
      SendTrans env h protocol data src dst h'
        (if t.succeeds env h.sent.length then data.length else -1)
  | awaits {route : IpRoute} {dev : NetworkDevice} {h' : Host} :
      h.Routed data.length src dst route dev →
      AwaitsArp h.caches route.iface dev (route.nexthopTo dst) →
      Sent h h' (arpRequest route.iface dev (route.nexthopTo dst)).toList →
      SendTrans env h protocol data src dst h' data.length

theorem transmit_ret (env : Env) (h : Host) (t : Transmission) :
    (h.transmit env (some t)).2 = if t.succeeds env h.sent.length then 0 else -1 := by
  cases t <;> rfl

theorem send_trans_link (env : Env) {h : Host} (protocol : Byte) {data : Bytes}
    {src dst : IPAddress} {route : IpRoute} {dev : NetworkDevice} {ha : EtherAddr}
    (hr : h.Routed data.length src dst route dev)
    (hlink : LinkDst h.caches route.iface dev (route.nexthopTo dst) ha) :
    SendTrans env h protocol data src dst (h.ipSendPacket env protocol data src dst).1
      (h.ipSendPacket env protocol data src dst).2 := by
  obtain ⟨h', ret, hout, hsend⟩ := ipSendPacket_routed env protocol hr
  obtain ⟨clock, hl⟩ := ipOutputDevice_link env (h := { h with id := h.id + 1 })
    (ipPacket protocol data route.iface.unicast dst h.id 0) hr.device hlink
  rw [hsend]
  rw [hout] at hl
  cases ho : networkDeviceOutput dev networkProtocolTypeIp
      (ipPacket protocol data route.iface.unicast dst h.id 0) ha with
  | none =>
    rw [ho] at hl
    cases hl
    exact .refused (fun hd => hlink.not_awaits (hr.drops_iff.mp hd)) ⟨rfl, rfl, by simp⟩
  | some t =>
    rw [ho] at hl
    obtain ⟨-, -, ht⟩ := networkDeviceOutput_some ho
    have hret : ret = if t.succeeds env h.sent.length then 0 else -1 :=
      (congrArg Prod.snd hl).trans (transmit_ret env _ t)
    have hs := transmit_sent env { h with id := h.id + 1, clock := clock } (some t)
    rw [← hl] at hs
    have hresult : (if ret = -1 then -1 else (data.length : Int)) =
        if t.succeeds env h.sent.length then (data.length : Int) else -1 := by
      rw [hret]
      cases t.succeeds env h.sent.length <;> rfl
    rw [hresult]
    exact .transmitted hr hlink ht ⟨hs.devices, hs.ipProtocols, hs.sent⟩

theorem send_trans (env : Env) (h : Host) (protocol : Byte) (data : Bytes)
    (src dst : IPAddress) :
    SendTrans env h protocol data src dst (h.ipSendPacket env protocol data src dst).1
      (h.ipSendPacket env protocol data src dst).2 := by
  by_cases hr : ∃ route dev, h.Routed data.length src dst route dev
  · obtain ⟨route, dev, hr⟩ := hr
    obtain ⟨h', ret, hout, hsend⟩ := ipSendPacket_routed env protocol hr
    have hdev : { h with id := h.id + 1 }.device route.iface.dev = some dev := hr.device
    rcases link_cases h.caches route.iface dev (route.nexthopTo dst) with
      ⟨ha, hlink⟩ | hawaits | hunsup
    · exact send_trans_link env protocol hr hlink
    · obtain ⟨h'', heq, hs⟩ := ipOutputDevice_awaits env
        (ipPacket protocol data route.iface.unicast dst h.id 0) hdev hawaits
      rw [hout] at heq
      cases heq
      rw [hsend]
      exact .awaits hr hawaits ⟨hs.devices, hs.ipProtocols, hs.sent⟩
    · obtain ⟨h'', heq, hs⟩ := ipOutputDevice_unsupported env
        (ipPacket protocol data route.iface.unicast dst h.id 0) hdev hunsup
      rw [hout] at heq
      cases heq
      rw [hsend]
      refine .refused (fun hd => ?_) ⟨hs.devices, hs.ipProtocols, hs.sent⟩
      have hawaits := hr.drops_iff.mp hd
      exact hunsup.unsupported.elim (fun ht => ht hawaits.type) fun hf => hf hawaits.family
  · rw [ipSendPacket_unrouted env protocol fun route dev hr' => hr ⟨route, dev, hr'⟩]
    refine .refused ?_ (.refl h)
    rintro ⟨route, dev, hr', -⟩
    exact hr ⟨route, dev, hr'⟩

/-! ## What the result says -/

/-- The packets given to devices on the way from `h` to `h'`. -/
def ipFrames (h h' : Host) : List Transmission :=
  (h'.sent.drop h.sent.length).filter (·.type = networkProtocolTypeIp)

/-- A call that ends in `h'` with `ret` tells whether the packet was transmitted: if `ret` is not
negative, the device of the route was given exactly this packet, once; if it is -1, no packet was
given to a device successfully. -/
structure SendReported (env : Env) (h : Host) (protocol : Byte) (data : Bytes) (dst : IPAddress)
    (h' : Host) (ret : Int) : Prop where
  success : 0 ≤ ret → ∃ route dev ha, ipRouteLookup h.routes dst = some route ∧
    h.device route.iface.dev = some dev ∧
    h.ipFrames h' = [dev.transmit networkProtocolTypeIp (h.packet protocol data dst route) ha]
  failure : ret = -1 → ∀ n t, h.sent.length ≤ n → h'.sent[n]? = some t →
    t.type = networkProtocolTypeIp → t.succeeds env n = false

theorem Sent.ipFrames {h h' : Host} {ts : List Transmission} (hs : Sent h h' ts) :
    h.ipFrames h' = ts.filter (·.type = networkProtocolTypeIp) := by
  rw [Host.ipFrames, hs.sent, List.drop_left]

theorem ipFrames_transmit {h h' : Host} {dev : NetworkDevice} {data : Bytes} {ha : EtherAddr}
    (hs : Sent h h' [dev.transmit networkProtocolTypeIp data ha]) :
    h.ipFrames h' = [dev.transmit networkProtocolTypeIp data ha] := by
  rw [hs.ipFrames]
  simp [type_transmit]

theorem ipFrames_arpRequest {h h' : Host} {iface : IpInterface} {dev : NetworkDevice}
    {pa : IPAddress} (hs : Sent h h' (arpRequest iface dev pa).toList) :
    h.ipFrames h' = [] := by
  rw [hs.ipFrames]
  cases hreq : arpRequest iface dev pa with
  | none => rfl
  | some t =>
    obtain ⟨-, -, rfl⟩ := networkDeviceOutput_some hreq
    have htype : etherTypeArp ≠ networkProtocolTypeIp := by decide
    simp [type_transmit, htype]

/-- **Reported sends.** The result of `ip_send_packet` tells whether the packet was transmitted,
exactly if the call does not end with an unfinished address resolution. -/
theorem send_reported_iff (env : Env) (h : Host) (protocol : Byte) (data : Bytes)
    (src dst : IPAddress) :
    SendReported env h protocol data dst (h.ipSendPacket env protocol data src dst).1
        (h.ipSendPacket env protocol data src dst).2 ↔
      ¬ h.DropsUnresolved data.length src dst := by
  have htrans := send_trans env h protocol data src dst
  generalize (h.ipSendPacket env protocol data src dst).1 = h' at htrans ⊢
  generalize (h.ipSendPacket env protocol data src dst).2 = ret at htrans ⊢
  cases htrans with
  | refused hn hs =>
    refine iff_of_true ⟨fun hpos => by omega, fun _ n t hlen ht => ?_⟩ hn
    rw [hs.sent, List.append_nil, List.getElem?_eq_none hlen] at ht
    cases ht
  | @transmitted route dev ha _ t hr hlink ht hs =>
    refine iff_of_true ⟨fun _ => ⟨route, dev, ha, hr.routed, hr.device, ?_⟩, ?_⟩
      fun hd => hlink.not_awaits (hr.drops_iff.mp hd)
    · exact ipFrames_transmit (ht ▸ hs)
    · intro hret n t' hlen hn _
      -- the one new transmission is the last, and its write failed
      rw [hs.sent, List.getElem?_append_right hlen, List.getElem?_singleton] at hn
      split at hn
      · rename_i hzero
        cases hn
        have hlast : n = h.sent.length := by omega
        rw [hlast]
        by_contra hok
        rw [Bool.not_eq_false] at hok
        rw [hok, if_pos rfl] at hret
        omega
      · cases hn
  | @awaits route dev _ hr hawaits hs =>
    refine iff_of_false ?_ fun hn => hn (hr.drops_iff.mpr hawaits)
    intro hreport
    obtain ⟨_, _, _, -, -, hframes⟩ := hreport.success (by omega)
    rw [ipFrames_arpRequest hs] at hframes
    cases hframes

end Host

/-- A byte for 10.0.0.3, which is not in the cache: the call returns 1, and all that was sent is
the request for the address. -/
theorem unresolved_reported :
    let h := (lanStack 1 2 0).host
    let (h', ret) := h.ipSendPacket quietEnv udpProtocol [0x61] 0x0100000a#32 0x0300000a#32
    ret = 1 ∧ h.ipFrames h' = [] ∧ h'.sent.map Transmission.type = [networkProtocolTypeArp] := by
  decide +kernel

namespace Host

/-! ## Where the frame goes -/

def CachedAs (caches : Caches) (pa : IPAddress) (ha : EtherAddr) : Prop :=
  ∃ i, arpCacheSelect caches pa = some i ∧ (caches i).state ≠ .stateIncomplete ∧
    (caches i).ha = ha

theorem CachedAs.unique {caches : Caches} {pa : IPAddress} {ha ha' : EtherAddr}
    (h : CachedAs caches pa ha) (h' : CachedAs caches pa ha') : ha = ha' := by
  obtain ⟨i, hi, -, rfl⟩ := h
  obtain ⟨j, hj, -, rfl⟩ := h'
  rw [Option.some.inj (hi.symm.trans hj)]

/-- `ha` is the hardware address for a packet to `dst` by way of `nexthop`: the broadcast address
if `dst` is a broadcast address, and otherwise the one cached for the next hop. -/
structure LinkAddressed (caches : Caches) (iface : IpInterface) (dev : NetworkDevice)
    (dst nexthop : IPAddress) (ha : EtherAddr) : Prop where
  broadcast : IsBroadcast iface dst → ha = dev.broadcast
  unicast : ¬ IsBroadcast iface dst → CachedAs caches nexthop ha

theorem LinkDst.cases_needArp {caches : Caches} {iface : IpInterface} {dev : NetworkDevice}
    {nexthop : IPAddress} {ha : EtherAddr} (harp : dev.needArp = true)
    (h : LinkDst caches iface dev nexthop ha) :
    (IsBroadcast iface nexthop ∧ ha = dev.broadcast) ∨
      (¬ IsBroadcast iface nexthop ∧ CachedAs caches nexthop ha) := by
  cases h with
  | resolved _ _ _ hb hb' hi hst => exact .inr ⟨not_or.mpr ⟨hb, hb'⟩, _, hi, hst, rfl⟩
  | broadcast _ hb => exact .inl ⟨hb, rfl⟩
  | unaddressed hno =>
    rw [harp] at hno
    cases hno

theorem LinkDst.linkAddressed_iff {caches : Caches} {iface : IpInterface} {dev : NetworkDevice}
    {nexthop : IPAddress} {ha : EtherAddr} (harp : dev.needArp = true)
    (h : LinkDst caches iface dev nexthop ha) (dst : IPAddress) :
    LinkAddressed caches iface dev dst nexthop ha ↔
      (IsBroadcast iface dst ↔ IsBroadcast iface nexthop) ∨
        CachedAs caches nexthop dev.broadcast := by
  by_cases hd : IsBroadcast iface dst
  · have hspec : LinkAddressed caches iface dev dst nexthop ha ↔ ha = dev.broadcast :=
      ⟨fun hl => hl.broadcast hd, fun he => ⟨fun _ => he, fun hn => absurd hd hn⟩⟩
    rw [hspec]
    rcases h.cases_needArp harp with ⟨hb, rfl⟩ | ⟨hb, hc⟩
    · simp [hd, hb]
    · simp only [hd, hb, iff_false, not_true_eq_false, false_or]
      exact ⟨fun he => he ▸ hc, fun hc' => hc.unique hc'⟩
  · have hspec : LinkAddressed caches iface dev dst nexthop ha ↔ CachedAs caches nexthop ha :=
      ⟨fun hl => hl.unicast hd, fun hc => ⟨fun hb => absurd hb hd, fun _ => hc⟩⟩
    rw [hspec]
    rcases h.cases_needArp harp with ⟨hb, rfl⟩ | ⟨hb, hc⟩
    · simp [hd, hb]
    · simp [hd, hb, hc]

theorem send_frame {env : Env} {h : Host} {protocol : Byte} {data : Bytes} {src dst : IPAddress}
    {n : Nat} {frame : Bytes}
    (hf : .wire n frame ∈ h.ipFrames (h.ipSendPacket env protocol data src dst).1) :
    ∃ route dev, h.Routed data.length src dst route dev ∧
      LinkDst h.caches route.iface dev (route.nexthopTo dst) (EtherHdr.ofBytes frame).dst := by
  have htrans := send_trans env h protocol data src dst
  generalize (h.ipSendPacket env protocol data src dst).1 = h' at htrans hf
  generalize (h.ipSendPacket env protocol data src dst).2 = ret at htrans
  cases htrans with
  | refused _ hs => simp [hs.ipFrames] at hf
  | @transmitted route dev ha _ t hr hlink ht hs =>
    rw [ipFrames_transmit (ht ▸ hs), List.mem_singleton, NetworkDevice.transmit] at hf
    cases hops : dev.ops with
    | loopbackTransmit =>
      rw [hops] at hf
      cases hf
    | etherTransmit =>
      rw [hops] at hf
      cases hf
      rw [ofBytes_etherFrame]
      exact ⟨route, dev, hr, hlink⟩
  | awaits _ _ hs => simp [ipFrames_arpRequest hs] at hf

/-- **Link-layer destination.** With any routes and any cache, the frame that `ip_send_packet` sends
on a device with address resolution has the hardware address for its destination, exactly if the
next hop is a broadcast address when the destination is one and only then (or happens to be cached
with the broadcast address). -/
theorem send_linkAddressed_iff (env : Env) {h : Host} (protocol : Byte) {data : Bytes}
    {src dst : IPAddress} {route : IpRoute} {dev : NetworkDevice} {n : Nat} {frame : Bytes}
    (hroute : ipRouteLookup h.routes dst = some route)
    (hdev : h.device route.iface.dev = some dev) (harp : dev.needArp = true)
    (hf : .wire n frame ∈ h.ipFrames (h.ipSendPacket env protocol data src dst).1) :
    LinkAddressed h.caches route.iface dev dst (route.nexthopTo dst)
        (EtherHdr.ofBytes frame).dst ↔
      (IsBroadcast route.iface dst ↔ IsBroadcast route.iface (route.nexthopTo dst)) ∨
        CachedAs h.caches (route.nexthopTo dst) dev.broadcast := by
  obtain ⟨route', dev', hr, hlink⟩ := send_frame hf
  obtain rfl : route' = route := Option.some.inj (hr.routed.symm.trans hroute)
  obtain rfl : dev' = dev := Option.some.inj (hr.device.symm.trans hdev)
  exact hlink.linkAddressed_iff harp dst

end Host

def gatewayRoutes : List RouteAction :=
  [.registerInterface true 0
      ⟨networkInterfaceFamilyIp, 0, 0x0100000a#32, 0x00ffffff#32, 0xff00000a#32⟩,
    .setDefaultGateway true
      ⟨networkInterfaceFamilyIp, 0, 0x0100000a#32, 0x00ffffff#32, 0xff00000a#32⟩
      (some 0x0200000a#32)]

def lanHost (routes : List IpRoute) : Host := { (lanStack 1 2 0).host with routes := routes }

/-- A broadcast to 255.255.255.255 takes the default route, and its frame goes to the gateway
alone. -/
theorem gatewayBroadcast_misaddressed : ∃ tr s,
    Run (stepRel RouteSys.step) (RouteSys.init twoDevices) tr s ∧
      tr.map Prod.fst = gatewayRoutes ∧
      ∃ h route dev frame, h = lanHost s.tables.routes ∧
        ipRouteLookup h.routes ipAddrBroadcast = some route ∧
        h.device route.iface.dev = some dev ∧ dev.needArp = true ∧
        (h.ipSendPacket quietEnv udpProtocol [0x61] 0x0100000a#32 ipAddrBroadcast).1.sent =
          [.wire 0 frame] ∧
        (EtherHdr.ofBytes frame).dst = .ofBytes 2 0 0 0 0 2 ∧
        ¬ Host.LinkAddressed h.caches route.iface dev ipAddrBroadcast
          (route.nexthopTo ipAddrBroadcast) (EtherHdr.ofBytes frame).dst := by
  obtain ⟨tr, s, hrun, hmap, hcheck⟩ := exec_check RouteSys.step (RouteSys.init twoDevices)
    gatewayRoutes (fun r => decide (r.2.tables.routes =
      [⟨ipAddrAny, ipAddrAny, 0x0200000a#32,
          ⟨networkInterfaceFamilyIp, 0, 0x0100000a#32, 0x00ffffff#32, 0xff00000a#32⟩⟩,
        ⟨0x0000000a#32, 0x00ffffff#32, ipAddrAny,
          ⟨networkInterfaceFamilyIp, 0, 0x0100000a#32, 0x00ffffff#32, 0xff00000a#32⟩⟩]))
    (by decide +kernel)
  have hdst := ofBytes_etherFrame (.ofBytes 2 0 0 0 0 1) networkProtocolTypeIp
    (ipPacket udpProtocol [0x61] 0x0100000a#32 ipAddrBroadcast 128 0) (.ofBytes 2 0 0 0 0 2)
  refine ⟨tr, s, hrun, hmap, _, _, _, _, congrArg lanHost (of_decide_eq_true hcheck).symm, rfl, rfl,
    by decide, by decide +kernel, congrArg EtherHdr.dst hdst, ?_⟩
  rw [hdst]
  exact fun hl => absurd (hl.broadcast (.inr rfl)) (by decide)

/-- A byte for 10.0.0.2, on the connected route. -/
theorem neighbour_linkAddressed : ∃ route dev frame,
    ipRouteLookup (lanStack 1 2 0).host.routes 0x0200000a#32 = some route ∧
    (lanStack 1 2 0).host.device route.iface.dev = some dev ∧
    .wire 0 frame ∈ (lanStack 1 2 0).host.ipFrames ((lanStack 1 2 0).host.ipSendPacket quietEnv
      udpProtocol [0x61] 0x0100000a#32 0x0200000a#32).1 ∧
    Host.LinkAddressed (lanStack 1 2 0).host.caches route.iface dev 0x0200000a#32
      (route.nexthopTo 0x0200000a#32) (EtherHdr.ofBytes frame).dst := by
  have hf : .wire 0 (etherFrame (.ofBytes 2 0 0 0 0 1) networkProtocolTypeIp
      (ipPacket udpProtocol [0x61] 0x0100000a#32 0x0200000a#32 128 0) (.ofBytes 2 0 0 0 0 2)) ∈
        (lanStack 1 2 0).host.ipFrames ((lanStack 1 2 0).host.ipSendPacket quietEnv udpProtocol
          [0x61] 0x0100000a#32 0x0200000a#32).1 := by
    decide +kernel
  exact ⟨_, _, _, rfl, rfl, hf, (Host.send_linkAddressed_iff quietEnv udpProtocol rfl rfl
    (by decide) hf).mpr (.inl Iff.rfl)⟩

end LLNStack
