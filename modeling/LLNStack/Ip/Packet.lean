import LLNStack.Lib.Keyed
import LLNStack.Net.Device

/-!
# LLNStack.Ip.Packet

The IP header, the packet `ip_output_core` builds (`ipPacket`) and the checks of `ip_input`
(`ipCheck`), with the call of the protocol handler that follows them (`ipInput`).

`ip_roundtrip`: a packet that was built for this interface, with any bytes behind it, is handed to
its protocol with the payload and the addresses it was built from.
-/

namespace LLNStack

open Lib

/-- `struct ip_hdr` without options; the 16-bit fields as they are in memory. -/
structure IpHdr where
  vhl : Byte
  tos : Byte
  total : BitVec 16
  id : BitVec 16
  offset : BitVec 16
  ttl : Byte
  protocol : Byte
  sum : BitVec 16
  src : IPAddress
  dst : IPAddress
  deriving DecidableEq, Repr

namespace IpHdr

def toBytes (hdr : IpHdr) : Bytes :=
  [hdr.vhl, hdr.tos] ++ (Endian.little.store16 hdr.total ++ (Endian.little.store16 hdr.id ++
    (Endian.little.store16 hdr.offset ++ ([hdr.ttl, hdr.protocol] ++
      (Endian.little.store16 hdr.sum ++ (Endian.little.store32 hdr.src ++
        Endian.little.store32 hdr.dst))))))

def ofBytes (data : Bytes) : IpHdr where
  vhl := data.getD 0 0
  tos := data.getD 1 0
  total := Endian.little.read16 data 2
  id := Endian.little.read16 data 4
  offset := Endian.little.read16 data 6
  ttl := data.getD 8 0
  protocol := data.getD 9 0
  sum := Endian.little.read16 data 10
  src := Endian.little.read32 data 12
  dst := Endian.little.read32 data 16

def hlen (hdr : IpHdr) : Nat := (hdr.vhl &&& 0x0f#8).toNat <<< 2

@[simp] theorem length_toBytes (hdr : IpHdr) : hdr.toBytes.length = 20 := by
  simp [toBytes]

theorem ofBytes_toBytes (hdr : IpHdr) (rest : Bytes) : ofBytes (hdr.toBytes ++ rest) = hdr := by
  obtain ⟨vhl, tos, total, id, offset, ttl, protocol, sum, src, dst⟩ := hdr
  obtain ⟨a0, a1, ha, ha'⟩ := Endian.little.exists_store16 total
  obtain ⟨b0, b1, hb, hb'⟩ := Endian.little.exists_store16 id
  obtain ⟨c0, c1, hc, hc'⟩ := Endian.little.exists_store16 offset
  obtain ⟨d0, d1, hd, hd'⟩ := Endian.little.exists_store16 sum
  obtain ⟨s0, s1, s2, s3, hs, hs'⟩ := Endian.little.exists_store32 src
  obtain ⟨t0, t1, t2, t3, ht, ht'⟩ := Endian.little.exists_store32 dst
  simp only [toBytes, ha, hb, hc, hd, hs, ht]
  rw [← ha', ← hb', ← hc', ← hd', ← hs', ← ht']
  rfl

theorem wordSum_sum (hdr : IpHdr) (v : BitVec 16) :
    wordSum .little { hdr with sum := v }.toBytes =
      wordSum .little { hdr with sum := 0#16 }.toBytes + v.toNat := by
  simp (disch := simp) only [toBytes, wordSum_append, wordSum_store16]
  simp only [BitVec.toNat_ofNat, Nat.zero_mod]
  omega

end IpHdr

/-! ## Sending -/

/-- The header `ip_output_core` fills in, before the checksum. -/
def ipOutputHdr (protocol : Byte) (total : BitVec 16) (src dst : IPAddress)
    (id offset : BitVec 16) : IpHdr where
  vhl := ipv4 <<< 4 ||| BitVec.ofNat 8 (minIpHeaderSize >>> 2)
  tos := 0
  total := hton16 .little total
  id := hton16 .little id
  offset := hton16 .little offset
  ttl := 0xff
  protocol := protocol
  sum := 0#16
  src := src
  dst := dst

theorem vhl_ipOutputHdr (protocol : Byte) (total : BitVec 16) (src dst : IPAddress)
    (id offset : BitVec 16) : (ipOutputHdr protocol total src dst id offset).vhl = 0x45#8 := by
  show ipv4 <<< 4 ||| BitVec.ofNat 8 (minIpHeaderSize >>> 2) = 0x45#8
  decide

theorem IpHdr.hlen_of_vhl {hdr : IpHdr} (h : hdr.vhl = 0x45#8) : hdr.hlen = 20 := by
  rw [hlen, h]
  decide

/-- The bytes `ip_output_core` gives to `ip_output_device`. `total` is a 16-bit variable. -/
def ipPacket (protocol : Byte) (data : Bytes) (src dst : IPAddress) (id offset : BitVec 16) :
    Bytes :=
  let total := BitVec.ofNat 16 (minIpHeaderSize + data.length)
  let hdr := ipOutputHdr protocol total src dst id offset
  let sum := cksum16 .little hdr.toBytes (BitVec.ofNat 16 minIpHeaderSize) 0
  ({ hdr with sum := sum }.toBytes ++ data).take total.toNat

/-! ## Receiving -/

/-- The checks of `ip_input` on an interface, up to the search for the protocol. -/
def ipCheck (iface : IpInterface) (data : Bytes) : Option IpHdr :=
  let hdr := IpHdr.ofBytes data
  let offset := ntoh16 .little hdr.offset
  if data.length < minIpHeaderSize then none
  else if hdr.vhl >>> 4 ≠ ipv4 ∨ data.length < hdr.hlen ∨
      data.length < (ntoh16 .little hdr.total).toNat ∨
      cksum16 .little data (BitVec.ofNat 16 hdr.hlen) 0 ≠ 0#16 then none
  else if offset &&& 0x2000#16 ≠ 0#16 ∨ offset &&& 0x1fff#16 ≠ 0#16 ∨
      (hdr.dst ≠ iface.unicast ∧ hdr.dst ≠ iface.broadcast ∧ hdr.dst ≠ ipAddrBroadcast) then none
  else some hdr

structure IpProtocol (η : Type) where
  type : Byte
  handler : η
  deriving DecidableEq

def ipRegisterProtocol {η : Type} (alloc : Bool) (protocols : List (IpProtocol η)) (type : Byte)
    (handler : η) : List (IpProtocol η) × Int :=
  if protocols.any (·.type = type) then (protocols, -1)
  else if alloc then (⟨type, handler⟩ :: protocols, 0) else (protocols, -1)

/-- The list after these calls of `ip_register_protocol`, each with whether memory is allocated. -/
def ipRegisterProtocols {η : Type} (calls : List (Bool × IpProtocol η)) : List (IpProtocol η) :=
  calls.foldl (fun protocols call =>
    (ipRegisterProtocol call.1 protocols call.2.type call.2.handler).1) []

/-- The call of a protocol handler: `data` is the memory from the pointer on, as far as it was
received, and `len` the `size_t` argument. -/
structure IpDelivery (η : Type) where
  handler : η
  data : Bytes
  len : BitVec 64
  src : IPAddress
  dst : IPAddress
  iface : IpInterface

/-- `total - hlen` is computed as an `int` and converted to `size_t`. -/
def ipInput {η : Type} (protocols : List (IpProtocol η)) (dev : NetworkDevice) (data : Bytes) :
    Option (IpDelivery η) :=
  match networkDeviceGetInterface dev networkInterfaceFamilyIp with
  | none => none
  | some iface =>
    match ipCheck iface data with
    | none => none
    | some hdr =>
      match protocols.find? (·.type = hdr.protocol) with
      | none => none
      | some proto =>
        some ⟨proto.handler, data.drop hdr.hlen,
          BitVec.ofInt 64 ((ntoh16 .little hdr.total).toNat - hdr.hlen), hdr.src, hdr.dst, iface⟩

/-! ## Sent packets are received -/

theorem ipPacket_eq (protocol : Byte) {data : Bytes} (src dst : IPAddress) (id offset : BitVec 16)
    (hlen : data.length ≤ 65515) :
    ∃ hdr sum, hdr = { ipOutputHdr protocol (BitVec.ofNat 16 (20 + data.length)) src dst id offset
        with sum := sum } ∧
      ipPacket protocol data src dst id offset = hdr.toBytes ++ data ∧
      cksum16 .little hdr.toBytes 20 0 = 0#16 := by
  set hdr := ipOutputHdr protocol (BitVec.ofNat 16 (20 + data.length)) src dst id offset with hhdr
  refine ⟨_, cksum16 .little hdr.toBytes 20 0, rfl, ?_, ?_⟩
  · refine List.take_of_length_le ?_
    simp only [List.length_append, IpHdr.length_toBytes, BitVec.toNat_ofNat, minIpHeaderSize]
    omega
  · refine cksum16_verify hdr.toBytes (by simp) (by simp) (by decide) ?_
    rw [IpHdr.wordSum_sum]
    rfl

theorem length_ipPacket (protocol : Byte) {data : Bytes} (src dst : IPAddress)
    (id offset : BitVec 16) (hlen : data.length ≤ 65515) :
    (ipPacket protocol data src dst id offset).length = 20 + data.length := by
  obtain ⟨hdr, sum, -, hp, -⟩ := ipPacket_eq protocol src dst id offset hlen
  simp [hp]

/-- The destinations an interface takes packets for. -/
def IpInterface.Accepts (iface : IpInterface) (dst : IPAddress) : Prop :=
  dst = iface.unicast ∨ dst = iface.broadcast ∨ dst = ipAddrBroadcast

theorem ipCheck_ipPacket {iface : IpInterface} (protocol : Byte) {data : Bytes}
    (src : IPAddress) {dst : IPAddress} (id : BitVec 16) (hlen : data.length ≤ 65515)
    (hdst : iface.Accepts dst) (rest : Bytes) :
    ∃ hdr, ipCheck iface (ipPacket protocol data src dst id 0 ++ rest) = some hdr ∧
      hdr.hlen = 20 ∧ (ntoh16 .little hdr.total).toNat = 20 + data.length ∧
      hdr.protocol = protocol ∧ hdr.src = src ∧ hdr.dst = dst := by
  obtain ⟨hdr, sum, hhdr, hp, hck⟩ := ipPacket_eq protocol src dst id 0 hlen
  have hof : IpHdr.ofBytes (ipPacket protocol data src dst id 0 ++ rest) = hdr := by
    rw [hp, List.append_assoc, IpHdr.ofBytes_toBytes]
  have hcksum : cksum16 .little (ipPacket protocol data src dst id 0 ++ rest) 20 0 = 0#16 := by
    rw [hp, List.append_assoc, cksum16_append (by simp), hck]
  have hvhl : hdr.vhl = 0x45#8 := by
    rw [hhdr]
    exact vhl_ipOutputHdr protocol (BitVec.ofNat 16 (20 + data.length)) src dst id 0
  have hl : hdr.hlen = 20 := IpHdr.hlen_of_vhl hvhl
  have htotal : (ntoh16 .little hdr.total).toNat = 20 + data.length := by
    rw [hhdr]
    simp only [ipOutputHdr, ntoh16_hton16, BitVec.toNat_ofNat]
    omega
  have hoff : ntoh16 .little hdr.offset = 0#16 := by
    rw [hhdr]
    exact ntoh16_hton16 ..
  refine ⟨hdr, ?_, hl, htotal, by rw [hhdr]; rfl, by rw [hhdr]; rfl, by rw [hhdr]; rfl⟩
  have hlong : 20 + data.length ≤ (ipPacket protocol data src dst id 0 ++ rest).length := by
    rw [List.length_append, length_ipPacket _ _ _ _ _ hlen]
    omega
  simp only [ipCheck, hof, hoff, hl, htotal, minIpHeaderSize]
  rw [if_neg (by omega), if_neg, if_neg]
  · rintro (h | h | ⟨h1, h2, h3⟩)
    · exact h (by decide)
    · exact h (by decide)
    · have : hdr.dst = dst := by rw [hhdr]; rfl
      rw [this] at h1 h2 h3
      rcases hdst with h | h | h
      · exact h1 h
      · exact h2 h
      · exact h3 h
  · rintro (h | h | h | h)
    · exact h (by rw [hvhl]; decide)
    · omega
    · omega
    · exact h hcksum

theorem ipInput_ipPacket {η : Type} {protocols : List (IpProtocol η)} {dev : NetworkDevice}
    {iface : IpInterface} (proto : IpProtocol η) {data : Bytes} (src : IPAddress)
    {dst : IPAddress} (id : BitVec 16)
    (hiface : networkDeviceGetInterface dev networkInterfaceFamilyIp = some iface)
    (hproto : protocols.find? (·.type = proto.type) = some proto)
    (hlen : data.length ≤ 65515) (hdst : iface.Accepts dst) (rest : Bytes) :
    ipInput protocols dev (ipPacket proto.type data src dst id 0 ++ rest) =
      some ⟨proto.handler, data ++ rest, BitVec.ofNat 64 data.length, src, dst, iface⟩ := by
  obtain ⟨hdr, hck, hl, htotal, hpr, hsrc, hd⟩ :=
    ipCheck_ipPacket proto.type src id hlen hdst rest
  have hdrop : (ipPacket proto.type data src dst id 0 ++ rest).drop 20 = data ++ rest := by
    obtain ⟨h, _, -, hp, -⟩ := ipPacket_eq proto.type src dst id 0 hlen
    rw [hp, List.append_assoc]
    exact List.drop_left' (by simp)
  simp only [ipInput, hiface, hck, hpr, hproto, hl, htotal, hdrop, hsrc, hd]
  have : ((20 + data.length : Nat) : Int) - (20 : Nat) = data.length := by omega
  rw [this, BitVec.ofInt_natCast]

theorem nodup_ipRegisterProtocol {η : Type} {protocols : List (IpProtocol η)}
    (h : (protocols.map (·.type)).Nodup) (alloc : Bool) (type : Byte) (handler : η) :
    ((ipRegisterProtocol alloc protocols type handler).1.map (·.type)).Nodup := by
  unfold ipRegisterProtocol
  split
  · exact h
  · rename_i hnew
    split
    · refine List.nodup_cons.mpr ⟨fun hmem => hnew ?_, h⟩
      obtain ⟨proto, hproto, htype⟩ := List.mem_map.mp hmem
      exact List.any_eq_true.mpr ⟨proto, hproto, by simpa using htype⟩
    · exact h

theorem nodup_ipRegisterProtocols {η : Type} (calls : List (Bool × IpProtocol η)) :
    ((ipRegisterProtocols calls).map (·.type)).Nodup := by
  unfold ipRegisterProtocols
  induction calls using List.reverseRecOn with
  | nil => exact List.nodup_nil
  | append_singleton calls call ih =>
    rw [List.foldl_append]
    exact nodup_ipRegisterProtocol ih _ _ _

/-- **IP round trip.** Whatever protocols are registered: the packet `ip_output_core` builds for one
of them, to an address the receiving interface takes, and with any bytes behind it, makes `ip_input`
call the handler of that protocol with the payload, the source and the destination it was built
from. -/
theorem ip_roundtrip {η : Type} (calls : List (Bool × IpProtocol η)) (proto : IpProtocol η)
    (dev : NetworkDevice) (iface : IpInterface) (data : Bytes) (src dst : IPAddress)
    (id : BitVec 16) (trailing : Bytes) (hproto : proto ∈ ipRegisterProtocols calls)
    (hiface : networkDeviceGetInterface dev networkInterfaceFamilyIp = some iface)
    (hlen : data.length ≤ maxIpPayloadSize) (hdst : iface.Accepts dst) :
    ∃ d, ipInput (ipRegisterProtocols calls) dev
        (ipPacket proto.type data src dst id 0 ++ trailing) = some d ∧
      d.handler = proto.handler ∧ d.len.toNat = data.length ∧
      d.data.take d.len.toNat = data ∧ d.src = src ∧ d.dst = dst ∧ d.iface = iface := by
  have hmax : data.length ≤ 65515 := hlen
  have hin := ipInput_ipPacket proto src id hiface
    (find_key_of_mem (nodup_ipRegisterProtocols calls) hproto) hmax hdst trailing
  have hn : (BitVec.ofNat 64 data.length).toNat = data.length := by
    rw [BitVec.toNat_ofNat]
    omega
  refine ⟨_, hin, rfl, hn, ?_, rfl, rfl, rfl⟩
  rw [hn]
  exact List.take_left' rfl

def oneInterface : NetworkDevice :=
  ⟨[⟨networkInterfaceFamilyIp, 0, 0x0100000a#32, 0x00ffffff#32, 0xff00000a#32⟩], 0, 0, 0, 0,
    etherAddrAny, etherAddrBroadcast, .etherTransmit⟩

/-- One byte for protocol 17 and the broadcast address, with a byte of padding. -/
theorem oneByte_roundtrip :
    ∃ d, ipInput (ipRegisterProtocols [(true, ⟨icmpProtocol, false⟩), (true, ⟨udpProtocol, true⟩)])
        oneInterface (ipPacket udpProtocol [0x61] 0x0200000a#32 ipAddrBroadcast 7 0 ++ [0]) =
          some d ∧
      d.handler = true ∧ d.data.take d.len.toNat = [0x61] := by
  obtain ⟨d, hd, hh, -, hdata, -⟩ := ip_roundtrip
    [(true, ⟨icmpProtocol, false⟩), (true, ⟨udpProtocol, true⟩)] ⟨udpProtocol, true⟩
    oneInterface _ [0x61] 0x0200000a#32 ipAddrBroadcast 7 [0] (by decide) rfl (by decide)
    (.inr (.inr rfl))
  exact ⟨d, hd, hh, hdata⟩

end LLNStack
