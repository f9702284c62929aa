import LLNStack.Ip.Addr

/-!
# LLNStack.Udp.Datagram

The UDP header, the pseudo header and the checksum over both. `udpDatagram` is the datagram
`udp_output` builds and `udpCheck` is what `udp_input` requires of one before it looks for a PCB.
`udpCheck_udpDatagram`: every datagram built is accepted for the same pair of addresses, whatever
bytes follow it.
-/

namespace LLNStack

open Lib

structure UdpHdr where
  src : BitVec 16
  dst : BitVec 16
  len : BitVec 16
  sum : BitVec 16
  deriving DecidableEq, Repr

def udpHdrSize : Nat := 8

namespace UdpHdr

def toBytes (hdr : UdpHdr) : Bytes :=
  Endian.little.store16 hdr.src ++ (Endian.little.store16 hdr.dst ++
    (Endian.little.store16 hdr.len ++ Endian.little.store16 hdr.sum))

def ofBytes (data : Bytes) : UdpHdr where
  src := Endian.little.read16 data 0
  dst := Endian.little.read16 data 2
  len := Endian.little.read16 data 4
  sum := Endian.little.read16 data 6

@[simp] theorem length_toBytes (hdr : UdpHdr) : hdr.toBytes.length = 8 := by
  simp [toBytes]

theorem ofBytes_toBytes (hdr : UdpHdr) (rest : Bytes) : ofBytes (hdr.toBytes ++ rest) = hdr := by
  obtain ⟨src, dst, len, sum⟩ := hdr
  obtain ⟨a0, a1, ha, ha'⟩ := Endian.little.exists_store16 src
  obtain ⟨b0, b1, hb, hb'⟩ := Endian.little.exists_store16 dst
  obtain ⟨c0, c1, hc, hc'⟩ := Endian.little.exists_store16 len
  obtain ⟨d0, d1, hd, hd'⟩ := Endian.little.exists_store16 sum
  have hbytes : toBytes ⟨src, dst, len, sum⟩ ++ rest =
      a0 :: a1 :: b0 :: b1 :: c0 :: c1 :: d0 :: d1 :: rest := by
    simp only [toBytes, ha, hb, hc, hd]; rfl
  rw [hbytes, ← ha', ← hb', ← hc', ← hd']
  rfl

theorem wordSum_toBytes (hdr : UdpHdr) :
    wordSum .little hdr.toBytes =
      hdr.src.toNat + hdr.dst.toNat + hdr.len.toNat + hdr.sum.toNat := by
  rw [toBytes, wordSum_append _ _ _ (by simp), wordSum_append _ _ _ (by simp),
    wordSum_append _ _ _ (by simp)]
  simp only [wordSum_store16]
  omega

theorem wordSum_sum (hdr : UdpHdr) (v : BitVec 16) :
    wordSum .little { hdr with sum := v }.toBytes =
      wordSum .little { hdr with sum := 0#16 }.toBytes + v.toNat := by
  simp only [wordSum_toBytes, BitVec.toNat_ofNat, Nat.zero_mod]
  omega

end UdpHdr

/-- `struct pseudo_hdr`; `len` is in network order. -/
def pseudoHdr (src dst : IPAddress) (len : BitVec 16) : Bytes :=
  Endian.little.store32 src ++ Endian.little.store32 dst ++ [0, udpProtocol] ++
    Endian.little.store16 len

/-- `~cksum16(&pseudo, sizeof(pseudo), 0)` for a datagram of `len` bytes. -/
def udpPsum (src dst : IPAddress) (len : BitVec 16) : BitVec 16 :=
  ~~~ cksum16 .little (pseudoHdr src dst (hton16 .little len)) 12 0

/-- The checks of `udp_input`: the header, if the `len` bytes at `data` are a datagram. -/
def udpCheck (data : Bytes) (len : Nat) (src dst : IPAddress) : Option UdpHdr :=
  let hdr := UdpHdr.ofBytes data
  if len < udpHdrSize then none
  else if len ≠ (ntoh16 .little hdr.len).toNat then none
  else if cksum16 .little data (BitVec.ofNat 16 len)
      ((udpPsum src dst (BitVec.ofNat 16 len)).setWidth 32) ≠ 0#16 then none
  else some hdr

/-- The datagram `udp_output` hands to `ip_send_packet`; `none` if the payload is too long. -/
def udpDatagram (src dst : IpEndpoint) (data : Bytes) : Option Bytes :=
  if maxIpPayloadSize - udpHdrSize < data.length then none
  else
    let total := BitVec.ofNat 16 (udpHdrSize + data.length)
    let hdr : UdpHdr := ⟨src.port, dst.port, hton16 .little total, 0#16⟩
    let psum := udpPsum src.address dst.address total
    let sum := cksum16 .little (hdr.toBytes ++ data) total (psum.setWidth 32)
    some ({ hdr with sum := sum }.toBytes ++ data)

theorem toNat_udpPsum_le (src dst : IPAddress) (len : BitVec 16) :
    ((udpPsum src dst len).setWidth 32).toNat ≤ 65535 := by
  have := (udpPsum src dst len).isLt
  rw [BitVec.toNat_setWidth]
  omega

/-- The header `udp_output` fills in for `len` bytes of payload, before the checksum. -/
def udpOutputHdr (src dst : IpEndpoint) (len : Nat) : UdpHdr :=
  ⟨src.port, dst.port, hton16 .little (BitVec.ofNat 16 (udpHdrSize + len)), 0#16⟩

/-- The checksum over the header, the payload and the pseudo header. -/
def udpOutputSum (src dst : IpEndpoint) (data : Bytes) : BitVec 16 :=
  cksum16 .little ((udpOutputHdr src dst data.length).toBytes ++ data)
    (BitVec.ofNat 16 (udpHdrSize + data.length))
    ((udpPsum src.address dst.address (BitVec.ofNat 16 (udpHdrSize + data.length))).setWidth 32)

theorem udpDatagram_some {src dst : IpEndpoint} {data d : Bytes}
    (h : udpDatagram src dst data = some d) :
    data.length ≤ 65507 ∧ d = { udpOutputHdr src dst data.length with
      sum := udpOutputSum src dst data }.toBytes ++ data := by
  simp only [udpDatagram] at h
  split at h
  · cases h
  · rename_i hlen
    cases h
    refine ⟨?_, rfl⟩
    simp only [maxIpPayloadSize, maxIpPacketSize, minIpHeaderSize, udpHdrSize] at hlen
    omega

theorem length_udpDatagram {src dst : IpEndpoint} {data d : Bytes}
    (h : udpDatagram src dst data = some d) : d.length = 8 + data.length := by
  rw [(udpDatagram_some h).2]
  simp

theorem cksum16_udpDatagram {src dst : IpEndpoint} {data d : Bytes}
    (h : udpDatagram src dst data = some d) :
    cksum16 .little d (BitVec.ofNat 16 d.length)
      ((udpPsum src.address dst.address (BitVec.ofNat 16 d.length)).setWidth 32) = 0#16 := by
  have hlen := length_udpDatagram h
  obtain ⟨hmax, hd⟩ := udpDatagram_some h
  have hsum := UdpHdr.wordSum_sum (udpOutputHdr src dst data.length) (udpOutputSum src dst data)
  rw [hlen, hd]
  refine cksum16_verify_append (by simp) (by simp) ?_ (toNat_udpPsum_le _ _ _) hsum
  rw [toNat_count (by omega), UdpHdr.length_toBytes]

theorem udpCheck_udpDatagram {src dst : IpEndpoint} {data d : Bytes}
    (h : udpDatagram src dst data = some d) (rest : Bytes) :
    ∃ hdr, udpCheck (d ++ rest) d.length src.address dst.address = some hdr ∧
      hdr.src = src.port ∧ hdr.dst = dst.port ∧ (d ++ rest).drop 8 = data ++ rest := by
  have hlen := length_udpDatagram h
  have hck := cksum16_udpDatagram h
  obtain ⟨hmax, hd⟩ := udpDatagram_some h
  have hc : (BitVec.ofNat 16 d.length).toNat = d.length := toNat_count (by omega)
  have hof : UdpHdr.ofBytes (d ++ rest) =
      { udpOutputHdr src dst data.length with sum := udpOutputSum src dst data } := by
    rw [hd, List.append_assoc, UdpHdr.ofBytes_toBytes]
  have hfield : d.length = (ntoh16 .little (udpOutputHdr src dst data.length).len).toNat := by
    rw [udpOutputHdr, ntoh16_hton16, udpHdrSize, ← hlen, hc]
  refine ⟨{ udpOutputHdr src dst data.length with sum := udpOutputSum src dst data }, ?_,
    rfl, rfl, ?_⟩
  · simp only [udpCheck, hof]
    rw [if_neg (by rw [hlen, udpHdrSize]; omega), if_neg (not_not.mpr hfield), cksum16_append hc,
      if_neg (not_not.mpr hck)]
  · rw [hd, List.append_assoc]
    exact List.drop_left' (by simp)

end LLNStack
