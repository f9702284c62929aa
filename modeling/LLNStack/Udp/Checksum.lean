import LLNStack.Checksum
import LLNStack.Udp.Datagram

/-!
# LLNStack.Udp.Checksum

The checksum of a datagram. `udp_output` and `udp_input` compute it in two stages, first over the
pseudo header and then over the datagram; `udp_two_stage` says that this is the checksum of the two
in one piece.

RFC 768 reserves a zero in the sum field for a datagram without a checksum. `udp_output` puts the
computed sum there as it is, so that the field is zero exactly for the contents whose words add up
to a multiple of 65535 (`sumField_nonzero_iff`).
-/

namespace LLNStack

open Lib

@[simp] theorem length_pseudoHdr (src dst : IPAddress) (len : BitVec 16) :
    (pseudoHdr src dst len).length = 12 := by
  simp [pseudoHdr]

theorem cksum16_udpPsum (src dst : IPAddress) (data : Bytes) (len : BitVec 16)
    (hlen : 12 + data.length ≤ 65535) :
    cksum16 .little data (BitVec.ofNat 16 data.length) ((udpPsum src dst len).setWidth 32) =
      cksum16 .little (pseudoHdr src dst (hton16 .little len) ++ data)
        (BitVec.ofNat 16 (12 + data.length)) 0 := by
  have hchain := cksum16_chain .little (a := pseudoHdr src dst (hton16 .little len)) (b := data)
    (by rw [length_pseudoHdr]) (by rw [length_pseudoHdr]; exact hlen)
  rw [length_pseudoHdr] at hchain
  exact hchain

theorem udpCheck_iff {data : Bytes} {len : Nat} (src dst : IPAddress) (hmin : 8 ≤ len)
    (hdata : len ≤ data.length) (hlen : 12 + len ≤ 65535)
    (hfield : len = (ntoh16 .little (UdpHdr.ofBytes data).len).toNat) :
    udpCheck data len src dst = some (UdpHdr.ofBytes data) ↔
      cksum16 .little (pseudoHdr src dst (hton16 .little (BitVec.ofNat 16 len)) ++ data.take len)
        (BitVec.ofNat 16 (12 + len)) 0 = 0#16 := by
  have htake : (data.take len).length = len := by rw [List.length_take]; omega
  have hc : (BitVec.ofNat 16 len).toNat = (data.take len).length := by
    rw [toNat_count (by omega), htake]
  have hstage := cksum16_udpPsum src dst (data.take len) (BitVec.ofNat 16 len)
    (by rw [htake]; exact hlen)
  rw [htake] at hstage
  have hfirst : cksum16 .little (data.take len ++ data.drop len) (BitVec.ofNat 16 len)
      ((udpPsum src dst (BitVec.ofNat 16 len)).setWidth 32) = _ := cksum16_append hc
  rw [List.take_append_drop] at hfirst
  rw [← hstage, ← hfirst]
  simp only [udpCheck]
  rw [if_neg (by rw [udpHdrSize]; omega), if_neg (not_not.mpr hfield)]
  by_cases hck : cksum16 .little data (BitVec.ofNat 16 len)
      ((udpPsum src dst (BitVec.ofNat 16 len)).setWidth 32) = 0#16
  · rw [if_neg (not_not.mpr hck)]
    exact ⟨fun _ => hck, fun _ => rfl⟩
  · rw [if_pos hck]
    exact ⟨fun h => absurd h.symm (Option.some_ne_none _), fun h => absurd h hck⟩

/-- The sum field is the checksum of the pseudo header and the datagram with that field zero. -/
theorem udpOutputSum_eq (src dst : IpEndpoint) {data : Bytes} (hlen : data.length ≤ 65507) :
    udpOutputSum src dst data =
      cksum16 .little (pseudoHdr src.address dst.address (udpOutputHdr src dst data.length).len ++
        ((udpOutputHdr src dst data.length).toBytes ++ data))
        (BitVec.ofNat 16 (20 + data.length)) 0 := by
  have hl : ((udpOutputHdr src dst data.length).toBytes ++ data).length = 8 + data.length := by simp
  have hstage := cksum16_udpPsum src.address dst.address
    ((udpOutputHdr src dst data.length).toBytes ++ data)
    (BitVec.ofNat 16 (udpHdrSize + data.length)) (by rw [hl]; omega)
  rw [hl, ← Nat.add_assoc] at hstage
  exact hstage

/-- **Checksum chaining.** A checksum may be computed in two stages: over a first part of even
length, and then over the rest with the complement of the first result as initial value. In
particular the field `udp_output` fills in and the test `udp_input` makes are those of the pseudo
header and the datagram in one piece. -/
theorem udp_two_stage (endian : Endian) (a b : Bytes) (ha : a.length % 2 = 0)
    (hlen : a.length + b.length ≤ 65535) :
    cksum16 endian b (BitVec.ofNat 16 b.length)
        ((~~~ cksum16 endian a (BitVec.ofNat 16 a.length) 0).setWidth 32) =
      cksum16 endian (a ++ b) (BitVec.ofNat 16 (a.length + b.length)) 0 ∧
    (∀ (src dst : IpEndpoint) (data d : Bytes), udpDatagram src dst data = some d →
      ∃ (hdr : UdpHdr) (sum : BitVec 16), hdr.sum = 0#16 ∧
        sum = cksum16 .little (pseudoHdr src.address dst.address hdr.len ++ (hdr.toBytes ++ data))
          (BitVec.ofNat 16 (12 + d.length)) 0 ∧
        d = { hdr with sum := sum }.toBytes ++ data) ∧
    ∀ (src dst : IPAddress) (data : Bytes) (len : Nat), 8 ≤ len → len ≤ data.length →
      12 + len ≤ 65535 → len = (ntoh16 .little (UdpHdr.ofBytes data).len).toNat →
      (udpCheck data len src dst = some (UdpHdr.ofBytes data) ↔
        cksum16 .little (pseudoHdr src dst (hton16 .little (BitVec.ofNat 16 len)) ++ data.take len)
          (BitVec.ofNat 16 (12 + len)) 0 = 0#16) := by
  refine ⟨cksum16_chain endian ha hlen, fun src dst data d hd => ?_,
    fun src dst data len hmin hdata hmax hfield => udpCheck_iff src dst hmin hdata hmax hfield⟩
  obtain ⟨hmax, heq⟩ := udpDatagram_some hd
  refine ⟨udpOutputHdr src dst data.length, udpOutputSum src dst data, rfl, ?_, heq⟩
  rw [length_udpDatagram hd, ← Nat.add_assoc]
  exact udpOutputSum_eq src dst hmax

/-- Two bytes and then one. -/
theorem twoThenOne_chain :
    cksum16 .little [0x56] 1 ((~~~ cksum16 .little [0x12, 0x34] 2 0).setWidth 32) =
      cksum16 .little [0x12, 0x34, 0x56] 3 0 :=
  (udp_two_stage .little [0x12, 0x34] [0x56] rfl (by decide)).1

/-! ## The reserved zero -/

/-- The two words of an address. -/
def addressSum (addr : IPAddress) : Nat := addr.toNat % 65536 + addr.toNat / 65536

/-- All the words the checksum of a datagram is over, added up: the addresses, the word of the
protocol number, the ports, the length twice and the payload. -/
def udpWordSum (src dst : IpEndpoint) (data : Bytes) : Nat :=
  addressSum src.address + addressSum dst.address + 256 * udpProtocol.toNat + src.port.toNat +
    dst.port.toNat + 2 * (hton16 .little (BitVec.ofNat 16 (udpHdrSize + data.length))).toNat +
    wordSum .little data

theorem wordSum_store32 (addr : IPAddress) :
    wordSum .little (Endian.little.store32 addr) = addressSum addr := by
  have h := addr.isLt
  simp only [Endian.store32, wordSum, Endian.toNat_load16_little, BitVec.toNat_ofNat, addressSum]
  omega

theorem wordSum_pseudoHdr (src dst : IPAddress) (len : BitVec 16) :
    wordSum .little (pseudoHdr src dst len) =
      addressSum src + addressSum dst + 256 * udpProtocol.toNat + len.toNat := by
  have hproto : wordSum .little [0, udpProtocol] = 256 * udpProtocol.toNat := by decide
  simp (disch := simp) only [pseudoHdr, wordSum_append, wordSum_store16, wordSum_store32, hproto]

theorem wordSum_udpOutput (src dst : IpEndpoint) (data : Bytes) :
    wordSum .little (pseudoHdr src.address dst.address (udpOutputHdr src dst data.length).len ++
      ((udpOutputHdr src dst data.length).toBytes ++ data)) = udpWordSum src dst data := by
  simp (disch := simp) only [wordSum_append, wordSum_pseudoHdr, UdpHdr.wordSum_toBytes]
  simp only [udpOutputHdr, udpWordSum, BitVec.toNat_ofNat, Nat.zero_mod]
  omega

theorem udpOutputSum_eq_zero (src dst : IpEndpoint) {data : Bytes} (hlen : data.length ≤ 65507) :
    udpOutputSum src dst data = 0#16 ↔ udpWordSum src dst data % 65535 = 0 := by
  rw [udpOutputSum_eq src dst hlen, cksum16_accepts_iff ?_ (by decide), wordSum_udpOutput]
  · -- the protocol number alone keeps the sum from being zero
    have hpos : 0 < udpWordSum src dst data := by
      have : udpProtocol.toNat = 17 := rfl
      rw [udpWordSum]
      omega
    rw [show (0 : BitVec 32).toNat = 0 from rfl, Nat.zero_add]
    exact ⟨fun h => h.2, fun h => ⟨hpos, h⟩⟩
  · simp only [BitVec.toNat_ofNat, List.length_append, length_pseudoHdr, UdpHdr.length_toBytes]
    omega

/-- What RFC 768 asks of the sum field of a datagram that carries a checksum: it is not zero, and
the datagram verifies together with its pseudo header. -/
def SumCarried (src dst : IPAddress) (d : Bytes) : Prop :=
  (UdpHdr.ofBytes d).sum ≠ 0#16 ∧
    cksum16 .little (pseudoHdr src dst (hton16 .little (BitVec.ofNat 16 d.length)) ++ d)
      (BitVec.ofNat 16 (12 + d.length)) 0 = 0#16

/-- **The reserved zero.** For all endpoints and every payload: the datagram `udp_output` builds, if
it accepts the payload, carries its checksum exactly if the words the checksum is over do not add up
to a multiple of 65535. -/
theorem sumField_nonzero_iff (src dst : IpEndpoint) (data : Bytes) :
    (∀ d, udpDatagram src dst data = some d → SumCarried src.address dst.address d) ↔
      (data.length ≤ maxIpPayloadSize - udpHdrSize → udpWordSum src dst data % 65535 ≠ 0) := by
  have hsum : ∀ d, udpDatagram src dst data = some d →
      (UdpHdr.ofBytes d).sum = udpOutputSum src dst data := by
    intro d hd
    rw [(udpDatagram_some hd).2, UdpHdr.ofBytes_toBytes]
  constructor
  · intro h hlen hzero
    obtain ⟨d, hd⟩ : ∃ d, udpDatagram src dst data = some d := by
      simp only [udpDatagram]
      rw [if_neg (by omega)]
      exact ⟨_, rfl⟩
    refine (h d hd).1 ?_
    rw [hsum d hd, udpOutputSum_eq_zero src dst (udpDatagram_some hd).1]
    exact hzero
  · intro h d hd
    have hmax := (udpDatagram_some hd).1
    refine ⟨fun hzero => ?_, ?_⟩
    · rw [hsum d hd, udpOutputSum_eq_zero src dst hmax] at hzero
      exact h hmax hzero
    · have hl := length_udpDatagram hd
      rw [← cksum16_udpPsum src.address dst.address d _ (by omega)]
      exact cksum16_udpDatagram hd

/-- Two bytes of payload from 10.0.0.1:7 to 10.0.0.2:7 for which the sum field is zero. -/
theorem zeroSum_sent : ∃ d,
    udpDatagram ⟨0x0100000a#32, 0x0700#16⟩ ⟨0x0200000a#32, 0x0700#16⟩ [0xeb, 0xc9] = some d ∧
      (UdpHdr.ofBytes d).sum = 0#16 := by
  refine ⟨_, rfl, ?_⟩
  have hzero : udpOutputSum ⟨0x0100000a#32, 0x0700#16⟩ ⟨0x0200000a#32, 0x0700#16⟩ [0xeb, 0xc9] =
      0#16 := (udpOutputSum_eq_zero _ _ (by decide)).mpr (by decide)
  rw [UdpHdr.ofBytes_toBytes]
  exact hzero

end LLNStack
