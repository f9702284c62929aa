import LLNStack.Icmp

/-!
# LLNStack.Ip.Bounds

The bounds of what `ip_input` hands to a protocol. It compares the header length and the total
length with the number of bytes received, but neither with the size of a header nor with each
other: a packet may claim a header shorter than 20 bytes, or a total length shorter than its
header, and then `total - hlen` wraps around when it becomes a `size_t`.

`WellSized` says of the bytes of a packet that its two lengths are in order, and `Admitted` that it
passes the checks that there are. `handlerBounds_iff`: the bounds hold exactly if the packet, should
it be admitted, is well-sized.
-/

namespace LLNStack

open Lib

def IpHdr.totalLen (hdr : IpHdr) : Nat := (ntoh16 .little hdr.total).toNat

/-- The call of the handler stays inside the received bytes: the lengths are ordered, the length
did not wrap around, and the slice ends where the bytes end or before; and whatever is in memory
behind the packet, `icmp_output` does not copy more than its buffer holds. -/
def HandlerBounds {η : Type} (data : Bytes) (d : IpDelivery η) : Prop :=
  minIpHeaderSize ≤ (IpHdr.ofBytes data).hlen ∧
    (IpHdr.ofBytes data).hlen ≤ (IpHdr.ofBytes data).totalLen ∧
    (IpHdr.ofBytes data).totalLen ≤ data.length ∧
    d.len.toNat = (IpHdr.ofBytes data).totalLen - (IpHdr.ofBytes data).hlen ∧
    (IpHdr.ofBytes data).hlen + d.len.toNat ≤ data.length ∧
    ∀ beyond out, icmpInput (d.data ++ beyond) d.len.toNat d.src d.dst d.iface = some out →
      out.len ≤ icmpBufsiz - icmpHdrSize

/-- In the bytes of the packet: the low half of byte 0, in words of four bytes, is at least the
fixed part of the header, and at most the total length in bytes 2 and 3. -/
def WellSized (data : Bytes) : Prop :=
  5 ≤ (data.getD 0 0).toNat % 16 ∧
    4 * ((data.getD 0 0).toNat % 16) ≤ 256 * (data.getD 2 0).toNat + (data.getD 3 0).toNat

/-- What `ip_input` requires of a packet before it calls a handler. -/
structure Admitted {η : Type} (protocols : List (IpProtocol η)) (dev : NetworkDevice)
    (data : Bytes) : Prop where
  length : minIpHeaderSize ≤ data.length
  version : (IpHdr.ofBytes data).vhl >>> 4 = ipv4
  hlen : (IpHdr.ofBytes data).hlen ≤ data.length
  total : (IpHdr.ofBytes data).totalLen ≤ data.length
  sum : cksum16 .little data (BitVec.ofNat 16 (IpHdr.ofBytes data).hlen) 0 = 0#16
  whole : ntoh16 .little (IpHdr.ofBytes data).offset &&& 0x2000#16 = 0#16 ∧
    ntoh16 .little (IpHdr.ofBytes data).offset &&& 0x1fff#16 = 0#16
  addressed : ∃ iface, networkDeviceGetInterface dev networkInterfaceFamilyIp = some iface ∧
    iface.Accepts (IpHdr.ofBytes data).dst
  registered : ∃ proto ∈ protocols, proto.type = (IpHdr.ofBytes data).protocol

/-! ## What the checks give -/

theorem ipInput_some {η : Type} {protocols : List (IpProtocol η)} {dev : NetworkDevice}
    {data : Bytes} {d : IpDelivery η} (h : ipInput protocols dev data = some d) :
    Admitted protocols dev data ∧ ∃ proto,
      protocols.find? (·.type = (IpHdr.ofBytes data).protocol) = some proto ∧ ∃ iface,
      networkDeviceGetInterface dev networkInterfaceFamilyIp = some iface ∧
      proto.type = (IpHdr.ofBytes data).protocol ∧
      d = ⟨proto.handler, data.drop (IpHdr.ofBytes data).hlen, BitVec.ofInt 64
          ((IpHdr.ofBytes data).totalLen - (IpHdr.ofBytes data).hlen),
        (IpHdr.ofBytes data).src, (IpHdr.ofBytes data).dst, iface⟩ := by
  simp only [ipInput] at h
  split at h
  · cases h
  · rename_i iface hiface
    simp only [ipCheck] at h
    split at h
    · cases h
    · rename_i hdr hck
      split at hck
      · cases hck
      · rename_i hlen
        split at hck
        · cases hck
        · rename_i hok
          split at hck
          · cases hck
          · rename_i hok'
            cases hck
            split at h
            · cases h
            · rename_i proto hproto
              cases h
              simp only [not_or, not_and_or, not_not, not_lt] at hok hok' hlen
              have hmem := List.mem_of_find?_eq_some hproto
              have htype : proto.type = (IpHdr.ofBytes data).protocol := by
                simpa using List.find?_some hproto
              exact ⟨⟨hlen, hok.1, hok.2.1, hok.2.2.1, hok.2.2.2, ⟨hok'.1, hok'.2.1⟩,
                ⟨iface, hiface, hok'.2.2⟩, proto, hmem, htype⟩, proto, hproto, iface, hiface, htype,
                rfl⟩

theorem Admitted.ipInput {η : Type} {protocols : List (IpProtocol η)} {dev : NetworkDevice}
    {data : Bytes} (h : Admitted protocols dev data) :
    ∃ d, LLNStack.ipInput protocols dev data = some d := by
  obtain ⟨iface, hiface, hdst⟩ := h.addressed
  have hck : ipCheck iface data = some (IpHdr.ofBytes data) := by
    have hlen := h.length; have hhlen := h.hlen; have htotal := h.total
    rw [IpHdr.totalLen] at htotal
    simp only [ipCheck]
    rw [if_neg (by omega), if_neg, if_neg]
    · rintro (h1 | h1 | ⟨h1, h2, h3⟩)
      · exact h1 h.whole.1
      · exact h1 h.whole.2
      · exact hdst.elim h1 fun hd => hd.elim h2 h3
    · rintro (h1 | h1 | h1 | h1)
      · exact h1 h.version
      · omega
      · omega
      · exact h1 h.sum
  obtain ⟨proto, hmem, htype⟩ := h.registered
  have hfind : ∃ p, protocols.find? (·.type = (IpHdr.ofBytes data).protocol) = some p :=
    Option.isSome_iff_exists.mp (List.find?_isSome.mpr ⟨proto, hmem, by simpa using htype⟩)
  obtain ⟨p, hp⟩ := hfind
  simp only [LLNStack.ipInput, hiface, hck, hp]
  exact ⟨_, rfl⟩

theorem hlen_ofBytes (data : Bytes) :
    (IpHdr.ofBytes data).hlen = 4 * ((data.getD 0 0).toNat % 16) := by
  have hand : (data.getD 0 0).toNat &&& 15 = (data.getD 0 0).toNat % 16 :=
    Nat.and_two_pow_sub_one_eq_mod _ 4
  simp only [IpHdr.hlen, IpHdr.ofBytes, BitVec.toNat_and, BitVec.toNat_ofNat, Nat.shiftLeft_eq]
  rw [Nat.mod_eq_of_lt (a := 0x0f) (by decide), hand]
  omega

theorem wellSized_iff (data : Bytes) :
    WellSized data ↔ minIpHeaderSize ≤ (IpHdr.ofBytes data).hlen ∧
      (IpHdr.ofBytes data).hlen ≤ (IpHdr.ofBytes data).totalLen := by
  have ht : (IpHdr.ofBytes data).totalLen =
      256 * (data.getD 2 0).toNat + (data.getD 3 0).toNat := toNat_ntoh16_read16 data 2
  rw [WellSized, hlen_ofBytes, ht, minIpHeaderSize]
  omega

theorem IpHdr.totalLen_lt (hdr : IpHdr) : hdr.totalLen < 65536 :=
  (ntoh16 .little hdr.total).isLt

theorem toNat_ofInt_sub {total hlen : Nat} (h : hlen ≤ total) (hlt : total < 65536) :
    (BitVec.ofInt 64 ((total : Int) - hlen)).toNat = total - hlen := by
  have : (total : Int) - hlen = ((total - hlen : Nat) : Int) := by omega
  rw [this, BitVec.ofInt_natCast, BitVec.toNat_ofNat]
  omega

theorem WellSized.handlerBounds {η : Type} {protocols : List (IpProtocol η)} {dev : NetworkDevice}
    {data : Bytes} {d : IpDelivery η} (hw : WellSized data)
    (h : ipInput protocols dev data = some d) : HandlerBounds data d := by
  obtain ⟨h20, hle⟩ := (wellSized_iff data).mp hw
  obtain ⟨hadm, proto, -, iface, -, -, hd⟩ := ipInput_some h
  have ht := hadm.total
  have hlt := (IpHdr.ofBytes data).totalLen_lt
  have hn : d.len.toNat = (IpHdr.ofBytes data).totalLen - (IpHdr.ofBytes data).hlen := by
    rw [hd]
    exact toNat_ofInt_sub hle hlt
  refine ⟨h20, hle, ht, hn, by omega, fun beyond out ho => ?_⟩
  rw [minIpHeaderSize] at h20
  rw [icmpInput_len ho, hn, icmpBufsiz, maxIpPayloadSize, maxIpPacketSize, minIpHeaderSize,
    icmpHdrSize]
  omega

/-- **Received-packet bounds.** For every byte string received on any device, with any protocols
registered: whatever handler `ip_input` calls, the call is within the bounds, exactly if the packet
is well-sized, should it pass the checks. -/
theorem handlerBounds_iff {η : Type} (protocols : List (IpProtocol η)) (dev : NetworkDevice)
    (data : Bytes) :
    (∀ d, ipInput protocols dev data = some d → HandlerBounds data d) ↔
      (Admitted protocols dev data → WellSized data) := by
  constructor
  · intro h hadm
    obtain ⟨d, hd⟩ := hadm.ipInput
    exact (wellSized_iff data).mpr ⟨(h d hd).1, (h d hd).2.1⟩
  · intro h d hd
    exact (h (ipInput_some hd).1).handlerBounds hd

/-! ## A packet of total length 0 -/

/-- An ICMP packet from 10.0.0.2 to 10.0.0.1: a valid header with total length 0. -/
def zeroTotal : Bytes :=
  [69, 0, 0, 0, 0, 128, 0, 0, 255, 1, 167, 122, 10, 0, 0, 2, 10, 0, 0, 1]

/-- Memory behind it that reads as an echo request, as long as the low 16 bits of the length. -/
def echoBehind : Bytes := [8, 0, 0xf7, 0xff] ++ List.replicate 65512 0

theorem wordSum_replicate_zero (endian : Endian) (n : Nat) :
    wordSum endian (List.replicate n 0) = 0 := by
  induction n using Nat.twoStepInduction with
  | zero => rfl
  | one => rfl
  | more n ih _ =>
    have h0 : (endian.load16 0 0).toNat = 0 := by cases endian <;> rfl
    rw [List.replicate_succ, List.replicate_succ, wordSum, ih, h0]

theorem echoBehind_verifies :
    cksum16 .little echoBehind (BitVec.ofNat 16 (2 ^ 64 - 20)) 0 = 0#16 := by
  have hlen : (BitVec.ofNat 16 (2 ^ 64 - 20)).toNat = echoBehind.length := by
    rw [echoBehind, List.length_append, List.length_replicate]; rfl
  have hsum : wordSum .little echoBehind = 65535 := by
    rw [echoBehind, wordSum_append _ _ _ rfl, wordSum_replicate_zero]; rfl
  rw [cksum16_eq_zero_iff hlen (by decide), hsum]
  exact carryFold_of_lt (by decide)

theorem icmpInput_echoBehind (src dst : IPAddress) (iface : IpInterface) :
    ∃ out, icmpInput echoBehind (2 ^ 64 - 20) src dst iface = some out ∧
      out.len = 2 ^ 64 - 28 := by
  have htype : (IcmpHdr.ofBytes echoBehind).type = icmpTypeEcho := rfl
  simp only [icmpInput, echoBehind_verifies, htype, icmpHdrSize]
  rw [if_neg (by decide), if_neg (by decide), if_pos trivial]
  exact ⟨_, rfl, rfl⟩

/-- The handler gets a length of 2^64 - 20 for a packet of 20 bytes, and the answer to what is read
as an echo request copies 2^64 - 28 bytes. -/
theorem zeroTotal_wraps : ∃ d, ipInput [⟨icmpProtocol, ()⟩] oneInterface zeroTotal = some d ∧
    ¬ HandlerBounds zeroTotal d ∧ d.len.toNat = 2 ^ 64 - 20 ∧
    ∃ out, icmpInput (d.data ++ echoBehind) d.len.toNat d.src d.dst d.iface = some out ∧
      out.len = 2 ^ 64 - 28 := by
  have hany : (ipInput [⟨icmpProtocol, ()⟩] oneInterface zeroTotal).any
      (fun d => decide (d.data = [] ∧ d.len.toNat = 2 ^ 64 - 20)) = true := by decide +kernel
  obtain ⟨d, hd, hp⟩ := (Option.any_eq_true _ _).mp hany
  obtain ⟨hdata, hlen⟩ := of_decide_eq_true hp
  refine ⟨d, hd, fun hb => ?_, hlen, ?_⟩
  · have h0 : (IpHdr.ofBytes zeroTotal).totalLen = 0 := by decide
    have h20 : (IpHdr.ofBytes zeroTotal).hlen = 20 := by decide
    have := hb.2.1
    omega
  · rw [hdata, List.nil_append, hlen]
    exact icmpInput_echoBehind _ _ _

end LLNStack
