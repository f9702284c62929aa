import LLNStack.Host.Send

/-!
# LLNStack.Host.Sizes

The lengths on the send path, in the integer types of the source. `udp_output` and `ip_output_core`
keep a length in a 16-bit variable, `ip_send_packet` and `network_device_output` compare a `size_t`
with the MTU, and each layer copies into a buffer of its own.

* `sendSizes`: what the two 16-bit variables hold for a payload, if no check rejects it.
* `sendSizes_eq`: nothing is truncated, since the checks reject whatever does not fit the MTU.
* `send_sizes`: the lengths of the datagram, the packet and the frame are these, and fit.
-/

namespace LLNStack

open Lib

/-! ## The integers -/

/-- `udp_output`: the check of `len` and `total = sizeof(*hdr) + len`. -/
def udpOutputTotal (len : BitVec 64) : Option (BitVec 16) :=
  if BitVec.ofNat 64 maxIpPayloadSize - BitVec.ofNat 64 udpHdrSize < len then none
  else some ((BitVec.ofNat 64 udpHdrSize + len).setWidth 16)

/-- `ip_send_packet`: not `dev->mtu < MIN_IP_HEADER_SIZE + len`. -/
def ipSendPacketFits (mtu : BitVec 16) (len : BitVec 64) : Bool :=
  !decide (mtu.setWidth 64 < BitVec.ofNat 64 minIpHeaderSize + len)

/-- `ip_output_core`: `total = hlen + len`. -/
def ipOutputCoreTotal (len : BitVec 64) : BitVec 16 :=
  (BitVec.ofNat 64 minIpHeaderSize + len).setWidth 16

/-- `network_device_output`: not `len > dev->mtu`. -/
def networkDeviceOutputFits (mtu : BitVec 16) (len : BitVec 64) : Bool :=
  !decide (mtu.setWidth 64 < len)

/-- `ether_transmit_helper`: `flen = sizeof(*hdr) + len + pad`. -/
def etherTransmitFlen (len : BitVec 64) : BitVec 64 :=
  BitVec.ofNat 64 etherHdrSize + len +
    if len < BitVec.ofNat 64 etherPayloadSizeMin then BitVec.ofNat 64 etherPayloadSizeMin - len
    else 0

/-- The variable `total` of `udp_output` and that of `ip_output_core`. -/
structure SendSizes where
  udpTotal : BitVec 16
  ipTotal : BitVec 16

/-- `none` if `udp_output` or `ip_send_packet` finds the payload too long. -/
def sendSizes (mtu : BitVec 16) (len : BitVec 64) : Option SendSizes :=
  match udpOutputTotal len with
  | none => none
  | some total =>
    if ipSendPacketFits mtu (total.setWidth 64) then
      some ⟨total, ipOutputCoreTotal (total.setWidth 64)⟩
    else none

theorem udpOutputTotal_eq (len : BitVec 64) :
    udpOutputTotal len =
      if 65507 < len.toNat then none else some (BitVec.ofNat 16 (8 + len.toNat)) := by
  have hlt := len.isLt
  have hmax : (BitVec.ofNat 64 maxIpPayloadSize - BitVec.ofNat 64 udpHdrSize).toNat = 65507 := by
    decide
  have htotal : (BitVec.ofNat 64 udpHdrSize + len).setWidth 16 =
      BitVec.ofNat 16 (8 + len.toNat) := by
    apply BitVec.eq_of_toNat_eq
    simp only [BitVec.toNat_setWidth, BitVec.toNat_add, BitVec.toNat_ofNat, udpHdrSize]
    omega
  simp only [udpOutputTotal, BitVec.lt_def, hmax, htotal]

theorem ipSendPacketFits_iff (mtu : BitVec 16) {len : BitVec 64} (hlen : len.toNat ≤ 65535) :
    ipSendPacketFits mtu len = true ↔ 20 + len.toNat ≤ mtu.toNat := by
  have hmtu := mtu.isLt
  rw [ipSendPacketFits, Bool.not_eq_true', decide_eq_false_iff_not, BitVec.lt_def,
    BitVec.toNat_setWidth, BitVec.toNat_add, BitVec.toNat_ofNat, minIpHeaderSize]
  omega

theorem networkDeviceOutputFits_iff (mtu : BitVec 16) (len : BitVec 64) :
    networkDeviceOutputFits mtu len = true ↔ len.toNat ≤ mtu.toNat := by
  have hmtu := mtu.isLt
  rw [networkDeviceOutputFits, Bool.not_eq_true', decide_eq_false_iff_not, BitVec.lt_def,
    BitVec.toNat_setWidth]
  omega

theorem toNat_ipOutputCoreTotal {len : BitVec 64} (hlen : len.toNat ≤ 65515) :
    (ipOutputCoreTotal len).toNat = 20 + len.toNat := by
  rw [ipOutputCoreTotal, BitVec.toNat_setWidth, BitVec.toNat_add, BitVec.toNat_ofNat,
    minIpHeaderSize]
  omega

theorem toNat_etherTransmitFlen {len : BitVec 64} (hlen : len.toNat ≤ 65535) :
    (etherTransmitFlen len).toNat = 14 + max len.toNat 46 := by
  have hmin : (BitVec.ofNat 64 etherPayloadSizeMin).toNat = 46 := by decide
  have hhdr : (BitVec.ofNat 64 etherHdrSize).toNat = 14 := by decide
  rw [etherTransmitFlen]
  split
  · rename_i h
    rw [BitVec.lt_def, hmin] at h
    rw [BitVec.toNat_add, BitVec.toNat_add, BitVec.toNat_sub_of_le (BitVec.le_of_lt ‹_›), hmin,
      hhdr]
    omega
  · rename_i h
    rw [BitVec.lt_def, hmin] at h
    rw [BitVec.toNat_add, BitVec.toNat_add, hhdr, show (0 : BitVec 64).toNat = 0 from rfl]
    omega

/-- The checks let through exactly what fits the MTU with both headers, and then the two variables
hold the sums. -/
theorem sendSizes_eq (mtu : BitVec 16) (len : BitVec 64) :
    sendSizes mtu len =
      if 28 + len.toNat ≤ mtu.toNat then
        some ⟨BitVec.ofNat 16 (8 + len.toNat), BitVec.ofNat 16 (28 + len.toNat)⟩
      else none := by
  have hmtu := mtu.isLt
  rw [sendSizes, udpOutputTotal_eq]
  by_cases hlen : 65507 < len.toNat
  · rw [if_pos hlen, if_neg (by omega)]
  · rw [if_neg hlen]
    have hwide : ((BitVec.ofNat 16 (8 + len.toNat)).setWidth 64).toNat = 8 + len.toNat := by
      rw [BitVec.toNat_setWidth, BitVec.toNat_ofNat]
      omega
    have hip : ipOutputCoreTotal ((BitVec.ofNat 16 (8 + len.toNat)).setWidth 64) =
        BitVec.ofNat 16 (28 + len.toNat) := by
      apply BitVec.eq_of_toNat_eq
      rw [toNat_ipOutputCoreTotal (by omega), hwide, BitVec.toNat_ofNat]
      omega
    have hsmall : ((BitVec.ofNat 16 (8 + len.toNat)).setWidth 64).toNat ≤ 65535 := by omega
    have hfits := ipSendPacketFits_iff mtu hsmall
    rw [hwide, ← Nat.add_assoc] at hfits
    simp only [hfits, hip]

/-! ## The bytes -/

/-- The integers are the lengths of what is built for `len` bytes of payload, and the buffers of
`udp_output`, `ip_output_core` and `ether_transmit_helper` hold it. -/
structure SizesExact (dev : NetworkDevice) (len : Nat) (datagram packet : Bytes)
    (sizes : SendSizes) : Prop where
  udpTotal : sizes.udpTotal.toNat = 8 + len
  udpBuffer : datagram.length = 8 + len ∧ 8 + len ≤ maxIpPayloadSize
  ipTotal : sizes.ipTotal.toNat = 28 + len
  ipBuffer : packet.length = 28 + len ∧ 28 + len ≤ maxIpPacketSize
  totalField : (ntoh16 .little (IpHdr.ofBytes packet).total).toNat = 28 + len
  /-- The length check of `network_device_output` does not fire. -/
  deviceFits : networkDeviceOutputFits dev.mtu (sizes.ipTotal.setWidth 64) = true
  output : dev.isUp = true → ∀ dst, networkDeviceOutput dev networkProtocolTypeIp packet dst =
    some (dev.transmit networkProtocolTypeIp packet dst)
  frame : dev.mtu = BitVec.ofNat 16 etherPayloadSizeMax → ∀ dst,
    (etherFrame dev.address networkProtocolTypeIp packet dst).length = 14 + max (28 + len) 46 ∧
    (etherTransmitFlen (sizes.ipTotal.setWidth 64)).toNat = 14 + max (28 + len) 46 ∧
    14 + max (28 + len) 46 ≤ etherFrameSizeMax

theorem SizesExact.of_fits {dev : NetworkDevice} {len : Nat} {datagram packet : Bytes}
    (hfits : 28 + len ≤ dev.mtu.toNat) (hdatagram : datagram.length = 8 + len)
    (hpacket : packet.length = 28 + len)
    (htotal : (ntoh16 .little (IpHdr.ofBytes packet).total).toNat = 28 + len) :
    SizesExact dev len datagram packet
      ⟨BitVec.ofNat 16 (8 + len), BitVec.ofNat 16 (28 + len)⟩ := by
  have hmtu := dev.mtu.isLt
  have hip : (BitVec.ofNat 16 (28 + len)).toNat = 28 + len := by
    rw [BitVec.toNat_ofNat]
    omega
  have hwide : ((BitVec.ofNat 16 (28 + len)).setWidth 64).toNat = 28 + len := by
    rw [BitVec.toNat_setWidth, hip]
    omega
  refine ⟨?_, ⟨hdatagram, ?_⟩, hip, ⟨hpacket, ?_⟩, htotal, ?_, fun hup dst => ?_,
    fun hether dst => ?_⟩
  · rw [BitVec.toNat_ofNat]
    omega
  · rw [maxIpPayloadSize, maxIpPacketSize, minIpHeaderSize]
    omega
  · rw [maxIpPacketSize]
    omega
  · rw [networkDeviceOutputFits_iff, hwide]
    exact hfits
  · exact networkDeviceOutput_fits hup _ (by omega) dst
  · have h1500 : dev.mtu.toNat = 1500 := by
      rw [hether]
      decide
    rw [length_etherFrame, hpacket, toNat_etherTransmitFlen (by rw [hwide]; omega), hwide,
      etherFrameSizeMax]
    exact ⟨rfl, rfl, by omega⟩

namespace Host

theorem total_packet (h : Host) (protocol : Byte) {data : Bytes} (hlen : data.length ≤ 65515)
    (dst : IPAddress) (route : IpRoute) :
    (ntoh16 .little (IpHdr.ofBytes (h.packet protocol data dst route)).total).toNat =
      20 + data.length := by
  obtain ⟨hdr, sum, hhdr, hp, -⟩ := ipPacket_eq protocol route.iface.unicast dst h.id 0 hlen
  rw [packet, hp, IpHdr.ofBytes_toBytes, hhdr]
  simp only [ipOutputHdr, ntoh16_hton16, BitVec.toNat_ofNat]
  omega

/-- **Send-path sizes.** A call of `udp_output` with a payload of any `size_t` length either fails
before a device is called, or the lengths at all layers are exact and fit their buffers. -/
theorem send_sizes (env : Env) (h : Host) (src dst : IpEndpoint) {data : Bytes}
    (hlen : data.length < 2 ^ 64) :
    h.udpOutput env src dst data = (h, -1) ∨
      ∃ route dev d sizes, ipRouteLookup h.routes dst.address = some route ∧
        h.device route.iface.dev = some dev ∧ udpDatagram src dst data = some d ∧
        sendSizes dev.mtu (BitVec.ofNat 64 data.length) = some sizes ∧
        SizesExact dev data.length d (h.packet udpProtocol d dst.address route) sizes := by
  cases hd : udpDatagram src dst data with
  | none => exact .inl (by simp only [udpOutput, hd])
  | some d =>
    by_cases hr : ∃ route dev, h.Routed d.length src.address dst.address route dev
    · obtain ⟨route, dev, hr⟩ := hr
      have hdlen := length_udpDatagram hd
      have hmtu := dev.mtu.isLt
      have hfits : 28 + data.length ≤ dev.mtu.toNat := by
        have h := hr.fits
        omega
      have hnat : (BitVec.ofNat 64 data.length).toNat = data.length := by
        rw [BitVec.toNat_ofNat]
        omega
      refine .inr ⟨route, dev, d, ⟨BitVec.ofNat 16 (8 + data.length),
        BitVec.ofNat 16 (28 + data.length)⟩, hr.routed, hr.device, rfl, ?_, ?_⟩
      · rw [sendSizes_eq, hnat, if_pos hfits]
      · refine .of_fits hfits hdlen ?_ ?_
        · rw [packet, length_ipPacket _ _ _ _ _ (by omega)]
          omega
        · rw [total_packet h udpProtocol (by omega)]
          omega
    · refine .inl ?_
      simp only [udpOutput, hd, ipSendPacket_unrouted env udpProtocol
        fun route dev hr' => hr ⟨route, dev, hr'⟩, if_true]

end Host

/-- One byte from 10.0.0.1 to 10.0.0.2: the frame is padded to 60 bytes. -/
theorem oneByte_sizes : ∃ route dev d sizes,
    (lanStack 1 2 0).host.device route.iface.dev = some dev ∧
    SizesExact dev 1 d
      ((lanStack 1 2 0).host.packet udpProtocol d 0x0200000a#32 route) sizes ∧
    (etherTransmitFlen (sizes.ipTotal.setWidth 64)).toNat = 60 := by
  have hlen : ([0x61] : Bytes).length < 2 ^ 64 := by decide
  obtain hrej | ⟨route, dev, d, sizes, -, hdev, -, -, hsizes⟩ :=
    Host.send_sizes quietEnv (lanStack 1 2 0).host ⟨0x0100000a#32, 7⟩ ⟨0x0200000a#32, 7⟩ hlen
  · have hret : ((lanStack 1 2 0).host.udpOutput quietEnv ⟨0x0100000a#32, 7⟩ ⟨0x0200000a#32, 7⟩
        [0x61]).2 ≠ -1 := by decide +kernel
    exact absurd (congrArg Prod.snd hrej) hret
  · refine ⟨route, dev, d, sizes, hdev, hsizes, ?_⟩
    have htotal : sizes.ipTotal.toNat = 29 := hsizes.ipTotal
    have hwide : (sizes.ipTotal.setWidth 64).toNat = 29 := by
      rw [BitVec.toNat_setWidth]
      omega
    rw [toNat_etherTransmitFlen (by omega), hwide]
    rfl

end LLNStack
