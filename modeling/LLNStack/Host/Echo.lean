import LLNStack.Host.Delivery
import LLNStack.Ip.Bounds

/-!
# LLNStack.Host.Echo

What becomes of an ICMP message in a packet whose lengths are in order. `IsEcho` and `IsEchoReply`
are about the bytes of messages only; `echo_correct` says that a host answers exactly the messages
with `IsEcho`, once, with their `IsEchoReply`.

* `icmpInput_echo`, `icmpInput_other`: `icmp_input` on a message with anything behind it.
* `ipInput_message`: the message is what the packet holds between its header and its total length.
-/

namespace LLNStack

open Lib

/-- An echo request: complete, with a checksum that verifies. -/
def IsEcho (msg : Bytes) : Prop :=
  icmpHdrSize ≤ msg.length ∧ cksum16 .little msg (BitVec.ofNat 16 msg.length) 0 = 0#16 ∧
    msg.getD 0 0 = icmpTypeEcho

/-- `reply` is an echo reply with the code of `msg`, and from byte 4 on with its identifier,
sequence number and payload. -/
structure IsEchoReply (msg reply : Bytes) : Prop where
  type : reply.getD 0 0 = icmpTypeEchoreply
  code : reply.getD 1 0 = msg.getD 1 0
  rest : reply.drop 4 = msg.drop 4
  length : reply.length = msg.length
  sum : cksum16 .little reply (BitVec.ofNat 16 reply.length) 0 = 0#16

/-! ## A message in memory -/

section Message

variable {msg : Bytes} (beyond : Bytes) (src dst : IPAddress) (iface : IpInterface)

theorem isEcho_append (hmax : msg.length ≤ 65535) :
    IsEcho msg ↔ icmpHdrSize ≤ msg.length ∧
      cksum16 .little (msg ++ beyond) (BitVec.ofNat 16 msg.length) 0 = 0#16 ∧
      (msg ++ beyond).getD 0 0 = icmpTypeEcho := by
  rw [IsEcho, cksum16_append (toNat_count hmax)]
  refine and_congr_right fun h8 => and_congr_right fun _ => ?_
  rw [List.getD_append _ _ _ _ (by rw [icmpHdrSize] at h8; omega)]

theorem icmpInput_other (hmax : msg.length ≤ 65535) (h : ¬ IsEcho msg) :
    icmpInput (msg ++ beyond) msg.length src dst iface = none := by
  rw [icmpInput_eq, if_neg]
  rwa [← isEcho_append beyond hmax]

theorem icmpInput_echo (hmax : msg.length ≤ 65535) (h : IsEcho msg) :
    ∃ out, icmpInput (msg ++ beyond) msg.length src dst iface = some out ∧
      out.src = iface.unicast ∧ out.dst = src ∧ IsEchoReply msg (icmpOutput out) := by
  have h8 : 8 ≤ msg.length := h.1
  rw [icmpInput_eq, if_pos ((isEcho_append beyond hmax).mp h)]
  refine ⟨_, rfl, rfl, rfl, ?_⟩
  set out : IcmpOutput := ⟨icmpTypeEchoreply, (msg ++ beyond).getD 1 0,
    Endian.little.read32 (msg ++ beyond) 4, (msg ++ beyond).drop icmpHdrSize,
    msg.length - icmpHdrSize, iface.unicast, src⟩ with hout
  have hlen : out.len ≤ out.data.length := by
    simp only [hout, icmpHdrSize, List.length_drop, List.length_append]
    omega
  have hpayload : out.data.take out.len = msg.drop 8 := by
    simp only [hout, icmpHdrSize]
    rw [List.drop_append_of_le_length h8, ← List.length_drop, List.take_left']
    rfl
  refine ⟨type_icmpOutput out [], ?_, ?_, ?_, cksum16_icmpOutput hlen ?_⟩
  · rw [code_icmpOutput]
    exact List.getD_append _ _ _ _ (by omega)
  · have hword : Endian.little.store32 out.values ++ (msg ++ beyond).drop 8 =
        (msg ++ beyond).drop 4 :=
      Endian.little.store32_read32 (by rw [List.length_append]; omega)
    rw [List.drop_append_of_le_length h8,
      List.drop_append_of_le_length (Nat.le_trans (by decide) h8), ← List.append_assoc] at hword
    rw [drop_icmpOutput, hpayload]
    exact List.append_cancel_right hword
  · rw [length_icmpOutput hlen]
    simp only [hout, icmpHdrSize]
    omega
  · simp only [hout, icmpHdrSize]
    omega

end Message

/-! ## A message in a packet -/

/-- What a packet carries: the bytes after the header, up to the total length. -/
def ipPayload (packet : Bytes) : Bytes :=
  (packet.take (IpHdr.ofBytes packet).totalLen).drop (IpHdr.ofBytes packet).hlen

theorem length_ipPayload {packet : Bytes}
    (h : (IpHdr.ofBytes packet).totalLen ≤ packet.length) : (ipPayload packet).length =
      (IpHdr.ofBytes packet).totalLen - (IpHdr.ofBytes packet).hlen := by
  rw [ipPayload, List.length_drop, List.length_take, Nat.min_eq_left h]

theorem ipInput_message {η : Type} {protocols : List (IpProtocol η)} {dev : NetworkDevice}
    {packet : Bytes} {d : IpDelivery η} (h : ipInput protocols dev packet = some d)
    (hle : (IpHdr.ofBytes packet).hlen ≤ (IpHdr.ofBytes packet).totalLen) :
    ∃ beyond, d.data = ipPayload packet ++ beyond ∧ d.len.toNat = (ipPayload packet).length ∧
      d.src = (IpHdr.ofBytes packet).src ∧
      networkDeviceGetInterface dev networkInterfaceFamilyIp = some d.iface := by
  obtain ⟨hadm, proto, -, iface, hiface, -, rfl⟩ := ipInput_some h
  refine ⟨packet.drop (IpHdr.ofBytes packet).totalLen, ?_, ?_, rfl, hiface⟩
  · show packet.drop (IpHdr.ofBytes packet).hlen = _
    rw [ipPayload, ← List.drop_append_of_le_length, List.take_append_drop]
    rw [List.length_take, Nat.min_eq_left hadm.total]
    exact hle
  · rw [length_ipPayload hadm.total]
    exact toNat_ofInt_sub hle (IpHdr.totalLen_lt _)

/-- **Echo correctness.** For every packet whose lengths are in order and which is for `icmp_input`:
if it carries an echo request, `ip_send_packet` is called once, with the reply to it from the
address of the interface to the sender of the packet, and if it does not then nothing happens. The
reply is as long as the request, so it fits the buffer and every MTU that the request fits, and
no host answers it. -/
theorem echo_correct (env : Env) (h : Host) {dev : NetworkDevice} {packet : Bytes}
    {d : IpDelivery IpHandler} (hd : ipInput h.ipProtocols dev packet = some d)
    (hicmp : d.handler = .icmpInput) (h20 : minIpHeaderSize ≤ (IpHdr.ofBytes packet).hlen)
    (hle : (IpHdr.ofBytes packet).hlen ≤ (IpHdr.ofBytes packet).totalLen) :
    (IsEcho (ipPayload packet) → ∃ out iface,
      icmpInput d.data d.len.toNat d.src d.dst d.iface = some out ∧
      networkDeviceGetInterface dev networkInterfaceFamilyIp = some iface ∧
      h.ipInput env packet dev = (h.ipSendPacket env icmpProtocol (icmpOutput out) iface.unicast
        (IpHdr.ofBytes packet).src).1 ∧
      IsEchoReply (ipPayload packet) (icmpOutput out) ∧
      (icmpOutput out).length ≤ icmpBufsiz ∧
      ((IpHdr.ofBytes packet).totalLen ≤ dev.mtu.toNat →
        minIpHeaderSize + (icmpOutput out).length ≤ dev.mtu.toNat) ∧
      ∀ beyond len src dst iface, icmpInput (icmpOutput out ++ beyond) len src dst iface = none) ∧
    (¬ IsEcho (ipPayload packet) →
      icmpInput d.data d.len.toNat d.src d.dst d.iface = none ∧ h.ipInput env packet dev = h) := by
  obtain ⟨beyond, hdata, hlen, hsrc, hiface⟩ := ipInput_message hd hle
  have htotal := (ipInput_some hd).1.total
  have hpay := length_ipPayload htotal
  have hlt := (IpHdr.ofBytes packet).totalLen_lt
  rw [minIpHeaderSize] at h20
  rw [hdata, hlen]
  constructor
  · intro hecho
    obtain ⟨out, hout, hosrc, hodst, hreply⟩ :=
      icmpInput_echo beyond d.src d.dst d.iface (by omega) hecho
    refine ⟨out, d.iface, hout, hiface, ?_, hreply, ?_, ?_, ?_⟩
    · rw [← hsrc, ← hodst, ← hosrc, Host.ipInput, hd]
      simp only [Host.ipHandler, hicmp, hdata, hlen, hout, Host.icmpOutput]
    · rw [hreply.length, icmpBufsiz, maxIpPayloadSize, maxIpPacketSize, minIpHeaderSize]
      omega
    · intro hmtu
      rw [hreply.length, minIpHeaderSize]
      omega
    · exact fun beyond len src dst iface =>
        icmpInput_echoreply ((type_icmpOutput out beyond).trans (hreply.type)) len src dst iface
  · intro hother
    have hnone := icmpInput_other beyond d.src d.dst d.iface (by omega) hother
    refine ⟨hnone, ?_⟩
    rw [Host.ipInput, hd]
    simp only [Host.ipHandler, hicmp, hdata, hlen, hnone]

def broadcastPing : Bytes :=
  ipPacket icmpProtocol (icmpOutput ⟨icmpTypeEcho, 0, 0x01000100#32, [0x61, 0x62, 0x63], 3, 0, 0⟩)
    0x0200000a#32 0xff00000a#32 0 0

/-- It is answered from 10.0.0.1. -/
theorem broadcastPing_answered : ∃ dev reply,
    (lanStack 1 2 0).host.device 0 = some dev ∧ IsEchoReply (ipPayload broadcastPing) reply ∧
      (lanStack 1 2 0).host.ipInput quietEnv broadcastPing dev =
        ((lanStack 1 2 0).host.ipSendPacket quietEnv icmpProtocol reply 0x0100000a#32
          0x0200000a#32).1 := by
  obtain ⟨dev, hdev⟩ : ∃ dev, (lanStack 1 2 0).host.device 0 = some dev := ⟨_, rfl⟩
  have hany : ((lanStack 1 2 0).host.device 0).any (fun dev =>
      (ipInput (lanStack 1 2 0).host.ipProtocols dev broadcastPing).any
        fun d => decide (d.handler = .icmpInput)) = true := by decide +kernel
  rw [hdev, Option.any_some] at hany
  obtain ⟨d, hd, hicmp⟩ := (Option.any_eq_true _ _).mp hany
  have hecho : IsEcho (ipPayload broadcastPing) := by
    unfold IsEcho
    decide +kernel
  obtain ⟨out, iface, -, hiface, hsend, hreply, -⟩ := (echo_correct quietEnv _ hd
    (of_decide_eq_true hicmp) (by decide +kernel) (by decide +kernel)).1 hecho
  have hsrc : (IpHdr.ofBytes broadcastPing).src = 0x0200000a#32 := by decide +kernel
  have hunicast : iface.unicast = 0x0100000a#32 := by
    cases hdev
    cases hiface
    rfl
  rw [hsrc, hunicast] at hsend
  exact ⟨dev, icmpOutput out, hdev, hreply, hsend⟩

end LLNStack
