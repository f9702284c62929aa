import LLNStack.Host.Echo

/-!
# LLNStack.Host.Memory

The receive path with the memory behind a packet. `ip_input` gives a handler a pointer into the
packet and a length, and if the lengths in the header are out of order that length has nothing to do
with what was received: `icmp_input` and `udp_input` then read behind the packet, and `icmp_output`
copies more than its buffer holds. Here a handler has the bytes that can be read from the pointer on
(`mem`), and it is `none` if it accesses anything else: the call does not return.

* `Overruns`: the packets and the memory for which that happens, in terms of their bytes.
* `Host.netHandlerMem_none_iff`: a handler faults on those and no others.
* `Host.netHandlerMem_wellSized`: on a packet with its lengths in order the handlers are those of
  `Host.Model`, whatever is behind it.
-/

namespace LLNStack

open Lib

namespace Host

/-- `memcpy` reads `out.len` bytes and writes them behind the header in `buf`. -/
def icmpOutputMem (env : Env) (h : Host) (out : IcmpOutput) : Option Host :=
  if icmpBufsiz - icmpHdrSize < out.len ∨ out.data.length < out.len then none
  else some (h.icmpOutput env out).1

/-- `cksum16` takes its count as a `uint16_t`. For the lengths that `ip_input` passes the count is
at least that of a header, if the length is. -/
def icmpInputMem (env : Env) (h : Host) (mem : Bytes) (len : Nat) (src dst : IPAddress)
    (iface : IpInterface) : Option Host :=
  if len < icmpHdrSize then some h
  else if mem.length < (BitVec.ofNat 16 len).toNat then none
  else
    match icmpInput mem len src dst iface with
    | none => some h
    | some out => h.icmpOutputMem env out

/-- The length in the header is read first, at offset 4, and the datagram only if it is `len`. -/
def udpInputMem (h : Host) (mem : Bytes) (len : Nat) (src dst : IPAddress) : Option Host :=
  if len < udpHdrSize then some h
  else if mem.length < 6 then none
  else if len = (ntoh16 .little (UdpHdr.ofBytes mem).len).toNat ∧ mem.length < len then none
  else some { h with pcbs := (udpInput (true, true) h.pcbs mem len src dst).1 }

/-- `behind`: what can be read behind the packet. -/
def ipHandlerMem (env : Env) (h : Host) (behind : Bytes) (d : IpDelivery IpHandler) :
    Option Host :=
  match d.handler with
  | .icmpInput => h.icmpInputMem env (d.data ++ behind) d.len.toNat d.src d.dst d.iface
  | .udpInput => h.udpInputMem (d.data ++ behind) d.len.toNat d.src d.dst

def ipInputMem (env : Env) (h : Host) (behind data : Bytes) (dev : NetworkDevice) :
    Option Host :=
  match LLNStack.ipInput h.ipProtocols dev data with
  | none => some h
  | some d => h.ipHandlerMem env behind d

def netHandlerMem (env : Env) (h : Host) (behind : Bytes) (handler : NetHandler)
    (entry : Bytes × Nat) : Option Host :=
  match h.device entry.2 with
  | none => some h
  | some dev =>
    match handler with
    | .ipInput => h.ipInputMem env behind entry.1 dev
    -- `arp_input` checks that a whole message was received
    | .arpInput => some (h.arpInput env entry.1 dev)

end Host

/-! ## Which packets fault -/

/-- A handler that is given the length `len` and can read `mem` accesses something else. The
checksum runs over the low 16 bits of the length, and the copy for an echo reply over all of it. -/
def HandlerFaults (mem : Bytes) (len : Nat) : IpHandler → Prop
  | .icmpInput => icmpHdrSize ≤ len ∧ (mem.length < len % 65536 ∨
      icmpBufsiz < len ∧ cksum16 .little mem (BitVec.ofNat 16 len) 0 = 0#16 ∧
        mem.getD 0 0 = icmpTypeEcho)
  | .udpInput => udpHdrSize ≤ len ∧ mem.length < 6

/-- `total - hlen` as the `size_t` that the handler gets. -/
def IpHdr.handlerLen (hdr : IpHdr) : Nat :=
  (BitVec.ofInt 64 ((hdr.totalLen : Int) - hdr.hlen)).toNat

/-- A queue entry that `ip_input` admits although its lengths are out of order, and on which the
handler of its protocol faults, with `behind` in memory behind it. -/
structure Overruns (h : Host) (behind : Bytes) (entry : Bytes × Nat) : Prop where
  illSized : ¬ WellSized entry.1
  admitted : ∃ dev, h.device entry.2 = some dev ∧ Admitted h.ipProtocols dev entry.1
  faults : ∃ proto, h.ipProtocols.find? (·.type = (IpHdr.ofBytes entry.1).protocol) = some proto ∧
    HandlerFaults (entry.1.drop (IpHdr.ofBytes entry.1).hlen ++ behind)
      (IpHdr.ofBytes entry.1).handlerLen proto.handler

theorem icmpBufsiz_eq : icmpBufsiz = 65515 := rfl

theorem WellSized.not_faults {data : Bytes} (hw : WellSized data)
    (htotal : (IpHdr.ofBytes data).totalLen ≤ data.length) (behind : Bytes) (handler : IpHandler) :
    ¬ HandlerFaults (data.drop (IpHdr.ofBytes data).hlen ++ behind)
      (IpHdr.ofBytes data).handlerLen handler := by
  obtain ⟨h20, hle⟩ := (wellSized_iff data).mp hw
  have hlt := (IpHdr.ofBytes data).totalLen_lt
  have hlen : (IpHdr.ofBytes data).handlerLen =
      (IpHdr.ofBytes data).totalLen - (IpHdr.ofBytes data).hlen := toNat_ofInt_sub hle hlt
  have hmem : (IpHdr.ofBytes data).handlerLen ≤
      (data.drop (IpHdr.ofBytes data).hlen ++ behind).length := by
    rw [List.length_append, List.length_drop]
    omega
  rw [minIpHeaderSize] at h20
  cases handler with
  | icmpInput =>
    rintro ⟨-, hread | ⟨hcopy, -⟩⟩
    · rw [Nat.mod_eq_of_lt (by omega)] at hread
      omega
    · rw [icmpBufsiz_eq] at hcopy
      omega
  | udpInput =>
    rintro ⟨h8, hread⟩
    rw [udpHdrSize] at h8
    omega

/-- The length is that of the packet, or has wrapped around. -/
theorem handlerLen_cases (hdr : IpHdr) :
    (hdr.hlen ≤ hdr.totalLen ∧ hdr.handlerLen = hdr.totalLen - hdr.hlen) ∨
      65536 ≤ hdr.handlerLen := by
  have hlt := hdr.totalLen_lt
  rcases Nat.lt_or_ge hdr.totalLen hdr.hlen with hlt' | hle
  · right
    have h60 : hdr.hlen ≤ 60 := by
      rw [IpHdr.hlen, Nat.shiftLeft_eq, BitVec.toNat_and]
      have := Nat.and_le_right (n := hdr.vhl.toNat) (m := (0x0f#8).toNat)
      have h15 : (0x0f#8).toNat = 15 := rfl
      omega
    rw [IpHdr.handlerLen, BitVec.toNat_ofInt]
    omega
  · exact .inl ⟨hle, toNat_ofInt_sub hle hlt⟩

namespace Host

variable (env : Env) (h : Host)

theorem icmpInputMem_none_iff (mem : Bytes) (len : Nat) (src dst : IPAddress)
    (iface : IpInterface) :
    h.icmpInputMem env mem len src dst iface = none ↔ HandlerFaults mem len .icmpInput := by
  have hcount : (BitVec.ofNat 16 len).toNat = len % 65536 := BitVec.toNat_ofNat ..
  rw [icmpInputMem, HandlerFaults]
  split
  · rename_i hshort
    exact iff_of_false (Option.some_ne_none h) fun hf => absurd hshort (Nat.not_lt.mpr hf.1)
  · rename_i h8
    rw [not_lt] at h8
    rw [hcount]
    split
    · rename_i hread
      exact iff_of_true rfl ⟨h8, .inl hread⟩
    · rename_i hread
      rw [icmpInput_eq]
      by_cases hecho : icmpHdrSize ≤ len ∧ cksum16 .little mem (BitVec.ofNat 16 len) 0 = 0#16 ∧
          mem.getD 0 0 = icmpTypeEcho
      · rw [if_pos hecho]
        simp only [icmpOutputMem, icmpBufsiz_eq, icmpHdrSize, List.length_drop] at h8 ⊢
        by_cases hbig : 65515 < len
        · rw [if_pos (.inl (by omega))]
          exact iff_of_true rfl ⟨h8, .inr ⟨hbig, hecho.2⟩⟩
        · -- a length that fits the buffer is the count of the checksum
          rw [Nat.mod_eq_of_lt (by omega)] at hread ⊢
          rw [if_neg (by omega)]
          exact iff_of_false (Option.some_ne_none _) fun hf =>
            hf.2.elim hread fun hcopy => hbig hcopy.1
      · rw [if_neg hecho]
        exact iff_of_false (Option.some_ne_none h) fun hf =>
          hf.2.elim hread fun hcopy => hecho ⟨h8, hcopy.2⟩

theorem udpInputMem_none_iff {mem : Bytes} {len : Nat} (src dst : IPAddress)
    (hlen : len ≤ mem.length ∨ 65536 ≤ len) :
    h.udpInputMem mem len src dst = none ↔ HandlerFaults mem len .udpInput := by
  have hfield := (ntoh16 .little (UdpHdr.ofBytes mem).len).isLt
  rw [udpInputMem, HandlerFaults]
  split
  · rename_i hshort
    exact iff_of_false (Option.some_ne_none h) fun hf => absurd hshort (Nat.not_lt.mpr hf.1)
  · rename_i h8
    split
    · rename_i hread
      exact iff_of_true rfl ⟨Nat.le_of_not_lt h8, hread⟩
    · rename_i hread
      -- a length that wrapped around is not the one in the header
      rw [if_neg (by omega)]
      exact iff_of_false (Option.some_ne_none _) fun hf => hread hf.2

theorem netHandlerMem_none_iff (behind : Bytes) (handler : NetHandler) (entry : Bytes × Nat) :
    h.netHandlerMem env behind handler entry = none ↔
      handler = .ipInput ∧ Overruns h behind entry := by
  rw [netHandlerMem]
  cases hdev : h.device entry.2 with
  | none =>
    refine iff_of_false (Option.some_ne_none h) ?_
    rintro ⟨-, -, ⟨dev, hdev', -⟩, -⟩
    rw [hdev] at hdev'
    cases hdev'
  | some dev =>
    cases handler with
    | arpInput => exact iff_of_false (Option.some_ne_none _) fun hf => by cases hf.1
    | ipInput =>
      simp only [ipInputMem, true_and]
      cases hin : LLNStack.ipInput h.ipProtocols dev entry.1 with
      | none =>
        refine iff_of_false (Option.some_ne_none h) ?_
        rintro ⟨-, ⟨dev', hdev', hadm⟩, -⟩
        rw [hdev] at hdev'
        cases hdev'
        obtain ⟨d, hd⟩ := hadm.ipInput
        rw [hin] at hd
        cases hd
      | some d =>
        obtain ⟨hadm, proto, hfind, iface, -, -, rfl⟩ := ipInput_some hin
        have hiff : h.ipHandlerMem env behind ⟨proto.handler,
            entry.1.drop (IpHdr.ofBytes entry.1).hlen, BitVec.ofInt 64
              ((IpHdr.ofBytes entry.1).totalLen - (IpHdr.ofBytes entry.1).hlen),
            (IpHdr.ofBytes entry.1).src, (IpHdr.ofBytes entry.1).dst, iface⟩ = none ↔
            HandlerFaults (entry.1.drop (IpHdr.ofBytes entry.1).hlen ++ behind)
              (IpHdr.ofBytes entry.1).handlerLen proto.handler := by
          rw [ipHandlerMem]
          cases proto.handler with
          | icmpInput => exact icmpInputMem_none_iff env h _ _ _ _ _
          | udpInput =>
            refine udpInputMem_none_iff h _ _ ?_
            have htotal := hadm.total
            rw [List.length_append, List.length_drop]
            rcases handlerLen_cases (IpHdr.ofBytes entry.1) with ⟨hle, hlen⟩ | hwrap
            · left
              rw [← IpHdr.handlerLen, hlen]
              omega
            · exact .inr hwrap
        rw [hiff]
        constructor
        · exact fun hf => ⟨fun hw => hw.not_faults hadm.total behind proto.handler hf,
            ⟨dev, hdev, hadm⟩, proto, hfind, hf⟩
        · rintro ⟨-, -, proto', hfind', hf⟩
          rw [hfind] at hfind'
          cases hfind'
          exact hf

end Host

/-! ## A message in memory -/

section Message

variable {msg : Bytes} (beyond : Bytes)

theorem icmpInput_append (hmax : msg.length ≤ 65535) (src dst : IPAddress) (iface : IpInterface) :
    icmpInput (msg ++ beyond) msg.length src dst iface =
      (icmpInput msg msg.length src dst iface).map
        fun out => { out with data := out.data ++ beyond } := by
  by_cases h8 : icmpHdrSize ≤ msg.length
  · rw [icmpInput_eq, icmpInput_eq, cksum16_append (toNat_count hmax)]
    rw [icmpHdrSize] at h8 ⊢
    rw [List.getD_append _ _ _ _ (by omega), List.getD_append _ _ _ _ (by omega),
      Endian.read32_append _ (by omega), List.drop_append_of_le_length h8]
    split <;> rfl
  · rw [icmpInput_eq, icmpInput_eq, if_neg (fun hf => h8 hf.1), if_neg (fun hf => h8 hf.1)]
    rfl

theorem icmpOutput_append {out : IcmpOutput} (hlen : out.len ≤ out.data.length) :
    icmpOutput { out with data := out.data ++ beyond } = icmpOutput out := by
  simp only [icmpOutput, List.take_append_of_le_length hlen]

theorem udpHdr_append (h8 : 8 ≤ msg.length) :
    UdpHdr.ofBytes (msg ++ beyond) = UdpHdr.ofBytes msg := by
  simp only [UdpHdr.ofBytes]
  rw [Endian.read16_append _ (by omega), Endian.read16_append _ (by omega),
    Endian.read16_append _ (by omega), Endian.read16_append _ (by omega)]

theorem udpInput_append (hmax : msg.length ≤ 65535) (allocs : Bool × Bool) (pcbs : Pcbs)
    (src dst : IPAddress) :
    udpInput allocs pcbs (msg ++ beyond) msg.length src dst =
      udpInput allocs pcbs msg msg.length src dst := by
  by_cases h8 : udpHdrSize ≤ msg.length
  · rw [udpInput, udpInput, udpCheck, udpCheck, udpHdr_append beyond h8,
      cksum16_append (toNat_count hmax), List.drop_append_of_le_length h8,
      List.take_append_of_le_length (by rw [List.length_drop])]
  · rw [udpInput, udpInput, udpCheck, udpCheck, if_pos (Nat.lt_of_not_le h8),
      if_pos (Nat.lt_of_not_le h8)]

end Message

namespace Host

variable (env : Env) (h : Host)

theorem ipHandler_append {d : IpDelivery IpHandler} {msg beyond : Bytes}
    (hdata : d.data = msg ++ beyond) (hlen : d.len.toNat = msg.length) (hmax : msg.length ≤ 65535) :
    h.ipHandler env d = h.ipHandler env { d with data := msg } := by
  cases hd : d.handler with
  | udpInput => simp only [ipHandler, hd, hdata, hlen, udpInput_append beyond hmax]
  | icmpInput =>
    simp only [ipHandler, hd, hdata, hlen, icmpInput_append beyond hmax]
    cases hout : icmpInput msg msg.length d.src d.dst d.iface with
    | none => rfl
    | some out =>
      have hfits : out.len ≤ out.data.length := by
        rw [icmpInput_some hout, List.length_drop]
      simp only [Option.map_some, icmpOutput, icmpOutput_append beyond hfits]

/-- If a handler returns, it has done what it does when the memory is part of the packet. -/
theorem ipHandlerMem_some {h' : Host} {behind : Bytes} {d : IpDelivery IpHandler}
    (hs : h.ipHandlerMem env behind d = some h') :
    h' = h.ipHandler env { d with data := d.data ++ behind } := by
  cases hd : d.handler with
  | udpInput =>
    simp only [ipHandlerMem, hd, udpInputMem] at hs
    simp only [ipHandler]
    split at hs
    · rename_i h8
      cases hs
      rw [udpInput, udpCheck, if_pos h8]
    · split at hs
      · cases hs
      · split at hs
        · cases hs
        · cases hs
          rfl
  | icmpInput =>
    simp only [ipHandlerMem, hd, icmpInputMem] at hs
    simp only [ipHandler]
    split at hs
    · rename_i h8
      cases hs
      rw [icmpInput_eq, if_neg (fun hf => absurd h8 (Nat.not_lt.mpr hf.1))]
    · split at hs
      · cases hs
      · cases hout : icmpInput (d.data ++ behind) d.len.toNat d.src d.dst d.iface with
        | none =>
          rw [hout] at hs
          cases hs
          rfl
        | some out =>
          rw [hout] at hs
          simp only [icmpOutputMem] at hs
          split at hs
          · cases hs
          · cases hs
            rfl

theorem ipInputMem_some {h' : Host} {behind data : Bytes} {dev : NetworkDevice}
    (hs : h.ipInputMem env behind data dev = some h') :
    h' = h ∨ ∃ d, h' = h.ipHandler env d := by
  rw [ipInputMem] at hs
  split at hs
  · cases hs
    exact .inl rfl
  · exact .inr ⟨_, ipHandlerMem_some env h hs⟩

theorem netHandlerMem_wellSized (handler : NetHandler) (entry : Bytes × Nat)
    (hw : handler = .ipInput → WellSized entry.1) (behind : Bytes) :
    h.netHandlerMem env behind handler entry = some (h.netHandler env handler entry) := by
  cases hs : h.netHandlerMem env behind handler entry with
  | none =>
    obtain ⟨hip, hover⟩ := (netHandlerMem_none_iff env h behind handler entry).mp hs
    exact absurd (hw hip) hover.illSized
  | some h' =>
    rw [netHandlerMem] at hs
    rw [netHandler]
    cases hdev : h.device entry.2 with
    | none =>
      rw [hdev] at hs
      exact hs.symm
    | some dev =>
      rw [hdev] at hs
      cases handler with
      | arpInput => exact hs.symm
      | ipInput =>
        simp only [ipInputMem] at hs
        simp only [ipInput]
        cases hin : LLNStack.ipInput h.ipProtocols dev entry.1 with
        | none =>
          rw [hin] at hs
          exact hs.symm
        | some d =>
          rw [hin] at hs
          obtain ⟨-, hle⟩ := (wellSized_iff entry.1).mp (hw rfl)
          obtain ⟨beyond, hdata, hlen, -⟩ := ipInput_message hin hle
          have hmax : (ipPayload entry.1).length ≤ 65535 := by
            have htotal := (ipInput_some hin).1.total
            have hlt := (IpHdr.ofBytes entry.1).totalLen_lt
            rw [length_ipPayload htotal]
            omega
          have hdata' : d.data ++ behind = ipPayload entry.1 ++ (beyond ++ behind) := by
            rw [hdata, List.append_assoc]
          have hpacket := ipHandler_append env h hdata hlen hmax
          have hmemory := ipHandler_append env h (d := { d with data := d.data ++ behind }) hdata'
            hlen hmax
          rw [ipHandlerMem_some env h hs, hmemory]
          exact congrArg some hpacket.symm

/-- A protocol handler with the input it causes; `behind` is what can be read behind the `n`-th
packet that `ip_input` is given. -/
def handleMem (env : Env) (behind : Nat → Bytes) (handler : NetHandler) (n : Nat)
    (entry : Bytes × Nat) (h : Host) : Option (Host × List NetworkInput) :=
  (h.netHandlerMem env (behind n) handler entry).map fun h' => (h', h.inputs h')

end Host

end LLNStack
