import LLNStack.Ip.Packet

/-!
# LLNStack.Icmp

`icmp.c`: what `icmp_input` does with a message and what `icmp_output` sends. `data` is the memory
from the pointer on and `len` the `size_t` argument; nothing here checks one against the other.

`icmpInput_eq` says which messages are answered, and `length_icmpOutput`, `cksum16_icmpOutput` and
`drop_icmpOutput` what the answer looks like.
-/

namespace LLNStack

open Lib

def icmpTypeEchoreply : Byte := 0
def icmpTypeEcho : Byte := 8
def icmpHdrSize : Nat := 8
def icmpBufsiz : Nat := maxIpPayloadSize

structure IcmpHdr where
  type : Byte
  code : Byte
  sum : BitVec 16
  values : BitVec 32
  deriving DecidableEq, Repr

namespace IcmpHdr

def toBytes (hdr : IcmpHdr) : Bytes :=
  [hdr.type, hdr.code] ++ (Endian.little.store16 hdr.sum ++ Endian.little.store32 hdr.values)

def ofBytes (data : Bytes) : IcmpHdr where
  type := data.getD 0 0
  code := data.getD 1 0
  sum := Endian.little.read16 data 2
  values := Endian.little.read32 data 4

@[simp] theorem length_toBytes (hdr : IcmpHdr) : hdr.toBytes.length = 8 := by
  simp [toBytes]

theorem wordSum_sum (hdr : IcmpHdr) (v : BitVec 16) :
    wordSum .little { hdr with sum := v }.toBytes =
      wordSum .little { hdr with sum := 0#16 }.toBytes + v.toNat := by
  simp (disch := simp) only [toBytes, wordSum_append, wordSum_store16]
  simp only [BitVec.toNat_ofNat, Nat.zero_mod]
  omega

end IcmpHdr

/-- The arguments of `icmp_output`. -/
structure IcmpOutput where
  type : Byte
  code : Byte
  values : BitVec 32
  data : Bytes
  len : Nat
  src : IPAddress
  dst : IPAddress

/-- The call of `icmp_output` that answers the message, if there is one. -/
def icmpInput (data : Bytes) (len : Nat) (src dst : IPAddress) (iface : IpInterface) :
    Option IcmpOutput :=
  let hdr := IcmpHdr.ofBytes data
  if len < icmpHdrSize then none
  else if cksum16 .little data (BitVec.ofNat 16 len) 0 ≠ 0#16 then none
  else if hdr.type = icmpTypeEcho then
    let dst := if dst ≠ iface.unicast then iface.unicast else dst
    some ⟨icmpTypeEchoreply, hdr.code, hdr.values, data.drop icmpHdrSize, len - icmpHdrSize,
      dst, src⟩
  else none

/-- The message `icmp_output` gives to `ip_send_packet`. It copies `len` bytes behind the header
in a buffer of `icmpBufsiz` bytes. -/
def icmpOutput (out : IcmpOutput) : Bytes :=
  let hdr : IcmpHdr := ⟨out.type, out.code, 0#16, out.values⟩
  let msg := hdr.toBytes ++ out.data.take out.len
  let sum := cksum16 .little msg (BitVec.ofNat 16 (icmpHdrSize + out.len)) 0
  { hdr with sum := sum }.toBytes ++ out.data.take out.len

/-! ## Which messages are answered -/

theorem icmpInput_eq (data : Bytes) (len : Nat) (src dst : IPAddress) (iface : IpInterface) :
    icmpInput data len src dst iface =
      if icmpHdrSize ≤ len ∧ cksum16 .little data (BitVec.ofNat 16 len) 0 = 0#16 ∧
          data.getD 0 0 = icmpTypeEcho then
        some ⟨icmpTypeEchoreply, data.getD 1 0, Endian.little.read32 data 4,
          data.drop icmpHdrSize, len - icmpHdrSize, iface.unicast, src⟩
      else none := by
  have hdst : (if dst ≠ iface.unicast then iface.unicast else dst) = iface.unicast := by
    split
    · rfl
    · rename_i h
      exact not_not.mp h
  simp only [icmpInput, IcmpHdr.ofBytes, hdst]
  by_cases hlen : len < icmpHdrSize
  · rw [if_pos hlen, if_neg (fun h => absurd h.1 (Nat.not_le.mpr hlen))]
  · by_cases hsum : cksum16 .little data (BitVec.ofNat 16 len) 0 = 0#16
    · by_cases htype : data.getD 0 0 = icmpTypeEcho
      · simp only [hlen, hsum, htype, Nat.le_of_not_lt hlen, if_false, if_true, ne_eq,
          not_true_eq_false, and_self]
      · simp only [hlen, hsum, htype, if_false, ne_eq, not_true_eq_false, and_false]
    · simp only [hlen, hsum, if_false, if_true, ne_eq, not_false_eq_true, and_false, false_and]

theorem icmpInput_some {data : Bytes} {len : Nat} {src dst : IPAddress} {iface : IpInterface}
    {out : IcmpOutput} (h : icmpInput data len src dst iface = some out) :
    out = ⟨icmpTypeEchoreply, data.getD 1 0, Endian.little.read32 data 4,
      data.drop icmpHdrSize, len - icmpHdrSize, iface.unicast, src⟩ := by
  rw [icmpInput_eq] at h
  split at h
  · cases h; rfl
  · cases h

theorem icmpInput_len {data : Bytes} {len : Nat} {src dst : IPAddress} {iface : IpInterface}
    {out : IcmpOutput} (h : icmpInput data len src dst iface = some out) :
    out.len = len - 8 := by
  rw [icmpInput_some h]
  rfl

/-! ## The answer -/

section Output

variable {out : IcmpOutput}

theorem icmpOutput_eq (out : IcmpOutput) : ∃ sum,
    icmpOutput out = (⟨out.type, out.code, sum, out.values⟩ : IcmpHdr).toBytes ++
      out.data.take out.len := ⟨_, rfl⟩

theorem type_icmpOutput (out : IcmpOutput) (rest : Bytes) :
    (icmpOutput out ++ rest).getD 0 0 = out.type := rfl

theorem code_icmpOutput (out : IcmpOutput) : (icmpOutput out).getD 1 0 = out.code := rfl

theorem length_icmpOutput (hlen : out.len ≤ out.data.length) :
    (icmpOutput out).length = 8 + out.len := by
  obtain ⟨sum, h⟩ := icmpOutput_eq out
  rw [h, List.length_append, IcmpHdr.length_toBytes, List.length_take, Nat.min_eq_left hlen]

theorem drop_icmpOutput (out : IcmpOutput) :
    (icmpOutput out).drop 4 = Endian.little.store32 out.values ++ out.data.take out.len := by
  obtain ⟨sum, h⟩ := icmpOutput_eq out
  obtain ⟨a, b, hs, -⟩ := Endian.little.exists_store16 sum
  rw [h, IcmpHdr.toBytes, hs]
  rfl

theorem cksum16_icmpOutput (hlen : out.len ≤ out.data.length) (hmax : out.len ≤ 65527) :
    cksum16 .little (icmpOutput out) (BitVec.ofNat 16 (icmpOutput out).length) 0 = 0#16 := by
  rw [length_icmpOutput hlen]
  refine cksum16_verify_append (by simp) (by simp) ?_ (by decide)
    (IcmpHdr.wordSum_sum ⟨out.type, out.code, 0#16, out.values⟩ _)
  rw [toNat_count (by omega), IcmpHdr.length_toBytes, List.length_take, Nat.min_eq_left hlen]

end Output

theorem icmpInput_echoreply {data : Bytes} (h : data.getD 0 0 = icmpTypeEchoreply) (len : Nat)
    (src dst : IPAddress) (iface : IpInterface) : icmpInput data len src dst iface = none := by
  rw [icmpInput_eq, if_neg]
  rintro ⟨-, -, htype⟩
  rw [h] at htype
  exact absurd htype (by decide)

end LLNStack
