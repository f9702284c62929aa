import LLNStack.Util

/-!
# LLNStack.Net.Ether

Ethernet framing, `ether.c`. `etherFrame` is the frame `ether_transmit_helper` gives to the
driver, padded to the minimum size; `etherPollHelper` is what `ether_poll_helper` makes of a frame
read from the driver. `etherPollHelper_etherFrame`: a frame that was sent to this device, or to
all, is received with its type, its payload and the padding.
-/

namespace LLNStack

open Lib

def etherAddrLen : Nat := 6
def etherHdrSize : Nat := 14
def etherFrameSizeMin : Nat := 60
def etherFrameSizeMax : Nat := 1514
def etherPayloadSizeMin : Nat := etherFrameSizeMin - etherHdrSize
def etherPayloadSizeMax : Nat := etherFrameSizeMax - etherHdrSize

def etherTypeIp : BitVec 16 := 0x0800#16
def etherTypeArp : BitVec 16 := 0x0806#16

abbrev EtherAddr := { a : Bytes // a.length = etherAddrLen }

namespace EtherAddr

def ofBytes (a0 a1 a2 a3 a4 a5 : Byte) : EtherAddr := ⟨[a0, a1, a2, a3, a4, a5], rfl⟩

/-- The six bytes at offset `off`. Past the end of the string the bytes read as zero. -/
def read (data : Bytes) (off : Nat) : EtherAddr :=
  ofBytes (data.getD off 0) (data.getD (off + 1) 0) (data.getD (off + 2) 0) (data.getD (off + 3) 0)
    (data.getD (off + 4) 0) (data.getD (off + 5) 0)

@[simp] theorem length_val (a : EtherAddr) : a.val.length = 6 := a.property

theorem exists_bytes (a : EtherAddr) :
    ∃ a0 a1 a2 a3 a4 a5, a = ofBytes a0 a1 a2 a3 a4 a5 := by
  obtain ⟨l, hl⟩ := a
  match l, hl with
  | [a0, a1, a2, a3, a4, a5], _ => exact ⟨a0, a1, a2, a3, a4, a5, rfl⟩

theorem read_append (pre rest : Bytes) (a : EtherAddr) :
    read (pre ++ (a.val ++ rest)) pre.length = a := by
  obtain ⟨a0, a1, a2, a3, a4, a5, rfl⟩ := exists_bytes a
  have h0 := Endian.getD_append_add pre ((ofBytes a0 a1 a2 a3 a4 a5).val ++ rest) 0
  rw [Nat.add_zero] at h0
  simp only [read, h0, Endian.getD_append_add]
  rfl

end EtherAddr

def etherAddrAny : EtherAddr := .ofBytes 0x00 0x00 0x00 0x00 0x00 0x00
def etherAddrBroadcast : EtherAddr := .ofBytes 0xff 0xff 0xff 0xff 0xff 0xff

structure EtherHdr where
  dst : EtherAddr
  src : EtherAddr
  type : BitVec 16
  deriving DecidableEq

namespace EtherHdr

def toBytes (hdr : EtherHdr) : Bytes :=
  hdr.dst.val ++ (hdr.src.val ++ Endian.little.store16 hdr.type)

def ofBytes (data : Bytes) : EtherHdr where
  dst := EtherAddr.read data 0
  src := EtherAddr.read data 6
  type := Endian.little.read16 data 12

@[simp] theorem length_toBytes (hdr : EtherHdr) : hdr.toBytes.length = 14 := by
  simp [toBytes]

theorem ofBytes_toBytes (hdr : EtherHdr) (rest : Bytes) : ofBytes (hdr.toBytes ++ rest) = hdr := by
  obtain ⟨dst, src, type⟩ := hdr
  have hdst := EtherAddr.read_append [] (src.val ++ (Endian.little.store16 type ++ rest)) dst
  have hsrc := EtherAddr.read_append dst.val (Endian.little.store16 type ++ rest) src
  have htype := Endian.little.read16_store16 (dst.val ++ src.val) rest type
  simp only [List.length_nil, List.length_append, EtherAddr.length_val, List.nil_append,
    List.append_assoc] at hdst hsrc htype
  simp only [ofBytes, toBytes, List.append_assoc, hdst, hsrc, htype]

end EtherHdr

/-- The frame built by `ether_transmit_helper` on a device with this address. -/
def etherFrame (address : EtherAddr) (type : BitVec 16) (data : Bytes) (dst : EtherAddr) : Bytes :=
  (EtherHdr.mk dst address (hton16 .little type)).toBytes ++
    (data ++ List.replicate (etherPayloadSizeMin - data.length) 0)

/-- `frame` is what the driver's read has; the callback stores the part that fits the buffer. The
result is the type and the data that go to `network_input_handler`. -/
def etherPollHelper (address : EtherAddr) (frame : Bytes) : Option (BitVec 16 × Bytes) :=
  let frame := frame.take etherFrameSizeMax
  if frame.length < etherHdrSize then none
  else
    let hdr := EtherHdr.ofBytes frame
    if address ≠ hdr.dst ∧ etherAddrBroadcast ≠ hdr.dst then none
    else some (ntoh16 .little hdr.type, frame.drop etherHdrSize)

/-! ## Sending and receiving -/

theorem length_etherFrame (address : EtherAddr) (type : BitVec 16) (data : Bytes)
    (dst : EtherAddr) :
    (etherFrame address type data dst).length = 14 + max data.length 46 := by
  simp only [etherFrame, etherPayloadSizeMin, etherFrameSizeMin, etherHdrSize, List.length_append,
    EtherHdr.length_toBytes, List.length_replicate]
  omega

theorem etherPollHelper_etherFrame {address src dst : EtherAddr} {type : BitVec 16} {data : Bytes}
    (hlen : data.length ≤ 1500) :
    etherPollHelper address (etherFrame src type data dst) =
      if dst = address ∨ dst = etherAddrBroadcast then
        some (type, data ++ List.replicate (46 - data.length) 0)
      else none := by
  have hfl := length_etherFrame src type data dst
  have htake : (etherFrame src type data dst).take etherFrameSizeMax =
      etherFrame src type data dst := List.take_of_length_le (by rw [hfl, etherFrameSizeMax]; omega)
  have hhdr : EtherHdr.ofBytes (etherFrame src type data dst) =
      ⟨dst, src, hton16 .little type⟩ := EtherHdr.ofBytes_toBytes ..
  have hdrop : (etherFrame src type data dst).drop etherHdrSize =
      data ++ List.replicate (46 - data.length) 0 := List.drop_left' (by simp [etherHdrSize])
  simp only [etherPollHelper, htake, hhdr, hdrop, ntoh16_hton16]
  rw [if_neg (by rw [hfl, etherHdrSize]; omega)]
  by_cases h : dst = address ∨ dst = etherAddrBroadcast
  · rw [if_pos h, if_neg]
    rcases h with rfl | rfl <;> simp
  · rw [if_neg h, if_pos]
    exact ⟨fun he => h (.inl he.symm), fun he => h (.inr he.symm)⟩

end LLNStack
