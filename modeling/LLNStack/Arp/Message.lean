import LLNStack.Net.Device

/-!
# LLNStack.Arp.Message

ARP messages for Ethernet and IPv4. `arpCheck` is what `arp_input` requires of received data before
it uses it; every message the stack builds passes, also with the padding of a short frame behind it
(`arpCheck_toBytes`).
-/

namespace LLNStack

open Lib

def arpHrdEther : BitVec 16 := 0x0001#16
def arpProIp : BitVec 16 := etherTypeIp
def arpOpRequest : BitVec 16 := 0x0001#16
def arpOpReply : BitVec 16 := 0x0002#16
def ipAddressLength : Nat := 4

/-- `struct arp_ether`, with the header's 16-bit fields as they are in memory. -/
structure ArpEther where
  hrd : BitVec 16
  pro : BitVec 16
  hln : Byte
  pln : Byte
  op : BitVec 16
  sha : EtherAddr
  spa : IPAddress
  tha : EtherAddr
  tpa : IPAddress
  deriving DecidableEq

def arpEtherSize : Nat := 28

namespace ArpEther

def toBytes (msg : ArpEther) : Bytes :=
  Endian.little.store16 msg.hrd ++ (Endian.little.store16 msg.pro ++ ([msg.hln, msg.pln] ++
    (Endian.little.store16 msg.op ++ (msg.sha.val ++ (Endian.little.store32 msg.spa ++
      (msg.tha.val ++ Endian.little.store32 msg.tpa))))))

def ofBytes (data : Bytes) : ArpEther where
  hrd := Endian.little.read16 data 0
  pro := Endian.little.read16 data 2
  hln := data.getD 4 0
  pln := data.getD 5 0
  op := Endian.little.read16 data 6
  sha := EtherAddr.read data 8
  spa := Endian.little.read32 data 14
  tha := EtherAddr.read data 18
  tpa := Endian.little.read32 data 24

@[simp] theorem length_toBytes (msg : ArpEther) : msg.toBytes.length = 28 := by
  simp [toBytes]

theorem ofBytes_toBytes (msg : ArpEther) (rest : Bytes) : ofBytes (msg.toBytes ++ rest) = msg := by
  obtain ⟨hrd, pro, hln, pln, op, sha, spa, tha, tpa⟩ := msg
  obtain ⟨a0, a1, ha, ha'⟩ := Endian.little.exists_store16 hrd
  obtain ⟨b0, b1, hb, hb'⟩ := Endian.little.exists_store16 pro
  obtain ⟨c0, c1, hc, hc'⟩ := Endian.little.exists_store16 op
  obtain ⟨d0, d1, d2, d3, hd, hd'⟩ := Endian.little.exists_store32 spa
  obtain ⟨e0, e1, e2, e3, he, he'⟩ := Endian.little.exists_store32 tpa
  obtain ⟨s0, s1, s2, s3, s4, s5, rfl⟩ := sha.exists_bytes
  obtain ⟨t0, t1, t2, t3, t4, t5, rfl⟩ := tha.exists_bytes
  simp only [toBytes, ha, hb, hc, hd, he]
  rw [← ha', ← hb', ← hc', ← hd', ← he']
  rfl

end ArpEther

/-- The message with these addresses, as `arp_request` and `arp_reply` fill it in. -/
def arpEther (op : BitVec 16) (sha : EtherAddr) (spa : IPAddress) (tha : EtherAddr)
    (tpa : IPAddress) : ArpEther :=
  ⟨hton16 .little arpHrdEther, hton16 .little arpProIp, BitVec.ofNat 8 etherAddrLen,
    BitVec.ofNat 8 ipAddressLength, hton16 .little op, sha, spa, tha, tpa⟩

/-- The message in `data`, if it is long enough and for Ethernet and IPv4. -/
def arpCheck (data : Bytes) : Option ArpEther :=
  let msg := ArpEther.ofBytes data
  if data.length < arpEtherSize then none
  else if ntoh16 .little msg.hrd ≠ arpHrdEther ∨ msg.hln ≠ BitVec.ofNat 8 etherAddrLen then none
  else if ntoh16 .little msg.pro ≠ arpProIp ∨ msg.pln ≠ BitVec.ofNat 8 ipAddressLength then none
  else some msg

theorem arpCheck_toBytes (op : BitVec 16) (sha tha : EtherAddr) (spa tpa : IPAddress)
    (rest : Bytes) :
    arpCheck ((arpEther op sha spa tha tpa).toBytes ++ rest) =
      some (arpEther op sha spa tha tpa) := by
  simp only [arpCheck, ArpEther.ofBytes_toBytes]
  rw [if_neg (by simp [arpEtherSize]), if_neg (by simp [arpEther]), if_neg (by simp [arpEther])]

end LLNStack
