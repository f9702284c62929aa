import LLNStack.Lib.Words
import LLNStack.Lib.CarryFold

/-!
# LLNStack.Lib.InternetChecksum

The Internet checksum as RFC 1071 defines it, apart from any way to compute it: the octets are
paired to 16-bit words, most significant octet first, a last odd octet is padded with a zero octet
on the right, and the words are added with one's complement addition. The checksum is the complement
of that sum.

`toNat_onesSum`: adding with end-around carry word by word comes to the same as folding the carries
of the sum of all words once.
-/

namespace LLNStack
namespace Lib

/-- One's complement addition: the carry out of the top bit comes back in at the bottom. -/
def onesAdd (x y : BitVec 16) : BitVec 16 :=
  if x.toNat + y.toNat < 2 ^ 16 then x + y else x + y + 1#16

def onesSum : Bytes → BitVec 16
  | a :: b :: rest => onesAdd (Endian.big.load16 a b) (onesSum rest)
  | [a] => Endian.big.load16 a 0
  | [] => 0#16

def internetChecksum (data : Bytes) : BitVec 16 := ~~~ onesSum data

/-- The same words, added as numbers. -/
def octetPairSum : Bytes → Nat
  | a :: b :: rest => 256 * a.toNat + b.toNat + octetPairSum rest
  | [a] => 256 * a.toNat
  | [] => 0

theorem toNat_onesAdd (x y : BitVec 16) :
    (onesAdd x y).toNat = carryFold 65534 (x.toNat + y.toNat) := by
  have hx := x.isLt; have hy := y.isLt
  rw [onesAdd]
  split
  · rename_i h
    rw [BitVec.toNat_add, Nat.mod_eq_of_lt h, carryFold_of_lt (by omega)]
  · rename_i h
    rw [carryFold_of_le (by omega), carryFold_of_lt (by omega), BitVec.toNat_add, BitVec.toNat_add,
      BitVec.toNat_ofNat]
    omega

theorem toNat_onesSum (data : Bytes) :
    (onesSum data).toNat = carryFold 65534 (octetPairSum data) := by
  fun_induction onesSum data with
  | case1 a b rest ih =>
    rw [toNat_onesAdd, ih, Endian.toNat_load16_big, octetPairSum, Nat.add_comm, carryFold_add,
      Nat.add_comm]
  | case2 a =>
    have ha := a.isLt
    rw [Endian.toNat_load16_big, octetPairSum, carryFold_of_lt (by omega)]
    rfl
  | case3 => rw [octetPairSum, carryFold_of_lt (by omega)]; rfl

theorem toNat_internetChecksum (data : Bytes) :
    (internetChecksum data).toNat = 65535 - carryFold 65534 (octetPairSum data) := by
  rw [internetChecksum, BitVec.toNat_not, toNat_onesSum]

end Lib
end LLNStack
