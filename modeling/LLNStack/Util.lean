import LLNStack.Lib.Words
import LLNStack.Lib.CarryFold

/-!
# LLNStack.Util

`util.c`: byte order conversion and the 16-bit checksum. The byte order of the host, which the
source finds out at run time (`byteorder`), is an argument.

* `toNat_cksum16`: the checksum is the complement of the carry fold of the word sum, as long as the
  32-bit accumulator does not wrap; it does not for up to 65535 bytes.
* `cksum16_verify`: a string in which the checksum was stored in a zero word verifies to 0.
-/

namespace LLNStack

open Lib

/-! ## Byte order -/

def byteswap16 (v : BitVec 16) : BitVec 16 :=
  (v &&& 0x00ff#16) <<< 8 ||| (v &&& 0xff00#16) >>> 8

def byteswap32 (v : BitVec 32) : BitVec 32 :=
  (v &&& 0x000000ff#32) <<< 24 ||| (v &&& 0x0000ff00#32) <<< 8 |||
    (v &&& 0x00ff0000#32) >>> 8 ||| (v &&& 0xff000000#32) >>> 24

def hton16 (endian : Endian) (h : BitVec 16) : BitVec 16 :=
  if endian = .little then byteswap16 h else h

def ntoh16 (endian : Endian) (n : BitVec 16) : BitVec 16 :=
  if endian = .little then byteswap16 n else n

def ntoh32 (endian : Endian) (n : BitVec 32) : BitVec 32 :=
  if endian = .little then byteswap32 n else n

@[simp] theorem byteswap16_byteswap16 (v : BitVec 16) : byteswap16 (byteswap16 v) = v := by
  apply BitVec.eq_of_getLsbD_eq
  intro i hi
  interval_cases i <;> simp [byteswap16]

theorem byteswap32_byteswap32 (v : BitVec 32) : byteswap32 (byteswap32 v) = v := by
  apply BitVec.eq_of_getLsbD_eq
  intro i hi
  interval_cases i <;> simp [byteswap32]

@[simp] theorem ntoh16_hton16 (endian : Endian) (v : BitVec 16) :
    ntoh16 endian (hton16 endian v) = v := by
  cases endian <;> simp [ntoh16, hton16]

@[simp] theorem hton16_ntoh16 (endian : Endian) (v : BitVec 16) :
    hton16 endian (ntoh16 endian v) = v :=
  ntoh16_hton16 endian v

theorem hton16_injective (endian : Endian) : Function.Injective (hton16 endian) := fun v w h => by
  rw [← ntoh16_hton16 endian v, h, ntoh16_hton16]

theorem toNat_byteswap16 (v : BitVec 16) :
    (byteswap16 v).toNat = 256 * (v.toNat % 256) + v.toNat / 256 := by
  have hv := v.isLt
  have hlo : v.toNat &&& 255 = v.toNat % 256 := Nat.and_two_pow_sub_one_eq_mod v.toNat 8
  have hhi : (v.toNat &&& 65280) >>> 8 = v.toNat / 256 := by
    rw [Nat.shiftRight_and_distrib, Nat.shiftRight_eq_div_pow,
      show 65280 >>> 8 = 2 ^ 8 - 1 from rfl, Nat.and_two_pow_sub_one_eq_mod]
    omega
  have hor : (v.toNat % 256) <<< 8 ||| v.toNat / 256 = (v.toNat % 256) <<< 8 + v.toNat / 256 :=
    (Nat.shiftLeft_add_eq_or_of_lt (by omega) _).symm
  simp only [byteswap16, BitVec.toNat_or, BitVec.toNat_shiftLeft, BitVec.toNat_and,
    BitVec.toNat_ushiftRight, BitVec.toNat_ofNat]
  rw [Nat.mod_eq_of_lt (a := 0x00ff) (by decide), Nat.mod_eq_of_lt (a := 0xff00) (by decide), hlo,
    hhi, Nat.mod_eq_of_lt (by rw [Nat.shiftLeft_eq]; omega), hor, Nat.shiftLeft_eq]
  omega

theorem toNat_ntoh16_read16 (data : Bytes) (off : Nat) :
    (ntoh16 .little (Endian.little.read16 data off)).toNat =
      256 * (data.getD off 0).toNat + (data.getD (off + 1) 0).toNat := by
  have ha := (data.getD off 0).isLt
  have hb := (data.getD (off + 1) 0).isLt
  rw [ntoh16, if_pos rfl, toNat_byteswap16, Endian.read16, Endian.toNat_load16_little]
  omega

/-! ## `cksum16` -/

/-- The summing loop: `count` bytes are left, and are the list. A last odd byte is added as it
is, on either byte order. -/
def cksumSum (endian : Endian) : Bytes → BitVec 32 → BitVec 32
  | a :: b :: rest, sum => cksumSum endian rest (sum + (endian.load16 a b).setWidth 32)
  | [a], sum => sum + a.setWidth 32
  | [], sum => sum

theorem ushiftRight_16_eq_zero (sum : BitVec 32) : sum >>> 16 = 0#32 ↔ sum.toNat < 65536 := by
  rw [← BitVec.toNat_inj, BitVec.toNat_ushiftRight, Nat.shiftRight_eq_div_pow]
  simp only [BitVec.toNat_ofNat, Nat.zero_mod]
  omega

theorem toNat_foldOnce (sum : BitVec 32) :
    ((sum &&& 0xffff#32) + sum >>> 16).toNat = sum.toNat % 65536 + sum.toNat / 65536 := by
  have hs := sum.isLt
  have hand : sum.toNat &&& 65535 = sum.toNat % 65536 :=
    Nat.and_two_pow_sub_one_eq_mod sum.toNat 16
  rw [BitVec.toNat_add, BitVec.toNat_and, BitVec.toNat_ushiftRight, Nat.shiftRight_eq_div_pow,
    BitVec.toNat_ofNat, Nat.mod_eq_of_lt (a := 0xffff) (by omega), hand]
  exact Nat.mod_eq_of_lt (by omega)

def cksumFold (sum : BitVec 32) : BitVec 32 :=
  if sum >>> 16 = 0#32 then sum else cksumFold ((sum &&& 0xffff#32) + sum >>> 16)
termination_by sum.toNat
decreasing_by
  rename_i h
  rw [ushiftRight_16_eq_zero] at h
  rw [toNat_foldOnce]
  omega

def cksum16 (endian : Endian) (data : Bytes) (count : BitVec 16) (init : BitVec 32) : BitVec 16 :=
  ~~~ (cksumFold (cksumSum endian (data.take count.toNat) init)).setWidth 16

/-- The 16-bit words of `data`, added as numbers. -/
def wordSum (endian : Endian) : Bytes → Nat
  | a :: b :: rest => (endian.load16 a b).toNat + wordSum endian rest
  | [a] => a.toNat
  | [] => 0

theorem toNat_cksumSum (endian : Endian) (data : Bytes) (sum : BitVec 32) :
    (cksumSum endian data sum).toNat = (sum.toNat + wordSum endian data) % 2 ^ 32 := by
  fun_induction cksumSum endian data sum with
  | case1 a b rest sum ih =>
    have := (endian.load16 a b).isLt
    rw [ih, wordSum, BitVec.toNat_add, BitVec.toNat_setWidth]
    omega
  | case2 a sum =>
    have := a.isLt
    rw [wordSum, BitVec.toNat_add, BitVec.toNat_setWidth]
    omega
  | case3 sum =>
    have := sum.isLt
    rw [wordSum]
    omega

theorem toNat_cksumFold (sum : BitVec 32) :
    (cksumFold sum).toNat = carryFold 65534 sum.toNat := by
  fun_induction cksumFold sum with
  | case1 sum h =>
    rw [ushiftRight_16_eq_zero] at h
    rw [carryFold_of_lt (by omega)]
  | case2 sum h ih =>
    rw [ushiftRight_16_eq_zero] at h
    rw [ih, toNat_foldOnce, carryFold_of_le (s := sum.toNat) (by omega)]

theorem wordSum_le (endian : Endian) (data : Bytes) :
    wordSum endian data ≤ 65535 * ((data.length + 1) / 2) := by
  fun_induction wordSum endian data with
  | case1 a b rest ih =>
    have := (endian.load16 a b).isLt
    simp only [List.length_cons]
    omega
  | case2 a =>
    have := a.isLt
    simp only [List.length_cons, List.length_nil]
    omega
  | case3 => simp

theorem wordSum_append (endian : Endian) (xs ys : Bytes) (h : xs.length % 2 = 0) :
    wordSum endian (xs ++ ys) = wordSum endian xs + wordSum endian ys := by
  fun_induction wordSum endian xs with
  | case1 a b rest ih =>
    simp only [List.length_cons] at h
    rw [List.cons_append, List.cons_append, wordSum, ih (by omega), Nat.add_assoc]
  | case2 a => simp at h
  | case3 => simp

@[simp] theorem wordSum_store16 (endian : Endian) (v : BitVec 16) :
    wordSum endian (endian.store16 v) = v.toNat := by
  obtain ⟨a, b, hs, hl⟩ := endian.exists_store16 v
  rw [hs]
  simp [wordSum, hl]

theorem toNat_count {n : Nat} (h : n ≤ 65535) : (BitVec.ofNat 16 n).toNat = n := by
  rw [BitVec.toNat_ofNat]
  omega

theorem toNat_cksum16 (endian : Endian) {data : Bytes} {count : BitVec 16} {init : BitVec 32}
    (hc : count.toNat = data.length) (hi : init.toNat ≤ 65535) :
    (cksum16 endian data count init).toNat =
      65535 - carryFold 65534 (init.toNat + wordSum endian data) := by
  have hlen : data.length ≤ 65535 := by have := count.isLt; omega
  have hle := wordSum_le endian data
  have hbound : init.toNat + wordSum endian data < 2 ^ 32 := by omega
  have hfold : (cksumFold (cksumSum endian data init)).toNat =
      carryFold 65534 (init.toNat + wordSum endian data) := by
    rw [toNat_cksumFold, toNat_cksumSum, Nat.mod_eq_of_lt hbound]
  have hlt := carryFold_lt 65534 (init.toNat + wordSum endian data)
  rw [cksum16, hc, List.take_length, BitVec.toNat_not, BitVec.toNat_setWidth, hfold,
    Nat.mod_eq_of_lt (by omega)]

theorem cksum16_eq_zero_iff {endian : Endian} {data : Bytes} {count : BitVec 16}
    {init : BitVec 32} (hc : count.toNat = data.length) (hi : init.toNat ≤ 65535) :
    cksum16 endian data count init = 0#16 ↔
      carryFold 65534 (init.toNat + wordSum endian data) = 65535 := by
  have hlt := carryFold_lt 65534 (init.toNat + wordSum endian data)
  have heq := toNat_cksum16 endian hc hi
  constructor
  · intro h
    rw [h] at heq
    simp only [BitVec.toNat_ofNat, Nat.zero_mod] at heq
    omega
  · intro h
    apply BitVec.eq_of_toNat_eq
    rw [heq, h]; rfl

/-- Adding the checksum of a string to its word sum, as storing it in a zero word does, gives a
string that verifies to 0. -/
theorem cksum16_verify {endian : Endian} (data : Bytes) {data' : Bytes} {count : BitVec 16}
    {init : BitVec 32} (hc : count.toNat = data.length) (hc' : count.toNat = data'.length)
    (hi : init.toNat ≤ 65535)
    (hw : wordSum endian data' =
      wordSum endian data + (cksum16 endian data count init).toNat) :
    cksum16 endian data' count init = 0#16 := by
  rw [cksum16_eq_zero_iff hc' hi, hw, toNat_cksum16 endian hc hi, ← Nat.add_assoc]
  exact carryFold_complement 65534 _

theorem cksum16_verify_append {endian : Endian} {hdr hdr' payload : Bytes} {count : BitVec 16}
    {init : BitVec 32} (heven : hdr.length % 2 = 0) (hsame : hdr'.length = hdr.length)
    (hc : count.toNat = hdr.length + payload.length) (hi : init.toNat ≤ 65535)
    (hw : wordSum endian hdr' =
      wordSum endian hdr + (cksum16 endian (hdr ++ payload) count init).toNat) :
    cksum16 endian (hdr' ++ payload) count init = 0#16 := by
  refine cksum16_verify (hdr ++ payload) (by rw [hc, List.length_append])
    (by rw [hc, List.length_append, hsame]) hi ?_
  rw [wordSum_append _ _ _ heven, wordSum_append _ _ _ (by rw [hsame]; exact heven), hw]
  omega

theorem cksum16_append {endian : Endian} {data rest : Bytes} {count : BitVec 16}
    {init : BitVec 32} (hc : count.toNat = data.length) :
    cksum16 endian (data ++ rest) count init = cksum16 endian data count init := by
  simp [cksum16, hc]

end LLNStack
