import Mathlib

/-!
# LLNStack.Lib.Words

Byte strings and the 16- and 32-bit words stored in them, on a host of either byte order.
`load` takes the bytes in memory order; `store` gives them back in memory order. `read16` and
`read32` load a word at an offset, and `write16` replaces one.
-/

namespace LLNStack
namespace Lib

abbrev Byte := BitVec 8
abbrev Bytes := List Byte

inductive Endian where
  | little
  | big
  deriving DecidableEq, Repr

namespace Endian

def load16 : Endian → Byte → Byte → BitVec 16
  | .little, a, b => BitVec.ofNat 16 (a.toNat + 256 * b.toNat)
  | .big, a, b => BitVec.ofNat 16 (256 * a.toNat + b.toNat)

def store16 : Endian → BitVec 16 → Bytes
  | .little, v => [BitVec.ofNat 8 v.toNat, BitVec.ofNat 8 (v.toNat / 256)]
  | .big, v => [BitVec.ofNat 8 (v.toNat / 256), BitVec.ofNat 8 v.toNat]

def load32 : Endian → Byte → Byte → Byte → Byte → BitVec 32
  | .little, a, b, c, d =>
    BitVec.ofNat 32 (a.toNat + 256 * b.toNat + 65536 * c.toNat + 16777216 * d.toNat)
  | .big, a, b, c, d =>
    BitVec.ofNat 32 (16777216 * a.toNat + 65536 * b.toNat + 256 * c.toNat + d.toNat)

def store32 : Endian → BitVec 32 → Bytes
  | .little, v =>
    [BitVec.ofNat 8 v.toNat, BitVec.ofNat 8 (v.toNat / 256), BitVec.ofNat 8 (v.toNat / 65536),
      BitVec.ofNat 8 (v.toNat / 16777216)]
  | .big, v =>
    [BitVec.ofNat 8 (v.toNat / 16777216), BitVec.ofNat 8 (v.toNat / 65536),
      BitVec.ofNat 8 (v.toNat / 256), BitVec.ofNat 8 v.toNat]

/-- The word at byte offset `off`. Past the end of the string the bytes read as zero. -/
def read16 (e : Endian) (data : Bytes) (off : Nat) : BitVec 16 :=
  e.load16 (data.getD off 0) (data.getD (off + 1) 0)

def read32 (e : Endian) (data : Bytes) (off : Nat) : BitVec 32 :=
  e.load32 (data.getD off 0) (data.getD (off + 1) 0) (data.getD (off + 2) 0)
    (data.getD (off + 3) 0)

def write16 (e : Endian) (data : Bytes) (off : Nat) (v : BitVec 16) : Bytes :=
  data.take off ++ (e.store16 v ++ data.drop (off + 2))

@[simp] theorem length_store16 (e : Endian) (v : BitVec 16) : (e.store16 v).length = 2 := by
  cases e <;> rfl

@[simp] theorem length_store32 (e : Endian) (v : BitVec 32) : (e.store32 v).length = 4 := by
  cases e <;> rfl

theorem toNat_load16_little (a b : Byte) :
    (Endian.little.load16 a b).toNat = a.toNat + 256 * b.toNat := by
  have ha := a.isLt; have hb := b.isLt
  simp only [load16, BitVec.toNat_ofNat]
  omega

theorem toNat_load16_big (a b : Byte) :
    (Endian.big.load16 a b).toNat = 256 * a.toNat + b.toNat := by
  have ha := a.isLt; have hb := b.isLt
  simp only [load16, BitVec.toNat_ofNat]
  omega

theorem exists_store16 (e : Endian) (v : BitVec 16) :
    ∃ a b, e.store16 v = [a, b] ∧ e.load16 a b = v := by
  have hv := v.isLt
  cases e with
  | little =>
    refine ⟨_, _, rfl, BitVec.eq_of_toNat_eq ?_⟩
    rw [toNat_load16_little]
    simp only [BitVec.toNat_ofNat]
    omega
  | big =>
    refine ⟨_, _, rfl, BitVec.eq_of_toNat_eq ?_⟩
    rw [toNat_load16_big]
    simp only [BitVec.toNat_ofNat]
    omega

theorem exists_store32 (e : Endian) (v : BitVec 32) :
    ∃ a b c d, e.store32 v = [a, b, c, d] ∧ e.load32 a b c d = v := by
  have hv := v.isLt
  cases e with
  | little =>
    refine ⟨_, _, _, _, rfl, BitVec.eq_of_toNat_eq ?_⟩
    simp only [load32, BitVec.toNat_ofNat]
    omega
  | big =>
    refine ⟨_, _, _, _, rfl, BitVec.eq_of_toNat_eq ?_⟩
    simp only [load32, BitVec.toNat_ofNat]
    omega

theorem store16_load16 (e : Endian) (a b : Byte) : e.store16 (e.load16 a b) = [a, b] := by
  have ha := a.isLt; have hb := b.isLt
  have hdiv : ∀ x y : Nat, x < 256 → (x + 256 * y) / 256 = y := fun x y hx => by omega
  cases e with
  | little =>
    rw [store16, toNat_load16_little, hdiv _ _ ha, BitVec.ofNat_add, BitVec.ofNat_toNat]
    simp [BitVec.ofNat_mul]
  | big =>
    rw [store16, toNat_load16_big, Nat.add_comm, hdiv _ _ hb, BitVec.ofNat_add, BitVec.ofNat_toNat]
    simp [BitVec.ofNat_mul]

theorem store32_load32 (e : Endian) (a b c d : Byte) :
    e.store32 (e.load32 a b c d) = [a, b, c, d] := by
  have ha := a.isLt; have hb := b.isLt; have hc := c.isLt; have hd := d.isLt
  have hbyte : ∀ {x : Byte} {n : Nat}, n % 256 = x.toNat → BitVec.ofNat 8 n = x := fun h =>
    BitVec.eq_of_toNat_eq (by rw [BitVec.toNat_ofNat]; exact h)
  cases e with
  | little =>
    simp only [store32, load32, BitVec.toNat_ofNat, List.cons.injEq, and_true]
    exact ⟨hbyte (by omega), hbyte (by omega), hbyte (by omega), hbyte (by omega)⟩
  | big =>
    simp only [store32, load32, BitVec.toNat_ofNat, List.cons.injEq, and_true]
    exact ⟨hbyte (by omega), hbyte (by omega), hbyte (by omega), hbyte (by omega)⟩

theorem store16_injective (e : Endian) : Function.Injective e.store16 := by
  intro v w h
  obtain ⟨a, b, hv, hv'⟩ := e.exists_store16 v
  obtain ⟨c, d, hw, hw'⟩ := e.exists_store16 w
  rw [hv, hw] at h
  cases h
  rw [← hv', ← hw']

theorem getD_append_add (pre xs : Bytes) (k : Nat) :
    (pre ++ xs).getD (pre.length + k) 0 = xs.getD k 0 := by
  simp [List.getD_eq_getElem?_getD, List.getElem?_append_right]

theorem read16_append (e : Endian) {data : Bytes} {off : Nat} (h : off + 2 ≤ data.length)
    (rest : Bytes) : e.read16 (data ++ rest) off = e.read16 data off := by
  simp only [read16]
  rw [List.getD_append _ _ _ _ (by omega), List.getD_append _ _ _ _ (by omega)]

theorem read32_append (e : Endian) {data : Bytes} {off : Nat} (h : off + 4 ≤ data.length)
    (rest : Bytes) : e.read32 (data ++ rest) off = e.read32 data off := by
  simp only [read32]
  rw [List.getD_append _ _ _ _ (by omega), List.getD_append _ _ _ _ (by omega),
    List.getD_append _ _ _ _ (by omega), List.getD_append _ _ _ _ (by omega)]

theorem read16_store16 (e : Endian) (pre rest : Bytes) (v : BitVec 16) :
    e.read16 (pre ++ (e.store16 v ++ rest)) pre.length = v := by
  obtain ⟨a, b, hs, hl⟩ := e.exists_store16 v
  have h0 := getD_append_add pre (e.store16 v ++ rest) 0
  rw [Nat.add_zero] at h0
  rw [read16, h0, getD_append_add, hs]
  exact hl

theorem length_write16 (e : Endian) {data : Bytes} {off : Nat} (h : off + 2 ≤ data.length)
    (v : BitVec 16) : (e.write16 data off v).length = data.length := by
  simp only [write16, List.length_append, List.length_take, List.length_drop, length_store16]
  omega

theorem write16_read16 (e : Endian) {data : Bytes} {off : Nat} (h : off + 2 ≤ data.length) :
    e.write16 data off (e.read16 data off) = data := by
  have h0 : data.getD off 0 = data[off] := List.getD_eq_getElem _ _ (by omega)
  have h1 : data.getD (off + 1) 0 = data[off + 1] := List.getD_eq_getElem _ _ (by omega)
  rw [write16, read16, store16_load16, h0, h1, List.cons_append, List.cons_append, List.nil_append,
    List.getElem_cons_drop, List.getElem_cons_drop, List.take_append_drop]

theorem store32_read32 (e : Endian) {data : Bytes} {off : Nat} (h : off + 4 ≤ data.length) :
    e.store32 (e.read32 data off) ++ data.drop (off + 4) = data.drop off := by
  have h0 : data.getD off 0 = data[off] := List.getD_eq_getElem _ _ (by omega)
  have h1 : data.getD (off + 1) 0 = data[off + 1] := List.getD_eq_getElem _ _ (by omega)
  have h2 : data.getD (off + 2) 0 = data[off + 2] := List.getD_eq_getElem _ _ (by omega)
  have h3 : data.getD (off + 3) 0 = data[off + 3] := List.getD_eq_getElem _ _ (by omega)
  rw [read32, store32_load32, h0, h1, h2, h3]
  simp only [List.cons_append, List.nil_append, List.getElem_cons_drop]

end Endian

end Lib
end LLNStack
