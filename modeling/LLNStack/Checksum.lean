import LLNStack.Util
import LLNStack.Lib.InternetChecksum

/-!
# LLNStack.Checksum

What `cksum16` computes, for every string whose length fits its 16-bit `count`.

* `cksum16_rfc1071`: on a little-endian host it is the Internet checksum.
* `cksum16_detects`: a checksum that is stored in the string it is of makes the string verify, and a
  string that verifies does not after one of its words has changed.
* `cksum16_chain`: a checksum may be computed in two stages.
* `cksum16_recompute`: the checksum of a string without its sum field, as the diagnostics print it,
  is computed by starting from the negative of the field.
* `cksum16_portable_iff`: a big-endian host stores the same two bytes exactly if the string has no
  last odd byte, or that byte is zero. It adds the odd byte as the low half of a word, where the
  checksum has it in the high half.
-/

namespace LLNStack

open Lib

/-- The body of the folding loop. -/
def cksumFoldOnce (sum : BitVec 32) : BitVec 32 := (sum &&& 0xffff#32) + sum >>> 16

/-! ## The loops -/

theorem cksumSum_exact (endian : Endian) {data pre : Bytes} (hlen : data.length ≤ 65535)
    (hpre : pre <+: data) {init : BitVec 32} (hi : init.toNat ≤ 65535) :
    init.toNat + wordSum endian pre < 2 ^ 32 ∧
      (cksumSum endian pre init).toNat = init.toNat + wordSum endian pre := by
  have hp := hpre.length_le
  have hle := wordSum_le endian pre
  have hlt : init.toNat + wordSum endian pre < 2 ^ 32 := by omega
  exact ⟨hlt, by rw [toNat_cksumSum, Nat.mod_eq_of_lt hlt]⟩

theorem cksumFold_rounds (sum : BitVec 32) :
    ∃ n ≤ 2, cksumFold sum = cksumFoldOnce^[n] sum ∧ cksumFold sum >>> 16 = 0#32 := by
  have hs := sum.isLt
  have h1 := toNat_foldOnce sum
  have h2 := toNat_foldOnce (cksumFoldOnce sum)
  rw [← cksumFoldOnce] at h1 h2
  by_cases hd0 : sum >>> 16 = 0#32
  · exact ⟨0, by omega, by rw [cksumFold, if_pos hd0]; rfl, by rw [cksumFold, if_pos hd0, hd0]⟩
  · have e1 : cksumFold sum = cksumFold (cksumFoldOnce sum) := by
      rw [cksumFold, if_neg hd0]; rfl
    by_cases hd1 : cksumFoldOnce sum >>> 16 = 0#32
    · have e2 : cksumFold (cksumFoldOnce sum) = cksumFoldOnce sum := by rw [cksumFold, if_pos hd1]
      exact ⟨1, by omega, e1.trans e2, by rw [e1, e2, hd1]⟩
    · have e2 : cksumFold (cksumFoldOnce sum) = cksumFold (cksumFoldOnce (cksumFoldOnce sum)) := by
        rw [cksumFold, if_neg hd1]; rfl
      -- the first round leaves less than twice 2^16, the second no carry
      have hd2 : cksumFoldOnce (cksumFoldOnce sum) >>> 16 = 0#32 := by
        rw [ushiftRight_16_eq_zero] at hd1 ⊢
        omega
      have e3 : cksumFold (cksumFoldOnce (cksumFoldOnce sum)) =
          cksumFoldOnce (cksumFoldOnce sum) := by rw [cksumFold, if_pos hd2]
      exact ⟨2, by omega, e1.trans (e2.trans e3), by rw [e1, e2, e3, hd2]⟩

/-! ## The Internet checksum -/

theorem toNat_cksum16_zero (endian : Endian) {data : Bytes} (hlen : data.length ≤ 65535) :
    (cksum16 endian data (BitVec.ofNat 16 data.length) 0).toNat =
      65535 - carryFold 65534 (wordSum endian data) := by
  rw [toNat_cksum16 _ (toNat_count hlen) (by decide)]
  exact congrArg (fun s => 65535 - carryFold 65534 s) (Nat.zero_add _)

theorem octetPairSum_little (data : Bytes) :
    ∃ k, 256 * wordSum .little data = octetPairSum data + 65535 * k := by
  fun_induction wordSum .little data with
  | case1 a b rest ih =>
    obtain ⟨k, hk⟩ := ih
    refine ⟨b.toNat + k, ?_⟩
    rw [Endian.toNat_load16_little, octetPairSum]
    omega
  | case2 a => exact ⟨0, by rw [octetPairSum, Nat.mul_zero, Nat.add_zero]⟩
  | case3 => exact ⟨0, by rw [octetPairSum]⟩

theorem octetPairSum_eq_zero (data : Bytes) :
    octetPairSum data = 0 ↔ wordSum .little data = 0 := by
  fun_induction wordSum .little data with
  | case1 a b rest ih =>
    rw [Endian.toNat_load16_little, octetPairSum]
    omega
  | case2 a => rw [octetPairSum]; omega
  | case3 => rw [octetPairSum]

theorem store16_little (v : BitVec 16) :
    Endian.little.store16 v = Endian.big.store16 (byteswap16 v) := by
  have hv := v.isLt
  rw [Endian.store16, Endian.store16, toNat_byteswap16,
    show (256 * (v.toNat % 256) + v.toNat / 256) / 256 = v.toNat % 256 by omega,
    BitVec.ofNat_add, BitVec.ofNat_mul]
  congr 1
  · apply BitVec.eq_of_toNat_eq
    simp
  · simp

theorem byteswap16_carryFold (data : Bytes) :
    256 * (carryFold 65534 (wordSum .little data) % 256) +
        carryFold 65534 (wordSum .little data) / 256 =
      carryFold 65534 (octetPairSum data) := by
  set x := carryFold 65534 (wordSum .little data) with hx
  have hlt : x < 65536 := carryFold_lt 65534 _
  rw [← carryFold_of_lt (b := 65534) (s := 256 * (x % 256) + x / 256) (by omega)]
  refine carryFold_congr ?_ ?_
  · have h0 : x = 0 ↔ wordSum .little data = 0 := carryFold_eq_zero
    rw [octetPairSum_eq_zero, ← h0]
    omega
  · have hmod : x % 65535 = wordSum .little data % 65535 := carryFold_mod 65534 _
    obtain ⟨k, hk⟩ := octetPairSum_little data
    omega

theorem store_cksum16_little {data : Bytes} (hlen : data.length ≤ 65535) :
    Endian.little.store16 (cksum16 .little data (BitVec.ofNat 16 data.length) 0) =
      Endian.big.store16 (internetChecksum data) := by
  have hlt := carryFold_lt 65534 (wordSum .little data)
  have hswap := byteswap16_carryFold data
  rw [store16_little]
  congr 1
  apply BitVec.eq_of_toNat_eq
  rw [toNat_byteswap16, toNat_cksum16_zero _ hlen, toNat_internetChecksum]
  omega

/-- **The checksum is that of RFC 1071.** For every string whose length fits in 16 bits the
accumulator is exact at every point, the folding loop ends, and the bytes a little-endian host
stores are those of the Internet checksum; for every 16-bit initial value the result is the stated
function of the exact sum. -/
theorem cksum16_rfc1071 (data : Bytes) (hlen : data.length ≤ 65535) :
    (∀ (init : BitVec 32) (pre : Bytes), init.toNat ≤ 65535 → pre <+: data →
      init.toNat + wordSum .little pre < 2 ^ 32 ∧
        (cksumSum .little pre init).toNat = init.toNat + wordSum .little pre) ∧
    (∀ sum, ∃ n ≤ 2, cksumFold sum = cksumFoldOnce^[n] sum ∧ cksumFold sum >>> 16 = 0#32) ∧
    Endian.little.store16 (cksum16 .little data (BitVec.ofNat 16 data.length) 0) =
      Endian.big.store16 (internetChecksum data) ∧
    ∀ init : BitVec 32, init.toNat ≤ 65535 →
      (cksum16 .little data (BitVec.ofNat 16 data.length) init).toNat =
        if init.toNat + wordSum .little data = 0 then 65535
        else 65534 - (init.toNat + wordSum .little data - 1) % 65535 := by
  refine ⟨fun init pre hi hpre => cksumSum_exact _ hlen hpre hi, cksumFold_rounds,
    store_cksum16_little hlen, fun init hi => ?_⟩
  rw [toNat_cksum16 _ (toNat_count hlen) hi, carryFold_eq]
  split <;> omega

/-- Three bytes: the words 0x0001 and 0xf200, the second with its padding. -/
theorem threeBytes_rfc1071 :
    Endian.little.store16 (cksum16 .little [0x00, 0x01, 0xf2] 3 0) = [0x0d, 0xfe] :=
  ((cksum16_rfc1071 [0x00, 0x01, 0xf2] (by decide)).2.2.1).trans (by decide)

/-! ## Storing and verifying -/

theorem wordSum_write16 (endian : Endian) {data : Bytes} {off : Nat} (heven : off % 2 = 0)
    (hoff : off + 2 ≤ data.length) (v : BitVec 16) :
    wordSum endian (endian.write16 data off v) + (endian.read16 data off).toNat =
      wordSum endian data + v.toNat := by
  have hsplit : ∀ w : BitVec 16, wordSum endian (endian.write16 data off w) =
      wordSum endian (data.take off) + (w.toNat + wordSum endian (data.drop (off + 2))) := by
    intro w
    have hl : (data.take off).length % 2 = 0 := by rw [List.length_take]; omega
    rw [Endian.write16, wordSum_append _ _ _ hl, wordSum_append _ _ _ (by simp), wordSum_store16]
  have hself := hsplit (endian.read16 data off)
  rw [Endian.write16_read16 _ hoff] at hself
  rw [hsplit, hself]
  omega

theorem cksum16_accepts_iff {endian : Endian} {data : Bytes} {count : BitVec 16} {init : BitVec 32}
    (hc : count.toNat = data.length) (hi : init.toNat ≤ 65535) :
    cksum16 endian data count init = 0#16 ↔
      0 < init.toNat + wordSum endian data ∧ (init.toNat + wordSum endian data) % 65535 = 0 := by
  rw [cksum16_eq_zero_iff hc hi]
  exact carryFold_eq_top (b := 65534)

theorem residue_eq {v w : BitVec 16} (h : v.toNat % 65535 = w.toNat % 65535) :
    v = w ∨ s(v, w) = s(0x0000#16, 0xffff#16) := by
  have hv := v.isLt; have hw := w.isLt
  have hcases : v.toNat = w.toNat ∨ v.toNat = 0 ∧ w.toNat = 65535 ∨
      v.toNat = 65535 ∧ w.toNat = 0 := by omega
  rcases hcases with h | ⟨h0, h1⟩ | ⟨h0, h1⟩
  · exact .inl (BitVec.eq_of_toNat_eq h)
  · exact .inr (Sym2.eq_iff.mpr (.inl ⟨BitVec.eq_of_toNat_eq h0, BitVec.eq_of_toNat_eq h1⟩))
  · exact .inr (Sym2.eq_iff.mpr (.inr ⟨BitVec.eq_of_toNat_eq h0, BitVec.eq_of_toNat_eq h1⟩))

/-- **Store, verify, detect.** A checksum stored in a zero word of its string makes the string
verify. A string that verifies does not verify with another word in place of one of its own, unless
the two are 0x0000 and 0xffff, nor with another byte in place of a last odd one. -/
theorem cksum16_detects (endian : Endian) (data : Bytes) (init : BitVec 32)
    (hlen : data.length ≤ 65535) (hi : init.toNat ≤ 65535) :
    (∀ off, off % 2 = 0 → off + 2 ≤ data.length → endian.read16 data off = 0#16 →
      cksum16 endian (endian.write16 data off
        (cksum16 endian data (BitVec.ofNat 16 data.length) init))
        (BitVec.ofNat 16 data.length) init = 0#16) ∧
    (cksum16 endian data (BitVec.ofNat 16 data.length) init = 0#16 →
      (∀ off w, off % 2 = 0 → off + 2 ≤ data.length → w ≠ endian.read16 data off →
        s(endian.read16 data off, w) ≠ s(0x0000#16, 0xffff#16) →
        cksum16 endian (endian.write16 data off w) (BitVec.ofNat 16 data.length) init ≠ 0#16) ∧
      ∀ pre a b, data = pre ++ [a] → data.length % 2 = 1 → b ≠ a →
        cksum16 endian (pre ++ [b]) (BitVec.ofNat 16 data.length) init ≠ 0#16) := by
  have hc := toNat_count hlen
  refine ⟨fun off heven hoff hzero => ?_, fun hok => ⟨fun off w heven hoff hne hpair hok' => ?_,
    fun pre a b hdata hodd hne hok' => ?_⟩⟩
  · refine cksum16_verify data hc (by rw [Endian.length_write16 _ hoff, hc]) hi ?_
    have hsum := wordSum_write16 endian heven hoff
      (cksum16 endian data (BitVec.ofNat 16 data.length) init)
    rw [hzero] at hsum
    exact hsum
  · have hsum := wordSum_write16 endian heven hoff w
    rw [cksum16_accepts_iff hc hi] at hok
    rw [cksum16_accepts_iff (by rw [Endian.length_write16 _ hoff, hc]) hi] at hok'
    have hmod : (endian.read16 data off).toNat % 65535 = w.toNat % 65535 := by omega
    rcases residue_eq hmod with h | h
    · exact hne h.symm
    · exact hpair h
  · have ha := a.isLt; have hb := b.isLt
    have hpre : pre.length % 2 = 0 := by
      rw [hdata, List.length_append, List.length_singleton] at hodd
      omega
    have hl : (pre ++ [b]).length = data.length := by rw [hdata]; simp
    rw [cksum16_accepts_iff hc hi, hdata, wordSum_append _ _ _ hpre, wordSum] at hok
    rw [cksum16_accepts_iff (by rw [hl, hc]) hi, wordSum_append _ _ _ hpre, wordSum] at hok'
    refine hne (BitVec.eq_of_toNat_eq ?_)
    omega

/-- A string of five bytes with a checksum in its second word. -/
theorem fiveBytes_detected :
    cksum16 .little [0x45, 0x00, 0x91, 0xff, 0x29] 5 0 = 0#16 ∧
      cksum16 .little [0x45, 0x00, 0x90, 0xff, 0x29] 5 0 ≠ 0#16 ∧
      cksum16 .little [0x45, 0x00, 0x91, 0xff, 0x2a] 5 0 ≠ 0#16 := by
  have h := cksum16_detects .little [0x45, 0x00, 0x91, 0xff, 0x29] 0 (by decide) (by decide)
  have hok : cksum16 .little [0x45, 0x00, 0x91, 0xff, 0x29] 5 0 = 0#16 := by
    rw [cksum16_accepts_iff rfl (by decide)]
    decide
  obtain ⟨hword, hbyte⟩ := h.2 hok
  exact ⟨hok, hword 2 0xff90#16 rfl (by decide) (by decide) (by decide),
    hbyte [0x45, 0x00, 0x91, 0xff] 0x29 0x2a rfl rfl (by decide)⟩

/-! ## Two stages -/

/-- The complement of the checksum of a first part of even length is the initial value for the rest:
it may be folded at any time. -/
theorem cksum16_chain (endian : Endian) {a b : Bytes} (ha : a.length % 2 = 0)
    (hlen : a.length + b.length ≤ 65535) :
    cksum16 endian b (BitVec.ofNat 16 b.length)
        ((~~~ cksum16 endian a (BitVec.ofNat 16 a.length) 0).setWidth 32) =
      cksum16 endian (a ++ b) (BitVec.ofNat 16 (a.length + b.length)) 0 := by
  have hlt := carryFold_lt 65534 (wordSum endian a)
  have hinit : ((~~~ cksum16 endian a (BitVec.ofNat 16 a.length) 0).setWidth 32).toNat =
      carryFold 65534 (wordSum endian a) := by
    rw [BitVec.toNat_setWidth, BitVec.toNat_not, toNat_cksum16_zero _ (by omega)]
    omega
  apply BitVec.eq_of_toNat_eq
  rw [toNat_cksum16 _ (toNat_count (by omega)) (by omega), hinit, carryFold_add,
    ← List.length_append, toNat_cksum16_zero _ (by rw [List.length_append]; exact hlen),
    wordSum_append _ _ _ ha]

/-! ## Taking the sum field out again -/

theorem toNat_negative_init (s psum : BitVec 16) :
    ∃ k, (BitVec.ofInt 32 (-(s.toNat : ℤ) + psum.toNat)).toNat + s.toNat =
      psum.toNat + k * 2 ^ 32 := by
  have hs := s.isLt
  have hp := psum.isLt
  by_cases h : s.toNat ≤ psum.toNat
  · refine ⟨0, ?_⟩
    rw [BitVec.toNat_ofInt]
    omega
  · refine ⟨1, ?_⟩
    rw [BitVec.toNat_ofInt]
    omega

/-- Starting from `-s + psum` is starting from `psum` without the word `s`: the accumulator is the
same modulo 2^32, where it wraps around or not. -/
theorem cksum16_negative_init (endian : Endian) {data : Bytes} {off : Nat}
    (hlen : data.length ≤ 65535) (heven : off % 2 = 0) (hoff : off + 2 ≤ data.length)
    (psum : BitVec 16) :
    cksum16 endian data (BitVec.ofNat 16 data.length)
        (BitVec.ofInt 32 (-((endian.read16 data off).toNat : ℤ) + psum.toNat)) =
      cksum16 endian (endian.write16 data off 0#16) (BitVec.ofNat 16 data.length)
        (psum.setWidth 32) := by
  have hsum := wordSum_write16 endian heven hoff 0#16
  obtain ⟨k, hk⟩ := toNat_negative_init (endian.read16 data off) psum
  have hpsum : (psum.setWidth 32).toNat = psum.toNat := by
    have hp := psum.isLt
    rw [BitVec.toNat_setWidth]
    omega
  have hacc : cksumSum endian data
        (BitVec.ofInt 32 (-((endian.read16 data off).toNat : ℤ) + psum.toNat)) =
      cksumSum endian (endian.write16 data off 0#16) (psum.setWidth 32) := by
    apply BitVec.eq_of_toNat_eq
    rw [toNat_cksumSum, toNat_cksumSum, hpsum]
    simp only [BitVec.toNat_ofNat, Nat.zero_mod] at hsum
    omega
  have hwhole : ∀ xs : Bytes, xs.length = data.length →
      xs.take (BitVec.ofNat 16 data.length).toNat = xs := by
    intro xs hxs
    rw [toNat_count hlen, ← hxs, List.take_length]
  rw [cksum16, cksum16, hwhole _ rfl, hwhole _ (Endian.length_write16 _ hoff _), hacc]

/-- **Recomputation.** For a string with a 16-bit sum field at an even offset, `cksum16` with the
negative of the field as the initial value is the checksum of the string with the field set to
zero, with or without the sum of a pseudo header. -/
theorem cksum16_recompute (endian : Endian) {data : Bytes} {off : Nat}
    (hlen : data.length ≤ 65535) (heven : off % 2 = 0) (hoff : off + 2 ≤ data.length) :
    cksum16 endian data (BitVec.ofNat 16 data.length)
        (BitVec.ofInt 32 (-((endian.read16 data off).toNat : ℤ))) =
      cksum16 endian (endian.write16 data off 0#16) (BitVec.ofNat 16 data.length) 0 ∧
    ∀ psum : BitVec 16,
      cksum16 endian data (BitVec.ofNat 16 data.length)
          (BitVec.ofInt 32 (-((endian.read16 data off).toNat : ℤ) + psum.toNat)) =
        cksum16 endian (endian.write16 data off 0#16) (BitVec.ofNat 16 data.length)
          (psum.setWidth 32) := by
  refine ⟨?_, cksum16_negative_init endian hlen heven hoff⟩
  have hzero := cksum16_negative_init endian hlen heven hoff 0#16
  simpa using hzero

/-- The odd string above with its sum field, from 2^32 - 0xff91. -/
theorem fiveBytes_recomputed :
    cksum16 .little [0x45, 0x00, 0x91, 0xff, 0x29] 5 0xffff006f#32 =
      cksum16 .little [0x45, 0x00, 0x00, 0x00, 0x29] 5 0 := by
  have hoff : 2 + 2 ≤ ([0x45, 0x00, 0x91, 0xff, 0x29] : Bytes).length := by decide
  exact (cksum16_recompute .little (by decide) (by decide) hoff).1

/-! ## Big-endian hosts -/

theorem wordSum_big (data : Bytes) :
    (data.length % 2 = 0 → wordSum .big data = octetPairSum data) ∧
      ∀ pre a, data = pre ++ [a] → data.length % 2 = 1 →
        wordSum .big data + 255 * a.toNat = octetPairSum data := by
  fun_induction wordSum .big data with
  | case1 a b rest ih =>
    rw [octetPairSum, Endian.toNat_load16_big]
    refine ⟨fun h => ?_, fun pre x hdata h => ?_⟩
    · simp only [List.length_cons] at h
      rw [ih.1 (by omega)]
    · simp only [List.length_cons] at h
      obtain ⟨pre, rfl⟩ : ∃ pre', pre = a :: b :: pre' := by
        cases pre with
        | nil => simp at hdata
        | cons y pre =>
          cases pre with
          | nil =>
            simp only [List.cons_append, List.nil_append, List.cons.injEq] at hdata
            rw [hdata.2.2] at h
            simp at h
          | cons z pre =>
            simp only [List.cons_append, List.cons.injEq] at hdata
            exact ⟨pre, by rw [hdata.1, hdata.2.1]⟩
      simp only [List.cons_append, List.cons.injEq, true_and] at hdata
      have := ih.2 pre x hdata (by omega)
      omega
  | case2 a =>
    refine ⟨fun h => by simp at h, fun pre x hdata _ => ?_⟩
    have hnil : [] ++ [a] = pre ++ [x] := hdata
    obtain ⟨rfl, hx⟩ := List.append_inj' hnil rfl
    cases hx
    rw [octetPairSum]
    omega
  | case3 =>
    refine ⟨fun _ => by rw [octetPairSum], fun pre x hdata h => by simp at h⟩

/-- **Byte order.** A little-endian and a big-endian host store the same two bytes exactly if the
string has no last odd byte, or that byte is zero. -/
theorem cksum16_portable_iff (data : Bytes) (hlen : data.length ≤ 65535) :
    Endian.little.store16 (cksum16 .little data (BitVec.ofNat 16 data.length) 0) =
        Endian.big.store16 (cksum16 .big data (BitVec.ofNat 16 data.length) 0) ↔
      data.length % 2 = 0 ∨ data.getLast? = some 0#8 := by
  have hx := carryFold_lt 65534 (octetPairSum data)
  have hy := carryFold_lt 65534 (wordSum .big data)
  have hbig := wordSum_big data
  have hfold : Endian.little.store16 (cksum16 .little data (BitVec.ofNat 16 data.length) 0) =
      Endian.big.store16 (cksum16 .big data (BitVec.ofNat 16 data.length) 0) ↔
        carryFold 65534 (octetPairSum data) = carryFold 65534 (wordSum .big data) := by
    rw [store_cksum16_little hlen, Endian.big.store16_injective.eq_iff, ← BitVec.toNat_inj,
      toNat_cksum16_zero _ hlen, toNat_internetChecksum]
    omega
  rw [hfold]
  rcases Nat.mod_two_eq_zero_or_one data.length with heven | hodd
  · rw [hbig.1 heven]
    exact ⟨fun _ => .inl heven, fun _ => rfl⟩
  · obtain ⟨pre, a, rfl⟩ : ∃ pre a, data = pre ++ [a] := by
      refine ⟨data.dropLast, data.getLast ?_, (List.dropLast_append_getLast _).symm⟩
      rintro rfl
      simp at hodd
    have hsum := hbig.2 pre a rfl hodd
    have ha := a.isLt
    rw [List.getLast?_append, List.getLast?_singleton, Option.some_or, Option.some.injEq]
    constructor
    · intro h
      have hmod : octetPairSum (pre ++ [a]) % 65535 = wordSum .big (pre ++ [a]) % 65535 := by
        rw [← carryFold_mod 65534 (octetPairSum _), h, carryFold_mod]
      exact .inr (BitVec.eq_of_toNat_eq (by rw [show (0#8).toNat = 0 from rfl]; omega))
    · rintro (h | rfl)
      · omega
      · rw [← hsum]
        rfl

/-- Two bytes are stored the same way on both. -/
theorem twoBytes_portable :
    Endian.little.store16 (cksum16 .little [0x12, 0x34] 2 0) =
      Endian.big.store16 (cksum16 .big [0x12, 0x34] 2 0) :=
  (cksum16_portable_iff [0x12, 0x34] (by decide)).mpr (.inl rfl)

/-- The string of one byte 1: the little-endian host stores fe ff, the big-endian host ff fe. -/
theorem oneByte_differs :
    Endian.little.store16 (cksum16 .little [1] 1 0) = [0xfe, 0xff] ∧
      Endian.big.store16 (cksum16 .big [1] 1 0) = [0xff, 0xfe] := by
  have hsum : ∀ endian : Endian, cksum16 endian [1] 1 0 = 0xfffe#16 := by
    intro endian
    apply BitVec.eq_of_toNat_eq
    rw [toNat_cksum16 _ rfl (by decide), carryFold_of_lt (by simp [wordSum])]
    rfl
  rw [hsum, hsum]
  decide

end LLNStack
