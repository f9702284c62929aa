import LLNStack.Net.AddressText

/-!
# LLNStack.Ip.Endpoint

The text of endpoints: `ip_string_to_endpoint` and `ip_endpoint_to_string`. The parser copies what
stands before the last colon into a buffer of 16 bytes, has it parsed as an address, and takes the
port from the beginning of what follows the colon.

* `ipStringToEndpoint_short` / `ipStringToEndpoint_overflow`: the call with an address part that
  leaves room for the NUL, and with one that does not fit the buffer.
* `ipStringToEndpoint_ok_iff`: what is accepted, trailing text included.
* `endpointGrammar_iff`: which texts are treated as the grammar of endpoints says.
* `ipStringToEndpoint_endpointText`: what is printed is read back.
-/

namespace LLNStack

open Lib

def maxIpAddressStringLength : Nat := 16
def maxIpEndpointStringLength : Nat := maxIpAddressStringLength + 6

/-- `ip_string_to_endpoint`, with the endpoint it finds in `*n` and the one it leaves there. -/
def ipStringToEndpoint (endian : Endian) (p : Bytes) (n : IpEndpoint) :
    Option (IpEndpoint × Int) :=
  match strrchr (ascii ':') p with
  | none => none
  | some none => some (n, -1)
  | some (some sep) =>
    match memcpy (List.replicate maxIpAddressStringLength 0) p sep with
    | none => none
    | some addr =>
      match ipStringToAddress endian addr n.address with
      | none => none
      | some (address, ret) =>
        if ret = -1 then some ({ n with address := address }, -1)
        else
          match strtol 10 (p.drop (sep + 1)) with
          | none => none
          | some (port, _) =>
            if port ≤ 0 ∨ 65535 < port then some ({ n with address := address }, -1)
            else some (⟨address, hton16 endian (BitVec.ofInt 16 port)⟩, 0)

def portText (endian : Endian) (port : BitVec 16) : Bytes :=
  ascii ':' :: printNat 10 1 (ntoh16 endian port).toNat

/-- `ip_endpoint_to_string`: the buffer behind `p` afterwards. -/
def ipEndpointToString (endian : Endian) (n : IpEndpoint) (p : Bytes) (size : BitVec 64) :
    Option Bytes :=
  match ipAddressToString endian n.address p size with
  | none => none
  | some p =>
    match strlen p with
    | none => none
    | some offset =>
      (snprintf (p.drop offset) (size - BitVec.ofNat 64 offset).toNat
        (portText endian n.port)).map (p.take offset ++ ·)

theorem toNat_ntoh16_eq_zero (endian : Endian) (port : BitVec 16) :
    (ntoh16 endian port).toNat = 0 ↔ port = 0 := by
  have hswap : hton16 endian 0 = 0 := by
    cases endian <;> rfl
  constructor
  · intro h
    rw [← hton16_ntoh16 endian port, BitVec.eq_of_toNat_eq (y := 0) h, hswap]
  · rintro rfl
    exact congrArg BitVec.toNat hswap

/-! ## Parsing -/

section

variable (endian : Endian) {a b : Bytes} (ha : 0 ∉ a) (hb : 0 ∉ b) (hcolon : ascii ':' ∉ b)
  (rest : Bytes) (n : IpEndpoint)
include ha hb hcolon

omit ha hb hcolon in
theorem addressCopy_short (hshort : a.length ≤ 15) :
    memcpy (List.replicate maxIpAddressStringLength 0) (a ++ ascii ':' :: b ++ 0 :: rest) a.length =
      some (a ++ 0 :: List.replicate (15 - a.length) 0) := by
  have hlen : a.length ≤ (List.replicate maxIpAddressStringLength (0 : Byte)).length ∧
      a.length ≤ (a ++ ascii ':' :: b ++ 0 :: rest).length := by
    simp [maxIpAddressStringLength]
    omega
  rw [memcpy, if_pos hlen, List.append_assoc, List.take_left, List.drop_replicate,
    ← List.replicate_succ, maxIpAddressStringLength,
    show 16 - a.length = 15 - a.length + 1 by omega]

theorem ipStringToEndpoint_short (hshort : a.length ≤ 15) :
    ipStringToEndpoint endian (a ++ ascii ':' :: b ++ 0 :: rest) n =
      match ipStringToAddress endian (a ++ 0 :: List.replicate (15 - a.length) 0) n.address with
      | none => none
      | some (address, ret) =>
        if ret = -1 then some ({ n with address := address }, -1)
        else
          match strtol 10 (b ++ 0 :: rest) with
          | none => none
          | some (port, _) =>
            if port ≤ 0 ∨ 65535 < port then some ({ n with address := address }, -1)
            else some (⟨address, hton16 endian (BitVec.ofInt 16 port)⟩, 0) := by
  have hrchr := strrchr_last rest (show ascii ':' ≠ 0 by decide) ha hb hcolon
  have hdrop : (a ++ ascii ':' :: b ++ 0 :: rest).drop (a.length + 1) = b ++ 0 :: rest := by
    simp [List.drop_append]
  simp only [ipStringToEndpoint, hrchr, addressCopy_short rest hshort, hdrop]

/-- The copy writes past the end of the buffer. -/
theorem ipStringToEndpoint_overflow (hlong : 16 < a.length) :
    ipStringToEndpoint endian (a ++ ascii ':' :: b ++ 0 :: rest) n = none := by
  have hrchr := strrchr_last rest (show ascii ':' ≠ 0 by decide) ha hb hcolon
  have hcopy : memcpy (List.replicate maxIpAddressStringLength 0)
      (a ++ ascii ':' :: b ++ 0 :: rest) a.length = none := by
    rw [memcpy, if_neg]
    rw [List.length_replicate, maxIpAddressStringLength]
    omega
  simp only [ipStringToEndpoint, hrchr, hcopy]

theorem ipStringToEndpoint_ne_none (hshort : a.length ≤ 15) :
    ipStringToEndpoint endian (a ++ ascii ':' :: b ++ 0 :: rest) n ≠ none := by
  rw [ipStringToEndpoint_short endian ha hb hcolon rest n hshort]
  obtain ⟨v, t, hv, -⟩ := strtol_cases 10 b rest
  cases haddr : ipStringToAddress endian (a ++ 0 :: List.replicate (15 - a.length) 0) n.address with
  | none => exact absurd haddr (ipStringToAddress_ne_none endian ha _ _)
  | some r =>
    simp only [hv]
    split
    · simp
    · split <;> simp

theorem ipStringToEndpoint_ok_iff (hshort : a.length ≤ 15) (ep : IpEndpoint) :
    ipStringToEndpoint endian (a ++ ascii ':' :: b ++ 0 :: rest) n = some (ep, 0) ↔
      ipStringToAddress endian (a ++ [0]) n.address = some (ep.address, 0) ∧
        ∃ (l : IntLiteral 10) (t : Bytes), b = l.text ++ t ∧
          (∀ c ∈ t.head?, isDigit 10 c = false) ∧ 1 ≤ l.value ∧ l.value ≤ 65535 ∧
          ep.port = hton16 endian (BitVec.ofInt 16 l.value) := by
  have haddr := ipStringToAddress_ok_iff endian ha (List.replicate (15 - a.length) 0) n.address
  have haddr' := ipStringToAddress_ok_iff endian ha [] n.address
  rw [ipStringToEndpoint_short endian ha hb hcolon rest n hshort]
  constructor
  · intro h
    obtain ⟨v, t, hv, hcases⟩ := strtol_cases 10 b rest
    simp only [hv] at h
    split at h
    · cases h
    · rename_i address ret hr
      split at h
      · simp at h
      · rename_i hret
        split at h
        · simp at h
        · rename_i hport
          obtain rfl : ret = 0 := (ipStringToAddress_status endian hr).resolve_right hret
          cases h
          refine ⟨(haddr' _).mpr ((haddr _).mp hr), ?_⟩
          rcases hcases with ⟨-, rfl⟩ | ⟨l, hb, rfl, ht⟩
          · omega
          · exact ⟨l, t, hb, ht, by omega, by omega, rfl⟩
  · rintro ⟨hr, l, t, rfl, ht, hlow, hhigh, hport⟩
    have hv := strtol_longest (by decide) l ht rest
    simp only [(haddr _).mpr ((haddr' _).mp hr), hv]
    rw [if_neg (by decide), if_neg (by omega), ← hport]

theorem ipStringToEndpoint_port_ne_zero (hshort : a.length ≤ 15) {ep : IpEndpoint}
    (h : ipStringToEndpoint endian (a ++ ascii ':' :: b ++ 0 :: rest) n = some (ep, 0)) :
    ep.port ≠ 0 := by
  obtain ⟨-, l, t, -, -, hlow, hhigh, hport⟩ :=
    (ipStringToEndpoint_ok_iff endian ha hb hcolon rest n hshort ep).mp h
  intro hzero
  rw [← toNat_ntoh16_eq_zero endian, hport, ntoh16_hton16, BitVec.toNat_ofInt] at hzero
  omega

end

/-! ## The grammar of endpoints -/

/-- The text `a`, a colon and `b` is an address and the literal of a port. -/
def EndpointGrammar (endian : Endian) (a b : Bytes) (n : IPAddress) : Prop :=
  (∃ address, ipStringToAddress endian (a ++ [0]) n = some (address, 0)) ∧
    ∃ l : IntLiteral 10, b = l.text ∧ 1 ≤ l.value ∧ l.value ≤ 65535

def TrailingText (endian : Endian) (a b : Bytes) (n : IPAddress) : Prop :=
  (∃ address, ipStringToAddress endian (a ++ [0]) n = some (address, 0)) ∧
    ∃ (l : IntLiteral 10) (t : Bytes), b = l.text ++ t ∧ t ≠ [] ∧
      (∀ c ∈ t.head?, isDigit 10 c = false) ∧ 1 ≤ l.value ∧ l.value ≤ 65535

theorem TrailingText.not_grammar {endian : Endian} {a b : Bytes} {n : IPAddress}
    (h : TrailingText endian a b n) : ¬ EndpointGrammar endian a b n := by
  obtain ⟨-, l, t, rfl, hne, ht, -⟩ := h
  rintro ⟨-, l', hb, -⟩
  have hv := strtol_longest (by decide) l ht []
  have hv' := strtol_longest (by decide) l' (t := []) (by simp) []
  rw [hb, ← List.append_nil l'.text, hv'] at hv
  simp only [Option.some.injEq, Prod.mk.injEq, List.append_left_inj] at hv
  exact hne hv.2.symm

/-- **Endpoint grammar.** The texts with a short address part on which `ip_string_to_endpoint`
accepts what the grammar says are those without text after the port. -/
theorem endpointGrammar_iff (endian : Endian) {a b : Bytes} (ha : 0 ∉ a) (hb : 0 ∉ b)
    (hcolon : ascii ':' ∉ b) (hshort : a.length ≤ 15) (n : IpEndpoint) :
    ((∃ ep, ipStringToEndpoint endian (a ++ ascii ':' :: b ++ [0]) n = some (ep, 0)) ↔
      EndpointGrammar endian a b n.address) ↔ ¬ TrailingText endian a b n.address := by
  have hok := ipStringToEndpoint_ok_iff endian ha hb hcolon [] n hshort
  have haccepted : (∃ ep, ipStringToEndpoint endian (a ++ ascii ':' :: b ++ [0]) n = some (ep, 0)) ↔
      EndpointGrammar endian a b n.address ∨ TrailingText endian a b n.address := by
    constructor
    · rintro ⟨ep, h⟩
      obtain ⟨haddr, l, t, hb, ht, hlow, hhigh, -⟩ := (hok ep).mp h
      by_cases hne : t = []
      · rw [hne, List.append_nil] at hb
        exact .inl ⟨⟨_, haddr⟩, l, hb, hlow, hhigh⟩
      · exact .inr ⟨⟨_, haddr⟩, l, t, hb, hne, ht, hlow, hhigh⟩
    · rintro (⟨⟨address, haddr⟩, l, hb, hlow, hhigh⟩ |
        ⟨⟨address, haddr⟩, l, t, hb, -, ht, hlow, hhigh⟩)
      · exact ⟨⟨address, _⟩, (hok ⟨address, _⟩).mpr
          ⟨haddr, l, [], by rw [hb, List.append_nil], by simp, hlow, hhigh, rfl⟩⟩
      · exact ⟨⟨address, _⟩, (hok ⟨address, _⟩).mpr ⟨haddr, l, t, hb, ht, hlow, hhigh, rfl⟩⟩
  rw [haccepted]
  constructor
  · intro h htrail
    exact htrail.not_grammar (h.mp (.inr htrail))
  · intro h
    exact ⟨fun h' => h'.resolve_right h, .inl⟩

def hostText : Bytes := ['1', '0', '.', '0', '.', '0', '.', '1'].map ascii

/-- `10.0.0.1:80abc` is accepted as 10.0.0.1:80. -/
theorem trailingText_accepted :
    ipStringToEndpoint .little
        (hostText ++ ascii ':' :: ['8', '0', 'a', 'b', 'c'].map ascii ++ [0]) ⟨0, 0⟩ =
      some (⟨0x0100000a#32, hton16 .little 80⟩, 0) ∧
    ¬ EndpointGrammar .little hostText (['8', '0', 'a', 'b', 'c'].map ascii) 0 := by
  refine ⟨by decide +kernel, ?_⟩
  rintro ⟨-, l, hb, -⟩
  have hv := strtol_longest (by decide) l (t := []) (by simp) []
  rw [List.append_nil, ← hb] at hv
  have hend : (strtol 10 (['8', '0', 'a', 'b', 'c'].map ascii ++ [0])).map Prod.snd =
      some (['a', 'b', 'c'].map ascii ++ [0]) := by decide +kernel
  rw [hv] at hend
  simp at hend

/-- `10.0.0.1:80` is in the grammar and accepted. -/
theorem plainEndpoint_accepted :
    (∃ ep, ipStringToEndpoint .little
        (hostText ++ ascii ':' :: ['8', '0'].map ascii ++ [0]) ⟨0, 0⟩ = some (ep, 0)) ↔
    EndpointGrammar .little hostText (['8', '0'].map ascii) 0 := by
  refine (endpointGrammar_iff .little (by decide) (by decide) (by decide) (by decide)
    ⟨0, 0⟩).mpr ?_
  rintro ⟨-, l, t, hb, hne, ht, -⟩
  have hv := strtol_longest (by decide) l ht []
  have hend : (strtol 10 (['8', '0'].map ascii ++ [0])).map Prod.snd = some [0] := by
    decide +kernel
  rw [hb, hv] at hend
  simp [hne] at hend

/-! ## Printing and reading back -/

def endpointText (endian : Endian) (n : IpEndpoint) : Bytes :=
  ipAddressText endian n.address ++ portText endian n.port

section

variable (endian : Endian)

theorem exists_fields_ipAddressText (address : IPAddress) :
    ∃ ls, ls.length = 4 ∧ Fields 10 (ascii '.') ls (ipAddressText endian address) ∧
      endian.store32 address = octets ls := by
  have hne : endian.store32 address ≠ [] :=
    List.ne_nil_of_length_eq_add_one (endian.length_store32 address)
  obtain ⟨ls, hls, hfields⟩ := fields_printFields (ascii '.') (show 1 < 10 by omega) (by omega)
    (show 0 < 1 by omega) hne
  refine ⟨ls, ?_, hfields, hls.symm⟩
  rw [← endian.length_store32 address, ← hls, octets, List.length_map]

theorem zero_notMem_ipAddressText (address : IPAddress) : 0 ∉ ipAddressText endian address := by
  obtain ⟨ls, -, hfields, -⟩ := exists_fields_ipAddressText endian address
  exact hfields.zero_notMem (by decide)

theorem length_ipAddressText (address : IPAddress) :
    (ipAddressText endian address).length ≤ 15 := by
  have hne : endian.store32 address ≠ [] :=
    List.ne_nil_of_length_eq_add_one (endian.length_store32 address)
  have h := length_printFields_lt (ascii '.') (show 1 < 10 by omega) (show 1 ≤ 3 by omega)
    (by decide) hne
  rw [endian.length_store32] at h
  exact Nat.le_of_lt_succ h

theorem length_portText (port : BitVec 16) : (portText endian port).length ≤ 6 := by
  have hport : (ntoh16 endian port).toNat < 10 ^ 5 := by
    have h := (ntoh16 endian port).isLt
    omega
  have h := length_printNat_le (show 1 < 10 by omega) (show 1 ≤ 5 by omega) hport
  rw [portText, List.length_cons]
  omega

theorem ipEndpointToString_eq (n : IpEndpoint) {buf : Bytes} {size : BitVec 64}
    (hsize : maxIpEndpointStringLength ≤ size.toNat) (hbuf : size.toNat ≤ buf.length) :
    ipEndpointToString endian n buf size =
      some (endpointText endian n ++ 0 :: buf.drop ((endpointText endian n).length + 1)) := by
  have haddr := length_ipAddressText endian n.address
  have hport := length_portText endian n.port
  have hzero := zero_notMem_ipAddressText endian n.address
  rw [maxIpEndpointStringLength, maxIpAddressStringLength] at hsize
  generalize hA : ipAddressText endian n.address = A at haddr hzero
  generalize hP : portText endian n.port = P at hport
  have hprint : ipAddressToString endian n.address buf size =
      some (A ++ 0 :: buf.drop (A.length + 1)) := by
    rw [ipAddressToString, hA, snprintf_fits (by omega) hbuf]
  have hleft : (size - BitVec.ofNat 64 A.length).toNat = size.toNat - A.length := by
    have hA64 : (BitVec.ofNat 64 A.length).toNat = A.length := by
      rw [BitVec.toNat_ofNat]
      omega
    rw [BitVec.toNat_sub_of_le (by rw [BitVec.le_def, hA64]; omega), hA64]
  have hlen : (0 :: buf.drop (A.length + 1)).length = buf.length - A.length := by
    rw [List.length_cons, List.length_drop]
    omega
  have hsn : snprintf (0 :: buf.drop (A.length + 1)) (size.toNat - A.length) P =
      some (P ++ 0 :: (0 :: buf.drop (A.length + 1)).drop (P.length + 1)) :=
    snprintf_fits (by omega) (by omega)
  simp only [ipEndpointToString, hprint, strlen_text _ hzero, List.drop_left, List.take_left, hleft,
    hP, hsn, Option.map_some, endpointText, hA]
  rw [List.drop_succ_cons, List.drop_drop, List.append_assoc, List.length_append,
    Nat.add_right_comm]

theorem ipStringToEndpoint_endpointText {n : IpEndpoint} (hport : n.port ≠ 0) (n₀ : IpEndpoint)
    (rest : Bytes) :
    ipStringToEndpoint endian (endpointText endian n ++ 0 :: rest) n₀ = some (n, 0) := by
  have hdigits := isDigit_printNat (show 1 < 10 by omega) (show 10 ≤ 36 by omega) 1
    (ntoh16 endian n.port).toNat
  have hlt := (ntoh16 endian n.port).isLt
  have hpos : (ntoh16 endian n.port).toNat ≠ 0 := fun h =>
    hport ((toNat_ntoh16_eq_zero endian n.port).mp h)
  refine (ipStringToEndpoint_ok_iff endian (zero_notMem_ipAddressText endian n.address)
    (fun h => absurd (hdigits 0 h) (by decide)) (fun h => absurd (hdigits _ h) (by decide)) rest n₀
    (length_ipAddressText endian n.address) n).mpr ⟨?_, ?_⟩
  · exact (ipStringToAddress_ok_iff endian (zero_notMem_ipAddressText endian n.address) [] _ _).mpr
      (exists_fields_ipAddressText endian n.address)
  · have hval := IntLiteral.value_ofNat (show 1 < 10 by omega) (show 10 ≤ 36 by omega) 1
      (ntoh16 endian n.port).toNat (by omega) (by omega)
    refine ⟨.ofNat (by omega) (by omega) 1 (ntoh16 endian n.port).toNat (by omega), [],
      (List.append_nil _).symm, by simp, ?_, ?_, ?_⟩
    · rw [hval]
      omega
    · rw [hval]
      omega
    · rw [hval, BitVec.ofInt_natCast, BitVec.ofNat_toNat, BitVec.setWidth_eq, hton16_ntoh16]

end

end LLNStack
