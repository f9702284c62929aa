import LLNStack.Lib.Strtol
import LLNStack.Net.Ether
import LLNStack.Ip.Addr

/-!
# LLNStack.Net.AddressText

The text of hardware and IP addresses: `ether_addr_pton`, `ether_addr_ntop`, `ip_string_to_address`
and `ip_address_to_string`. Both parsers call `strtol` once for each byte and check the character it
stops at; they write a byte as soon as it is read, so that a failed call may leave some written.

* `ipStringToAddressLoop_parsed` / `etherAddrPtonLoop_parsed`: each loop reads the fields of its
  argument, as `readFields` does, and stores their bytes.
* `addressParsers_grammar`: what the two parsers accept.
-/

namespace LLNStack

open Lib

/-! ## The functions -/

/-- The loop of `ip_string_to_address` with `k` rounds to go, so that `idx` is `4 - k`. -/
def ipStringToAddressLoop : Nat → Bytes → Bytes → Option (Bytes × Int)
  | 0, _, n => some (n, 0)
  | k + 1, sp, n =>
    match strtol 10 sp with
    | none => none
    | some (ret, ep) =>
      if ret < 0 ∨ 255 < ret ∨ ep = sp then some (n, -1)
      else
        match ep with
        | [] => none
        | c :: next =>
          if k = 0 ∧ c ≠ 0 ∨ k ≠ 0 ∧ c ≠ ascii '.' then some (n, -1)
          else ipStringToAddressLoop k next (n.set (3 - k) (BitVec.ofInt 8 ret))

/-- `ip_string_to_address`, with the address it finds in `*n` and the one it leaves there. -/
def ipStringToAddress (endian : Endian) (p : Bytes) (n : IPAddress) : Option (IPAddress × Int) :=
  (ipStringToAddressLoop 4 p (endian.store32 n)).map fun r => (endian.read32 r.1 0, r.2)

def ipAddressText (endian : Endian) (n : IPAddress) : Bytes :=
  printFields 10 1 (ascii '.') (endian.store32 n)

def ipAddressToString (endian : Endian) (n : IPAddress) (p : Bytes) (size : BitVec 64) :
    Option Bytes :=
  snprintf p size.toNat (ipAddressText endian n)

def EtherAddr.setByte (n : EtherAddr) (i : Nat) (b : Byte) : EtherAddr :=
  ⟨n.val.set i b, by rw [List.length_set, n.property]⟩

/-- The loop of `ether_addr_pton` with `k` rounds to go: `index`, `ep` and `*n` where it is left. -/
def etherAddrPtonLoop : Nat → Bytes → Bytes → EtherAddr → Option (Nat × Bytes × EtherAddr)
  | 0, _, ep, n => some (etherAddrLen, ep, n)
  | k + 1, p, _, n =>
    match strtol 16 p with
    | none => none
    | some (val, ep) =>
      if ep = p ∨ val < 0 ∨ 255 < val then some (5 - k, ep, n)
      else if k = 0 then etherAddrPtonLoop k (ep.drop 1) ep (n.setByte (5 - k) (BitVec.ofInt 8 val))
      else
        match ep with
        | [] => none
        | c :: next =>
          if c ≠ ascii ':' then some (5 - k, ep, n)
          else etherAddrPtonLoop k next ep (n.setByte (5 - k) (BitVec.ofInt 8 val))

/-- The test after the loop. -/
def etherAddrPtonEnd (index : Nat) (ep : Bytes) (n : EtherAddr) : Option (EtherAddr × Int) :=
  if index ≠ etherAddrLen then some (n, -1)
  else
    match ep with
    | [] => none
    | c :: _ => some (n, if c ≠ 0 then -1 else 0)

/-- `ether_addr_pton` after the check for NULL. The first `ep` is not used. -/
def etherAddrPtonText (p : Bytes) (n : EtherAddr) : Option (EtherAddr × Int) :=
  (etherAddrPtonLoop etherAddrLen p [] n).bind fun r => etherAddrPtonEnd r.1 r.2.1 r.2.2

/-- `ether_addr_pton`; `none` for `p` or `n` is NULL. -/
def etherAddrPton (p : Option Bytes) (n : Option EtherAddr) : Option (Option EtherAddr × Int) :=
  match p with
  | none => some (n, -1)
  | some p =>
    match n with
    | none => some (none, -1)
    | some n => (etherAddrPtonText p n).map fun r => (some r.1, r.2)

def etherAddrStrLen : Nat := 18

def etherAddrText (n : EtherAddr) : Bytes :=
  printFields 16 2 (ascii ':') n.val

/-- `ether_addr_ntop`; the inner `none` is the NULL it returns. -/
def etherAddrNtop (n : Option EtherAddr) (p : Option Bytes) (size : BitVec 64) :
    Option (Option Bytes) :=
  match n with
  | none => some none
  | some n =>
    match p with
    | none => some none
    | some p => (snprintf p size.toNat (etherAddrText n)).map some

/-! ## The loops read fields -/

/-- What a parser that has stored `pre` and goes on to read `fields` returns, with the bytes that it
leaves in memory. -/
inductive Parsed (pre : Bytes) : Option (Option Bytes) → Option (Bytes × Int) → Prop where
  | fault : Parsed pre none none
  | rejected (n : Bytes) : Parsed pre (some none) (some (n, -1))
  | read (bs : Bytes) : Parsed pre (some (some bs)) (some (pre ++ bs, 0))

theorem Parsed.cons {pre : Bytes} {b : Byte} {fields : Option (Option Bytes)}
    {r : Option (Bytes × Int)} (h : Parsed (pre ++ [b]) fields r) :
    Parsed pre (fields.map (Option.map (b :: ·))) r := by
  cases h with
  | fault => exact .fault
  | rejected n => exact .rejected n
  | read bs =>
    rw [List.append_assoc]
    exact .read (b :: bs)

theorem set_at_length (pre post : Bytes) (x v : Byte) {i : Nat} (hi : pre.length = i) :
    (pre ++ x :: post).set i v = (pre ++ [v]) ++ post := by
  simp [← hi]

theorem ipStringToAddressLoop_parsed {k : Nat} (hk : k ≤ 4) (p : Bytes) {pre post : Bytes}
    (hpre : pre.length = 4 - k) (hpost : post.length = k) :
    Parsed pre (readFields 10 (ascii '.') k p) (ipStringToAddressLoop k p (pre ++ post)) := by
  induction k generalizing p pre post with
  | zero =>
    rw [List.length_eq_zero_iff] at hpost
    subst hpost
    exact .read []
  | succ k ih =>
    obtain ⟨x, post, rfl⟩ := List.exists_cons_of_length_eq_add_one hpost
    rcases hv : strtol 10 p with _ | ⟨ret, ep⟩
    · simp only [readFields, ipStringToAddressLoop, hv]
      exact .fault
    · by_cases hrej : ret < 0 ∨ 255 < ret ∨ ep = p
      · simp only [readFields, ipStringToAddressLoop, hv, if_pos hrej]
        exact .rejected _
      · rcases ep with _ | ⟨c, next⟩
        · simp only [readFields, ipStringToAddressLoop, hv, if_neg hrej]
          exact .fault
        · by_cases hc : k = 0 ∧ c ≠ 0 ∨ k ≠ 0 ∧ c ≠ ascii '.'
          · simp only [readFields, ipStringToAddressLoop, hv, if_neg hrej, if_pos hc]
            exact .rejected _
          · simp only [readFields, ipStringToAddressLoop, hv, if_neg hrej, if_neg hc]
            rw [set_at_length _ _ _ _ (by omega)]
            refine (ih (by omega) next ?_ ?_).cons
            · rw [List.length_append, List.length_singleton]
              omega
            · simpa using hpost

/-- A round that breaks out of the loop has `index` below 6. -/
theorem etherAddrPtonEnd_break {index : Nat} (h : index < 6) (ep : Bytes) (n : EtherAddr) :
    etherAddrPtonEnd index ep n = some (n, -1) :=
  if_pos (by rw [etherAddrLen]; omega)

theorem setByte_at_length {n : EtherAddr} {pre post : Bytes} {x : Byte}
    (hn : n.val = pre ++ x :: post) {i : Nat} (hi : pre.length = i) (v : Byte) :
    (n.setByte i v).val = (pre ++ [v]) ++ post := by
  rw [← set_at_length pre post x v hi, ← hn]
  rfl

/-- By induction on the rounds to go. The source tests the end of the text after the loop, not in
the last round. -/
theorem etherAddrPtonLoop_parsed {k : Nat} (hk : k ≤ 5) (p ep₀ : Bytes) {n : EtherAddr}
    {pre post : Bytes} (hn : n.val = pre ++ post) (hpre : pre.length = 5 - k)
    (hpost : post.length = k + 1) :
    Parsed pre (readFields 16 (ascii ':') (k + 1) p)
      (((etherAddrPtonLoop (k + 1) p ep₀ n).bind fun r => etherAddrPtonEnd r.1 r.2.1 r.2.2).map
        fun r => (r.1.val, r.2)) := by
  obtain ⟨x, post, rfl⟩ := List.exists_cons_of_length_eq_add_one hpost
  induction k generalizing p ep₀ n pre x post with
  | zero =>
    obtain rfl : post = [] := by simpa using hpost
    rcases hv : strtol 16 p with _ | ⟨val, ep⟩
    · simp only [readFields, etherAddrPtonLoop, hv]
      exact .fault
    · by_cases hrej : val < 0 ∨ 255 < val ∨ ep = p
      · have hbreak : ep = p ∨ val < 0 ∨ 255 < val := by tauto
        simp only [readFields, etherAddrPtonLoop, hv, if_pos hrej, if_pos hbreak,
          Option.bind_some, etherAddrPtonEnd_break (show 5 - 0 < 6 by omega)]
        exact .rejected _
      · have hbreak : ¬ (ep = p ∨ val < 0 ∨ 255 < val) := by tauto
        rcases ep with _ | ⟨c, next⟩
        · simp only [readFields, etherAddrPtonLoop, hv, if_neg hrej, if_neg hbreak]
          exact .fault
        · simp only [readFields, etherAddrPtonLoop, hv, if_neg hrej, if_neg hbreak, if_true,
            Option.bind_some, etherAddrPtonEnd, if_neg (not_not.mpr rfl)]
          by_cases hc : c = 0
          · rw [if_neg (by simp [hc]), if_neg (not_not.mpr hc)]
            simp only [Option.map_some, setByte_at_length hn hpre, List.append_nil]
            exact .read _
          · rw [if_pos (.inl ⟨trivial, hc⟩), if_pos hc]
            exact .rejected _
  | succ k ih =>
    have hindex : 5 - (k + 1) < 6 := by omega
    rcases hv : strtol 16 p with _ | ⟨val, ep⟩
    · simp only [readFields, etherAddrPtonLoop, hv]
      exact .fault
    · by_cases hrej : val < 0 ∨ 255 < val ∨ ep = p
      · have hbreak : ep = p ∨ val < 0 ∨ 255 < val := by tauto
        simp only [readFields, etherAddrPtonLoop, hv, if_pos hrej, if_pos hbreak,
          Option.bind_some, etherAddrPtonEnd_break hindex]
        exact .rejected _
      · have hbreak : ¬ (ep = p ∨ val < 0 ∨ 255 < val) := by tauto
        rw [readFields, etherAddrPtonLoop, hv]
        rcases ep with _ | ⟨c, next⟩
        · simp only [if_neg hrej, if_neg hbreak, if_neg (Nat.succ_ne_zero k)]
          exact .fault
        · simp only [if_neg hrej, if_neg hbreak, if_neg (Nat.succ_ne_zero k)]
          by_cases hc : c = ascii ':'
          · rw [if_neg (by simp [hc]), if_neg (not_not.mpr hc)]
            obtain ⟨y, post, rfl⟩ := List.exists_cons_of_length_eq_add_one (Nat.succ.inj hpost)
            refine (ih (by omega) next _ ?_ y post ?_ ?_).cons
            · rw [List.length_append, List.length_singleton]
              omega
            · exact setByte_at_length hn hpre _
            · simpa using hpost
          · rw [if_pos (.inr ⟨Nat.succ_ne_zero k, hc⟩), if_pos hc, Option.bind_some,
              etherAddrPtonEnd_break hindex]
            exact .rejected _

theorem Parsed.none_iff {pre : Bytes} {fields : Option (Option Bytes)} {r : Option (Bytes × Int)}
    (h : Parsed pre fields r) : r = none ↔ fields = none := by
  cases h with
  | fault => simp
  | rejected n => simp
  | read bs => simp

theorem Parsed.ok_iff {pre : Bytes} {fields : Option (Option Bytes)} {r : Option (Bytes × Int)}
    (h : Parsed pre fields r) (n : Bytes) :
    r = some (n, 0) ↔ ∃ bs, fields = some (some bs) ∧ pre ++ bs = n := by
  cases h with
  | fault => simp
  | rejected n => simp
  | read bs => simp

theorem Parsed.status {pre : Bytes} {fields : Option (Option Bytes)} {r : Bytes × Int}
    (h : Parsed pre fields (some r)) : r.2 = 0 ∨ r.2 = -1 := by
  cases h with
  | rejected n => exact .inr rfl
  | read bs => exact .inl rfl

/-! ## The parsers on texts -/

section

variable (endian : Endian) {s : Bytes} (hs : 0 ∉ s) (rest : Bytes)

theorem read32_eq_iff {bs : Bytes} (hlen : bs.length = 4) (n : IPAddress) :
    endian.read32 bs 0 = n ↔ endian.store32 n = bs := by
  obtain ⟨a, b, c, d, rfl⟩ := List.length_eq_four.mp hlen
  have hread : endian.read32 [a, b, c, d] 0 = endian.load32 a b c d := rfl
  rw [hread]
  constructor
  · rintro rfl
    exact endian.store32_load32 a b c d
  · intro h
    obtain ⟨a', b', c', d', hstore, hload⟩ := endian.exists_store32 n
    rw [hstore] at h
    cases h
    exact hload

theorem ipStringToAddressLoop_store (p : Bytes) (n : IPAddress) :
    Parsed [] (readFields 10 (ascii '.') 4 p) (ipStringToAddressLoop 4 p (endian.store32 n)) :=
  ipStringToAddressLoop_parsed (le_refl 4) p (show ([] : Bytes).length = 4 - 4 from rfl)
    (endian.length_store32 n)

theorem ipStringToAddress_status {p : Bytes} {n n' : IPAddress} {ret : Int}
    (h : ipStringToAddress endian p n = some (n', ret)) : ret = 0 ∨ ret = -1 := by
  obtain ⟨r, hr, heq⟩ := Option.map_eq_some_iff.mp h
  have hparsed := ipStringToAddressLoop_store endian p n
  rw [hr] at hparsed
  obtain ⟨-, rfl⟩ := Prod.mk.inj heq
  exact hparsed.status

include hs

theorem ipStringToAddress_ne_none (n : IPAddress) :
    ipStringToAddress endian (s ++ 0 :: rest) n ≠ none := by
  intro h
  rw [ipStringToAddress, Option.map_eq_none_iff, (ipStringToAddressLoop_store endian _ n).none_iff]
    at h
  obtain ⟨r, hr, -⟩ := readFields_text 10 (ascii '.') (by decide) 3 hs rest
  rw [hr] at h
  cases h

theorem ipStringToAddress_ok_iff (n n' : IPAddress) :
    ipStringToAddress endian (s ++ 0 :: rest) n = some (n', 0) ↔
      ∃ ls, ls.length = 4 ∧ Fields 10 (ascii '.') ls s ∧ endian.store32 n' = octets ls := by
  have hparsed := ipStringToAddressLoop_store endian (s ++ 0 :: rest) n
  have hfields := readFields_iff 10 (ascii '.') (by decide) rfl (by decide) 3 hs rest
  constructor
  · intro h
    obtain ⟨⟨bs, status⟩, hr, heq⟩ := Option.map_eq_some_iff.mp h
    obtain ⟨hn, rfl⟩ := Prod.mk.inj heq
    obtain ⟨bs', hread, rfl⟩ := (hparsed.ok_iff bs).mp hr
    obtain ⟨ls, hlen, hls, rfl⟩ := (hfields bs').mp hread
    refine ⟨ls, hlen, hls, (read32_eq_iff endian ?_ n').mp hn⟩
    rw [octets, List.length_map, hlen]
  · rintro ⟨ls, hlen, hls, hstore⟩
    have hr := (hparsed.ok_iff (octets ls)).mpr
      ⟨octets ls, (hfields (octets ls)).mpr ⟨ls, hlen, hls, rfl⟩, rfl⟩
    have hread : endian.read32 (octets ls) 0 = n' := by
      rw [read32_eq_iff endian (by rw [octets, List.length_map, hlen]), hstore]
    rw [ipStringToAddress, hr, Option.map_some, hread]

omit hs in
theorem etherAddrPtonText_parsed (p : Bytes) (n : EtherAddr) :
    Parsed [] (readFields 16 (ascii ':') 6 p)
      ((etherAddrPtonText p n).map fun r => (r.1.val, r.2)) :=
  etherAddrPtonLoop_parsed (le_refl 5) p [] (List.nil_append n.val).symm
    (show ([] : Bytes).length = 5 - 5 from rfl) n.property

theorem etherAddrPton_ne_none (n : EtherAddr) :
    etherAddrPton (some (s ++ 0 :: rest)) (some n) ≠ none := by
  intro h
  have hparsed := etherAddrPtonText_parsed (s ++ 0 :: rest) n
  rw [etherAddrPton, Option.map_eq_none_iff] at h
  rw [h, Option.map_none] at hparsed
  obtain ⟨r, hr, -⟩ := readFields_text 16 (ascii ':') (by decide) 5 hs rest
  rw [hparsed.none_iff.mp rfl] at hr
  cases hr

theorem etherAddrPton_ok_iff (n n' : EtherAddr) :
    etherAddrPton (some (s ++ 0 :: rest)) (some n) = some (some n', 0) ↔
      ∃ ls, ls.length = 6 ∧ Fields 16 (ascii ':') ls s ∧ n'.val = octets ls := by
  have hok := (etherAddrPtonText_parsed (s ++ 0 :: rest) n).ok_iff n'.val
  have hfields := readFields_iff 16 (ascii ':') (by decide) rfl (by decide) 5 hs rest
  have hval : etherAddrPton (some (s ++ 0 :: rest)) (some n) = some (some n', 0) ↔
      (etherAddrPtonText (s ++ 0 :: rest) n).map (fun r => (r.1.val, r.2)) =
        some (n'.val, 0) := by
    simp [etherAddrPton, Subtype.ext_iff]
  rw [hval, hok]
  constructor
  · rintro ⟨bs, hread, hbs⟩
    obtain ⟨ls, hlen, hls, rfl⟩ := (hfields bs).mp hread
    exact ⟨ls, hlen, hls, hbs.symm⟩
  · rintro ⟨ls, hlen, hls, hn'⟩
    exact ⟨octets ls, (hfields _).mpr ⟨ls, hlen, hls, rfl⟩, hn'.symm⟩

end

theorem etherAddrPton_ntop (n n₀ : EtherAddr) {buf : Bytes} {size : BitVec 64}
    (hsize : etherAddrStrLen ≤ size.toNat) (hbuf : size.toNat ≤ buf.length) :
    ∃ q, etherAddrNtop (some n) (some buf) size = some (some q) ∧
      etherAddrPton (some q) (some n₀) = some (some n, 0) := by
  have hne : n.val ≠ [] := List.ne_nil_of_length_eq_add_one n.property
  have hlen : (etherAddrText n).length < 18 := by
    have h := length_printFields_lt (ascii ':') (show 1 < 16 by omega) (le_refl 2) (by decide) hne
    rwa [n.property] at h
  obtain ⟨ls, hls, hfields⟩ := fields_printFields (ascii ':') (show 1 < 16 by omega) (by omega)
    (show 0 < 2 by omega) hne
  have hlen6 : ls.length = 6 := by
    rw [← n.length_val, ← hls, octets, List.length_map]
  have hntop : etherAddrNtop (some n) (some buf) size =
      some (some (etherAddrText n ++ 0 :: buf.drop ((etherAddrText n).length + 1))) := by
    rw [etherAddrStrLen] at hsize
    rw [etherAddrNtop, snprintf_fits (by omega) hbuf]
    rfl
  refine ⟨_, hntop, (etherAddrPton_ok_iff (hfields.zero_notMem (by decide)) _ n₀ n).mpr ?_⟩
  exact ⟨ls, hlen6, hfields, hls.symm⟩

/-- **Address parsers.** Neither parser reads past the NUL of a text. `ip_string_to_address` accepts
exactly four decimal octets with single dots between them and stores their values, and
`ether_addr_pton` six hexadecimal octets with single colons; it reads back what `ether_addr_ntop`
writes. -/
theorem addressParsers_grammar (endian : Endian) {s : Bytes} (hs : 0 ∉ s) :
    (∀ n, ipStringToAddress endian (s ++ [0]) n ≠ none ∧
      ∀ n', ipStringToAddress endian (s ++ [0]) n = some (n', 0) ↔
        ∃ ls, ls.length = 4 ∧ Fields 10 (ascii '.') ls s ∧ endian.store32 n' = octets ls) ∧
    (∀ n, etherAddrPton (some (s ++ [0])) (some n) ≠ none ∧
      ∀ n', etherAddrPton (some (s ++ [0])) (some n) = some (some n', 0) ↔
        ∃ ls, ls.length = 6 ∧ Fields 16 (ascii ':') ls s ∧ n'.val = octets ls) ∧
    ∀ (n n₀ : EtherAddr) (buf : Bytes) (size : BitVec 64), etherAddrStrLen ≤ size.toNat →
      size.toNat ≤ buf.length → ∃ q, etherAddrNtop (some n) (some buf) size = some (some q) ∧
        etherAddrPton (some q) (some n₀) = some (some n, 0) := by
  refine ⟨fun n => ⟨?_, fun n' => ?_⟩, fun n => ⟨?_, fun n' => ?_⟩, fun n n₀ buf size => ?_⟩
  · exact ipStringToAddress_ne_none endian hs [] n
  · exact ipStringToAddress_ok_iff endian hs [] n n'
  · exact etherAddrPton_ne_none hs [] n
  · exact etherAddrPton_ok_iff hs [] n n'
  · exact etherAddrPton_ntop n n₀

/-- White space, a sign and leading zeros are part of a literal. -/
theorem spacedAddress_accepted :
    (∃ ls, ls.length = 4 ∧ Fields 10 (ascii '.') ls
      ([' ', '+', '7', '.', '0', '1', '0', '.', '0', '.', '2', '5', '5'].map ascii)) ∧
    ∃ q, etherAddrNtop (some etherAddrBroadcast) (some (List.replicate 18 0)) 18 = some (some q) ∧
      etherAddrPton (some q) (some etherAddrAny) = some (some etherAddrBroadcast, 0) := by
  have hs : 0 ∉ [' ', '+', '7', '.', '0', '1', '0', '.', '0', '.', '2', '5', '5'].map ascii := by
    decide
  obtain ⟨hip, -, hround⟩ := addressParsers_grammar .little hs
  refine ⟨?_, hround _ _ _ 18 (by decide) (by decide)⟩
  obtain ⟨ls, hlen, hls, -⟩ := ((hip 0).2 0xff000a07#32).mp (by decide +kernel)
  exact ⟨ls, hlen, hls⟩

end LLNStack
