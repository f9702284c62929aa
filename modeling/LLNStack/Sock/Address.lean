import LLNStack.Sock.System
import LLNStack.Ip.Endpoint
import LLNStack.Host.Model

/-!
# LLNStack.Sock.Address

Socket addresses: their text, `sockaddr_pton` and `sockaddr_ntop`, and the way `sock_recvfrom` fills
one in and `sock_sendto` reads it.

* `endpointCopy_iff`: for which texts the copy in `ip_string_to_endpoint` stays in its buffer.
* `endpoint_roundTrip`: endpoints and socket addresses are read back from their text.
* `peerUsable_iff`: `sock_recvfrom` does not set the family, so the address it fills in can be
  printed only if the family was set before.
-/

namespace LLNStack

open Lib

def sockaddrInSize : Nat := 8

def sockaddrStrLen : Nat := maxIpEndpointStringLength

/-- `sockaddr_pton`; `ep` is what its local variable holds at first. -/
def sockaddrPton (endian : Endian) (ep : IpEndpoint) (p : Bytes) (n : SockAddrIn)
    (size : BitVec 64) : Option (SockAddrIn × Int) :=
  match ipStringToEndpoint endian p ep with
  | none => none
  | some (ep, ret) =>
    if ret = 0 ∧ sockaddrInSize ≤ size.toNat then
      some (⟨BitVec.ofInt 16 afInet, ep.port, ep.address⟩, 0)
    else some (n, -1)

/-- `sockaddr_ntop`: the buffer it returns; the inner `none` is NULL. -/
def sockaddrNtop (endian : Endian) (n : SockAddrIn) (p : Bytes) (size : BitVec 64) :
    Option (Option Bytes) :=
  if (n.sinFamily.toNat : Int) = afInet ∧ maxIpEndpointStringLength ≤ size.toNat then
    (ipEndpointToString endian n.endpoint p size).map some
  else some none

/-- What `sock_recvfrom` leaves in `*addr` when `udp_recvfrom` has returned. -/
def sockRecvfromAddr (addr : SockAddrIn) : UdpResult → SockAddrIn
  | .received _ _ _ _ foreign =>
    { addr with
      sinAddr := foreign.address
      sinPort := foreign.port }
  | _ => addr

def sockSendto (env : Env) (socks : Socks) (h : Host) (id : Int) (data : Bytes)
    (addr : SockAddrIn) : Host × Int :=
  match sockDesc socks id with
  | none => (h, -1)
  | some desc => h.udpSendto env desc data addr.endpoint

/-! ## Bounds -/

/-- Of the text `s`, at most 15 bytes are copied, inside the buffer, and the copy is terminated. -/
def CopyInBounds (s : Bytes) : Prop :=
  ∀ sep, strrchr (ascii ':') (s ++ [0]) = some (some sep) → sep ≤ 15 ∧
    ∃ addr, memcpy (List.replicate maxIpAddressStringLength 0) (s ++ [0]) sep = some addr ∧
      0 ∈ addr

theorem colon_cases {s : Bytes} (hs : 0 ∉ s) :
    ascii ':' ∉ s ∧ strrchr (ascii ':') (s ++ [0]) = some none ∨
    ∃ a b, s = a ++ ascii ':' :: b ∧ 0 ∉ a ∧ 0 ∉ b ∧ ascii ':' ∉ b ∧
      strrchr (ascii ':') (s ++ [0]) = some (some a.length) := by
  have hne : ascii ':' ≠ 0 := by decide
  by_cases h : ascii ':' ∈ s
  · obtain ⟨a, b, rfl, hb⟩ := exists_last h
    rw [List.mem_append, List.mem_cons, not_or, not_or] at hs
    exact .inr ⟨a, b, rfl, hs.1, hs.2.2, hb, strrchr_last [] hne hs.1 hs.2.2 hb⟩
  · exact .inl ⟨h, strrchr_none [] hne hs h⟩

theorem copyInBounds_iff {s : Bytes} (hs : 0 ∉ s) :
    CopyInBounds s ↔ ∀ a b, s = a ++ ascii ':' :: b → ascii ':' ∉ b → a.length ≤ 15 := by
  constructor
  · rintro h a b rfl hb
    rw [List.mem_append, List.mem_cons, not_or, not_or] at hs
    exact (h _ (strrchr_last [] (by decide) hs.1 hs.2.2 hb)).1
  · intro h sep hsep
    rcases colon_cases hs with ⟨-, hnone⟩ | ⟨a, b, rfl, -, -, hb, hlast⟩
    · rw [hnone] at hsep
      cases hsep
    · rw [hlast] at hsep
      cases hsep
      have hshort := h a b rfl hb
      exact ⟨hshort, _, addressCopy_short [] hshort, by simp⟩

theorem sockaddrPton_none_iff {endian : Endian} {ep : IpEndpoint} {p : Bytes} {n : SockAddrIn}
    {size : BitVec 64} :
    sockaddrPton endian ep p n size = none ↔ ipStringToEndpoint endian p ep = none := by
  rw [sockaddrPton]
  cases ipStringToEndpoint endian p ep with
  | none => simp
  | some r =>
    simp only [reduceCtorEq, iff_false]
    split <;> simp

/-- **Bounds of endpoint parsing.** The copy of the address part is in bounds and terminated exactly
for the texts whose last colon, if there is one, has at most 15 characters before it. On these no
access of `ip_string_to_endpoint` and `sockaddr_pton` is out of bounds; with more than 16 characters
the copy writes behind the buffer. -/
theorem endpointCopy_iff (endian : Endian) {s : Bytes} (hs : 0 ∉ s) :
    (CopyInBounds s ↔ ∀ a b, s = a ++ ascii ':' :: b → ascii ':' ∉ b → a.length ≤ 15) ∧
    (CopyInBounds s → ∀ ep n size, ipStringToEndpoint endian (s ++ [0]) ep ≠ none ∧
      sockaddrPton endian ep (s ++ [0]) n size ≠ none) ∧
    ∀ a b, s = a ++ ascii ':' :: b → ascii ':' ∉ b → 16 < a.length →
      ∀ ep n size, ipStringToEndpoint endian (s ++ [0]) ep = none ∧
        sockaddrPton endian ep (s ++ [0]) n size = none := by
  refine ⟨copyInBounds_iff hs, fun h ep n size => ?_, ?_⟩
  · have hparse : ipStringToEndpoint endian (s ++ [0]) ep ≠ none := by
      rcases colon_cases hs with ⟨-, hnone⟩ | ⟨a, b, rfl, ha, hb, hcolon, -⟩
      · simp only [ipStringToEndpoint, hnone]
        exact Option.some_ne_none _
      · exact ipStringToEndpoint_ne_none endian ha hb hcolon [] ep
          ((copyInBounds_iff hs).mp h a b rfl hcolon)
    exact ⟨hparse, fun hpton => hparse (sockaddrPton_none_iff.mp hpton)⟩
  · rintro a b rfl hcolon hlong ep n size
    rw [List.mem_append, List.mem_cons, not_or, not_or] at hs
    have hparse := ipStringToEndpoint_overflow endian hs.1 hs.2.2 hcolon [] ep hlong
    exact ⟨hparse, sockaddrPton_none_iff.mpr hparse⟩

/-- Seventeen characters before the colon. -/
theorem longAddress_overflows :
    ipStringToEndpoint .little (List.replicate 17 (ascii '1') ++ ascii ':' ::
      ['8', '0'].map ascii ++ [0]) ⟨0, 0⟩ = none ∧
    ¬ CopyInBounds (List.replicate 17 (ascii '1') ++ ascii ':' :: ['8', '0'].map ascii) := by
  refine ⟨by decide +kernel, fun h => ?_⟩
  exact absurd (h 17 (by decide +kernel)).1 (by decide)

theorem plainAddress_inBounds :
    CopyInBounds (hostText ++ ascii ':' :: ['8', '0'].map ascii) ∧
    ∀ ep n size, sockaddrPton .little ep
      (hostText ++ ascii ':' :: ['8', '0'].map ascii ++ [0]) n size ≠ none := by
  have hcopy : CopyInBounds (hostText ++ ascii ':' :: ['8', '0'].map ascii) := by
    intro sep hsep
    have hlast : strrchr (ascii ':') (hostText ++ ascii ':' :: ['8', '0'].map ascii ++ [0]) =
        some (some 8) := by decide +kernel
    rw [hlast] at hsep
    cases hsep
    exact ⟨by decide, _, rfl, by decide⟩
  have hs : 0 ∉ hostText ++ ascii ':' :: ['8', '0'].map ascii := by decide
  exact ⟨hcopy, fun ep n size => ((endpointCopy_iff .little hs).2.1 hcopy ep n size).2⟩

/-! ## Round trip -/

/-- **Endpoint text round trip.** Into a buffer of at least 22 bytes the whole text is written, also
by `sockaddr_ntop`, and the parsers give back the endpoint with its port, if that is not 0. What
`ip_string_to_endpoint` accepts has such a port, so it is read back when it is printed. -/
theorem endpoint_roundTrip (endian : Endian) (n n₀ : IpEndpoint) {buf : Bytes} {size : BitVec 64}
    (hsize : maxIpEndpointStringLength ≤ size.toNat) (hbuf : size.toNat ≤ buf.length) :
    (n.port ≠ 0 → ∃ rest,
      (endpointText endian n).length < maxIpEndpointStringLength ∧
      ipEndpointToString endian n buf size = some (endpointText endian n ++ 0 :: rest) ∧
      ipStringToEndpoint endian (endpointText endian n ++ 0 :: rest) n₀ = some (n, 0) ∧
      ∀ addr addr₀ size₀, addr = ⟨BitVec.ofInt 16 afInet, n.port, n.address⟩ →
        sockaddrInSize ≤ BitVec.toNat size₀ →
        sockaddrNtop endian addr buf size = some (some (endpointText endian n ++ 0 :: rest)) ∧
        sockaddrPton endian n₀ (endpointText endian n ++ 0 :: rest) addr₀ size₀ =
          some (addr, 0)) ∧
    ∀ a b n₁, 0 ∉ a → 0 ∉ b → ascii ':' ∉ b → a.length ≤ 15 →
      ipStringToEndpoint endian (a ++ ascii ':' :: b ++ [0]) n₁ = some (n, 0) →
      ∃ q, ipEndpointToString endian n buf size = some q ∧
        ipStringToEndpoint endian q n₀ = some (n, 0) := by
  have hprint := ipEndpointToString_eq endian n hsize hbuf
  refine ⟨fun hport => ⟨_, ?_, hprint, ipStringToEndpoint_endpointText endian hport n₀ _, ?_⟩, ?_⟩
  · have haddr := length_ipAddressText endian n.address
    have hlen := length_portText endian n.port
    rw [endpointText, List.length_append, maxIpEndpointStringLength, maxIpAddressStringLength]
    omega
  · rintro addr addr₀ size₀ rfl hsize₀
    constructor
    · rw [sockaddrNtop, if_pos ⟨rfl, hsize⟩, SockAddrIn.endpoint, hprint]
      rfl
    · simp only [sockaddrPton, ipStringToEndpoint_endpointText endian hport n₀ _]
      rw [if_pos ⟨trivial, hsize₀⟩]
  · intro a b n₁ ha hb hcolon hshort h
    have hport := ipStringToEndpoint_port_ne_zero endian ha hb hcolon [] n₁ hshort h
    exact ⟨_, hprint, ipStringToEndpoint_endpointText endian hport n₀ _⟩

/-- 255.255.255.255:65535 needs all 22 bytes. -/
theorem longestEndpoint_roundTrip : ∃ q,
    ipEndpointToString .little ⟨0xffffffff#32, 0xffff#16⟩ (List.replicate 22 1) 22 = some q ∧
    (endpointText .little ⟨0xffffffff#32, 0xffff#16⟩).length = 21 ∧
    ipStringToEndpoint .little q ⟨0, 0⟩ = some (⟨0xffffffff#32, 0xffff#16⟩, 0) := by
  obtain ⟨hround, -⟩ := endpoint_roundTrip .little ⟨0xffffffff#32, 0xffff#16⟩ ⟨0, 0⟩
    (show maxIpEndpointStringLength ≤ (22 : BitVec 64).toNat by decide)
    (show (22 : BitVec 64).toNat ≤ (List.replicate 22 (1 : Byte)).length by decide)
  obtain ⟨rest, -, hprint, hparse, -⟩ := hround (by decide)
  exact ⟨_, hprint, by decide +kernel, hparse⟩

/-! ## The address of the peer -/

def PeerPrinted (endian : Endian) (addr : SockAddrIn) (buf : Bytes) (peer : IpEndpoint) : Prop :=
  sockaddrNtop endian addr buf (BitVec.ofNat 64 sockaddrStrLen) =
    some (some (endpointText endian peer ++ 0 :: buf.drop ((endpointText endian peer).length + 1)))

def PeerAddressed (addr : SockAddrIn) (peer : IpEndpoint) : Prop :=
  ∀ env socks h id data, sockSendto env socks h id data addr =
    match sockDesc socks id with
    | none => (h, -1)
    | some desc => Host.udpSendto env h desc data peer

theorem received_front {s s' : UdpSys} {a : UdpAction} {call size : Nat} {i : Fin udpPcbSize}
    {data : Bytes} {foreign : IpEndpoint}
    (ht : UdpTrans s a (.received call i size data foreign) s') :
    ∃ entry rest, (s.pcbs i).queue = entry :: rest ∧ data = entry.data.take size ∧
      foreign = entry.foreign := by
  have hs := slot_trans ht i
  have hrecv : receivedFrom i (a, .received call i size data foreign) ≠ none := by
    simp [receivedFrom]
  generalize s'.pcbs i = pcb' at hs
  cases hs with
  | same _ hnone | bound _ _ hnone => exact absurd hnone hrecv
  | popped hq _ => exact ⟨_, _, hq, rfl, rfl⟩

theorem sock_received {s s' : SockSys} {a : SockAction} {call size : Nat} {i : Fin udpPcbSize}
    {data : Bytes} {foreign : IpEndpoint}
    (ht : SockTrans s a (.received call i size data foreign) s') :
    ∃ a', UdpTrans s.udp a' (.received call i size data foreign) s'.udp := by
  cases ht with
  | bind _ _ hu | sendto _ _ hu | input hu | event hu | woken hu | spurious hu => exact ⟨_, hu⟩
  | recvfrom _ _ _ hu => exact ⟨_, hu⟩

theorem peerPrinted_iff (endian : Endian) (addr : SockAddrIn) {buf : Bytes}
    (hbuf : sockaddrStrLen ≤ buf.length) :
    PeerPrinted endian addr buf addr.endpoint ↔ (addr.sinFamily.toNat : Int) = afInet := by
  have hsize : maxIpEndpointStringLength ≤ (BitVec.ofNat 64 sockaddrStrLen).toNat := by decide
  rw [PeerPrinted, sockaddrNtop, ipEndpointToString_eq endian addr.endpoint hsize hbuf]
  by_cases hfamily : (addr.sinFamily.toNat : Int) = afInet
  · rw [if_pos ⟨hfamily, hsize⟩, Option.map_some]
    exact ⟨fun _ => hfamily, fun _ => rfl⟩
  · rw [if_neg fun h => hfamily h.1]
    simp [hfamily]

/-- **Peer address.** When a `sock_recvfrom`, blocked or not, returns the first datagram of a queue,
the caller's `addr` has its sender, to which `sock_sendto` then sends. `sockaddr_ntop` prints it if
and only if the family in `addr` was `AF_INET` before. -/
theorem peerUsable_iff (endian : Endian) {s s' : SockSys} {a : SockAction} {call size : Nat}
    {i : Fin udpPcbSize} {data : Bytes} {foreign : IpEndpoint}
    (hstep : SockSys.Step s (a, .received call i size data foreign) s') (addr : SockAddrIn)
    {buf : Bytes} (hbuf : sockaddrStrLen ≤ buf.length) :
    ∃ entry rest, (s.udp.pcbs i).queue = entry :: rest ∧ data = entry.data.take size ∧
      (PeerPrinted endian (sockRecvfromAddr addr (.received call i size data foreign)) buf
          entry.foreign ∧
        PeerAddressed (sockRecvfromAddr addr (.received call i size data foreign)) entry.foreign ↔
        (addr.sinFamily.toNat : Int) = afInet) ∧
      PeerAddressed (sockRecvfromAddr addr (.received call i size data foreign))
        entry.foreign := by
  obtain ⟨a', ht⟩ := sock_received (sock_trans hstep)
  obtain ⟨entry, rest, hq, hdata, rfl⟩ := received_front ht
  have haddressed : PeerAddressed (sockRecvfromAddr addr
      (.received call i size data entry.foreign)) entry.foreign := fun _ _ _ _ _ => rfl
  refine ⟨entry, rest, hq, hdata, ?_, haddressed⟩
  rw [and_iff_left haddressed]
  exact peerPrinted_iff endian (sockRecvfromAddr addr _) hbuf

def datagramQueued : List SockAction :=
  [.sockOpen afInet sockDgram 0, .sockBind 0 ⟨2, 0x0700#16, ipAddrAny⟩,
    .udpInput (true, true) helloDatagram 10 0x0100000a#32 0x0200000a#32]

def helloReceived (i : Fin udpPcbSize) : UdpResult :=
  .received 0 i 100 [104, 105] ⟨0x0100000a#32, 0x3930#16⟩

/-- With a buffer of zeros, `sockaddr_ntop` returns NULL for the sender. -/
theorem zeroedAddr_notPrinted : ∃ tr s, Run SockSys.Step SockSys.init tr s ∧
    tr.map Prod.fst = datagramQueued ++ [.sockRecvfrom 0 100] ∧
    (tr.map Prod.snd).getLast? = some (helloReceived 0) ∧
    sockaddrNtop .little (sockRecvfromAddr ⟨0, 0, 0⟩ (helloReceived 0)) (List.replicate 22 0) 22 =
      some none ∧
    ¬ PeerPrinted .little (sockRecvfromAddr ⟨0, 0, 0⟩ (helloReceived 0)) (List.replicate 22 0)
      ⟨0x0100000a#32, 0x3930#16⟩ := by
  obtain ⟨tr, s, hrun, hmap, hlast⟩ := exec_check SockSys.step SockSys.init
    (datagramQueued ++ [.sockRecvfrom 0 100])
    (fun r => decide ((r.1.map Prod.snd).getLast? = some (helloReceived 0))) (by decide +kernel)
  have hnull : sockaddrNtop .little (sockRecvfromAddr ⟨0, 0, 0⟩ (helloReceived 0))
      (List.replicate 22 0) 22 = some none := rfl
  refine ⟨tr, s, hrun, hmap, of_decide_eq_true hlast, hnull, fun h => ?_⟩
  rw [PeerPrinted] at h
  cases hnull.symm.trans h

theorem datagramQueued_isSome :
    (exec SockSys.step SockSys.init datagramQueued).isSome = true := by decide +kernel

/-- With the family set beforehand, the sender can be printed. -/
theorem familySet_printed : ∃ s s', SockSys.Step s (.sockRecvfrom 0 100, helloReceived 0) s' ∧
    ∃ entry rest, (s.udp.pcbs 0).queue = entry :: rest ∧
      PeerPrinted .little (sockRecvfromAddr ⟨2, 0, 0⟩ (helloReceived 0)) (List.replicate 22 0)
        entry.foreign := by
  have hres : (SockSys.step ((exec SockSys.step SockSys.init datagramQueued).get
      datagramQueued_isSome).2 (.sockRecvfrom 0 100)).map Prod.snd = some (helloReceived 0) := by
    decide +kernel
  obtain ⟨⟨s', r⟩, hstep, rfl⟩ := Option.map_eq_some_iff.mp hres
  have hbuf : sockaddrStrLen ≤ (List.replicate 22 (0 : Byte)).length := by decide
  obtain ⟨entry, rest, hq, -, hiff, -⟩ := peerUsable_iff .little hstep ⟨2, 0, 0⟩ hbuf
  exact ⟨_, s', hstep, entry, rest, hq, (hiff.mpr rfl).1⟩

end LLNStack
