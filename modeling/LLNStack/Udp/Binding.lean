import LLNStack.Udp.Ports

/-!
# LLNStack.Udp.Binding

Sockets with and without a port. Port 0 stands for "no port yet"; `udp_pcb_select` compares it like
any other port.

* `ephemeral_port`: `udp_sendto` gives a socket without a port the least port of its range that is
  free for the source address, and the socket keeps it.
* `bind_fair_iff`: when `udp_bind` fails for no other reason than another socket on the port. It
  also fails because of the socket itself, and for port 0 because of any socket without a port.
* `input_bound_iff`: when only sockets with a port get datagrams. A datagram to port 0 goes to a
  socket without a port.
-/

namespace LLNStack

open Lib

/-! ## Ephemeral ports -/

theorem udpSourcePort_least (pcbs : Pcbs) (addr : IPAddress) :
    ∃ p, 49152 ≤ p ∧ p ≤ 65535 ∧
      udpSourcePort pcbs addr = some (hton16 .little (BitVec.ofNat 16 p)) ∧
      (∀ j, ¬ (pcbs j).Eligible addr (hton16 .little (BitVec.ofNat 16 p))) ∧
      ∀ q, 49152 ≤ q → q < p →
        ∃ j, (pcbs j).Eligible addr (hton16 .little (BitVec.ofNat 16 q)) := by
  obtain ⟨port, hport⟩ := udpSourcePort_isSome pcbs addr
  have hfree := (udpSourcePort_some hport).2
  rw [udpSourcePort, List.find?_map, Option.map_eq_some_iff] at hport
  obtain ⟨p, hfind, rfl⟩ := hport
  obtain ⟨-, hmem, hbefore⟩ := List.find?_range'_eq_some.mp hfind
  rw [List.mem_range'_1] at hmem
  simp only [udpSourcePortMin, udpSourcePortMax] at hmem hbefore
  refine ⟨p, by omega, by omega, ?_, hfree, fun q hq hqp => ?_⟩
  · rw [udpSourcePort, List.find?_map, hfind]
    rfl
  · by_contra hn
    push Not at hn
    have hq' := hbefore q hq hqp
    rw [Function.comp_apply, udpPcbSelect_none.mpr hn] at hq'
    cases hq'

def UdpAction.Rebinds (i : Fin udpPcbSize) : UdpAction → Prop
  | .udpClose id _ | .udpBind id _ => id = i.val
  | _ => False

theorem endpoint_kept {s s' : UdpSys} {a : UdpAction} {r : UdpResult} (ht : UdpTrans s a r s')
    {i : Fin udpPcbSize} (ha : ¬ a.Rebinds i) (hopen : (s.pcbs i).state = .stateOpen)
    (hport : (s.pcbs i).localEp.port ≠ 0) :
    (s'.pcbs i).state = .stateOpen ∧ (s'.pcbs i).localEp = (s.pcbs i).localEp := by
  have same : s'.pcbs i = s.pcbs i →
      (s'.pcbs i).state = .stateOpen ∧ (s'.pcbs i).localEp = (s.pcbs i).localEp := by
    intro he
    rw [he]
    exact ⟨hopen, rfl⟩
  have endpoints : (∃ queue ctx, s'.pcbs i = { s.pcbs i with queue := queue, ctx := ctx }) →
      (s'.pcbs i).state = .stateOpen ∧ (s'.pcbs i).localEp = (s.pcbs i).localEp := by
    rintro ⟨queue, ctx, he⟩
    rw [he]
    exact ⟨hopen, rfl⟩
  cases ht with
  | openFail | closeFail | bindFail | sendtoKeep | inputDrop | recvNotFound | spurious =>
    exact same rfl
  | @openOk k hk =>
    refine same (Function.update_of_ne ?_ ..)
    rintro rfl
    rw [hopen] at hk
    cases hk
  | closeOk hk | bindOk hk _ =>
    refine same (Function.update_of_ne ?_ ..)
    rintro rfl
    exact ha (udpPcbGet_some.mp hk).1
  | sendtoAssign _ hk _ _ =>
    refine same (Function.update_of_ne ?_ ..)
    rintro rfl
    exact hport hk
  | inputAccept _ => exact endpoints (update_endpoints s.pcbs _ _ _ i)
  | event => exact endpoints (event_endpoints s.pcbs i)
  | recv _ _ ht => exact endpoints (recvTrans_endpoints ht i)
  | wokenFail _ => exact endpoints (leave_endpoints s _ _ i)
  | @wokenClosed k _ w _ hclosing =>
    have hne : i ≠ w.pcb := by
      rintro rfl
      rw [hopen] at hclosing
      cases hclosing
    obtain ⟨queue, ctx, he⟩ := leave_endpoints s k w i
    exact endpoints ⟨queue, ctx, (Function.update_of_ne hne ..).trans he⟩
  | @woken k _ w _ _ _ ht =>
    obtain ⟨queue, ctx, he⟩ := leave_endpoints s k w i
    obtain ⟨queue', ctx', he'⟩ := recvTrans_endpoints ht i
    exact endpoints ⟨queue', ctx', by rw [he', he]⟩

theorem run_endpoint_kept {s s' : UdpSys} {tr : List (UdpAction × UdpResult)}
    (h : Run UdpSys.Step s tr s') {i : Fin udpPcbSize} (htr : ∀ l ∈ tr, ¬ l.1.Rebinds i)
    (hopen : (s.pcbs i).state = .stateOpen) (hport : (s.pcbs i).localEp.port ≠ 0) :
    (s'.pcbs i).state = .stateOpen ∧ (s'.pcbs i).localEp = (s.pcbs i).localEp := by
  have hg := h.guard (C := fun _ l => ¬ l.1.Rebinds i) fun l hl _ => htr l hl
  refine hg.invariant (P := fun s' => (s'.pcbs i).state = .stateOpen ∧
    (s'.pcbs i).localEp = (s.pcbs i).localEp) ⟨hopen, rfl⟩ ?_
  rintro s₁ l s₂ ⟨ho, hl⟩ ⟨hstep, hnot⟩
  obtain ⟨ho', hl'⟩ := endpoint_kept (step_trans hstep) hnot ho (by rw [hl]; exact hport)
  exact ⟨ho', hl'.trans hl⟩

/-- `udp_sendto` on a socket that has a port changes nothing and uses the port. -/
theorem udpSendto_port {s : UdpSys} {i : Fin udpPcbSize}
    (hopen : (s.pcbs i).state = .stateOpen) (hport : (s.pcbs i).localEp.port ≠ 0)
    (unicast : Option IPAddress) :
    ∃ src, s.step (.udpSendto i.val unicast) = some (s, .source src) ∧
      ∀ localEp, src = some localEp → localEp.port = (s.pcbs i).localEp.port := by
  have hget := udpPcbGet_some.mpr ⟨rfl, hopen⟩
  simp only [UdpSys.step, udpSendtoSource, hget, hport, if_false]
  split
  · refine ⟨none, rfl, ?_⟩
    intro localEp he
    cases he
  · refine ⟨_, rfl, ?_⟩
    intro localEp he
    cases he
    rfl

/-- **Ephemeral ports.** `udp_sendto` on an open socket without a port, with a source address,
finds a port: the least one from 49152 to 65535 that no open socket holds at this address or at the
wildcard address. It changes no other socket. Whatever happens then, short of a bind or a close of
the socket, a later `udp_sendto` on it uses the same port. -/
theorem ephemeral_port (s : UdpSys) {i : Fin udpPcbSize} {unicast : Option IPAddress}
    {addr : IPAddress} (hopen : (s.pcbs i).state = .stateOpen)
    (hport : (s.pcbs i).localEp.port = 0)
    (haddr : (if (s.pcbs i).localEp.address = ipAddrAny then unicast
      else some (s.pcbs i).localEp.address) = some addr) :
    ∃ p port, 49152 ≤ p ∧ p ≤ 65535 ∧ port = hton16 .little (BitVec.ofNat 16 p) ∧
      (∀ j, ¬ (s.pcbs j).Eligible addr port) ∧
      (∀ q, 49152 ≤ q → q < p →
        ∃ j, (s.pcbs j).Eligible addr (hton16 .little (BitVec.ofNat 16 q))) ∧
      ∃ s', s.step (.udpSendto i.val unicast) = some (s', .source (some ⟨addr, port⟩)) ∧
        s'.pcbs i = { s.pcbs i with localEp := ⟨(s.pcbs i).localEp.address, port⟩ } ∧
        (∀ j, j ≠ i → s'.pcbs j = s.pcbs j) ∧
        ∀ tr s'', Run UdpSys.Step s' tr s'' → (∀ l ∈ tr, ¬ l.1.Rebinds i) → ∀ unicast',
          ∃ src, s''.step (.udpSendto i.val unicast') = some (s'', .source src) ∧
            ∀ localEp, src = some localEp → localEp.port = port := by
  obtain ⟨p, hmin, hmax, hsearch, hfree, hbelow⟩ := udpSourcePort_least s.pcbs addr
  have hget := udpPcbGet_some.mpr ⟨rfl, hopen⟩
  refine ⟨p, _, hmin, hmax, rfl, hfree, hbelow, ?_⟩
  refine ⟨s.setPcb i { s.pcbs i with
    localEp := ⟨(s.pcbs i).localEp.address, hton16 .little (BitVec.ofNat 16 p)⟩ }, ?_, ?_, ?_, ?_⟩
  · simp only [UdpSys.step, udpSendtoSource, hget, haddr, hport, if_true, hsearch]
    rfl
  · exact Function.update_self ..
  · exact fun j hj => Function.update_of_ne hj ..
  · intro tr s'' hrun htr unicast'
    have hne := udpSourcePort_ne_zero hsearch
    obtain ⟨ho, hl⟩ := run_endpoint_kept hrun htr
      (by rw [setPcb_pcbs, Function.update_self]; exact hopen)
      (by rw [setPcb_pcbs, Function.update_self]; exact hne)
    rw [setPcb_pcbs, Function.update_self] at hl
    obtain ⟨src, hstep, hsrc⟩ := udpSendto_port ho (by rw [hl]; exact hne) unicast'
    refine ⟨src, hstep, fun localEp he => ?_⟩
    rw [hsrc localEp he, hl]

def firstPortTaken : List UdpAction :=
  [.udpOpen, .udpOpen, .udpBind 0 ⟨ipAddrAny, hton16 .little 49152⟩]

/-- The other one, when it sends, gets another port. -/
theorem firstPortTaken_assigned : ∃ tr s port s', Run UdpSys.Step UdpSys.init tr s ∧
    tr.map Prod.fst = firstPortTaken ∧ port ≠ hton16 .little 49152 ∧
    s.step (.udpSendto 1 (some 0x0100000a#32)) =
      some (s', .source (some ⟨0x0100000a#32, port⟩)) := by
  obtain ⟨tr, s, hrun, hmap, hcheck⟩ := exec_check UdpSys.step UdpSys.init firstPortTaken
    (fun r => decide ((r.2.pcbs 1).state = .stateOpen ∧
      (r.2.pcbs 1).localEp = ⟨ipAddrAny, 0⟩ ∧
      (r.2.pcbs 0).Eligible 0x0100000a#32 (hton16 .little 49152))) (by decide +kernel)
  obtain ⟨hopen, hlocal, htaken⟩ := of_decide_eq_true hcheck
  obtain ⟨p, port, -, -, -, hfree, -, s', hstep, -⟩ := ephemeral_port s hopen (by rw [hlocal])
    (show (if (s.pcbs 1).localEp.address = ipAddrAny then some 0x0100000a#32
      else some (s.pcbs 1).localEp.address) = some 0x0100000a#32 by rw [hlocal, if_pos rfl])
  refine ⟨tr, s, port, s', hrun, hmap, ?_, hstep⟩
  rintro rfl
  exact hfree 0 htaken

/-! ## Binding -/

theorem udpBind_fails {pcbs : Pcbs} {id : Int} {i : Fin udpPcbSize}
    (hget : udpPcbGet pcbs id = some i) (localEp : IpEndpoint) :
    (udpBind pcbs id localEp).2 = -1 ↔
      ∃ j, (pcbs j).Eligible localEp.address localEp.port := by
  simp only [udpBind, hget]
  cases hsel : udpPcbSelect pcbs localEp.address localEp.port with
  | none =>
    refine iff_of_false (by simp) ?_
    rintro ⟨j, hj⟩
    exact udpPcbSelect_none.mp hsel j hj
  | some j => exact iff_of_true rfl ⟨j, udpPcbSelect_some hsel⟩

/-- The condition on a bind of the socket in slot `i`: for port 0, that no open socket without a
port has the address or the wildcard address; for another port, that the socket itself does not
already hold the endpoint, unless another one holds it as well. -/
def BindFair (pcbs : Pcbs) (i : Fin udpPcbSize) (localEp : IpEndpoint) : Prop :=
  if localEp.port = 0 then ∀ j, ¬ (pcbs j).Eligible localEp.address 0
  else (pcbs i).Eligible localEp.address localEp.port →
    ∃ j, j ≠ i ∧ (pcbs j).Eligible localEp.address localEp.port

/-- **Bind failures.** `udp_bind` on an open socket fails only because another open socket holds
the non-zero port with the same address or the wildcard address, exactly if the bind is fair. -/
theorem bind_fair_iff {pcbs : Pcbs} {id : Int} {i : Fin udpPcbSize}
    (hget : udpPcbGet pcbs id = some i) (localEp : IpEndpoint) :
    ((udpBind pcbs id localEp).2 = -1 →
        ∃ j, j ≠ i ∧ (pcbs j).state = .stateOpen ∧ (pcbs j).localEp.port = localEp.port ∧
          localEp.port ≠ 0 ∧
          ((pcbs j).localEp.address = localEp.address ∨
            (pcbs j).localEp.address = ipAddrAny)) ↔
      BindFair pcbs i localEp := by
  rw [udpBind_fails hget]
  have heligible : ∀ j, (pcbs j).Eligible localEp.address localEp.port ↔
      (pcbs j).state = .stateOpen ∧ (pcbs j).localEp.port = localEp.port ∧
        ((pcbs j).localEp.address = localEp.address ∨
          (pcbs j).localEp.address = ipAddrAny) := by
    intro j
    unfold UdpPcb.Eligible
    tauto
  unfold BindFair
  by_cases h0 : localEp.port = 0
  · rw [if_pos h0]
    constructor
    · intro h j hj
      obtain ⟨k, -, -, -, hne, -⟩ := h ⟨j, h0.symm ▸ hj⟩
      exact hne h0
    · rintro h ⟨j, hj⟩
      exact absurd (h0 ▸ hj) (h j)
  · rw [if_neg h0]
    constructor
    · intro h hi
      obtain ⟨j, hji, hopen, hport, -, haddr⟩ := h ⟨i, hi⟩
      exact ⟨j, hji, (heligible j).mpr ⟨hopen, hport, haddr⟩⟩
    · rintro h ⟨j, hj⟩
      -- the socket in the way is another one, or there is another one besides
      obtain ⟨k, hki, hk⟩ : ∃ k, k ≠ i ∧ (pcbs k).Eligible localEp.address localEp.port := by
        by_cases hji : j = i
        · exact h (hji ▸ hj)
        · exact ⟨j, hji, hj⟩
      obtain ⟨hopen, hport, haddr⟩ := (heligible k).mp hk
      exact ⟨k, hki, hopen, hport, h0, haddr⟩

/-- A socket cannot be bound to where it is bound already, and a new socket cannot be bound to port
0; there is no other socket on either port. -/
theorem boundSocket_refused : ∃ tr s, Run UdpSys.Step UdpSys.init tr s ∧
    tr.map Prod.fst = boundSocket ++ [.udpOpen] ∧
    ((udpBind s.pcbs 0 ⟨ipAddrAny, 0x0700#16⟩).2 = -1 ∧
      ∀ j, j ≠ 0 → (s.pcbs j).localEp.port ≠ 0x0700#16) ∧
    (udpBind s.pcbs 1 ⟨0x0100000a#32, 0⟩).2 = -1 := by
  obtain ⟨tr, s, hrun, hmap, hcheck⟩ := exec_check UdpSys.step UdpSys.init
    (boundSocket ++ [.udpOpen]) (fun r => decide
      (((udpBind r.2.pcbs 0 ⟨ipAddrAny, 0x0700#16⟩).2 = -1 ∧
        ∀ j, j ≠ 0 → (r.2.pcbs j).localEp.port ≠ 0x0700#16) ∧
      (udpBind r.2.pcbs 1 ⟨0x0100000a#32, 0⟩).2 = -1)) (by decide +kernel)
  exact ⟨tr, s, hrun, hmap, of_decide_eq_true hcheck⟩

/-- A second socket is refused the port of the first. -/
theorem boundSocket_conflict : ∃ tr s, Run UdpSys.Step UdpSys.init tr s ∧
    tr.map Prod.fst = boundSocket ++ [.udpOpen] ∧
    (udpBind s.pcbs 1 ⟨0x0100000a#32, 0x0700#16⟩).2 = -1 ∧
    ∃ j, j ≠ 1 ∧ (s.pcbs j).state = .stateOpen ∧ (s.pcbs j).localEp.port = 0x0700#16 := by
  obtain ⟨tr, s, hrun, hmap, hcheck⟩ := exec_check UdpSys.step UdpSys.init
    (boundSocket ++ [.udpOpen]) (fun r => decide
      (udpPcbGet r.2.pcbs 1 = some 1 ∧
        (udpBind r.2.pcbs 1 ⟨0x0100000a#32, 0x0700#16⟩).2 = -1 ∧
        ¬ (r.2.pcbs 1).Eligible 0x0100000a#32 0x0700#16)) (by decide +kernel)
  obtain ⟨hget, hfail, hself⟩ := of_decide_eq_true hcheck
  have hfair : BindFair s.pcbs 1 ⟨0x0100000a#32, 0x0700#16⟩ := by
    rw [BindFair, if_neg (by decide)]
    exact fun h => absurd h hself
  obtain ⟨j, hj, hopen, hport, -⟩ := (bind_fair_iff hget _).mpr hfair hfail
  exact ⟨tr, s, hrun, hmap, hfail, j, hj, hopen, hport⟩

/-! ## Receiving -/

/-- A datagram that passes the checks, for which memory can be allocated, is addressed to port 0,
and an open socket without a port has its destination address or the wildcard address. -/
def ReachesUnbound (allocs : Bool × Bool) (pcbs : Pcbs) (data : Bytes) (len : Nat)
    (src dst : IPAddress) : Prop :=
  ∃ hdr, udpCheck data len src dst = some hdr ∧ hdr.dst = 0 ∧ allocs = (true, true) ∧
    ∃ j, (pcbs j).Eligible dst 0

theorem udpCheck_hdr {data : Bytes} {len : Nat} {src dst : IPAddress} {hdr : UdpHdr}
    (h : udpCheck data len src dst = some hdr) : hdr = UdpHdr.ofBytes data := by
  simp only [udpCheck] at h
  split at h
  · cases h
  · split at h
    · cases h
    · split at h
      · cases h
      · cases h
        rfl

theorem udpInput_cases (allocs : Bool × Bool) (pcbs : Pcbs) (data : Bytes) (len : Nat)
    (src dst : IPAddress) :
    ((udpInput allocs pcbs data len src dst).1 = pcbs ∧
      ∀ hdr, udpCheck data len src dst = some hdr → allocs = (true, true) →
        udpPcbSelect pcbs dst hdr.dst = none) ∨
    ∃ hdr i entry, udpCheck data len src dst = some hdr ∧ allocs = (true, true) ∧
      udpPcbSelect pcbs dst hdr.dst = some i ∧
      (udpInput allocs pcbs data len src dst).1 =
        Function.update pcbs i { pcbs i with queue := (pcbs i).queue ++ [entry] } := by
  obtain ⟨alloc₁, alloc₂⟩ := allocs
  simp only [udpInput]
  cases hc : udpCheck data len src dst with
  | none =>
    refine .inl ⟨rfl, ?_⟩
    intro hdr he
    cases he
  | some hdr =>
    simp only [udpDeliver]
    cases hsel : udpPcbSelect pcbs dst hdr.dst with
    | none =>
      refine .inl ⟨rfl, ?_⟩
      intro hdr' he _
      cases he
      exact hsel
    | some i =>
      cases alloc₁ with
      | false =>
        refine .inl ⟨rfl, ?_⟩
        intro hdr' _ hallocs
        cases hallocs
      | true =>
        cases alloc₂ with
        | false =>
          refine .inl ⟨rfl, ?_⟩
          intro hdr' _ hallocs
          cases hallocs
        | true => exact .inr ⟨hdr, i, _, rfl, rfl, hsel, rfl⟩

/-- **Sockets without a port.** A datagram goes only to an open socket whose port is not 0 and is
the datagram's, exactly if it does not reach a socket without a port. -/
theorem input_bound_iff (allocs : Bool × Bool) (pcbs : Pcbs) (data : Bytes) (len : Nat)
    (src dst : IPAddress) :
    (∀ i, ((udpInput allocs pcbs data len src dst).1 i).queue ≠ (pcbs i).queue →
        (pcbs i).state = .stateOpen ∧ (pcbs i).localEp.port ≠ 0 ∧
          (pcbs i).localEp.port = (UdpHdr.ofBytes data).dst) ↔
      ¬ ReachesUnbound allocs pcbs data len src dst := by
  rcases udpInput_cases allocs pcbs data len src dst with ⟨hsame, hnone⟩ |
    ⟨hdr, i, entry, hc, hallocs, hsel, heq⟩
  · rw [hsame]
    refine iff_of_true (fun i hi => absurd rfl hi) ?_
    rintro ⟨hdr, hc, h0, hallocs, j, hj⟩
    exact udpPcbSelect_none.mp (hnone hdr hc hallocs) j (h0 ▸ hj)
  · obtain ⟨hopen, haddr, hport⟩ := udpPcbSelect_some hsel
    have hhdr := udpCheck_hdr hc
    rw [heq]
    constructor
    · rintro h ⟨hdr', hc', h0, -⟩
      rw [hc] at hc'
      cases hc'
      have hi := h i (by rw [Function.update_self]; simp)
      exact hi.2.1 (hport.trans h0)
    · intro hn k hk
      have hki : k = i := by
        by_contra hne
        rw [Function.update_of_ne hne] at hk
        exact hk rfl
      subst hki
      refine ⟨hopen, fun h0 => hn ?_, hport.trans (by rw [hhdr])⟩
      have hdst : hdr.dst = 0 := hport.symm.trans h0
      exact ⟨hdr, hc, hdst, hallocs, k, hopen, haddr, h0⟩

def portZeroDatagram : Bytes := [48, 57, 0, 0, 0, 10, 83, 53, 104, 105]

/-- A socket that was only opened gets it. -/
theorem portZero_received : ∃ tr s, Run UdpSys.Step UdpSys.init tr s ∧
    tr.map Prod.fst = [.udpOpen] ∧ (s.pcbs 0).localEp.port = 0 ∧
    ((udpInput (true, true) s.pcbs portZeroDatagram 10 0x0100000a#32 0x0200000a#32).1 0).queue =
      [⟨⟨0x0100000a#32, 0x3930#16⟩, [104, 105]⟩] ∧
    ReachesUnbound (true, true) s.pcbs portZeroDatagram 10 0x0100000a#32 0x0200000a#32 := by
  obtain ⟨tr, s, hrun, hmap, hcheck⟩ := exec_check UdpSys.step UdpSys.init [.udpOpen]
    (fun r => decide ((r.2.pcbs 0).localEp.port = 0 ∧
      ((udpInput (true, true) r.2.pcbs portZeroDatagram 10 0x0100000a#32
        0x0200000a#32).1 0).queue = [⟨⟨0x0100000a#32, 0x3930#16⟩, [104, 105]⟩] ∧
      (r.2.pcbs 0).Eligible 0x0200000a#32 0)) (by decide +kernel)
  obtain ⟨hport, hqueue, heligible⟩ := of_decide_eq_true hcheck
  refine ⟨tr, s, hrun, hmap, hport, hqueue, UdpHdr.ofBytes portZeroDatagram, by decide +kernel,
    by decide, rfl, 0, heligible⟩

end LLNStack
