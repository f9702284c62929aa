import LLNStack.Sock.System

/-!
# LLNStack.Sock.Owner

Which socket owns which PCB. In every reachable state a socket slot is in one of four situations
(`SlotOk`): zeroed; left over from a `sock_open` whose `udp_open` failed; an open stream socket,
which has no PCB; or an open datagram socket with an open PCB of its own. `Owned` adds that
different datagram sockets have different PCBs and that every open PCB has a socket.

* `Owned.step`, `run_owned`: one action and every run keep this.
* `sockets_own_pcbs`: `desc` is a bijection from the open datagram sockets onto the open PCBs, and
  an operation on one socket leaves the PCBs of the others alone.
-/

namespace LLNStack

open Lib

inductive SlotOk (pcbs : Pcbs) : Option Int → Sock → Prop where
  | free : SlotOk pcbs none .zero
  | failed : SlotOk pcbs none ⟨true, afInet, sockDgram, -1⟩
  | stream : SlotOk pcbs (some sockStream) ⟨true, afInet, sockStream, 0⟩
  | dgram {j : Fin udpPcbSize} : (pcbs j).state = .stateOpen →
      SlotOk pcbs (some sockDgram) ⟨true, afInet, sockDgram, j.val⟩

structure Owned (live : Fin maxSocks → Option Int) (s : SockSys) : Prop where
  slot : ∀ i, SlotOk s.udp.pcbs (live i) (s.socks i)
  inj : ∀ i k, live i = some sockDgram → live k = some sockDgram →
    (s.socks i).desc = (s.socks k).desc → i = k
  owner : ∀ j, (s.udp.pcbs j).state = .stateOpen →
    ∃ i, live i = some sockDgram ∧ (s.socks i).desc = j.val
  waiter : ∀ w ∈ s.udp.waiters,
    ∃ i, live i = some sockDgram ∧ w.call = i.val ∧ (s.socks i).desc = w.pcb.val

/-! ## One slot -/

theorem SlotOk.mono {pcbs pcbs' : Pcbs} {t : Option Int} {sock : Sock} (h : SlotOk pcbs t sock)
    (hp : ∀ j : Fin udpPcbSize, t = some sockDgram → sock.desc = j.val →
      (pcbs j).state = .stateOpen → (pcbs' j).state = .stateOpen) : SlotOk pcbs' t sock := by
  cases h with
  | free => exact .free
  | failed => exact .failed
  | stream => exact .stream
  | dgram hj => exact .dgram (hp _ rfl rfl hj)

theorem SlotOk.unused {pcbs : Pcbs} {t : Option Int} {sock : Sock} (h : SlotOk pcbs t sock)
    (hu : sock.used = false) : t = none ∧ sock = .zero := by
  cases h with
  | free => exact ⟨rfl, rfl⟩
  | failed | stream | dgram _ => cases hu

theorem SlotOk.of_dgram {pcbs : Pcbs} {sock : Sock} (h : SlotOk pcbs (some sockDgram) sock) :
    ∃ j : Fin udpPcbSize, sock.desc = j.val ∧ (pcbs j).state = .stateOpen := by
  generalize ht : some sockDgram = t at h
  cases h with
  | free | failed => cases ht
  | stream => exact absurd (Option.some.inj ht) (by decide)
  | dgram hj => exact ⟨_, rfl, hj⟩

/-- A slot of datagram type is an open socket, or a leftover whose descriptor no PCB has. -/
theorem SlotOk.type_dgram {pcbs : Pcbs} {t : Option Int} {sock : Sock} (h : SlotOk pcbs t sock)
    (ht : sock.type = sockDgram) : t = some sockDgram ∨ t = none ∧ sock.desc = -1 := by
  cases h with
  | free => cases ht
  | failed => exact .inr ⟨rfl, rfl⟩
  | stream => cases ht
  | dgram _ => exact .inl rfl

theorem udpPcbGet_neg_one (pcbs : Pcbs) : udpPcbGet pcbs (-1) = none := rfl

/-! ## The trace -/

theorem observeSock_reject (live : Fin maxSocks → Option Int) (a : SockAction) :
    observeSock live (a, .ret (-1)) = live := by
  funext i
  cases a with
  | sockOpen domain type protocol =>
    show (if (-1 : Int) = i.val then some type else live i) = live i
    rw [if_neg (by omega)]
  | sockClose id destroy =>
    show (if (-1 : Int) = 0 ∧ id = i.val then none else live i) = live i
    rw [if_neg (by omega)]
  | _ => rfl

theorem observeSock_open (live : Fin maxSocks → Option Int) (domain type protocol : Int)
    (k : Fin maxSocks) :
    observeSock live (.sockOpen domain type protocol, .ret k.val) =
      Function.update live k (some type) := by
  funext i
  by_cases h : i = k
  · subst h; rw [Function.update_self]; exact if_pos rfl
  · rw [Function.update_of_ne h]
    exact if_neg fun he => h (Fin.ext (by omega))

theorem observeSock_close (live : Fin maxSocks → Option Int) (k : Fin maxSocks) (destroy : Nat) :
    observeSock live (.sockClose k.val destroy, .ret 0) = Function.update live k none := by
  funext i
  by_cases h : i = k
  · subst h; rw [Function.update_self]; exact if_pos ⟨rfl, rfl⟩
  · rw [Function.update_of_ne h]
    exact if_neg fun he => h (Fin.ext (by omega))

/-! ## One action -/

theorem Owned.udp {live : Fin maxSocks → Option Int} {s : SockSys} {udp : UdpSys}
    {a : UdpAction} {r : UdpResult} (h : Owned live s) (hc : PcbsClean s.udp.pcbs)
    (ht : UdpTrans s.udp a r udp) (ho : ∀ j, ¬ Opens j (a, r)) (hcl : ∀ j, ¬ Closes j (a, r))
    (hw : ∀ w id size, a = .udpRecvfrom w id size → ∃ i, live i = some sockDgram ∧ w = i.val ∧
      (s.socks i).desc = id ∨ udpPcbGet s.udp.pcbs id = none) :
    Owned live ⟨s.socks, udp⟩ where
  slot i := (h.slot i).mono fun j _ _ hj => (open_iff hc ht (ho j) (hcl j)).mpr hj
  inj := h.inj
  owner j hj := h.owner j ((open_iff hc ht (ho j) (hcl j)).mp hj)
  waiter w hm := by
    rcases waiter_trans ht hm with ⟨w₀, hm₀, hcall, hpcb⟩ | ⟨id, size, ha, hid⟩
    · rw [← hcall, ← hpcb]; exact h.waiter w₀ hm₀
    · rcases hw _ _ _ ha with ⟨i, ⟨hl, hcall, hd⟩ | hn⟩
      · exact ⟨i, hl, hcall, hd.trans (udpPcbGet_some.mp hid).1⟩
      · rw [hid] at hn; cases hn

theorem Owned.setSlot {live : Fin maxSocks → Option Int} {s : SockSys} {k : Fin maxSocks}
    {t : Option Int} {sock : Sock} {udp : UdpSys} (h : Owned live s)
    (hslot : SlotOk udp.pcbs t sock)
    (hkeep : ∀ i j, i ≠ k → live i = some sockDgram → (s.socks i).desc = Fin.val j →
      (s.udp.pcbs j).state = .stateOpen →
      (udp.pcbs j).state = .stateOpen ∧ (t = some sockDgram → sock.desc ≠ j.val))
    (howner : ∀ j, (udp.pcbs j).state = .stateOpen → t = some sockDgram ∧ sock.desc = j.val ∨
      ∃ i, i ≠ k ∧ live i = some sockDgram ∧ (s.socks i).desc = j.val)
    (hwaiter : ∀ w ∈ udp.waiters, ∃ i, i ≠ k ∧ live i = some sockDgram ∧ w.call = i.val ∧
      (s.socks i).desc = w.pcb.val) :
    Owned (Function.update live k t) ⟨Function.update s.socks k sock, udp⟩ := by
  have hne : ∀ i, i ≠ k → live i = some sockDgram → t = some sockDgram →
      (s.socks i).desc ≠ sock.desc := by
    intro i hi hl ht he
    obtain ⟨j, hd, hj⟩ := (hl ▸ h.slot i).of_dgram
    exact (hkeep i j hi hl hd hj).2 ht (he ▸ hd)
  refine ⟨fun i => ?_, fun i i' hi hi' hd => ?_, fun j hj => ?_, fun w hw => ?_⟩
  · by_cases hik : i = k
    · subst hik; simpa only [Function.update_self] using hslot
    · simp only [Function.update_of_ne hik]
      exact (h.slot i).mono fun j hl hd hj => (hkeep i j hik hl hd hj).1
  · by_cases hik : i = k
    · by_cases hik' : i' = k
      · rw [hik, hik']
      · subst hik
        simp only [Function.update_self, Function.update_of_ne hik'] at hi hi' hd
        exact absurd hd.symm (hne i' hik' hi' hi)
    · by_cases hik' : i' = k
      · subst hik'
        simp only [Function.update_self, Function.update_of_ne hik] at hi hi' hd
        exact absurd hd (hne i hik hi hi')
      · simp only [Function.update_of_ne hik, Function.update_of_ne hik'] at hi hi' hd
        exact h.inj i i' hi hi' hd
  · rcases howner j hj with ⟨ht, hd⟩ | ⟨i, hi, hl, hd⟩
    · exact ⟨k, by simpa only [Function.update_self] using ht,
        by simpa only [Function.update_self] using hd⟩
    · exact ⟨i, by simpa only [Function.update_of_ne hi] using hl,
        by simpa only [Function.update_of_ne hi] using hd⟩
  · obtain ⟨i, hi, hl, hc, hd⟩ := hwaiter w hw
    exact ⟨i, by simpa only [Function.update_of_ne hi] using hl, hc,
      by simpa only [Function.update_of_ne hi] using hd⟩

theorem Owned.setOther {live : Fin maxSocks → Option Int} {s : SockSys} {k : Fin maxSocks}
    {t : Option Int} {sock : Sock} (h : Owned live s) (hslot : SlotOk s.udp.pcbs t sock)
    (hk : live k ≠ some sockDgram) (ht : t ≠ some sockDgram) :
    Owned (Function.update live k t) ⟨Function.update s.socks k sock, s.udp⟩ := by
  have hne : ∀ i, live i = some sockDgram → i ≠ k := fun i hi he => hk (he ▸ hi)
  refine h.setSlot hslot (fun i j _ _ _ hj => ⟨hj, fun he => absurd he ht⟩) ?_ ?_
  · intro j hj
    obtain ⟨i, hl, hd⟩ := h.owner j hj
    exact .inr ⟨i, hne i hl, hl, hd⟩
  · intro w hw
    obtain ⟨i, hl, hc, hd⟩ := h.waiter w hw
    exact ⟨i, hne i hl, hl, hc, hd⟩

theorem Owned.openDgram {live : Fin maxSocks → Option Int} {s : SockSys} {k : Fin maxSocks}
    {desc : Int} {udp : UdpSys} (h : Owned live s) (hk : (s.socks k).used = false)
    (ht : UdpTrans s.udp .udpOpen (.ret desc) udp) :
    Owned (observeSock live (.sockOpen afInet sockDgram 0, .ret (if desc = -1 then -1 else k.val)))
      ⟨Function.update s.socks k ⟨true, afInet, sockDgram, desc⟩, udp⟩ := by
  obtain ⟨hnone, hzero⟩ := (h.slot k).unused hk
  have hne : ∀ i, live i = some sockDgram → i ≠ k := by
    rintro i hi rfl
    rw [hnone] at hi; cases hi
  cases ht with
  | openFail _ =>
    rw [if_pos rfl, observeSock_reject]
    have := h.setOther (t := none) .failed (by rw [hnone]; nofun) nofun
    rwa [← hnone, Function.update_eq_self] at this
  | @openOk j hj =>
    rw [if_neg (by omega), observeSock_open]
    refine h.setSlot (.dgram ?_) ?_ ?_ ?_
    · rw [setPcb_pcbs, Function.update_self]
    · intro i j' _ _ _ hj'
      have hjj : j' ≠ j := by
        rintro rfl
        rw [hj] at hj'; cases hj'
      refine ⟨by rwa [setPcb_pcbs, Function.update_of_ne hjj], fun _ he => hjj (Fin.ext ?_)⟩
      exact (Int.ofNat_inj.mp he).symm
    · intro j' hj'
      by_cases hjj : j' = j
      · exact .inl ⟨rfl, by rw [hjj]⟩
      · rw [setPcb_pcbs, Function.update_of_ne hjj] at hj'
        obtain ⟨i, hl, hd⟩ := h.owner j' hj'
        exact .inr ⟨i, hne i hl, hl, hd⟩
    · intro w hw
      obtain ⟨i, hl, hc, hd⟩ := h.waiter w hw
      exact ⟨i, hne i hl, hl, hc, hd⟩

theorem Owned.closeDgram {live : Fin maxSocks → Option Int} {s : SockSys} {k : Fin maxSocks}
    {destroy : Nat} {r : UdpResult} {udp : UdpSys} (h : Owned live s)
    (hw : s.udp.waiters = []) (hk : (s.socks k).type = sockDgram)
    (ht : UdpTrans s.udp (.udpClose (s.socks k).desc destroy) r udp) :
    Owned (Function.update live k none) ⟨Function.update s.socks k .zero, udp⟩ := by
  rcases (h.slot k).type_dgram hk with hl | ⟨hl, hd⟩
  · obtain ⟨j, hd, hj⟩ := (hl ▸ h.slot k).of_dgram
    cases ht with
    | closeFail hn => rw [udpPcbGet_some.mpr ⟨hd, hj⟩] at hn; cases hn
    | @closeOk _ _ j' hj' =>
      have hjj : j = j' := by
        have := (udpPcbGet_some.mp hj').1
        exact Fin.ext (by omega)
      subst hjj
      refine h.setSlot .free ?_ ?_ ?_
      · -- the PCB of another socket is another PCB
        intro i j' hik hli hdi hj'
        have hne : j' ≠ j := by
          rintro rfl
          exact hik (h.inj i k hli hl (hdi.trans hd.symm))
        exact ⟨by rwa [setPcb_pcbs, Function.update_of_ne hne], nofun⟩
      · intro j' hj'
        by_cases he : j' = j
        · subst he
          rw [setPcb_pcbs, Function.update_self] at hj'
          cases hj'
        · rw [setPcb_pcbs, Function.update_of_ne he] at hj'
          obtain ⟨i, hli, hdi⟩ := h.owner j' hj'
          refine .inr ⟨i, ?_, hli, hdi⟩
          rintro rfl
          exact he (Fin.ext (by omega))
      · intro w hm
        rw [setPcb_waiters, hw] at hm
        cases hm
  · -- a leftover of a failed `sock_open`: `udp_close(-1)` does nothing
    rw [hd] at ht
    cases ht with
    | closeFail _ => exact h.setOther .free (by rw [hl]; nofun) nofun
    | closeOk hj => rw [udpPcbGet_neg_one] at hj; cases hj

theorem Owned.step {live : Fin maxSocks → Option Int} {s s' : SockSys} {a : SockAction}
    {r : UdpResult} (h : Owned live s) (hc : PcbsClean s.udp.pcbs) (ht : SockTrans s a r s') :
    Owned (observeSock live (a, r)) s' := by
  cases ht with
  | openReject _ | closeReject _ | callReject _ _ => rw [observeSock_reject]; exact h
  | @openStream k hk =>
    obtain ⟨hnone, hzero⟩ := (h.slot k).unused hk
    rw [hzero, if_neg (by decide), observeSock_open]
    exact h.setOther .stream (by rw [hnone]; nofun)
      (fun he => absurd (Option.some.inj he) (by decide))
  | openDgram hk hu => exact h.openDgram hk hu
  | closeDgram hw hid hk hu =>
    subst hid
    rw [observeSock_close]
    exact h.closeDgram hw hk hu
  | bind _ _ hu | sendto _ _ hu | input hu | event hu | woken hu | spurious hu =>
    exact h.udp hc hu (fun _ => id) (fun _ => id) nofun
  | @recvfrom _ n i _ _ hw _ hk hu =>
    refine h.udp hc hu (fun _ => id) (fun _ => id) fun w id size ha => ⟨i, ?_⟩
    cases ha
    rcases (h.slot i).type_dgram hk with hl | ⟨-, hd⟩
    · exact .inl ⟨hl, rfl, rfl⟩
    · exact .inr (by rw [hd]; exact udpPcbGet_neg_one _)

/-! ## The PCBs of other sockets -/

/-- The socket id an action is an operation on; a call that goes on after a wait is still the
`sock_recvfrom` that began it. -/
def SockAction.subject (s : SockSys) : SockAction → Option Int
  | .sockClose id _ | .sockBind id _ | .sockSendto id _ | .sockRecvfrom id _ => some id
  | .condWaitReturn k _ => s.udp.waiters[k]?.map fun w => (w.call : Int)
  | .sockOpen _ _ _ | .udpInput _ _ _ _ _ | .eventHandler | .spuriousWakeup _ => none

def SockAction.IsInput : SockAction → Prop
  | .udpInput _ _ _ _ _ => True
  | _ => False

theorem Owned.eq_of_desc {live : Fin maxSocks → Option Int} {s : SockSys} (h : Owned live s)
    {i k : Fin maxSocks} {j : Fin udpPcbSize} (hi : (s.socks i).type = sockDgram)
    (hk : live k = some sockDgram) (hdk : (s.socks k).desc = j.val)
    (hdi : (s.socks i).desc = j.val) : i = k := by
  rcases (h.slot i).type_dgram hi with hl | ⟨-, hd⟩
  · exact h.inj i k hl hk (hdi.trans hdk.symm)
  · omega

theorem Owned.frame {live : Fin maxSocks → Option Int} {s s' : SockSys} {a : SockAction}
    {r : UdpResult} (h : Owned live s) (ht : SockTrans s a r s') {k : Fin maxSocks}
    {j : Fin udpPcbSize} (hk : live k = some sockDgram) (hdk : (s.socks k).desc = j.val)
    (hin : ¬ a.IsInput) (hsub : a.subject s ≠ some (k.val : Int)) :
    ∃ ctx, s'.udp.pcbs j = { s.udp.pcbs j with ctx := ctx } := by
  have other : ∀ {id : Int} {i : Fin maxSocks}, id = i.val → (s.socks i).type = sockDgram →
      some id ≠ some (k.val : Int) → (s.socks i).desc ≠ j.val := by
    rintro _ i rfl hi hne hdi
    exact hne (by rw [h.eq_of_desc hi hk hdk hdi])
  cases ht with
  | openReject _ | openStream _ | closeReject _ | callReject _ _ =>
    exact ⟨(s.udp.pcbs j).ctx, rfl⟩
  | openDgram _ hu =>
    refine udp_frame hu fun (hfree : (s.udp.pcbs j).state = .stateFree) => ?_
    obtain ⟨j', hd, hj⟩ := (hk ▸ h.slot k).of_dgram
    have hjj : j' = j := Fin.ext (by omega)
    rw [hjj, hfree] at hj; cases hj
  | closeDgram _ hid hi hu | bind hid hi hu | sendto hid hi hu | recvfrom _ hid hi hu =>
    exact udp_frame hu (other hid hi hsub)
  | input _ => exact absurd trivial hin
  | event hu | spurious hu => exact udp_frame hu id
  | @woken n _ _ _ hu =>
    refine udp_frame hu ?_
    rintro ⟨w, hw, hpcb⟩
    obtain ⟨i, hl, hc, hd⟩ := h.waiter w (List.mem_of_getElem? hw)
    have hik : i = k := h.inj i k hl hk (by rw [hd, hpcb, hdk])
    exact hsub (by simp only [SockAction.subject, hw, Option.map_some, hc, hik])

/-! ## Whole runs -/

theorem sock_clean {s s' : SockSys} {a : SockAction} {r : UdpResult} (hc : PcbsClean s.udp.pcbs)
    (ht : SockTrans s a r s') : PcbsClean s'.udp.pcbs := by
  cases ht with
  | openReject _ | openStream _ | closeReject _ | callReject _ _ => exact hc
  | openDgram _ hu | closeDgram _ _ _ hu | bind _ _ hu | sendto _ _ hu | recvfrom _ _ _ hu
  | input hu | event hu | woken hu | spurious hu => exact hc.step hu

theorem run_owned {tr : List (SockAction × UdpResult)} {s : SockSys}
    (h : Run SockSys.Step SockSys.init tr s) :
    Owned (openSocks tr) s ∧ PcbsClean s.udp.pcbs := by
  refine h.history (P := fun tr s => Owned (openSocks tr) s ∧ PcbsClean s.udp.pcbs) ?_ ?_
  · exact ⟨⟨fun _ => .free, by rintro i k ⟨⟩, by rintro j ⟨⟩, by rintro w ⟨⟩⟩,
      fun _ _ => ⟨rfl, rfl, rfl⟩⟩
  · rintro tr s ⟨a, r⟩ s' _ ⟨ho, hc⟩ hl
    rw [openSocks_snoc]
    exact ⟨ho.step hc (sock_trans hl), sock_clean hc (sock_trans hl)⟩

/-- **Socket-to-PCB ownership.** In every state that socket calls and incoming datagrams can reach,
the descriptors map the open datagram sockets one-to-one onto the open PCBs; and no action other
than an incoming datagram, unless it is an operation on socket `k` itself, changes the state, the
local endpoint or the receive queue of the PCB of the open socket `k`. -/
theorem sockets_own_pcbs {tr : List (SockAction × UdpResult)} {s : SockSys}
    (h : Run SockSys.Step SockSys.init tr s) :
    Set.BijOn (fun i => (s.socks i).desc) {i | openSocks tr i = some sockDgram}
      {d | ∃ j : Fin udpPcbSize, d = j.val ∧ (s.udp.pcbs j).state = .stateOpen} ∧
    ∀ (l : SockAction × UdpResult) (s' : SockSys) (k : Fin maxSocks) (j : Fin udpPcbSize),
      SockSys.Step s l s' → openSocks tr k = some sockDgram → (s.socks k).desc = j.val →
      ¬ l.1.IsInput → l.1.subject s ≠ some (k.val : Int) →
      (s'.udp.pcbs j).state = (s.udp.pcbs j).state ∧
        (s'.udp.pcbs j).localEp = (s.udp.pcbs j).localEp ∧
        (s'.udp.pcbs j).queue = (s.udp.pcbs j).queue := by
  obtain ⟨ho, -⟩ := run_owned h
  refine ⟨⟨?_, ?_, ?_⟩, ?_⟩
  · intro i hi
    obtain ⟨j, hd, hj⟩ := (Set.mem_ofPred.mp hi ▸ ho.slot i).of_dgram
    exact ⟨j, hd, hj⟩
  · intro i hi k hk hd
    exact ho.inj i k hi hk hd
  · rintro d ⟨j, rfl, hj⟩
    obtain ⟨i, hi, hd⟩ := ho.owner j hj
    exact ⟨i, hi, hd⟩
  · rintro ⟨a, r⟩ s' k j hl hk hdk hin hsub
    obtain ⟨ctx, he⟩ := ho.frame (sock_trans hl) hk hdk hin hsub
    rw [he]
    exact ⟨rfl, rfl, rfl⟩

def threeSockets : List SockAction :=
  [.sockOpen afInet sockDgram 0, .sockOpen afInet sockStream 0, .sockOpen afInet sockDgram 0,
    .sockClose 0 0]

theorem threeSockets_owned : ∃ tr s, Run SockSys.Step SockSys.init tr s ∧
    tr.map Prod.fst = threeSockets ∧ openSocks tr 2 = some sockDgram ∧
    Set.BijOn (fun i => (s.socks i).desc) {i | openSocks tr i = some sockDgram}
      {d | ∃ j : Fin udpPcbSize, d = j.val ∧ (s.udp.pcbs j).state = .stateOpen} := by
  obtain ⟨tr, s, hr, hm, hp⟩ := exec_check SockSys.step SockSys.init threeSockets
    (fun r => decide (openSocks r.1 2 = some sockDgram)) (by decide +kernel)
  exact ⟨tr, s, hr, hm, of_decide_eq_true hp, (sockets_own_pcbs hr).1⟩

end LLNStack
