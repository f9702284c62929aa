import LLNStack.Udp.Receive

/-!
# LLNStack.Sock.System

The socket table of `sock.c` on top of the UDP system. The table has no lock of its own, and a
`sock_*` call runs to completion before the next one begins: an action that begins a call is taken
only while no call is blocked. While a `sock_recvfrom` is blocked, datagrams, events and wakeups go
on; its call number is the socket id it was made on.

`openSocks` reads off a trace which ids were returned by a successful `sock_open` and are not yet
closed, with the type they were opened with. `SockTrans` lists what one action can do.
-/

namespace LLNStack

open Lib

def afInet : Int := 2
def sockStream : Int := 1
def sockDgram : Int := 2

structure Sock where
  used : Bool
  family : Int
  type : Int
  desc : Int
  deriving DecidableEq, Repr

structure SockAddrIn where
  sinFamily : BitVec 16
  sinPort : BitVec 16
  sinAddr : IPAddress
  deriving DecidableEq, Repr

def SockAddrIn.endpoint (addr : SockAddrIn) : IpEndpoint := ⟨addr.sinAddr, addr.sinPort⟩

abbrev maxSocks : Nat := 128

abbrev Socks := Fin maxSocks → Sock

/-- A slot after `memset(s, 0, sizeof(*s))`. -/
def Sock.zero : Sock := ⟨false, 0, 0, 0⟩

structure SockSys where
  socks : Socks
  udp : UdpSys

def SockSys.init : SockSys := ⟨fun _ => .zero, .init⟩

/-! ## The operations -/

def sockAlloc (socks : Socks) : Option (Fin maxSocks × Socks) :=
  match firstSlot socks (·.used = false) with
  | some i => some (i, Function.update socks i { socks i with used := true })
  | none => none

def sockFree (socks : Socks) (i : Fin maxSocks) : Socks := Function.update socks i .zero

/-- Any id in range is found, in use or not. -/
def sockGet (id : Int) : Option (Fin maxSocks) :=
  if h : 0 ≤ id ∧ id < maxSocks then some ⟨id.toNat, by omega⟩ else none

/-- A slot taken by `sock_alloc` stays taken when `udp_open` fails. -/
def sockOpen (s : SockSys) (domain type protocol : Int) : SockSys × Int :=
  if domain ≠ afInet ∨ (type ≠ sockStream ∧ type ≠ sockDgram) ∨ protocol ≠ 0 then (s, -1)
  else
    match sockAlloc s.socks with
    | none => (s, -1)
    | some (i, socks) =>
      -- for SOCK_STREAM no protocol is opened and `desc` keeps its value
      let (pcbs, desc) :=
        if type = sockDgram then udpOpen s.udp.pcbs else (s.udp.pcbs, (socks i).desc)
      (⟨Function.update socks i { socks i with family := domain, type := type, desc := desc },
        ⟨pcbs, s.udp.waiters⟩⟩, if desc = -1 then -1 else i.val)

/-- The result of `udp_close` is not looked at. -/
def sockClose (destroy : Int) (s : SockSys) (id : Int) : SockSys × Int :=
  match sockGet id with
  | none => (s, -1)
  | some i =>
    if (s.socks i).type = sockDgram then
      let r := udpClose destroy s.udp.pcbs (s.socks i).desc
      (⟨sockFree s.socks i, ⟨r.1, broadcast r.2.2 s.udp.waiters⟩⟩, 0)
    else (s, -1)

/-- The check that `sock_recvfrom`, `sock_sendto` and `sock_bind` begin with: the PCB id. -/
def sockDesc (socks : Socks) (id : Int) : Option Int :=
  match sockGet id with
  | none => none
  | some i =>
    if (socks i).type ≠ sockDgram ∨ (socks i).family ≠ afInet then none else some (socks i).desc

inductive SockAction where
  | sockOpen (domain type protocol : Int)
  | sockClose (id : Int) (destroy : Nat)
  | sockBind (id : Int) (addr : SockAddrIn)
  | sockSendto (id : Int) (unicast : Option IPAddress)
  | sockRecvfrom (id : Int) (n : Nat)
  | udpInput (allocs : Bool × Bool) (data : Bytes) (len : Nat) (src dst : IPAddress)
  | eventHandler
  | condWaitReturn (k : Nat) (destroy : Nat)
  | spuriousWakeup (k : Nat)
  deriving DecidableEq, Repr

namespace SockSys

def udpStep (s : SockSys) (a : UdpAction) : Option (SockSys × UdpResult) :=
  (s.udp.step a).map fun r => (⟨s.socks, r.1⟩, r.2)

/-- A call that the socket layer passes on to UDP with the PCB id of the socket. -/
def onDgram (s : SockSys) (id : Int) (call : Int → UdpAction) : Option (SockSys × UdpResult) :=
  match sockDesc s.socks id with
  | none => some (s, .ret (-1))
  | some desc => s.udpStep (call desc)

def idle (s : SockSys) (r : Option (SockSys × UdpResult)) : Option (SockSys × UdpResult) :=
  if s.udp.waiters = [] then r else none

def step (s : SockSys) : SockAction → Option (SockSys × UdpResult)
  | .sockOpen domain type protocol =>
    let r := LLNStack.sockOpen s domain type protocol
    s.idle (some (r.1, .ret r.2))
  | .sockClose id destroy =>
    let r := LLNStack.sockClose destroy s id
    s.idle (some (r.1, .ret r.2))
  | .sockBind id addr => s.idle (s.onDgram id fun desc => .udpBind desc addr.endpoint)
  | .sockSendto id unicast => s.idle (s.onDgram id fun desc => .udpSendto desc unicast)
  | .sockRecvfrom id n => s.idle (s.onDgram id fun desc => .udpRecvfrom id.toNat desc n)
  | .udpInput allocs data len src dst => s.udpStep (.udpInput allocs data len src dst)
  | .eventHandler => s.udpStep .eventHandler
  | .condWaitReturn k destroy => s.udpStep (.condWaitReturn k destroy)
  | .spuriousWakeup k => s.udpStep (.spuriousWakeup k)

abbrev Step : SockSys → SockAction × UdpResult → SockSys → Prop := stepRel step

end SockSys

/-! ## Open sockets -/

/-- The type of each socket that a `sock_open` returned and that no `sock_close` has closed. -/
def observeSock (live : Fin maxSocks → Option Int) :
    SockAction × UdpResult → Fin maxSocks → Option Int
  | (.sockOpen _ type _, .ret r), i => if r = i.val then some type else live i
  | (.sockClose id _, .ret r), i => if r = 0 ∧ id = i.val then none else live i
  | _, i => live i

def openSocks (tr : List (SockAction × UdpResult)) : Fin maxSocks → Option Int :=
  tr.foldl observeSock fun _ => none

@[simp] theorem openSocks_snoc (tr : List (SockAction × UdpResult)) (l : SockAction × UdpResult) :
    openSocks (tr ++ [l]) = observeSock (openSocks tr) l := by
  simp [openSocks]

/-! ## What an action can do -/

inductive SockTrans (s : SockSys) : SockAction → UdpResult → SockSys → Prop where
  | openReject {domain type protocol : Int} :
      (domain = afInet → type = sockStream ∨ type = sockDgram → protocol = 0 →
        ∀ i, (s.socks i).used = true) →
      SockTrans s (.sockOpen domain type protocol) (.ret (-1)) s
  | openStream {i : Fin maxSocks} : (s.socks i).used = false →
      SockTrans s (.sockOpen afInet sockStream 0)
        (.ret (if (s.socks i).desc = -1 then -1 else i.val))
        ⟨Function.update s.socks i ⟨true, afInet, sockStream, (s.socks i).desc⟩, s.udp⟩
  | openDgram {i : Fin maxSocks} {desc : Int} {udp : UdpSys} : (s.socks i).used = false →
      UdpTrans s.udp .udpOpen (.ret desc) udp →
      SockTrans s (.sockOpen afInet sockDgram 0) (.ret (if desc = -1 then -1 else i.val))
        ⟨Function.update s.socks i ⟨true, afInet, sockDgram, desc⟩, udp⟩
  | closeReject {id : Int} {destroy : Nat} :
      (∀ i : Fin maxSocks, id = i.val → (s.socks i).type ≠ sockDgram) →
      SockTrans s (.sockClose id destroy) (.ret (-1)) s
  | closeDgram {id : Int} {destroy : Nat} {i : Fin maxSocks} {r : UdpResult} {udp : UdpSys} :
      s.udp.waiters = [] → id = i.val → (s.socks i).type = sockDgram →
      UdpTrans s.udp (.udpClose (s.socks i).desc destroy) r udp →
      SockTrans s (.sockClose id destroy) (.ret 0) ⟨Function.update s.socks i .zero, udp⟩
  | callReject {a : SockAction} : (∀ domain type protocol, a ≠ .sockOpen domain type protocol) →
      (∀ id destroy, a ≠ .sockClose id destroy) → SockTrans s a (.ret (-1)) s
  | bind {id : Int} {addr : SockAddrIn} {i : Fin maxSocks} {r : UdpResult} {udp : UdpSys} :
      id = i.val → (s.socks i).type = sockDgram →
      UdpTrans s.udp (.udpBind (s.socks i).desc addr.endpoint) r udp →
      SockTrans s (.sockBind id addr) r ⟨s.socks, udp⟩
  | sendto {id : Int} {unicast : Option IPAddress} {i : Fin maxSocks} {r : UdpResult}
      {udp : UdpSys} : id = i.val → (s.socks i).type = sockDgram →
      UdpTrans s.udp (.udpSendto (s.socks i).desc unicast) r udp →
      SockTrans s (.sockSendto id unicast) r ⟨s.socks, udp⟩
  | recvfrom {id : Int} {n : Nat} {i : Fin maxSocks} {r : UdpResult} {udp : UdpSys} :
      s.udp.waiters = [] → id = i.val → (s.socks i).type = sockDgram →
      UdpTrans s.udp (.udpRecvfrom i.val (s.socks i).desc n) r udp →
      SockTrans s (.sockRecvfrom id n) r ⟨s.socks, udp⟩
  | input {allocs : Bool × Bool} {data : Bytes} {len : Nat} {src dst : IPAddress} {r : UdpResult}
      {udp : UdpSys} : UdpTrans s.udp (.udpInput allocs data len src dst) r udp →
      SockTrans s (.udpInput allocs data len src dst) r ⟨s.socks, udp⟩
  | event {r : UdpResult} {udp : UdpSys} : UdpTrans s.udp .eventHandler r udp →
      SockTrans s .eventHandler r ⟨s.socks, udp⟩
  | woken {k destroy : Nat} {r : UdpResult} {udp : UdpSys} :
      UdpTrans s.udp (.condWaitReturn k destroy) r udp →
      SockTrans s (.condWaitReturn k destroy) r ⟨s.socks, udp⟩
  | spurious {k : Nat} {r : UdpResult} {udp : UdpSys} :
      UdpTrans s.udp (.spuriousWakeup k) r udp → SockTrans s (.spuriousWakeup k) r ⟨s.socks, udp⟩

theorem sockGet_some {id : Int} {i : Fin maxSocks} : sockGet id = some i ↔ id = i.val := by
  rw [sockGet]
  split
  · rename_i h
    rw [Option.some.injEq, Fin.ext_iff]
    show id.toNat = i.val ↔ id = i.val
    omega
  · rename_i h
    have := i.isLt
    simp only [reduceCtorEq, false_iff]
    omega

theorem sockDesc_some {socks : Socks} {id desc : Int} (h : sockDesc socks id = some desc) :
    ∃ i : Fin maxSocks, id = i.val ∧ (socks i).type = sockDgram ∧ desc = (socks i).desc := by
  simp only [sockDesc] at h
  split at h
  · cases h
  · rename_i i hi
    split at h
    · cases h
    · rename_i ht
      cases h
      exact ⟨i, sockGet_some.mp hi, by tauto, rfl⟩

theorem idle_some {s s' : SockSys} {r : UdpResult} {x : Option (SockSys × UdpResult)}
    (h : s.idle x = some (s', r)) : s.udp.waiters = [] ∧ x = some (s', r) := by
  simp only [SockSys.idle] at h
  split at h
  · exact ⟨‹_›, h⟩
  · cases h

theorem udpStep_trans {s s' : SockSys} {a : UdpAction} {r : UdpResult}
    (h : s.udpStep a = some (s', r)) : ∃ udp, UdpTrans s.udp a r udp ∧ s' = ⟨s.socks, udp⟩ := by
  simp only [SockSys.udpStep, Option.map_eq_some_iff, Prod.mk.injEq] at h
  obtain ⟨⟨udp, r⟩, hu, rfl, rfl⟩ := h
  exact ⟨udp, step_trans hu, rfl⟩

theorem onDgram_trans {s s' : SockSys} {id : Int} {call : Int → UdpAction} {r : UdpResult}
    (h : s.onDgram id call = some (s', r)) :
    (s' = s ∧ r = .ret (-1)) ∨ ∃ (i : Fin maxSocks) (udp : UdpSys), id = i.val ∧
      (s.socks i).type = sockDgram ∧ UdpTrans s.udp (call (s.socks i).desc) r udp ∧
      s' = ⟨s.socks, udp⟩ := by
  simp only [SockSys.onDgram] at h
  split at h
  · cases h
    exact .inl ⟨rfl, rfl⟩
  · rename_i desc hd
    obtain ⟨i, hi, ht, rfl⟩ := sockDesc_some hd
    obtain ⟨udp, hu, rfl⟩ := udpStep_trans h
    exact .inr ⟨i, udp, hi, ht, hu, rfl⟩

theorem sockOpen_trans (s : SockSys) (domain type protocol : Int) :
    SockTrans s (.sockOpen domain type protocol) (.ret (sockOpen s domain type protocol).2)
      (sockOpen s domain type protocol).1 := by
  simp only [sockOpen]
  split
  · rename_i hbad
    exact .openReject fun hd ht hp => by tauto
  · rename_i hok
    have hdom : domain = afInet := by tauto
    have htype : type = sockStream ∨ type = sockDgram := by tauto
    have hproto : protocol = 0 := by tauto
    simp only [sockAlloc]
    cases hfs : firstSlot s.socks (·.used = false) with
    | none =>
      refine .openReject fun _ _ _ i => ?_
      simpa using firstSlot_none.mp hfs i
    | some i =>
      have hfree : (s.socks i).used = false := firstSlot_some hfs
      subst hdom hproto
      simp only [Function.update_self, Function.update_idem]
      rcases htype with rfl | rfl
      · have hne : sockStream ≠ sockDgram := by decide
        rw [if_neg hne]
        exact .openStream hfree
      · rw [if_pos rfl]
        exact .openDgram hfree (step_trans rfl)

theorem sockClose_trans (s : SockSys) (id : Int) (destroy : Nat) (hw : s.udp.waiters = []) :
    SockTrans s (.sockClose id destroy) (.ret (sockClose destroy s id).2)
      (sockClose destroy s id).1 := by
  simp only [sockClose]
  split
  · rename_i hn
    refine .closeReject fun i hi => ?_
    rw [sockGet_some.mpr hi] at hn; cases hn
  · rename_i i hi
    have hid := sockGet_some.mp hi
    split
    · rename_i ht
      exact .closeDgram hw hid ht (step_trans rfl)
    · rename_i ht
      refine .closeReject fun j hj => ?_
      rw [sockGet_some.mpr hj] at hi; cases hi
      exact ht

theorem sock_trans {s s' : SockSys} {a : SockAction} {r : UdpResult}
    (h : s.step a = some (s', r)) : SockTrans s a r s' := by
  cases a with
  | sockOpen domain type protocol =>
    obtain ⟨-, h⟩ := idle_some h
    cases h
    exact sockOpen_trans s domain type protocol
  | sockClose id destroy =>
    obtain ⟨hw, h⟩ := idle_some h
    cases h
    exact sockClose_trans s id destroy hw
  | sockBind id addr =>
    rcases onDgram_trans (idle_some h).2 with ⟨rfl, rfl⟩ | ⟨i, udp, hi, ht, hu, rfl⟩
    · exact .callReject nofun nofun
    · exact .bind hi ht hu
  | sockSendto id unicast =>
    rcases onDgram_trans (idle_some h).2 with ⟨rfl, rfl⟩ | ⟨i, udp, hi, ht, hu, rfl⟩
    · exact .callReject nofun nofun
    · exact .sendto hi ht hu
  | sockRecvfrom id n =>
    obtain ⟨hw, h⟩ := idle_some h
    rcases onDgram_trans h with ⟨rfl, rfl⟩ | ⟨i, udp, rfl, ht, hu, rfl⟩
    · exact .callReject nofun nofun
    · exact .recvfrom hw rfl ht hu
  | udpInput allocs data len src dst =>
    obtain ⟨udp, hu, rfl⟩ := udpStep_trans h
    exact .input hu
  | eventHandler =>
    obtain ⟨udp, hu, rfl⟩ := udpStep_trans h
    exact .event hu
  | condWaitReturn k destroy =>
    obtain ⟨udp, hu, rfl⟩ := udpStep_trans h
    exact .woken hu
  | spuriousWakeup k =>
    obtain ⟨udp, hu, rfl⟩ := udpStep_trans h
    exact .spurious hu

end LLNStack
