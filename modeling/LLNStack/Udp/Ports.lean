import LLNStack.Udp.System

/-!
# LLNStack.Udp.Ports

Who owns a port. `PortsExclusive`: no two open PCBs hold one non-zero port with overlapping local
addresses. `DemuxUnique`: a datagram has at most one eligible PCB, so that `udp_pcb_select` does
not depend on the order of the slots. A PCB without a port is eligible for datagrams to port 0, so
both together say that no two open PCBs overlap on any port, 0 included (`exclusive_iff_demux`).

`udp_bind` and the port search of `udp_sendto` test a new endpoint with `udp_pcb_select`, which
takes a PCB bound to the wildcard address to match every address, but not the other way around: a
new wildcard endpoint is not compared with PCBs that are bound to one address. `udp_open` makes
the endpoint 0.0.0.0:0 without a test. `PortSafe` says that a step does not run into either, and
`exclusive_iff_portSafe` that a run keeps every datagram to one receiver exactly if all its steps
are safe.
-/

namespace LLNStack

open Lib

/-- Some datagram is addressed to both. -/
def AddrOverlap (a b : IPAddress) : Prop := a = b ∨ a = ipAddrAny ∨ b = ipAddrAny

instance (a b : IPAddress) : Decidable (AddrOverlap a b) :=
  inferInstanceAs (Decidable (_ ∨ _ ∨ _))

def PortsExclusive (pcbs : Pcbs) : Prop :=
  ∀ i j, i ≠ j → (pcbs i).state = .stateOpen → (pcbs j).state = .stateOpen →
    (pcbs i).localEp.port = (pcbs j).localEp.port → (pcbs i).localEp.port ≠ 0 →
    ¬ AddrOverlap (pcbs i).localEp.address (pcbs j).localEp.address

instance (pcbs : Pcbs) : Decidable (PortsExclusive pcbs) := by
  unfold PortsExclusive; infer_instance

/-- A datagram to `port` at any address has at most one eligible PCB; `udp_pcb_select` finds
exactly that one, in whatever order the slots are scanned. -/
def DemuxUnique (pcbs : Pcbs) (port : BitVec 16) : Prop :=
  ∀ addr, (∀ i j, (pcbs i).Eligible addr port → (pcbs j).Eligible addr port → i = j) ∧
    (∀ i, udpPcbSelect pcbs addr port = some i ↔ (pcbs i).Eligible addr port) ∧
    ∀ σ : Equiv.Perm (Fin udpPcbSize),
      udpPcbSelect (pcbs ∘ σ) addr port = (udpPcbSelect pcbs addr port).map σ.symm

/-- `PortsExclusive` with port 0, the port of a PCB that is not bound. -/
def EndpointsExclusive (pcbs : Pcbs) : Prop :=
  ∀ i j, i ≠ j → (pcbs i).state = .stateOpen → (pcbs j).state = .stateOpen →
    (pcbs i).localEp.port = (pcbs j).localEp.port →
    ¬ AddrOverlap (pcbs i).localEp.address (pcbs j).localEp.address

theorem EndpointsExclusive.demux {pcbs : Pcbs} (h : EndpointsExclusive pcbs)
    (port : BitVec 16) : DemuxUnique pcbs port := by
  intro addr
  have hu : ∀ i j, (pcbs i).Eligible addr port → (pcbs j).Eligible addr port → i = j := by
    rintro i j ⟨hi, hai, rfl⟩ ⟨hj, haj, hp⟩
    by_contra hne
    refine h i j hne hi hj hp.symm ?_
    rcases hai with hai | hai
    · exact .inr (.inl hai)
    · rcases haj with haj | haj
      · exact .inr (.inr haj)
      · exact .inl (hai.trans haj.symm)
  exact ⟨hu, fun i => firstSlot_of_unique hu, fun σ => firstSlot_perm hu σ⟩

/-- Two open PCBs that overlap on a port are both eligible for some datagram to it. -/
theorem AddrOverlap.eligible {a b : UdpPcb} (ha : a.state = .stateOpen)
    (hb : b.state = .stateOpen) (hp : a.localEp.port = b.localEp.port)
    (h : AddrOverlap a.localEp.address b.localEp.address) :
    ∃ addr, a.Eligible addr a.localEp.port ∧ b.Eligible addr a.localEp.port := by
  rcases h with h | h | h
  · exact ⟨a.localEp.address, ⟨ha, .inr rfl, rfl⟩, ⟨hb, .inr h.symm, hp.symm⟩⟩
  · exact ⟨b.localEp.address, ⟨ha, .inl h, rfl⟩, ⟨hb, .inr rfl, hp.symm⟩⟩
  · exact ⟨a.localEp.address, ⟨ha, .inr rfl, rfl⟩, ⟨hb, .inl h, hp.symm⟩⟩

theorem exclusive_iff_demux {pcbs : Pcbs} :
    EndpointsExclusive pcbs ↔ PortsExclusive pcbs ∧ ∀ port, DemuxUnique pcbs port := by
  constructor
  · intro h
    exact ⟨fun i j hne hi hj hp _ => h i j hne hi hj hp, h.demux⟩
  · rintro ⟨-, hd⟩ i j hne hi hj hp hov
    obtain ⟨addr, hei, hej⟩ := hov.eligible hi hj hp
    exact hne ((hd _ addr).1 i j hei hej)

/-! ## One step -/

theorem EndpointsExclusive.mono {pcbs pcbs' : Pcbs} (h : EndpointsExclusive pcbs)
    (hm : ∀ i, (pcbs' i).state = .stateOpen →
      (pcbs i).state = .stateOpen ∧ (pcbs' i).localEp = (pcbs i).localEp) :
    EndpointsExclusive pcbs' := by
  intro i j hne hi hj
  rw [(hm i hi).2, (hm j hj).2]
  exact h i j hne (hm i hi).1 (hm j hj).1

theorem EndpointsExclusive.congr {pcbs pcbs' : Pcbs} (h : EndpointsExclusive pcbs)
    (he : ∀ i, ∃ queue ctx, pcbs' i = { pcbs i with queue := queue, ctx := ctx }) :
    EndpointsExclusive pcbs' := by
  refine h.mono fun i hi => ?_
  obtain ⟨queue, ctx, hc⟩ := he i
  rw [hc] at hi ⊢
  exact ⟨hi, rfl⟩

theorem AddrOverlap.symm {a b : IPAddress} (h : AddrOverlap a b) : AddrOverlap b a := by
  rcases h with h | h | h
  · exact .inl h.symm
  · exact .inr (.inr h)
  · exact .inr (.inl h)

theorem exclusive_setLocal {pcbs : Pcbs} (h : EndpointsExclusive pcbs) {i : Fin udpPcbSize}
    {pcb : UdpPcb} (hopen : pcb.state = .stateOpen) :
    EndpointsExclusive (Function.update pcbs i pcb) ↔
      ∀ j, j ≠ i → (pcbs j).state = .stateOpen → (pcbs j).localEp.port = pcb.localEp.port →
        ¬ AddrOverlap pcb.localEp.address (pcbs j).localEp.address := by
  constructor
  · intro h' j hj hjs hp
    have := h' i j hj.symm
    rw [Function.update_self, Function.update_of_ne hj] at this
    exact this hopen hjs hp.symm
  · intro hc a b hab
    by_cases ha : a = i
    · subst ha
      rw [Function.update_self, Function.update_of_ne hab.symm]
      exact fun _ hb hp => hc b hab.symm hb hp.symm
    · by_cases hb : b = i
      · subst hb
        rw [Function.update_self, Function.update_of_ne ha]
        exact fun hsa _ hp hov => hc a ha hsa hp hov.symm
      · rw [Function.update_of_ne ha, Function.update_of_ne hb]
        exact h a b hab

/-- A wildcard endpoint overlaps with every open PCB on its port. -/
theorem exclusive_setAny {pcbs : Pcbs} (h : EndpointsExclusive pcbs) {i : Fin udpPcbSize}
    {pcb : UdpPcb} (hopen : pcb.state = .stateOpen) (hany : pcb.localEp.address = ipAddrAny) :
    EndpointsExclusive (Function.update pcbs i pcb) ↔
      ∀ j, j ≠ i → (pcbs j).state = .stateOpen → (pcbs j).localEp.port ≠ pcb.localEp.port := by
  rw [exclusive_setLocal h hopen]
  constructor
  · exact fun hc j hj hjs hp => hc j hj hjs hp (.inr (.inl hany))
  · exact fun hc j hj hjs hp _ => hc j hj hjs hp

/-- An endpoint no open PCB is eligible for overlaps with another open PCB on its port only if it
is the wildcard. -/
theorem exclusive_setLocal_iff {pcbs : Pcbs} {i : Fin udpPcbSize} (pcb : UdpPcb)
    {addr : IPAddress} (h : EndpointsExclusive pcbs) (hopen : pcb.state = .stateOpen)
    (haddr : pcb.localEp.address = ipAddrAny ∨ pcb.localEp.address = addr)
    (hfree : ∀ j, ¬ (pcbs j).Eligible addr pcb.localEp.port) :
    EndpointsExclusive (Function.update pcbs i pcb) ↔
      (pcb.localEp.address = ipAddrAny →
        ∀ j, j ≠ i → (pcbs j).state = .stateOpen → (pcbs j).localEp.port ≠ pcb.localEp.port) := by
  by_cases hany : pcb.localEp.address = ipAddrAny
  · rw [exclusive_setAny h hopen hany]
    exact ⟨fun hc _ => hc, fun hc => hc hany⟩
  · rw [exclusive_setLocal h hopen]
    refine iff_of_true (fun j _ hjs hp hov => hfree j ⟨hjs, ?_, hp⟩) fun h => absurd h hany
    rcases hov with hov | hov | hov
    · exact .inr (by rw [← hov, haddr.resolve_left hany])
    · exact absurd hov hany
    · exact .inl hov

/-- The condition on a step, in the state before it: a wildcard endpoint that `udp_open` makes, or
that `udp_bind` or the port search accepts, has a port that no other open PCB holds. The port of
the endpoint `udp_open` makes is 0. -/
def PortSafe (s : UdpSys) : UdpAction × UdpResult → Prop
  | (.udpOpen, _) =>
    ∀ i, (s.pcbs i).state = .stateFree →
      ∀ j, j ≠ i → (s.pcbs j).state = .stateOpen → (s.pcbs j).localEp.port ≠ 0
  | (.udpBind id localEp, _) =>
    ∀ i, udpPcbGet s.pcbs id = some i → localEp.address = ipAddrAny →
      udpPcbSelect s.pcbs localEp.address localEp.port = none →
      ∀ j, j ≠ i → (s.pcbs j).state = .stateOpen → (s.pcbs j).localEp.port ≠ localEp.port
  | (.udpSendto id unicast, _) =>
    ∀ i addr port, udpPcbGet s.pcbs id = some i → (s.pcbs i).localEp = ⟨ipAddrAny, 0⟩ →
      unicast = some addr → udpSourcePort s.pcbs addr = some port →
      ∀ j, j ≠ i → (s.pcbs j).state = .stateOpen → (s.pcbs j).localEp.port ≠ port
  | _ => True

theorem update_endpoints (pcbs : Pcbs) (i : Fin udpPcbSize) (queue : List UdpQueueEntry)
    (ctx : SchedCtx) (j : Fin udpPcbSize) :
    ∃ queue' ctx', Function.update pcbs i { pcbs i with queue := queue, ctx := ctx } j =
      { pcbs j with queue := queue', ctx := ctx' } := by
  by_cases hj : j = i
  · subst hj
    exact ⟨queue, ctx, Function.update_self ..⟩
  · exact ⟨(pcbs j).queue, (pcbs j).ctx, Function.update_of_ne hj ..⟩

theorem event_endpoints (pcbs : Pcbs) (j : Fin udpPcbSize) :
    ∃ queue ctx, udpEventHandler pcbs j = { pcbs j with queue := queue, ctx := ctx } := by
  obtain ⟨ctx, hj⟩ := udpEventHandler_eq pcbs j
  exact ⟨(pcbs j).queue, ctx, hj⟩

theorem recvTrans_endpoints {s s' : UdpSys} {call size : Nat} {i : Fin udpPcbSize} {r : UdpResult}
    (ht : RecvTrans s call i size r s') (j : Fin udpPcbSize) :
    ∃ queue ctx, s'.pcbs j = { s.pcbs j with queue := queue, ctx := ctx } := by
  cases ht with
  | received _ | parked _ => exact update_endpoints s.pcbs i _ _ j
  | interrupted => exact ⟨(s.pcbs j).queue, (s.pcbs j).ctx, rfl⟩

theorem leave_endpoints (s : UdpSys) (k : Nat) (w : Waiter) (j : Fin udpPcbSize) :
    ∃ queue ctx, (s.leave k w).pcbs j = { s.pcbs j with queue := queue, ctx := ctx } := by
  obtain ⟨ctx, h⟩ := leave_pcbs s k w j
  exact ⟨(s.pcbs j).queue, ctx, h⟩

theorem EndpointsExclusive.free {pcbs : Pcbs} (h : EndpointsExclusive pcbs) (i : Fin udpPcbSize)
    {pcb : UdpPcb} (hs : pcb.state ≠ .stateOpen) :
    EndpointsExclusive (Function.update pcbs i pcb) := by
  refine h.mono ((Function.forall_update_iff pcbs fun j pcb' => pcb'.state = .stateOpen →
    (pcbs j).state = .stateOpen ∧ pcb'.localEp = (pcbs j).localEp).mpr ?_)
  exact ⟨fun hj => absurd hj hs, fun j _ hj => ⟨hj, rfl⟩⟩

theorem exclusive_step {s s' : UdpSys} {a : UdpAction} {r : UdpResult} (hc : PcbsClean s.pcbs)
    (h : EndpointsExclusive s.pcbs) (ht : UdpTrans s a r s') :
    EndpointsExclusive s'.pcbs ↔ PortSafe s (a, r) := by
  cases ht with
  | closeFail | inputDrop | recvNotFound | spurious => exact iff_of_true h trivial
  | openFail hf => exact iff_of_true h fun i hi => absurd hi (hf i)
  | @openOk i hi =>
    -- a free PCB has the endpoint 0.0.0.0:0
    have hl : (s.pcbs i).localEp = ⟨ipAddrAny, 0⟩ := (hc i (by rw [hi]; decide)).2.1
    rw [setPcb_pcbs, exclusive_setAny h rfl (by rw [hl])]
    constructor
    · intro hs j _ k _ hk
      have hki : k ≠ i := fun e => by rw [e, hi] at hk; cases hk
      have := hs k hki hk
      rwa [hl] at this
    · intro hs j hj hjs
      rw [hl]
      exact hs i hi j hj hjs
  | @closeOk _ _ i _ => exact iff_of_true (h.free i nofun) trivial
  | bindFail hf => exact iff_of_true h fun i hi _ hn => absurd hn (hf i hi)
  | @bindOk id localEp i hi hn =>
    have ho := (udpPcbGet_some.mp hi).2
    rw [setPcb_pcbs, exclusive_setLocal_iff { s.pcbs i with localEp := localEp } h ho
      (.inr rfl) (udpPcbSelect_none.mp hn)]
    constructor
    · intro hs j hj hany _
      rw [hi] at hj; cases hj
      exact hs hany
    · exact fun hs hany => hs i hi hany hn
  | sendtoKeep hk =>
    refine iff_of_true h fun i addr port hi hl hu hp => ?_
    have := hk i addr hi (by rw [hl]) (by rw [hl, if_pos rfl, hu])
    rw [hp] at this; cases this
  | @sendtoAssign id unicast i addr port hi h0 ha hp =>
    have ho := (udpPcbGet_some.mp hi).2
    have haddr : (s.pcbs i).localEp.address = ipAddrAny ∨ (s.pcbs i).localEp.address = addr := by
      split at ha
      · exact .inl ‹_›
      · cases ha; exact .inr rfl
    rw [setPcb_pcbs, exclusive_setLocal_iff
      { s.pcbs i with localEp := ⟨(s.pcbs i).localEp.address, port⟩ } h ho haddr
      (udpSourcePort_some hp).2]
    constructor
    · intro hs j addr' port' hj hl hu hp'
      rw [hi] at hj; cases hj
      rw [hl, if_pos rfl, hu] at ha; cases ha
      rw [hp] at hp'; cases hp'
      exact hs (by rw [hl])
    · intro hs hany
      have hl : (s.pcbs i).localEp = ⟨ipAddrAny, 0⟩ := by
        have e : (s.pcbs i).localEp =
          ⟨(s.pcbs i).localEp.address, (s.pcbs i).localEp.port⟩ := rfl
        rw [e]; exact congrArg₂ IpEndpoint.mk hany h0
      rw [if_pos hany] at ha
      exact hs i addr port hi hl ha hp
  | inputAccept _ => exact iff_of_true (h.congr (update_endpoints s.pcbs _ _ _)) trivial
  | event => exact iff_of_true (h.congr (event_endpoints s.pcbs)) trivial
  | recv _ _ ht => exact iff_of_true (h.congr (recvTrans_endpoints ht)) trivial
  | wokenFail _ => exact iff_of_true (h.congr (leave_endpoints s _ _)) trivial
  | wokenClosed _ _ =>
    exact iff_of_true ((h.congr (leave_endpoints s _ _)).free _ nofun) trivial
  | woken _ ht =>
    exact iff_of_true ((h.congr (leave_endpoints s _ _)).congr (recvTrans_endpoints ht)) trivial

/-! ## Whole runs -/

/-- **Port exclusivity.** In a run of UDP calls of any length and any interleaving, the ports are
exclusive and every datagram has at most one possible receiver in every state reached, exactly if
no step makes a wildcard endpoint of a port that another open PCB holds. -/
theorem exclusive_iff_portSafe {tr : List (UdpAction × UdpResult)} {s : UdpSys}
    (h : Run UdpSys.Step UdpSys.init tr s) :
    Run.Throughout UdpSys.Step UdpSys.init tr (fun _ s =>
        PortsExclusive s.pcbs ∧ ∀ port, DemuxUnique s.pcbs port) ↔
      Run (Guarded UdpSys.Step PortSafe) UdpSys.init tr s := by
  refine Run.guarded_iff (stepRel_deterministic _) ?_ ?_ h
  · exact exclusive_iff_demux.mp fun i j _ hi => by cases hi
  · intro tr s l s' hr hp hl
    rw [← exclusive_iff_demux] at hp ⊢
    exact exclusive_step (run_clean hr.of_guarded) hp (step_trans hl)

/-- Two sockets; the second is bound to the wildcard address and the port the first already holds
at 10.0.0.1. -/
def wildcardBind : List UdpAction :=
  [.udpOpen, .udpBind 0 ⟨0x0100000a#32, 0x0700#16⟩, .udpOpen,
    .udpBind 1 ⟨ipAddrAny, 0x0700#16⟩]

theorem wildcardBind_overlaps : ∃ tr s, Run UdpSys.Step UdpSys.init tr s ∧
    tr.map Prod.fst = wildcardBind ∧ ¬ PortsExclusive s.pcbs ∧
    (s.pcbs 0).Eligible 0x0100000a#32 0x0700#16 ∧ (s.pcbs 1).Eligible 0x0100000a#32 0x0700#16 := by
  obtain ⟨tr, s, hr, hm, hp⟩ := exec_check UdpSys.step UdpSys.init wildcardBind
    (fun r => decide (¬ PortsExclusive r.2.pcbs ∧
      (r.2.pcbs 0).Eligible 0x0100000a#32 0x0700#16 ∧
      (r.2.pcbs 1).Eligible 0x0100000a#32 0x0700#16)) (by decide +kernel)
  exact ⟨tr, s, hr, hm, of_decide_eq_true hp⟩

def specificBinds : List UdpAction :=
  [.udpOpen, .udpBind 0 ⟨0x0100000a#32, 0x0700#16⟩, .udpOpen,
    .udpBind 1 ⟨0x0200000a#32, 0x0700#16⟩]

/-- A sufficient check for `PortSafe`: no PCB without a port at a `udp_open`, no wildcard bind. -/
def safeHere (s : UdpSys) : UdpAction → Bool
  | .udpOpen => decide (∀ j, (s.pcbs j).state = .stateOpen → (s.pcbs j).localEp.port ≠ 0)
  | .udpBind _ localEp => decide (localEp.address ≠ ipAddrAny)
  | _ => false

theorem portSafe_of_check (s : UdpSys) (l : UdpAction × UdpResult) (h : safeHere s l.1 = true) :
    PortSafe s l := by
  obtain ⟨a, r⟩ := l
  cases a with
  | udpOpen => exact fun _ _ j _ hj => of_decide_eq_true h j hj
  | udpBind id localEp => exact fun _ _ hany => absurd hany (of_decide_eq_true h)
  | _ => cases h

theorem specificBinds_exclusive : ∃ tr s, Run UdpSys.Step UdpSys.init tr s ∧
    tr.map Prod.fst = specificBinds ∧ (s.pcbs 1).localEp = ⟨0x0200000a#32, 0x0700#16⟩ ∧
    Run.Throughout UdpSys.Step UdpSys.init tr (fun _ s =>
      PortsExclusive s.pcbs ∧ ∀ port, DemuxUnique s.pcbs port) := by
  obtain ⟨tr, s, hr, hm, hp⟩ := exec_check (checked safeHere UdpSys.step) UdpSys.init specificBinds
    (fun r => decide ((r.2.pcbs 1).localEp = ⟨0x0200000a#32, 0x0700#16⟩)) (by decide +kernel)
  have hg : Run (Guarded UdpSys.Step PortSafe) UdpSys.init tr s :=
    hr.of_checked portSafe_of_check
  exact ⟨tr, s, hg.of_guarded, hm, of_decide_eq_true hp,
    (exclusive_iff_portSafe hg.of_guarded).mpr hg⟩

end LLNStack
