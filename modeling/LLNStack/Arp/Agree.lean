import LLNStack.Arp.System

/-!
# LLNStack.Arp.Agree

Any number of hosts on one Ethernet segment. A frame that a host gives to its driver joins the
frames of the segment, and any host may receive any of them, any number of times, at any later
time and in any order, or never. A received ARP message waits in the host's input queue until
`network_protocol_handler` calls `arp_input`; the critical sections of `arp_input`, `arp_resolve`
calls and timer passes interleave freely on each host and across hosts.

`Truthful` is what makes the hosts agree: every ARP frame, every queued message, every message
between the sections of `arp_input` and every resolved entry names a host's own pair of addresses.
-/

namespace LLNStack

open Lib

/-- The hosts `H` of a segment: one Ethernet device each, with one IP interface, and pairwise
distinct hardware and protocol addresses. -/
structure Lan (H : Type) where
  dev : H → NetworkDevice
  iface : H → IpInterface
  ops : ∀ h, (dev h).ops = .etherTransmit
  attached : ∀ h, networkDeviceGetInterface (dev h) networkInterfaceFamilyIp = some (iface h)
  ip_inj : Function.Injective fun h => (iface h).unicast
  mac_inj : Function.Injective fun h => (dev h).address

/-- ARP on one host: the cache and the input queue of the protocol. -/
structure ArpHost where
  arp : ArpSys
  queue : List Bytes

structure LanState (H : Type) where
  hosts : H → ArpHost
  frames : List Bytes

inductive LanAction (H : Type) where
  | arpResolve (h : H) (pa : IPAddress) (now : Timeval)
  | arpTimer (h : H) (now : Timeval)
  | receive (h : H) (frame : Bytes)
  | arpInput (h : H) (now : Timeval)
  | arpInsert (h : H) (now : Timeval)

namespace Lan

variable {H : Type} (lan : Lan H)

section System

variable [DecidableEq H]

def init : LanState H := ⟨fun _ => ⟨.init, []⟩, []⟩

def emit (frames : List Bytes) : Option Transmission → List Bytes
  | some (.wire _ frame) => frames ++ [frame]
  | _ => frames

def arpStep (s : LanState H) (h : H) (queue : List Bytes) (a : ArpAction) :
    Option (LanState H × ArpResult) :=
  match (s.hosts h).arp.step a with
  | none => none
  | some (arp, r) =>
    some (⟨Function.update s.hosts h ⟨arp, queue⟩, emit s.frames r.out⟩, r)

/-- `ether_poll_helper` and `network_input_handler` on host `h`. -/
def receive (s : LanState H) (h : H) (frame : Bytes) : LanState H :=
  match etherPollHelper (lan.dev h).address frame with
  | none => s
  | some (type, data) =>
    if type = etherTypeArp then
      ⟨Function.update s.hosts h { s.hosts h with queue := (s.hosts h).queue ++ [data] }, s.frames⟩
    else s

def step (s : LanState H) : LanAction H → Option (LanState H × ArpResult)
  | .arpResolve h pa now =>
    arpStep s h (s.hosts h).queue (.arpResolve (lan.iface h) (lan.dev h) pa now)
  | .arpTimer h now => arpStep s h (s.hosts h).queue (.arpTimer now)
  | .receive h frame => if frame ∈ s.frames then some (lan.receive s h frame, .done none) else none
  | .arpInput h now =>
    match (s.hosts h).queue with
    | [] => none
    | data :: rest => arpStep s h rest (.arpInput (lan.dev h) data now)
  | .arpInsert h now => arpStep s h (s.hosts h).queue (.arpInsert now)

abbrev Step : LanState H → LanAction H × ArpResult → LanState H → Prop := stepRel lan.step

end System

/-! ## The truth -/

def Owns (pa : IPAddress) (ha : EtherAddr) : Prop :=
  ∃ g, (lan.iface g).unicast = pa ∧ (lan.dev g).address = ha

/-- A message from a host about itself, with anything behind it. -/
def TrueMessage (data : Bytes) : Prop :=
  ∃ g op tha tpa rest,
    data = (arpEther op (lan.dev g).address (lan.iface g).unicast tha tpa).toBytes ++ rest

def TrueFrame (frame : Bytes) : Prop :=
  ∃ g op tha tpa dst, frame = etherFrame (lan.dev g).address etherTypeArp
    (arpEther op (lan.dev g).address (lan.iface g).unicast tha tpa).toBytes dst

structure TrueArp (h : H) (arp : ArpSys) : Prop where
  entry : ∀ i, (arp.caches i).state ≠ .stateFree → (arp.caches i).state ≠ .stateIncomplete →
    lan.Owns (arp.caches i).pa (arp.caches i).ha
  pending : ∀ p, arp.pending = some p →
    lan.Owns p.msg.spa p.msg.sha ∧ p.dev = lan.dev h ∧ p.iface = lan.iface h

structure Truthful (s : LanState H) : Prop where
  arp : ∀ h, lan.TrueArp h (s.hosts h).arp
  queue : ∀ h, ∀ data ∈ (s.hosts h).queue, lan.TrueMessage data
  frames : ∀ frame ∈ s.frames, lan.TrueFrame frame

variable {lan}

theorem trueFrame_of_output {h : H} {op : BitVec 16} {tha dst : EtherAddr} {tpa : IPAddress}
    {n : Nat} {frame : Bytes}
    (ho : networkDeviceOutput (lan.dev h) etherTypeArp
      (arpEther op (lan.dev h).address (lan.iface h).unicast tha tpa).toBytes dst =
        some (.wire n frame)) : lan.TrueFrame frame := by
  have ht := (networkDeviceOutput_some ho).2.2
  simp only [NetworkDevice.transmit, lan.ops h, Transmission.wire.injEq] at ht
  exact ⟨h, op, tha, tpa, dst, ht.2⟩

/-- A true frame that is received is a true ARP message: the padding comes after it. -/
theorem TrueFrame.received {frame data : Bytes} {address : EtherAddr} {type : BitVec 16}
    (h : lan.TrueFrame frame) (hp : etherPollHelper address frame = some (type, data)) :
    lan.TrueMessage data := by
  obtain ⟨g, op, tha, tpa, dst, rfl⟩ := h
  rw [etherPollHelper_etherFrame (by simp)] at hp
  split at hp
  · cases hp
    exact ⟨g, op, tha, tpa, _, rfl⟩
  · cases hp

theorem TrueMessage.owns {data : Bytes} {msg : ArpEther} (h : lan.TrueMessage data)
    (hc : arpCheck data = some msg) : lan.Owns msg.spa msg.sha := by
  obtain ⟨g, op, tha, tpa, rest, rfl⟩ := h
  rw [arpCheck_toBytes] at hc
  cases hc
  exact ⟨g, rfl, rfl⟩

/-! ## One action -/

theorem TrueArp.update {h : H} {arp : ArpSys} (ht : lan.TrueArp h arp) (i : Fin arpCacheSize)
    {entry : ArpCache} {pending : Option ArpPending}
    (he : entry.state ≠ .stateIncomplete → lan.Owns entry.pa entry.ha)
    (hp : ∀ p, pending = some p → arp.pending = some p) :
    lan.TrueArp h ⟨Function.update arp.caches i entry, pending⟩ := by
  refine ⟨?_, fun p hp' => ht.pending p (hp p hp')⟩
  refine (Function.forall_update_iff arp.caches fun _ e => e.state ≠ .stateFree →
    e.state ≠ .stateIncomplete → lan.Owns e.pa e.ha).mpr ?_
  exact ⟨fun _ => he, fun j _ => ht.entry j⟩

/-- What host `h` does with its ARP module: it passes its own device and interface, and the
messages it receives are true. -/
def HostAction (lan : Lan H) (h : H) : ArpAction → Prop
  | .arpInput dev data _ => dev = lan.dev h ∧ lan.TrueMessage data
  | .arpResolve iface dev _ _ => iface = lan.iface h ∧ dev = lan.dev h
  | .arpInsert _ | .arpTimer _ => True

theorem target_iface {h : H} {msg : ArpEther} {iface : IpInterface}
    (ht : arpInputTarget (lan.dev h) msg = some iface) : iface = lan.iface h := by
  simp only [arpInputTarget, lan.attached h] at ht
  split at ht
  · exact (Option.some.inj ht).symm
  · cases ht

theorem TrueArp.step {h : H} {arp arp' : ArpSys} {a : ArpAction} {r : ArpResult}
    (ht : lan.TrueArp h arp) (ha : HostAction lan h a) (hs : ArpTrans arp a r arp') :
    lan.TrueArp h arp' := by
  cases hs with
  | drop _ | ignore _ _ => exact ht
  | merge hc hsel _ =>
    refine ht.update _ (fun _ => ?_) nofun
    rw [(arpCacheSelect_some hsel).2]
    exact ha.2.owns hc
  | pend hc _ htarget =>
    refine ⟨ht.entry, fun p hp => ?_⟩
    cases hp
    obtain ⟨rfl, hmsg⟩ := ha
    exact ⟨hmsg.owns hc, rfl, target_iface htarget⟩
  | insert hp _ => exact ht.update _ (fun _ => (ht.pending _ hp).1) nofun
  | resolve hr =>
    cases hr with
    | error | again _ _ | found _ _ => exact ht
    | new _ _ => exact ht.update _ (fun hne => absurd rfl hne) fun _ hp => hp
  | @timer now =>
    refine ⟨fun i hi hi' => ?_, ht.pending⟩
    rcases arpTimer_eq arp.caches now i with he | he
    · simp only [he] at hi hi' ⊢; exact ht.entry i hi hi'
    · simp only [he] at hi; exact absurd rfl hi

theorem trueFrame_of_reply {h : H} {msg : ArpEther} {n : Nat} {frame : Bytes}
    (ho : arpInputReply (lan.iface h) (lan.dev h) msg = some (.wire n frame)) :
    lan.TrueFrame frame := by
  simp only [arpInputReply] at ho
  split at ho
  · exact trueFrame_of_output ho
  · cases ho

theorem TrueArp.out {h : H} {arp arp' : ArpSys} {a : ArpAction} {r : ArpResult} {n : Nat}
    {frame : Bytes} (ht : lan.TrueArp h arp) (ha : HostAction lan h a)
    (hs : ArpTrans arp a r arp') (ho : r.out = some (.wire n frame)) : lan.TrueFrame frame := by
  cases hs with
  | drop _ | ignore _ _ | pend _ _ _ | timer => cases ho
  | merge _ _ hout =>
    obtain ⟨rfl, -⟩ := ha
    rcases hout with rfl | ⟨iface, htarget, rfl⟩
    · cases ho
    · rw [target_iface htarget] at ho
      exact trueFrame_of_reply ho
  | insert hp _ =>
    obtain ⟨-, hdev, hiface⟩ := ht.pending _ hp
    simp only [ArpResult.out, hdev, hiface] at ho
    exact trueFrame_of_reply ho
  | resolve hr =>
    obtain ⟨rfl, rfl⟩ := ha
    cases hr with
    | error | found _ _ => cases ho
    | new _ _ | again _ _ => exact trueFrame_of_output ho

def Real (lan : Lan H) (pa : IPAddress) (ha : EtherAddr) : Prop :=
  (∃ g, (lan.iface g).unicast = pa) ∧ ∀ g, (lan.iface g).unicast = pa → (lan.dev g).address = ha

theorem Owns.real {pa : IPAddress} {ha : EtherAddr} (h : lan.Owns pa ha) : lan.Real pa ha := by
  obtain ⟨g, rfl, rfl⟩ := h
  exact ⟨⟨g, rfl⟩, fun g' hg => by rw [lan.ip_inj hg]⟩

section Runs

variable [DecidableEq H]

theorem Truthful.arpStep {s s' : LanState H} {h : H} {queue : List Bytes} {a : ArpAction}
    {r : ArpResult} (ht : lan.Truthful s) (hs : Lan.arpStep s h queue a = some (s', r))
    (ha : HostAction lan h a) (hq : ∀ data ∈ queue, data ∈ (s.hosts h).queue) :
    lan.Truthful s' := by
  simp only [Lan.arpStep] at hs
  split at hs
  · cases hs
  · rename_i arp r' hstep
    cases hs
    have htr := arp_trans hstep
    refine ⟨?_, ?_, fun frame hf => ?_⟩
    · refine (Function.forall_update_iff s.hosts fun g host => lan.TrueArp g host.arp).mpr ?_
      exact ⟨(ht.arp h).step ha htr, fun g _ => ht.arp g⟩
    · refine (Function.forall_update_iff s.hosts fun _ host =>
        ∀ data ∈ host.queue, lan.TrueMessage data).mpr ?_
      exact ⟨fun data hd => ht.queue h data (hq data hd), fun g _ => ht.queue g⟩
    · simp only [emit] at hf
      split at hf
      · rename_i n frame' hout
        rcases List.mem_append.mp hf with hf | hf
        · exact ht.frames frame hf
        · rw [List.mem_singleton.mp hf]
          exact (ht.arp h).out ha htr hout
      · exact ht.frames frame hf

theorem Truthful.receive {s : LanState H} {h : H} {frame : Bytes} (ht : lan.Truthful s)
    (hf : frame ∈ s.frames) : lan.Truthful (lan.receive s h frame) := by
  simp only [Lan.receive]
  split
  · exact ht
  · rename_i type data hp
    split
    · refine ⟨?_, ?_, ht.frames⟩
      · refine (Function.forall_update_iff s.hosts fun g host => lan.TrueArp g host.arp).mpr ?_
        exact ⟨ht.arp h, fun g _ => ht.arp g⟩
      · refine (Function.forall_update_iff s.hosts fun _ host =>
          ∀ data ∈ host.queue, lan.TrueMessage data).mpr ⟨fun data' hd => ?_, fun g _ => ht.queue g⟩
        rcases List.mem_append.mp hd with hd | hd
        · exact ht.queue h data' hd
        · rw [List.mem_singleton.mp hd]
          exact (ht.frames frame hf).received hp
    · exact ht

theorem Truthful.step {s s' : LanState H} {a : LanAction H} {r : ArpResult}
    (ht : lan.Truthful s) (hs : lan.step s a = some (s', r)) : lan.Truthful s' := by
  cases a with
  | arpResolve h pa now =>
    simp only [Lan.step] at hs
    exact ht.arpStep hs ⟨rfl, rfl⟩ fun _ hd => hd
  | arpTimer h now =>
    simp only [Lan.step] at hs
    exact ht.arpStep hs trivial fun _ hd => hd
  | receive h frame =>
    simp only [Lan.step] at hs
    split at hs
    · rename_i hf
      cases hs
      exact ht.receive hf
    · cases hs
  | arpInput h now =>
    simp only [Lan.step] at hs
    split at hs
    · cases hs
    · rename_i data rest hq
      have hmem : ∀ d ∈ data :: rest, d ∈ (s.hosts h).queue := fun d hd => hq ▸ hd
      exact ht.arpStep hs ⟨rfl, ht.queue h data (hmem data (by simp))⟩
        fun d hd => hmem d (List.mem_cons_of_mem _ hd)
  | arpInsert h now =>
    simp only [Lan.step] at hs
    exact ht.arpStep hs trivial fun _ hd => hd

/-! ## Whole runs -/

theorem run_truthful {tr : List (LanAction H × ArpResult)} {s : LanState H}
    (h : Run lan.Step init tr s) : lan.Truthful s := by
  refine h.invariant (P := lan.Truthful) ?_ fun s l s' ht hl => ht.step hl
  exact ⟨fun _ => ⟨fun _ hi => absurd rfl hi, nofun⟩, nofun, nofun⟩

/-- **ARP agreement.** In every state that the hosts of a segment can reach, whatever happens to
their frames on the way, every resolved entry of every host is right, and `arp_resolve` finds no
other address than the right one. -/
theorem arp_agreement (lan : Lan H) {tr : List (LanAction H × ArpResult)} {s : LanState H}
    (hrun : Run lan.Step init tr s) (h : H) :
    (∀ i, ((s.hosts h).arp.caches i).state = .stateResolved →
      lan.Real ((s.hosts h).arp.caches i).pa ((s.hosts h).arp.caches i).ha) ∧
    ∀ now pa ha, (arpResolve (s.hosts h).arp.caches now (lan.iface h) (lan.dev h) pa).2.1 =
      .found ha → lan.Real pa ha := by
  have ht := (run_truthful hrun).arp h
  refine ⟨fun i hi => (ht.entry i (by rw [hi]; decide) (by rw [hi]; decide)).real, ?_⟩
  intro now pa ha hfound
  obtain ⟨i, hh, hne, rfl⟩ := arpResolve_found hfound
  have hown := ht.entry i hh.1 hne
  rw [hh.2] at hown
  exact hown.real

end Runs

def pairDevice (k : Fin 2) : NetworkDevice :=
  let iface : IpInterface := ⟨networkInterfaceFamilyIp, 0,
    if k = 0 then 0x0100000a#32 else 0x0200000a#32, 0x00ffffff#32, 0xff00000a#32⟩
  let address : EtherAddr := if k = 0 then .ofBytes 2 0 0 0 0 1 else .ofBytes 2 0 0 0 0 2
  { etherSetupHelper ⟨[iface], 0, 0, 0, 0, address, address, .etherTransmit⟩ with
    flags := networkDeviceFlagUp ||| networkDeviceFlagNeedArp }

def pair : Lan (Fin 2) where
  dev := pairDevice
  iface k := ⟨networkInterfaceFamilyIp, 0, if k = 0 then 0x0100000a#32 else 0x0200000a#32,
    0x00ffffff#32, 0xff00000a#32⟩
  ops _ := rfl
  attached _ := by simp [networkDeviceGetInterface, pairDevice, etherSetupHelper]
  ip_inj := by decide
  mac_inj := by decide

def handshake : List (LanAction (Fin 2)) :=
  let request := etherFrame (pairDevice 0).address etherTypeArp
    (arpEther arpOpRequest (pairDevice 0).address 0x0100000a#32 etherAddrAny
      0x0200000a#32).toBytes etherAddrBroadcast
  let reply := etherFrame (pairDevice 1).address etherTypeArp
    (arpEther arpOpReply (pairDevice 1).address 0x0200000a#32 (pairDevice 0).address
      0x0100000a#32).toBytes (pairDevice 0).address
  [.arpResolve 0 0x0200000a#32 ⟨0, 0⟩, .receive 1 request, .arpInput 1 ⟨0, 0⟩, .arpInsert 1 ⟨0, 0⟩,
    .receive 0 reply, .arpInput 0 ⟨0, 0⟩]

theorem handshake_agreement : ∃ tr s ha, Run pair.Step init tr s ∧
    tr.map Prod.fst = handshake ∧
    (arpResolve (s.hosts 0).arp.caches ⟨1, 0⟩ (pair.iface 0) (pair.dev 0) 0x0200000a#32).2.1 =
      .found ha ∧ pair.Real 0x0200000a#32 ha := by
  obtain ⟨tr, s, hr, hm, hp⟩ := exec_check pair.step init handshake
    (fun r => decide ((arpResolve (r.2.hosts 0).arp.caches ⟨1, 0⟩ (pair.iface 0) (pair.dev 0)
      0x0200000a#32).2.1 = .found (.ofBytes 2 0 0 0 0 2))) (by decide +kernel)
  have hf := of_decide_eq_true hp
  exact ⟨tr, s, _, hr, hm, hf, (arp_agreement pair hr 0).2 _ _ _ hf⟩

end Lan

end LLNStack
