import LLNStack.Arp.Agree

/-!
# LLNStack.Arp.Handshake

One address resolution on a segment, undisturbed: the request of host `a` for host `b`, the answer
of `b`, and what the two and any third host make of them. The caches are arbitrary, full or not.

* `arpInput_learned`: a message to this host from anyone leaves a resolved entry for the sender.
* `arpInput_overheard`: a message for another host makes no new entry and is not answered.
-/

namespace LLNStack

open Lib

/-! ## One host -/

def Known (caches : Caches) (pa : IPAddress) (ha : EtherAddr) : Prop :=
  ∃ i, arpCacheSelect caches pa = some i ∧ (caches i).state = .stateResolved ∧ (caches i).ha = ha

theorem known_update {caches : Caches} {i : Fin arpCacheSize} (entry : ArpCache)
    (hlt : ∀ j, j < i → ¬ (caches j).Holds entry.pa) (hres : entry.state = .stateResolved) :
    Known (Function.update caches i entry) entry.pa entry.ha := by
  have hholds : entry.Holds entry.pa := ⟨by rw [hres]; decide, rfl⟩
  refine ⟨i, firstSlot_update hholds hlt, ?_, ?_⟩
  · rw [Function.update_self, hres]
  · rw [Function.update_self]

theorem arpResolve_known {caches : Caches} {pa : IPAddress} {ha : EtherAddr}
    (h : Known caches pa ha) {iface : IpInterface} {dev : NetworkDevice}
    (htype : dev.type = networkDeviceTypeEthernet)
    (hfam : iface.family = networkInterfaceFamilyIp) (now : Timeval) :
    arpResolve caches now iface dev pa = (caches, .found ha, none) := by
  obtain ⟨i, hi, hres, rfl⟩ := h
  exact arpResolve_cached htype hfam hi (by rw [hres]; decide) now

theorem arpCacheSelect_lt {caches : Caches} {pa : IPAddress} {i : Fin arpCacheSize}
    (h : arpCacheSelect caches pa = some i) : ∀ j, j < i → ¬ (caches j).Holds pa :=
  (firstSlot_eq_some.mp h).2

theorem arpInput_learned (caches : Caches) (now : Timeval) {dev : NetworkDevice} {data : Bytes}
    {msg : ArpEther} {iface : IpInterface} (hc : arpCheck data = some msg)
    (ht : arpInputTarget dev msg = some iface) :
    ∃ caches', arpInput caches now dev data = (caches', arpInputReply iface dev msg) ∧
      Known caches' msg.spa msg.sha := by
  simp only [arpInput, hc, ht]
  rcases arpInputUpdate_trans caches now msg with ⟨i, hs, hu⟩ | ⟨hs, hu⟩
  · have hpa := (arpCacheSelect_some hs).2
    rw [hu]
    refine ⟨_, rfl, ?_⟩
    have hk := known_update
      { caches i with state := .stateResolved, ha := msg.sha, timestamp := now }
      (show ∀ j, j < i → ¬ (caches j).Holds (caches i).pa by
        rw [hpa]; exact arpCacheSelect_lt hs) rfl
    rw [hpa] at hk
    exact hk
  · obtain ⟨i, hi, he⟩ := arpInputInsert_trans caches now msg
    rw [hu]
    simp only [Bool.false_eq_true, if_false, he]
    exact ⟨_, rfl, known_update _ (fun j _ => arpCacheSelect_none.mp hs j) rfl⟩

theorem arpInput_overheard (caches : Caches) (now : Timeval) {dev : NetworkDevice} {data : Bytes}
    {msg : ArpEther} (hc : arpCheck data = some msg) (ht : arpInputTarget dev msg = none) :
    ∃ caches', arpInput caches now dev data = (caches', none) ∧
      ∀ i pa, (caches' i).Holds pa ↔ (caches i).Holds pa := by
  simp only [arpInput, hc, ht]
  rcases arpInputUpdate_trans caches now msg with ⟨i, hs, hu⟩ | ⟨-, hu⟩
  · have hused := (arpCacheSelect_some hs).1
    rw [hu]
    refine ⟨Function.update caches i _, rfl, fun j pa => ?_⟩
    by_cases hj : j = i
    · subst hj
      rw [Function.update_self]
      simp [ArpCache.Holds, hused]
    · rw [Function.update_of_ne hj]
  · rw [hu]
    exact ⟨caches, rfl, fun _ _ => Iff.rfl⟩

/-! ## The segment -/

namespace Lan

variable {H : Type} (lan : Lan H)

def request (a b : H) : Bytes :=
  etherFrame (lan.dev a).address etherTypeArp
    (arpEther arpOpRequest (lan.dev a).address (lan.iface a).unicast etherAddrAny
      (lan.iface b).unicast).toBytes etherAddrBroadcast

def reply (b a : H) : Bytes :=
  etherFrame (lan.dev b).address etherTypeArp
    (arpEther arpOpReply (lan.dev b).address (lan.iface b).unicast (lan.dev a).address
      (lan.iface a).unicast).toBytes (lan.dev a).address

/-- `ether_poll_helper` on host `h` for a frame, and `arp_input` for an ARP message in it. -/
def deliver (h : H) (caches : Caches) (now : Timeval) (frame : Bytes) :
    Caches × Option Transmission :=
  match etherPollHelper (lan.dev h).address frame with
  | none => (caches, none)
  | some (type, data) =>
    if type = etherTypeArp then arpInput caches now (lan.dev h) data else (caches, none)

structure Up : Prop where
  built : ∀ h, (lan.dev h).Built
  type : ∀ h, (lan.dev h).type = networkDeviceTypeEthernet
  isUp : ∀ h, (lan.dev h).isUp = true

variable {lan}

theorem family (h : H) : (lan.iface h).family = networkInterfaceFamilyIp := by
  simpa using List.find?_some (lan.attached h)

theorem target (h : H) (msg : ArpEther) : arpInputTarget (lan.dev h) msg =
    if (lan.iface h).unicast = msg.tpa then some (lan.iface h) else none := by
  simp only [arpInputTarget, lan.attached h]

theorem deliver_message {h : H} {dst : EtherAddr}
    (hdst : dst = (lan.dev h).address ∨ dst = etherAddrBroadcast) (src : EtherAddr)
    (op : BitVec 16) (sha tha : EtherAddr) (spa tpa : IPAddress) (caches : Caches)
    (now : Timeval) :
    ∃ data, arpCheck data = some (arpEther op sha spa tha tpa) ∧
      lan.deliver h caches now
        (etherFrame src etherTypeArp (arpEther op sha spa tha tpa).toBytes dst) =
          arpInput caches now (lan.dev h) data := by
  have hlen : (arpEther op sha spa tha tpa).toBytes.length = 28 := ArpEther.length_toBytes _
  -- the padding of the frame follows the message
  refine ⟨_, arpCheck_toBytes op sha tha spa tpa (List.replicate (46 - 28) 0), ?_⟩
  simp only [deliver, etherPollHelper_etherFrame (hlen.le.trans (by decide)), hdst, if_true, hlen]

theorem Up.output (hup : lan.Up) (h : H) (op : BitVec 16) (tha dst : EtherAddr)
    (tpa : IPAddress) :
    networkDeviceOutput (lan.dev h) etherTypeArp
        (arpEther op (lan.dev h).address (lan.iface h).unicast tha tpa).toBytes dst =
      some (.wire (lan.dev h).index (etherFrame (lan.dev h).address etherTypeArp
        (arpEther op (lan.dev h).address (lan.iface h).unicast tha tpa).toBytes dst)) := by
  have hlink := (hup.built h).etherLink (hup.type h)
  have hfits : (arpEther op (lan.dev h).address (lan.iface h).unicast tha tpa).toBytes.length ≤
      (lan.dev h).mtu.toNat := by
    rw [hlink.mtu, ArpEther.length_toBytes]
    decide
  rw [networkDeviceOutput_fits (hup.isUp h) etherTypeArp hfits]
  simp only [NetworkDevice.transmit, hlink.ops]

theorem Up.answer (hup : lan.Up) (a b : H) (cb : Caches) (now : Timeval) :
    ∃ cb', lan.deliver b cb now (lan.request a b) =
        (cb', some (.wire (lan.dev b).index (lan.reply b a))) ∧
      Known cb' (lan.iface a).unicast (lan.dev a).address := by
  obtain ⟨data, hc, hd⟩ := deliver_message (h := b) (.inr rfl) (lan.dev a).address arpOpRequest
    (lan.dev a).address etherAddrAny (lan.iface a).unicast (lan.iface b).unicast cb now
  obtain ⟨cb', hin, hk⟩ := arpInput_learned cb now hc
    ((target b _).trans (if_pos rfl))
  refine ⟨cb', ?_, hk⟩
  have hreply : arpInputReply (lan.iface b) (lan.dev b)
      (arpEther arpOpRequest (lan.dev a).address (lan.iface a).unicast etherAddrAny
        (lan.iface b).unicast) = some (.wire (lan.dev b).index (lan.reply b a)) := by
    simp only [arpInputReply, arpReply, arpEther, ntoh16_hton16, if_true]
    exact hup.output b arpOpReply (lan.dev a).address (lan.dev a).address (lan.iface a).unicast
  rw [request, hd, hin, hreply]

theorem learn_reply (a b : H) (ca : Caches) (now : Timeval) :
    ∃ ca', lan.deliver a ca now (lan.reply b a) = (ca', none) ∧
      Known ca' (lan.iface b).unicast (lan.dev b).address := by
  obtain ⟨data, hc, hd⟩ := deliver_message (h := a) (.inl rfl) (lan.dev b).address arpOpReply
    (lan.dev b).address (lan.dev a).address (lan.iface b).unicast (lan.iface a).unicast ca now
  obtain ⟨ca', hin, hk⟩ := arpInput_learned ca now hc
    ((target a _).trans (if_pos rfl))
  refine ⟨ca', ?_, hk⟩
  have hreply : arpInputReply (lan.iface a) (lan.dev a)
      (arpEther arpOpReply (lan.dev b).address (lan.iface b).unicast (lan.dev a).address
        (lan.iface a).unicast) = none := by
    simp only [arpInputReply, arpEther, ntoh16_hton16]
    rfl
  rw [reply, hd, hin, hreply]

theorem overhear_request (a : H) {b c : H} (hcb : c ≠ b) (cc : Caches) (now : Timeval) :
    ∃ cc', lan.deliver c cc now (lan.request a b) = (cc', none) ∧
      ∀ i pa, (cc' i).Holds pa ↔ (cc i).Holds pa := by
  obtain ⟨data, hc, hd⟩ := deliver_message (h := c) (.inr rfl) (lan.dev a).address arpOpRequest
    (lan.dev a).address etherAddrAny (lan.iface a).unicast (lan.iface b).unicast cc now
  have hother : (lan.iface c).unicast ≠ (lan.iface b).unicast := fun he => hcb (lan.ip_inj he)
  obtain ⟨cc', hin, hholds⟩ := arpInput_overheard cc now hc
    ((target c _).trans (if_neg hother))
  exact ⟨cc', by rw [request, hd, hin], hholds⟩

/-- **ARP handshake.** Host `a` has no resolved entry for host `b`; the caches are otherwise
arbitrary. `arp_resolve` on `a` sends one request, to all; delivered to `b`, it makes `b` send one
reply, to `a`; delivered to `a`, the reply makes `a` send nothing. Both hosts then resolve each
other. A third host that gets the request sends nothing and has the entries it had. -/
theorem arp_handshake (hup : lan.Up) {a b : H} (ca : Caches)
    (hn : ∀ i, (ca i).Holds (lan.iface b).unicast → (ca i).state = .stateIncomplete)
    (cb : Caches) (t₀ t₁ t₂ : Timeval) :
    ∃ ca₁ cb₁ ca₂,
      arpResolve ca t₀ (lan.iface a) (lan.dev a) (lan.iface b).unicast =
        (ca₁, .incomplete, some (.wire (lan.dev a).index (lan.request a b))) ∧
      lan.deliver b cb t₁ (lan.request a b) =
        (cb₁, some (.wire (lan.dev b).index (lan.reply b a))) ∧
      lan.deliver a ca₁ t₂ (lan.reply b a) = (ca₂, none) ∧
      (∀ now, arpResolve ca₂ now (lan.iface a) (lan.dev a) (lan.iface b).unicast =
        (ca₂, .found (lan.dev b).address, none)) ∧
      (∀ now, arpResolve cb₁ now (lan.iface b) (lan.dev b) (lan.iface a).unicast =
        (cb₁, .found (lan.dev a).address, none)) ∧
      ∀ c, c ≠ b → ∀ cc now, ∃ cc', lan.deliver c cc now (lan.request a b) = (cc', none) ∧
        ∀ i pa, (cc' i).Holds pa ↔ (cc i).Holds pa := by
  obtain ⟨ca₁, hres⟩ := arpResolve_unresolved (hup.type a) (family a)
    (fun i hi => hn i (arpCacheSelect_some hi)) t₀
  obtain ⟨cb₁, hreq, hkb⟩ := hup.answer a b cb t₁
  obtain ⟨ca₂, hrep, hka⟩ := learn_reply a b ca₁ t₂
  refine ⟨ca₁, cb₁, ca₂, ?_, hreq, hrep, ?_, ?_, ?_⟩
  · have hbc := ((hup.built a).etherLink (hup.type a)).broadcast
    rw [hres, arpRequest, hup.output, hbc, request]
  · exact arpResolve_known hka (hup.type a) (family a)
  · exact arpResolve_known hkb (hup.type b) (family b)
  · exact fun c hcb cc now => overhear_request a hcb cc now

def trioIface (k : Fin 3) : IpInterface :=
  ⟨networkInterfaceFamilyIp, 0, BitVec.ofNat 8 (k.val + 1) ++ 0x00000a#24, 0x00ffffff#32,
    0xff00000a#32⟩

def trioAddress (k : Fin 3) : EtherAddr := .ofBytes 2 0 0 0 0 (BitVec.ofNat 8 (k.val + 1))

def trioDevice (k : Fin 3) : NetworkDevice :=
  (networkDeviceOpen (some (trioAddress k))
    { etherSetupHelper ⟨[trioIface k], 0, 0, 0, 0, etherAddrAny, etherAddrAny, .etherTransmit⟩ with
      address := etherAddrAny
      ops := .etherTransmit }).1

def trio : Lan (Fin 3) where
  dev := trioDevice
  iface := trioIface
  ops := by decide
  attached := by decide
  ip_inj := by decide
  mac_inj := by decide

theorem trio_up : trio.Up where
  built k := .opened (some (trioAddress k)) (.ether
    ⟨[trioIface k], 0, 0, 0, 0, etherAddrAny, etherAddrAny, .etherTransmit⟩ etherAddrAny)
  type := by decide
  isUp := by decide

def crowded : Caches := fun i =>
  ⟨.stateResolved, BitVec.ofNat 8 i.val ++ 0x01000a#24, etherAddrAny, ⟨5, 0⟩⟩

/-- Two hosts with full caches resolve each other; the third one does not answer. -/
theorem crowded_handshake : ∃ ca cb,
    arpResolve ca ⟨9, 0⟩ (trio.iface 0) (trio.dev 0) (trio.iface 1).unicast =
      (ca, .found (trioAddress 1), none) ∧
    arpResolve cb ⟨9, 0⟩ (trio.iface 1) (trio.dev 1) (trio.iface 0).unicast =
      (cb, .found (trioAddress 0), none) ∧
    (trio.deliver 2 crowded ⟨7, 0⟩ (trio.request 0 1)).2 = none := by
  obtain ⟨-, cb₁, ca₂, -, -, -, ha, hb, hc⟩ :=
    arp_handshake trio_up (a := 0) (b := 1) crowded (by decide +kernel) crowded ⟨6, 0⟩ ⟨7, 0⟩ ⟨8, 0⟩
  obtain ⟨cc', hcc, -⟩ := hc 2 (by decide) crowded ⟨7, 0⟩
  exact ⟨ca₂, cb₁, ha ⟨9, 0⟩, hb ⟨9, 0⟩, by rw [hcc]⟩

end Lan

end LLNStack
