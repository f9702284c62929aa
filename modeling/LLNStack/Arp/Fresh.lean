import LLNStack.Arp.Unique

/-!
# LLNStack.Arp.Fresh

What `arp_resolve` returns is the latest news. Here `arp_input`, `arp_resolve` and `arp_timer` run
as a whole, one after the other, on arbitrary data and with arbitrary clock readings.
`lastSender` is the hardware address that the last well-formed message from a protocol address
gave for it.

* `CacheFresh.step`: the entries stay unique, and each resolved one has the last address given.
* `resolve_found_latest`: so what `arp_resolve` finds was said by a message, and by no later one
  otherwise.
-/

namespace LLNStack

open Lib

inductive ArpOp where
  | arpInput (dev : NetworkDevice) (data : Bytes) (now : Timeval)
  | arpResolve (iface : IpInterface) (dev : NetworkDevice) (pa : IPAddress) (now : Timeval)
  | arpTimer (now : Timeval)

def arpOpStep (caches : Caches) : ArpOp → Option (Caches × ArpResult)
  | .arpInput dev data now =>
    let r := arpInput caches now dev data
    some (r.1, .done r.2)
  | .arpResolve iface dev pa now =>
    let r := arpResolve caches now iface dev pa
    some (r.1, .resolved r.2.1 r.2.2)
  | .arpTimer now => some (arpTimer caches now, .done none)

abbrev ArpOpStep : Caches → ArpOp × ArpResult → Caches → Prop := stepRel arpOpStep

/-! ## The messages of a history -/

def ArpOp.msg : ArpOp → Option ArpEther
  | .arpInput _ data _ => arpCheck data
  | _ => none

def learn (last : IPAddress → Option EtherAddr) (op : ArpOp) : IPAddress → Option EtherAddr :=
  match op.msg with
  | some msg => Function.update last msg.spa (some msg.sha)
  | none => last

def lastSender (tr : List (ArpOp × ArpResult)) : IPAddress → Option EtherAddr :=
  tr.foldl (fun last l => learn last l.1) fun _ => none

@[simp] theorem lastSender_snoc (tr : List (ArpOp × ArpResult)) (l : ArpOp × ArpResult) :
    lastSender (tr ++ [l]) = learn (lastSender tr) l.1 := by
  simp [lastSender]

def ArpOp.Says (pa : IPAddress) (ha : EtherAddr) (op : ArpOp) : Prop :=
  ∃ msg, op.msg = some msg ∧ msg.spa = pa ∧ msg.sha = ha

theorem lastSender_some {tr : List (ArpOp × ArpResult)} {pa : IPAddress} {ha : EtherAddr}
    (h : lastSender tr pa = some ha) :
    ∃ tr₁ l tr₂, tr = tr₁ ++ l :: tr₂ ∧ l.1.Says pa ha ∧
      ∀ l' ∈ tr₂, ∀ ha', ¬ l'.1.Says pa ha' := by
  induction tr using List.reverseRecOn with
  | nil => cases h
  | append_singleton tr l ih =>
    rw [lastSender_snoc] at h
    -- a later operation that says nothing about `pa`
    have old : lastSender tr pa = some ha → (∀ ha', ¬ l.1.Says pa ha') →
        ∃ tr₁ l₁ tr₂, tr ++ [l] = tr₁ ++ l₁ :: tr₂ ∧ l₁.1.Says pa ha ∧
          ∀ l' ∈ tr₂, ∀ ha', ¬ l'.1.Says pa ha' := by
      intro hl hn
      obtain ⟨tr₁, l₁, tr₂, rfl, hs, hlater⟩ := ih hl
      refine ⟨tr₁, l₁, tr₂ ++ [l], by simp, hs, fun l' hl' => ?_⟩
      rcases List.mem_append.mp hl' with hl' | hl'
      · exact hlater l' hl'
      · rw [List.mem_singleton.mp hl']; exact hn
    cases hm : l.1.msg with
    | some msg =>
      simp only [learn, hm] at h
      by_cases hpa : pa = msg.spa
      · subst hpa
        rw [Function.update_self] at h
        exact ⟨tr, l, [], rfl, ⟨msg, hm, rfl, Option.some.inj h⟩, by simp⟩
      · rw [Function.update_of_ne hpa] at h
        refine old h ?_
        rintro ha' ⟨msg', hm', rfl, -⟩
        rw [hm] at hm'; cases hm'
        exact hpa rfl
    | none =>
      simp only [learn, hm] at h
      refine old h ?_
      rintro ha' ⟨msg', hm', -⟩
      rw [hm] at hm'; cases hm'

/-! ## One operation -/

structure CacheFresh (last : IPAddress → Option EtherAddr) (caches : Caches) : Prop where
  unique : CacheUnique caches
  latest : ∀ i, (caches i).state = .stateResolved → last (caches i).pa = some (caches i).ha
  noStatic : ∀ i, (caches i).state ≠ .stateStatic

theorem CacheFresh.update {last : IPAddress → Option EtherAddr} {caches : Caches}
    (h : CacheFresh last caches) (i : Fin arpCacheSize) {entry : ArpCache}
    {last' : IPAddress → Option EtherAddr}
    (hu : CacheUnique (Function.update caches i entry))
    (he : entry.state = .stateResolved → last' entry.pa = some entry.ha)
    (hs : entry.state ≠ .stateStatic)
    (ho : ∀ j, j ≠ i → (caches j).state = .stateResolved →
      last' (caches j).pa = last (caches j).pa) :
    CacheFresh last' (Function.update caches i entry) := by
  refine ⟨hu, ?_, ?_⟩
  · refine (Function.forall_update_iff caches fun _ e =>
      e.state = .stateResolved → last' e.pa = some e.ha).mpr ⟨he, fun j hji hj => ?_⟩
    rw [ho j hji hj]
    exact h.latest j hj
  · exact (Function.forall_update_iff caches fun _ e => e.state ≠ .stateStatic).mpr
      ⟨hs, fun j _ => h.noStatic j⟩

theorem CacheFresh.learn {last : IPAddress → Option EtherAddr} {caches caches' : Caches}
    {now : Timeval} {msg : ArpEther} (h : CacheFresh last caches)
    (ht : ArpLearn caches now msg caches') :
    CacheFresh (Function.update last msg.spa (some msg.sha)) caches' := by
  -- an entry for another address is not affected by the news
  have other : ∀ j, (caches j).state = .stateResolved → ¬ (caches j).Holds msg.spa →
      Function.update last msg.spa (some msg.sha) (caches j).pa = last (caches j).pa := by
    intro j hj hn
    refine Function.update_of_ne (fun he => hn ⟨?_, he⟩) ..
    rw [hj]; decide
  cases ht with
  | @refresh i hi =>
    have hh := arpCacheSelect_some hi
    refine h.update i (h.unique.refresh hi _ nofun rfl) (fun _ => ?_) nofun fun j hji hj => ?_
    · show Function.update last msg.spa (some msg.sha) (caches i).pa = _
      rw [hh.2, Function.update_self]
    · exact other j hj fun hn => hji (h.unique j i _ hn hh)
  | ignore hn =>
    refine ⟨h.unique, fun j hj => ?_, h.noStatic⟩
    rw [other j hj (arpCacheSelect_none.mp hn j)]
    exact h.latest j hj
  | @insert i hn _ =>
    refine h.update i (h.unique.fresh _ nofun hn) (fun _ => ?_) nofun fun j _ hj => ?_
    · exact Function.update_self ..
    · exact other j hj (arpCacheSelect_none.mp hn j)

theorem CacheFresh.resolve {last : IPAddress → Option EtherAddr} {caches caches' : Caches}
    {now : Timeval} {iface : IpInterface} {dev : NetworkDevice} {pa : IPAddress} {r : ArpResolve}
    {out : Option Transmission} (h : CacheFresh last caches)
    (ht : ResolveTrans caches now iface dev pa caches' r out) : CacheFresh last caches' := by
  cases ht with
  | error | again _ _ | found _ _ => exact h
  | new hn _ => exact h.update _ (h.unique.fresh _ nofun hn) nofun nofun fun _ _ _ => rfl

theorem CacheFresh.timer {last : IPAddress → Option EtherAddr} {caches : Caches}
    (h : CacheFresh last caches) (now : Timeval) : CacheFresh last (arpTimer caches now) := by
  refine ⟨h.unique.timer now, fun i hi => ?_, fun i => ?_⟩
  · rcases arpTimer_eq caches now i with he | he
    · rw [he] at hi ⊢; exact h.latest i hi
    · rw [he] at hi; cases hi
  · rcases arpTimer_eq caches now i with he | he
    · rw [he]; exact h.noStatic i
    · rw [he]; decide

theorem CacheFresh.step {last : IPAddress → Option EtherAddr} {caches caches' : Caches}
    {op : ArpOp} {r : ArpResult} (h : CacheFresh last caches)
    (hs : arpOpStep caches op = some (caches', r)) :
    CacheFresh (LLNStack.learn last op) caches' := by
  cases op with
  | arpInput dev data now =>
    cases hs
    have ht := arpInput_trans caches now dev data
    simp only [LLNStack.learn, ArpOp.msg]
    cases hc : arpCheck data with
    | none =>
      rw [hc] at ht
      simp only at ht ⊢
      rw [ht]; exact h
    | some msg =>
      rw [hc] at ht
      exact h.learn ht
  | arpResolve iface dev pa now =>
    cases hs
    exact h.resolve (arpResolve_trans caches now iface dev pa)
  | arpTimer now =>
    cases hs
    exact h.timer now

/-! ## Whole runs -/

theorem run_fresh {tr : List (ArpOp × ArpResult)} {caches : Caches}
    (h : Run ArpOpStep cachesInit tr caches) : CacheFresh (lastSender tr) caches := by
  refine h.history (P := fun tr caches => CacheFresh (lastSender tr) caches) ?_ ?_
  · exact ⟨fun i j pa hi _ => absurd rfl hi.1, nofun, nofun⟩
  · intro tr caches l caches' _ hp hl
    rw [lastSender_snoc]
    exact hp.step hl

/-- **ARP freshness.** After any sequence of ARP operations from the empty cache, on arbitrary
data and with any clock, if `arp_resolve` finds `ha` for `pa`, then some message handled before
came from `pa` and gave `ha`, and no later message came from `pa`. -/
theorem resolve_found_latest {tr : List (ArpOp × ArpResult)} {caches : Caches}
    (h : Run ArpOpStep cachesInit tr caches) {now : Timeval} {iface : IpInterface}
    {dev : NetworkDevice} {pa : IPAddress} {ha : EtherAddr}
    (hfound : (arpResolve caches now iface dev pa).2.1 = .found ha) :
    ∃ tr₁ l tr₂, tr = tr₁ ++ l :: tr₂ ∧ l.1.Says pa ha ∧
      ∀ l' ∈ tr₂, ∀ ha', ¬ l'.1.Says pa ha' := by
  have hf := run_fresh h
  obtain ⟨i, hh, hne, rfl⟩ := arpResolve_found hfound
  have hres : (caches i).state = .stateResolved := by
    cases hst : (caches i).state with
    | stateFree => exact absurd hst hh.1
    | stateIncomplete => exact absurd hst hne
    | stateResolved => rfl
    | stateStatic => exact absurd hst (hf.noStatic i)
  have hl := hf.latest i hres
  rw [hh.2] at hl
  exact lastSender_some hl

/-- A request of the peer is handled; the peer is resolved afterwards. -/
theorem peerRequest_latest : ∃ tr caches, Run ArpOpStep cachesInit tr caches ∧
    tr.map Prod.fst = [.arpInput hostDevice peerRequest ⟨0, 0⟩] ∧
    ∃ tr₁ l tr₂, tr = tr₁ ++ l :: tr₂ ∧ l.1.Says 0x0200000a#32 (.ofBytes 2 0 0 0 0 2) ∧
      ∀ l' ∈ tr₂, ∀ ha', ¬ l'.1.Says 0x0200000a#32 ha' := by
  obtain ⟨tr, caches, hr, hm, hp⟩ := exec_check arpOpStep cachesInit
    [.arpInput hostDevice peerRequest ⟨0, 0⟩]
    (fun r => decide ((arpResolve r.2 ⟨1, 0⟩
      ⟨networkInterfaceFamilyIp, 0, 0x0100000a#32, 0x00ffffff#32, 0xff00000a#32⟩ hostDevice
      0x0200000a#32).2.1 = .found (.ofBytes 2 0 0 0 0 2))) (by decide +kernel)
  exact ⟨tr, caches, hr, hm, resolve_found_latest hr (of_decide_eq_true hp)⟩

end LLNStack
