import LLNStack.Arp.System

/-!
# LLNStack.Arp.Unique

At most one entry per protocol address. The first critical section of `arp_input` finds no entry
for the sender, and the second one inserts it; an `arp_resolve` for the same address in between
makes an incomplete entry, which the insertion then duplicates. `InsertFresh` says that an
insertion finds no entry for its address, other than one in the slot it is about to overwrite;
`unique_iff_insertFresh` that this is exactly when the entries of a run stay unique.
-/

namespace LLNStack

open Lib

def CacheUnique (caches : Caches) : Prop :=
  ∀ i j pa, (caches i).Holds pa → (caches j).Holds pa → i = j

theorem CacheUnique.mono {caches caches' : Caches} (h : CacheUnique caches)
    (hm : ∀ i pa, (caches' i).Holds pa → (caches i).Holds pa) : CacheUnique caches' :=
  fun i j pa hi hj => h i j pa (hm i pa hi) (hm j pa hj)

theorem unique_update_iff {caches : Caches} (h : CacheUnique caches) {i : Fin arpCacheSize}
    (entry : ArpCache) (hentry : entry.state ≠ .stateFree) :
    CacheUnique (Function.update caches i entry) ↔
      ∀ j, (caches j).Holds entry.pa → j = i := by
  constructor
  · intro hu j hj
    by_contra hne
    refine hne (hu j i entry.pa ?_ ?_)
    · rwa [Function.update_of_ne hne]
    · rw [Function.update_self]; exact ⟨hentry, rfl⟩
  · intro hc j k pa hj hk
    by_cases hji : j = i
    · by_cases hki : k = i
      · rw [hji, hki]
      · subst hji
        rw [Function.update_self] at hj
        rw [Function.update_of_ne hki] at hk
        exact (hc k (hj.2 ▸ hk)).symm
    · by_cases hki : k = i
      · subst hki
        rw [Function.update_self] at hk
        rw [Function.update_of_ne hji] at hj
        exact hc j (hk.2 ▸ hj)
      · rw [Function.update_of_ne hji] at hj
        rw [Function.update_of_ne hki] at hk
        exact h j k pa hj hk

theorem CacheUnique.refresh {caches : Caches} (h : CacheUnique caches) {pa : IPAddress}
    {i : Fin arpCacheSize} (hi : arpCacheSelect caches pa = some i) (entry : ArpCache)
    (hentry : entry.state ≠ .stateFree) (hpa : entry.pa = (caches i).pa) :
    CacheUnique (Function.update caches i entry) := by
  refine (unique_update_iff h entry hentry).mpr fun j hj => ?_
  have hh := arpCacheSelect_some hi
  exact h j i pa (by rw [hpa, hh.2] at hj; exact hj) hh

theorem CacheUnique.fresh {caches : Caches} (h : CacheUnique caches) {i : Fin arpCacheSize}
    (entry : ArpCache) (hentry : entry.state ≠ .stateFree)
    (hn : arpCacheSelect caches entry.pa = none) :
    CacheUnique (Function.update caches i entry) :=
  (unique_update_iff h entry hentry).mpr fun j hj => absurd hj (arpCacheSelect_none.mp hn j)

theorem CacheUnique.timer {caches : Caches} (h : CacheUnique caches) (now : Timeval) :
    CacheUnique (arpTimer caches now) := by
  refine h.mono fun i pa hi => ?_
  rcases arpTimer_eq caches now i with he | he
  · rwa [he] at hi
  · rw [he] at hi
    exact absurd rfl hi.1

theorem CacheUnique.resolve {caches caches' : Caches} {now : Timeval} {iface : IpInterface}
    {dev : NetworkDevice} {pa : IPAddress} {r : ArpResolve} {out : Option Transmission}
    (h : CacheUnique caches) (ht : ResolveTrans caches now iface dev pa caches' r out) :
    CacheUnique caches' := by
  cases ht with
  | error | again _ _ | found _ _ => exact h
  | new hs _ => exact h.fresh _ nofun hs

/-! ## One step -/

/-- The condition on a step, in the state before it: the second critical section of `arp_input`
finds no entry for the sender, unless in the slot it overwrites. -/
def InsertFresh (s : ArpSys) : ArpAction × ArpResult → Prop
  | (.arpInsert _, _) => ∀ p, s.pending = some p → ∀ i, (s.caches i).Holds p.msg.spa →
      arpCacheAlloc s.caches = some i
  | _ => True

theorem unique_step {s s' : ArpSys} {a : ArpAction} {r : ArpResult} (h : CacheUnique s.caches)
    (ht : ArpTrans s a r s') : CacheUnique s'.caches ↔ InsertFresh s (a, r) := by
  cases ht with
  | drop _ | ignore _ _ | pend _ _ _ => exact iff_of_true h trivial
  | merge _ hs _ => exact iff_of_true (h.refresh hs _ nofun rfl) trivial
  | @insert p i now hp hi =>
    rw [unique_update_iff h ⟨.stateResolved, p.msg.spa, p.msg.sha, now⟩ nofun]
    constructor
    · intro hu p' hp' j hj
      rw [hp] at hp'; cases hp'
      rw [hi, hu j hj]
    · intro hc j hj
      have := hc p hp j hj
      rw [hi] at this
      exact (Option.some.inj this).symm
  | resolve hr => exact iff_of_true (h.resolve hr) trivial
  | timer => exact iff_of_true (h.timer _) trivial

/-! ## Whole runs -/

/-- **Cache uniqueness.** In a run of ARP critical sections in any order, the cache has at most one
entry per protocol address in every state reached, exactly if no insertion by `arp_input` finds an
entry for its address in a slot other than its own. -/
theorem unique_iff_insertFresh {tr : List (ArpAction × ArpResult)} {s : ArpSys}
    (h : Run ArpSys.Step ArpSys.init tr s) :
    Run.Throughout ArpSys.Step ArpSys.init tr (fun _ s => CacheUnique s.caches) ↔
      Run (Guarded ArpSys.Step InsertFresh) ArpSys.init tr s := by
  refine Run.guarded_iff (stepRel_deterministic _) ?_ ?_ h
  · exact fun i j pa hi _ => absurd rfl hi.1
  · rintro tr s ⟨a, r⟩ s' _ hp hl
    exact unique_step hp (arp_trans hl)

def hostDevice : NetworkDevice :=
  { etherSetupHelper
      ⟨[⟨networkInterfaceFamilyIp, 0, 0x0100000a#32, 0x00ffffff#32, 0xff00000a#32⟩], 0, 0, 0, 0,
        .ofBytes 2 0 0 0 0 1, etherAddrAny, .etherTransmit⟩ with
    flags := networkDeviceFlagUp ||| networkDeviceFlagNeedArp }

def peerRequest : Bytes :=
  (arpEther arpOpRequest (.ofBytes 2 0 0 0 0 2) 0x0200000a#32 etherAddrAny
    0x0100000a#32).toBytes

def resolveBetween : List ArpAction :=
  [.arpInput hostDevice peerRequest ⟨0, 0⟩,
    .arpResolve ⟨networkInterfaceFamilyIp, 0, 0x0100000a#32, 0x00ffffff#32, 0xff00000a#32⟩
      hostDevice 0x0200000a#32 ⟨0, 0⟩,
    .arpInsert ⟨0, 0⟩]

theorem resolveBetween_duplicates : ∃ tr s, Run ArpSys.Step ArpSys.init tr s ∧
    tr.map Prod.fst = resolveBetween ∧ ¬ CacheUnique s.caches ∧
    (s.caches 0).Holds 0x0200000a#32 ∧ (s.caches 1).Holds 0x0200000a#32 := by
  obtain ⟨tr, s, hr, hm, hp⟩ := exec_check ArpSys.step ArpSys.init resolveBetween
    (fun r => decide ((r.2.caches 0).Holds 0x0200000a#32 ∧ (r.2.caches 1).Holds 0x0200000a#32))
    (by decide +kernel)
  obtain ⟨h0, h1⟩ := of_decide_eq_true hp
  exact ⟨tr, s, hr, hm, fun hu => absurd (hu 0 1 _ h0 h1) (by decide), h0, h1⟩

theorem inputThenInsert_unique : ∃ tr s, Run ArpSys.Step ArpSys.init tr s ∧
    tr.map Prod.fst = [.arpInput hostDevice peerRequest ⟨0, 0⟩, .arpInsert ⟨0, 0⟩] ∧
    Run.Throughout ArpSys.Step ArpSys.init tr (fun _ s => CacheUnique s.caches) := by
  -- the cache is still empty when the insertion is made
  obtain ⟨tr, s, hrun, hmap, -⟩ := exec_check
    (checked (fun (s : ArpSys) _ => decide (∀ i, (s.caches i).state = .stateFree)) ArpSys.step)
    ArpSys.init [.arpInput hostDevice peerRequest ⟨0, 0⟩, .arpInsert ⟨0, 0⟩] (fun _ => true)
    (by decide +kernel)
  have hguard : Run (Guarded ArpSys.Step InsertFresh) ArpSys.init tr s := by
    refine hrun.of_checked ?_
    rintro s ⟨a, r⟩ hc
    have hfree := of_decide_eq_true hc
    cases a with
    | arpInsert now => exact fun _ _ i hi => absurd (hfree i) hi.1
    | arpInput | arpResolve | arpTimer => trivial
  exact ⟨tr, s, hguard.of_guarded, hmap,
    (unique_iff_insertFresh hguard.of_guarded).mpr hguard⟩

end LLNStack
