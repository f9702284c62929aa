import LLNStack.Lib.Table
import LLNStack.Arp.Message

/-!
# LLNStack.Arp.Cache

The ARP cache of `arp.c` and the parts of the ARP operations that run with the mutex held. `now` is
what `gettimeofday` returns. `arp_input` has two such parts, `arpInputUpdate` and
`arpInputInsert`; `arpInput` is the whole of it.

* `arpCacheAlloc_some`: a slot is always found, a free one if there is one and else an oldest one.
* `arpInput_trans`, `arpResolve_trans`: what the two operations can do to the cache.
* `arpResolve_cached`, `arpResolve_unresolved`: what `arp_resolve` returns, by what is cached.
-/

namespace LLNStack

open Lib

/-! ## Clock readings -/

structure Timeval where
  tvSec : Int
  tvUsec : Int
  deriving DecidableEq, Repr

def timercmpGt (a b : Timeval) : Bool :=
  if a.tvSec = b.tvSec then decide (a.tvUsec > b.tvUsec) else decide (a.tvSec > b.tvSec)

def timersub (a b : Timeval) : Timeval :=
  if a.tvUsec - b.tvUsec < 0 then ⟨a.tvSec - b.tvSec - 1, a.tvUsec - b.tvUsec + 1000000⟩
  else ⟨a.tvSec - b.tvSec, a.tvUsec - b.tvUsec⟩

/-- The order of `timercmp`: by the seconds, and then by the microseconds. -/
def Timeval.key (t : Timeval) : ℤ ×ₗ ℤ := toLex (t.tvSec, t.tvUsec)

theorem timercmpGt_iff (a b : Timeval) : timercmpGt a b = true ↔ b.key < a.key := by
  simp only [timercmpGt, Timeval.key, Prod.Lex.toLex_lt_toLex]
  split
  · rename_i h
    simp [h]
  · rename_i h
    simp [Ne.symm h]

/-! ## The table -/

inductive ArpCacheState where
  | stateFree
  | stateIncomplete
  | stateResolved
  | stateStatic
  deriving DecidableEq, Repr

structure ArpCache where
  state : ArpCacheState
  pa : IPAddress
  ha : EtherAddr
  timestamp : Timeval
  deriving DecidableEq

abbrev arpCacheSize : Nat := 32
def arpCacheTimeout : Int := 30

abbrev Caches := Fin arpCacheSize → ArpCache

/-- A slot after `arp_cache_delete`, and before its first use. -/
def ArpCache.empty : ArpCache := ⟨.stateFree, 0, etherAddrAny, ⟨0, 0⟩⟩

def cachesInit : Caches := fun _ => .empty

/-- The loop of `arp_cache_alloc` over the slots still to come; `oldest` is the best so far. -/
def arpCacheAllocLoop (caches : Caches) :
    Option (Fin arpCacheSize) → List (Fin arpCacheSize) → Option (Fin arpCacheSize)
  | oldest, [] => oldest
  | oldest, entry :: rest =>
    if (caches entry).state = .stateFree then some entry
    else
      match oldest with
      | none => arpCacheAllocLoop caches (some entry) rest
      | some o =>
        if timercmpGt (caches o).timestamp (caches entry).timestamp then
          arpCacheAllocLoop caches (some entry) rest
        else arpCacheAllocLoop caches (some o) rest

def arpCacheAlloc (caches : Caches) : Option (Fin arpCacheSize) :=
  arpCacheAllocLoop caches none (List.finRange arpCacheSize)

def ArpCache.Holds (entry : ArpCache) (pa : IPAddress) : Prop :=
  entry.state ≠ .stateFree ∧ entry.pa = pa

instance (entry : ArpCache) (pa : IPAddress) : Decidable (entry.Holds pa) :=
  inferInstanceAs (Decidable (_ ∧ _))

def arpCacheSelect (caches : Caches) (pa : IPAddress) : Option (Fin arpCacheSize) :=
  firstSlot caches (·.Holds pa)

/-- `none` if there is no entry for `pa`. -/
def arpCacheUpdate (caches : Caches) (now : Timeval) (pa : IPAddress) (ha : EtherAddr) :
    Option Caches :=
  match arpCacheSelect caches pa with
  | none => none
  | some i =>
    some (Function.update caches i
      { caches i with state := .stateResolved, ha := ha, timestamp := now })

def arpCacheInsert (caches : Caches) (now : Timeval) (pa : IPAddress) (ha : EtherAddr) : Caches :=
  match arpCacheAlloc caches with
  | none => caches
  | some i => Function.update caches i ⟨.stateResolved, pa, ha, now⟩

def arpTimer (caches : Caches) (now : Timeval) : Caches := fun i =>
  if (caches i).state ≠ .stateFree ∧ (caches i).state ≠ .stateStatic then
    if (timersub now (caches i).timestamp).tvSec > arpCacheTimeout then .empty else caches i
  else caches i

/-! ## The operations -/

def arpRequest (iface : IpInterface) (dev : NetworkDevice) (tpa : IPAddress) :
    Option Transmission :=
  networkDeviceOutput dev etherTypeArp
    (arpEther arpOpRequest dev.address iface.unicast etherAddrAny tpa).toBytes
    dev.broadcast

def arpReply (iface : IpInterface) (dev : NetworkDevice) (tha : EtherAddr) (tpa : IPAddress)
    (dst : EtherAddr) : Option Transmission :=
  networkDeviceOutput dev etherTypeArp
    (arpEther arpOpReply dev.address iface.unicast tha tpa).toBytes dst

/-- The first critical section of `arp_input`; the flag is `merge`. -/
def arpInputUpdate (caches : Caches) (now : Timeval) (msg : ArpEther) : Caches × Bool :=
  match arpCacheUpdate caches now msg.spa msg.sha with
  | some caches' => (caches', true)
  | none => (caches, false)

def arpInputInsert (caches : Caches) (now : Timeval) (msg : ArpEther) : Caches :=
  arpCacheInsert caches now msg.spa msg.sha

/-- The IP interface of the device, if the message asks for its address. -/
def arpInputTarget (dev : NetworkDevice) (msg : ArpEther) : Option IpInterface :=
  match networkDeviceGetInterface dev networkInterfaceFamilyIp with
  | none => none
  | some iface => if iface.unicast = msg.tpa then some iface else none

/-- The end of `arp_input`: a request is answered. -/
def arpInputReply (iface : IpInterface) (dev : NetworkDevice) (msg : ArpEther) :
    Option Transmission :=
  if ntoh16 .little msg.op = arpOpRequest then arpReply iface dev msg.sha msg.spa msg.sha else none

def arpInput (caches : Caches) (now : Timeval) (dev : NetworkDevice) (data : Bytes) :
    Caches × Option Transmission :=
  match arpCheck data with
  | none => (caches, none)
  | some msg =>
    let (caches, merge) := arpInputUpdate caches now msg
    match arpInputTarget dev msg with
    | none => (caches, none)
    | some iface =>
      (if merge then caches else arpInputInsert caches now msg, arpInputReply iface dev msg)

inductive ArpResolve where
  | error
  | incomplete
  | found (ha : EtherAddr)
  deriving DecidableEq

def arpResolve (caches : Caches) (now : Timeval) (iface : IpInterface) (dev : NetworkDevice)
    (pa : IPAddress) : Caches × ArpResolve × Option Transmission :=
  if dev.type ≠ networkDeviceTypeEthernet then (caches, .error, none)
  else if iface.family ≠ networkInterfaceFamilyIp then (caches, .error, none)
  else
    match arpCacheSelect caches pa with
    | none =>
      match arpCacheAlloc caches with
      | none => (caches, .error, none)
      | some i =>
        -- the hardware address of the entry that was evicted stays in the slot
        (Function.update caches i
          { caches i with state := .stateIncomplete, pa := pa, timestamp := now },
          .incomplete, arpRequest iface dev pa)
    | some i =>
      if (caches i).state = .stateIncomplete then (caches, .incomplete, arpRequest iface dev pa)
      else (caches, .found (caches i).ha, none)

/-! ## What the lookups find -/

theorem arpCacheSelect_some {caches : Caches} {pa : IPAddress} {i : Fin arpCacheSize}
    (h : arpCacheSelect caches pa = some i) : (caches i).Holds pa := firstSlot_some h

theorem arpCacheSelect_none {caches : Caches} {pa : IPAddress} :
    arpCacheSelect caches pa = none ↔ ∀ i, ¬ (caches i).Holds pa := firstSlot_none

/-- Slot `i` is free; or none of `rest` is free, and none of them, nor `oldest`, is older than
`i`. -/
def FreeOrOldest (caches : Caches) (oldest : Option (Fin arpCacheSize))
    (rest : List (Fin arpCacheSize)) (i : Fin arpCacheSize) : Prop :=
  (caches i).state = .stateFree ∨ (∀ j ∈ rest, (caches j).state ≠ .stateFree) ∧
    ∀ j, oldest = some j ∨ j ∈ rest → (caches i).timestamp.key ≤ (caches j).timestamp.key

/-- One round of the loop: `entry` is not free, and `best` is at least as old as it and `oldest`. -/
theorem FreeOrOldest.cons {caches : Caches} {oldest : Option (Fin arpCacheSize)}
    {rest : List (Fin arpCacheSize)} {best entry i : Fin arpCacheSize}
    (h : FreeOrOldest caches (some best) rest i) (hused : (caches entry).state ≠ .stateFree)
    (hentry : (caches best).timestamp.key ≤ (caches entry).timestamp.key)
    (hold : ∀ o, oldest = some o → (caches best).timestamp.key ≤ (caches o).timestamp.key) :
    FreeOrOldest caches oldest (entry :: rest) i := by
  refine h.imp_right ?_
  rintro ⟨hn, hle⟩
  have hbest := hle best (.inl rfl)
  refine ⟨List.forall_mem_cons.mpr ⟨hused, hn⟩, fun j hj => ?_⟩
  rcases hj with hj | hj
  · exact hbest.trans (hold j hj)
  · rcases List.mem_cons.mp hj with rfl | hj
    · exact hbest.trans hentry
    · exact hle j (.inr hj)

theorem arpCacheAllocLoop_some (caches : Caches) (oldest : Option (Fin arpCacheSize))
    (rest : List (Fin arpCacheSize)) (h : oldest ≠ none ∨ rest ≠ []) :
    ∃ i, arpCacheAllocLoop caches oldest rest = some i ∧ FreeOrOldest caches oldest rest i := by
  fun_induction arpCacheAllocLoop caches oldest rest with
  | case1 oldest =>
    obtain ⟨o, rfl⟩ := Option.ne_none_iff_exists'.mp (h.resolve_right fun hn => hn rfl)
    refine ⟨o, rfl, .inr ⟨by simp, fun j hj => ?_⟩⟩
    rcases hj with hj | hj
    · cases hj; exact le_rfl
    · cases hj
  | case2 oldest entry rest hfree => exact ⟨entry, rfl, .inl hfree⟩
  | case3 entry rest hused ih =>
    obtain ⟨i, hi, hslot⟩ := ih (.inl (Option.some_ne_none _))
    exact ⟨i, hi, hslot.cons hused le_rfl nofun⟩
  | case4 entry rest hused o hgt ih =>
    obtain ⟨i, hi, hslot⟩ := ih (.inl (Option.some_ne_none _))
    refine ⟨i, hi, hslot.cons hused le_rfl fun o' ho => ?_⟩
    cases ho
    exact ((timercmpGt_iff _ _).mp hgt).le
  | case5 entry rest hused o hgt ih =>
    obtain ⟨i, hi, hslot⟩ := ih (.inl (Option.some_ne_none _))
    rw [timercmpGt_iff, not_lt] at hgt
    refine ⟨i, hi, hslot.cons hused hgt fun o' ho => ?_⟩
    cases ho
    exact le_rfl

theorem arpCacheAlloc_some (caches : Caches) :
    ∃ i, arpCacheAlloc caches = some i ∧
      ((caches i).state = .stateFree ∨ (∀ j, (caches j).state ≠ .stateFree) ∧
        ∀ j, (caches i).timestamp.key ≤ (caches j).timestamp.key) := by
  obtain ⟨i, hi, hslot⟩ := arpCacheAllocLoop_some caches none (List.finRange arpCacheSize)
    (.inr (by decide))
  refine ⟨i, hi, hslot.imp_right ?_⟩
  rintro ⟨hn, hle⟩
  exact ⟨fun j => hn j (List.mem_finRange j), fun j => hle j (.inr (List.mem_finRange j))⟩

theorem arpTimer_eq (caches : Caches) (now : Timeval) (i : Fin arpCacheSize) :
    arpTimer caches now i = caches i ∨ arpTimer caches now i = .empty := by
  simp only [arpTimer]
  split
  · split
    · exact .inr rfl
    · exact .inl rfl
  · exact .inl rfl

/-! ## What the operations can do to the cache -/

/-- A message of this sender is taken into account: its entry is refreshed if there is one;
otherwise the cache stays as it is or gets a new entry. -/
inductive ArpLearn (caches : Caches) (now : Timeval) (msg : ArpEther) : Caches → Prop where
  | refresh {i : Fin arpCacheSize} : arpCacheSelect caches msg.spa = some i →
      ArpLearn caches now msg (Function.update caches i
        { caches i with state := .stateResolved, ha := msg.sha, timestamp := now })
  | ignore : arpCacheSelect caches msg.spa = none → ArpLearn caches now msg caches
  | insert {i : Fin arpCacheSize} : arpCacheSelect caches msg.spa = none →
      arpCacheAlloc caches = some i →
      ArpLearn caches now msg (Function.update caches i ⟨.stateResolved, msg.spa, msg.sha, now⟩)

theorem arpInputUpdate_trans (caches : Caches) (now : Timeval) (msg : ArpEther) :
    (∃ i, arpCacheSelect caches msg.spa = some i ∧ arpInputUpdate caches now msg =
      (Function.update caches i
        { caches i with state := .stateResolved, ha := msg.sha, timestamp := now }, true)) ∨
    arpCacheSelect caches msg.spa = none ∧ arpInputUpdate caches now msg = (caches, false) := by
  simp only [arpInputUpdate, arpCacheUpdate]
  cases hs : arpCacheSelect caches msg.spa with
  | none => exact .inr ⟨rfl, rfl⟩
  | some i => exact .inl ⟨i, rfl, rfl⟩

theorem arpInputInsert_trans (caches : Caches) (now : Timeval) (msg : ArpEther) :
    ∃ i, arpCacheAlloc caches = some i ∧ arpInputInsert caches now msg =
      Function.update caches i ⟨.stateResolved, msg.spa, msg.sha, now⟩ := by
  obtain ⟨i, hi, -⟩ := arpCacheAlloc_some caches
  exact ⟨i, hi, by simp only [arpInputInsert, arpCacheInsert, hi]⟩

theorem arpInput_trans (caches : Caches) (now : Timeval) (dev : NetworkDevice) (data : Bytes) :
    match arpCheck data with
    | none => (arpInput caches now dev data).1 = caches
    | some msg => ArpLearn caches now msg (arpInput caches now dev data).1 := by
  cases hc : arpCheck data with
  | none => simp only [arpInput, hc]
  | some msg =>
    simp only [arpInput, hc]
    rcases arpInputUpdate_trans caches now msg with ⟨i, hs, hu⟩ | ⟨hs, hu⟩
    · rw [hu]
      cases arpInputTarget dev msg <;> exact .refresh hs
    · rw [hu]
      cases arpInputTarget dev msg with
      | none => exact .ignore hs
      | some iface =>
        obtain ⟨i, hi, he⟩ := arpInputInsert_trans caches now msg
        simp only [Bool.false_eq_true, if_false, he]
        exact .insert hs hi

inductive ResolveTrans (caches : Caches) (now : Timeval) (iface : IpInterface)
    (dev : NetworkDevice) (pa : IPAddress) : Caches → ArpResolve → Option Transmission → Prop where
  | error : ResolveTrans caches now iface dev pa caches .error none
  | new {i : Fin arpCacheSize} : arpCacheSelect caches pa = none → arpCacheAlloc caches = some i →
      ResolveTrans caches now iface dev pa (Function.update caches i
        { caches i with state := .stateIncomplete, pa := pa, timestamp := now })
        .incomplete (arpRequest iface dev pa)
  | again {i : Fin arpCacheSize} : arpCacheSelect caches pa = some i →
      (caches i).state = .stateIncomplete →
      ResolveTrans caches now iface dev pa caches .incomplete (arpRequest iface dev pa)
  | found {i : Fin arpCacheSize} : arpCacheSelect caches pa = some i →
      (caches i).state ≠ .stateIncomplete →
      ResolveTrans caches now iface dev pa caches (.found (caches i).ha) none

theorem arpResolve_trans (caches : Caches) (now : Timeval) (iface : IpInterface)
    (dev : NetworkDevice) (pa : IPAddress) :
    ResolveTrans caches now iface dev pa (arpResolve caches now iface dev pa).1
      (arpResolve caches now iface dev pa).2.1 (arpResolve caches now iface dev pa).2.2 := by
  simp only [arpResolve]
  split
  · exact .error
  · split
    · exact .error
    · cases hs : arpCacheSelect caches pa with
      | none =>
        obtain ⟨i, hi, -⟩ := arpCacheAlloc_some caches
        simp only [hi]
        exact .new hs hi
      | some i =>
        simp only
        split
        · exact .again hs ‹_›
        · exact .found hs ‹_›

theorem arpResolve_caches (caches : Caches) (now : Timeval) (iface : IpInterface)
    (dev : NetworkDevice) (pa : IPAddress) :
    (arpResolve caches now iface dev pa).1 = caches ∨
      arpCacheSelect caches pa = none ∧ ∃ i, (arpResolve caches now iface dev pa).1 =
        Function.update caches i
          { caches i with state := .stateIncomplete, pa := pa, timestamp := now } := by
  have ht := arpResolve_trans caches now iface dev pa
  generalize (arpResolve caches now iface dev pa).1 = caches' at ht ⊢
  generalize (arpResolve caches now iface dev pa).2.1 = r at ht
  generalize (arpResolve caches now iface dev pa).2.2 = out at ht
  cases ht with
  | error | again _ _ | found _ _ => exact .inl rfl
  | @new i hn _ => exact .inr ⟨hn, i, rfl⟩

theorem arpResolve_found {caches : Caches} {now : Timeval} {iface : IpInterface}
    {dev : NetworkDevice} {pa : IPAddress} {ha : EtherAddr}
    (h : (arpResolve caches now iface dev pa).2.1 = .found ha) :
    ∃ i, (caches i).Holds pa ∧ (caches i).state ≠ .stateIncomplete ∧ (caches i).ha = ha := by
  have ht := arpResolve_trans caches now iface dev pa
  rw [h] at ht
  generalize (arpResolve caches now iface dev pa).1 = caches' at ht
  generalize (arpResolve caches now iface dev pa).2.2 = out at ht
  cases ht with
  | @found i hi hne => exact ⟨i, arpCacheSelect_some hi, hne, rfl⟩

/-! ## Calls of `arp_resolve` by what is cached -/

section Resolve

variable {caches : Caches} {pa : IPAddress} {iface : IpInterface} {dev : NetworkDevice}

theorem arpResolve_unsupported (h : dev.type ≠ networkDeviceTypeEthernet ∨
    iface.family ≠ networkInterfaceFamilyIp) (now : Timeval) :
    arpResolve caches now iface dev pa = (caches, .error, none) := by
  unfold arpResolve
  by_cases htype : dev.type = networkDeviceTypeEthernet
  · rw [if_neg (not_not.mpr htype), if_pos (h.resolve_left (not_not.mpr htype))]
  · rw [if_pos htype]

variable (htype : dev.type = networkDeviceTypeEthernet)
  (hfam : iface.family = networkInterfaceFamilyIp)
include htype hfam

theorem arpResolve_cached {i : Fin arpCacheSize} (hi : arpCacheSelect caches pa = some i)
    (hst : (caches i).state ≠ .stateIncomplete) (now : Timeval) :
    arpResolve caches now iface dev pa = (caches, .found (caches i).ha, none) := by
  simp only [arpResolve, htype, hfam, ne_eq, not_true_eq_false, if_false, hi, hst]

theorem arpResolve_new {i : Fin arpCacheSize} (hn : arpCacheSelect caches pa = none)
    (hi : arpCacheAlloc caches = some i) (now : Timeval) :
    arpResolve caches now iface dev pa = (Function.update caches i
      { caches i with state := .stateIncomplete, pa := pa, timestamp := now },
      .incomplete, arpRequest iface dev pa) := by
  simp only [arpResolve, htype, hfam, ne_eq, not_true_eq_false, if_false, hn, hi]

theorem arpResolve_unresolved
    (hn : ∀ i, arpCacheSelect caches pa = some i → (caches i).state = .stateIncomplete)
    (now : Timeval) :
    ∃ caches', arpResolve caches now iface dev pa =
      (caches', .incomplete, arpRequest iface dev pa) := by
  cases hs : arpCacheSelect caches pa with
  | none =>
    obtain ⟨i, hi, -⟩ := arpCacheAlloc_some caches
    exact ⟨_, arpResolve_new htype hfam hs hi now⟩
  | some i =>
    refine ⟨caches, ?_⟩
    simp only [arpResolve, htype, hfam, ne_eq, not_true_eq_false, if_false, hs, hn i hs, if_true]

end Resolve

end LLNStack
