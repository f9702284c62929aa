import LLNStack.Lib.Run
import LLNStack.Arp.Cache

/-!
# LLNStack.Arp.System

ARP on one host under concurrency. One action is one critical section of `arp.c`. `arp_input` runs
on the interrupt thread and has two: between them the thread holds a message whose sender had no
entry (`pending`), and `arp_resolve` calls of other threads and timer passes may come in. The
messages arrive on any device, and `arp_resolve` is called for any interface.

`ArpTrans` lists what one action can do; `arp_trans` is the only place where the operations are
unfolded.
-/

namespace LLNStack

open Lib

/-- `arp_input` between its two critical sections. -/
structure ArpPending where
  dev : NetworkDevice
  iface : IpInterface
  msg : ArpEther

structure ArpSys where
  caches : Caches
  pending : Option ArpPending

def ArpSys.init : ArpSys := ⟨cachesInit, none⟩

inductive ArpAction where
  /-- `arp_input`, up to the end of its first critical section or, if there is no second one, to
  its end. -/
  | arpInput (dev : NetworkDevice) (data : Bytes) (now : Timeval)
  /-- The rest of `arp_input`. -/
  | arpInsert (now : Timeval)
  | arpResolve (iface : IpInterface) (dev : NetworkDevice) (pa : IPAddress) (now : Timeval)
  | arpTimer (now : Timeval)

inductive ArpResult where
  | done (out : Option Transmission)
  | resolved (r : ArpResolve) (out : Option Transmission)
  deriving DecidableEq

def ArpResult.out : ArpResult → Option Transmission
  | .done out => out
  | .resolved _ out => out

namespace ArpSys

def step (s : ArpSys) : ArpAction → Option (ArpSys × ArpResult)
  | .arpInput dev data now =>
    match s.pending with
    | some _ => none
    | none =>
      match arpCheck data with
      | none => some (s, .done none)
      | some msg =>
        let (caches, merge) := arpInputUpdate s.caches now msg
        match arpInputTarget dev msg with
        | none => some (⟨caches, none⟩, .done none)
        | some iface =>
          if merge then some (⟨caches, none⟩, .done (arpInputReply iface dev msg))
          else some (⟨caches, some ⟨dev, iface, msg⟩⟩, .done none)
  | .arpInsert now =>
    match s.pending with
    | none => none
    | some p =>
      some (⟨arpInputInsert s.caches now p.msg, none⟩, .done (arpInputReply p.iface p.dev p.msg))
  | .arpResolve iface dev pa now =>
    let r := LLNStack.arpResolve s.caches now iface dev pa
    some (⟨r.1, s.pending⟩, .resolved r.2.1 r.2.2)
  | .arpTimer now => some (⟨LLNStack.arpTimer s.caches now, s.pending⟩, .done none)

abbrev Step : ArpSys → ArpAction × ArpResult → ArpSys → Prop := stepRel step

end ArpSys

inductive ArpTrans (s : ArpSys) : ArpAction → ArpResult → ArpSys → Prop where
  | drop {dev : NetworkDevice} {data : Bytes} {now : Timeval} : arpCheck data = none →
      ArpTrans s (.arpInput dev data now) (.done none) s
  | merge {dev : NetworkDevice} {data : Bytes} {now : Timeval} {msg : ArpEther}
      {i : Fin arpCacheSize} {out : Option Transmission} : arpCheck data = some msg →
      arpCacheSelect s.caches msg.spa = some i →
      (out = none ∨ ∃ iface, arpInputTarget dev msg = some iface ∧
        out = arpInputReply iface dev msg) →
      ArpTrans s (.arpInput dev data now) (.done out)
        ⟨Function.update s.caches i
          { s.caches i with state := .stateResolved, ha := msg.sha, timestamp := now }, none⟩
  | ignore {dev : NetworkDevice} {data : Bytes} {now : Timeval} {msg : ArpEther} :
      arpCheck data = some msg → arpCacheSelect s.caches msg.spa = none →
      ArpTrans s (.arpInput dev data now) (.done none) s
  | pend {dev : NetworkDevice} {data : Bytes} {now : Timeval} {msg : ArpEther}
      {iface : IpInterface} : arpCheck data = some msg →
      arpCacheSelect s.caches msg.spa = none → arpInputTarget dev msg = some iface →
      ArpTrans s (.arpInput dev data now) (.done none) ⟨s.caches, some ⟨dev, iface, msg⟩⟩
  | insert {p : ArpPending} {i : Fin arpCacheSize} {now : Timeval} : s.pending = some p →
      arpCacheAlloc s.caches = some i →
      ArpTrans s (.arpInsert now) (.done (arpInputReply p.iface p.dev p.msg))
        ⟨Function.update s.caches i ⟨.stateResolved, p.msg.spa, p.msg.sha, now⟩, none⟩
  | resolve {iface : IpInterface} {dev : NetworkDevice} {pa : IPAddress} {now : Timeval}
      {caches : Caches} {r : ArpResolve} {out : Option Transmission} :
      ResolveTrans s.caches now iface dev pa caches r out →
      ArpTrans s (.arpResolve iface dev pa now) (.resolved r out) ⟨caches, s.pending⟩
  | timer {now : Timeval} :
      ArpTrans s (.arpTimer now) (.done none) ⟨arpTimer s.caches now, s.pending⟩

theorem arp_trans {s s' : ArpSys} {a : ArpAction} {r : ArpResult}
    (h : s.step a = some (s', r)) : ArpTrans s a r s' := by
  cases a with
  | arpInput dev data now =>
    simp only [ArpSys.step] at h
    split at h
    · cases h
    · rename_i hp
      have hs : s = ⟨s.caches, none⟩ := by rw [← hp]
      split at h
      · rename_i hc
        cases h
        exact .drop hc
      · rename_i msg hc
        rcases arpInputUpdate_trans s.caches now msg with ⟨i, hsel, hu⟩ | ⟨hsel, hu⟩
        · rw [hu] at h
          split at h
          · cases h
            exact .merge hc hsel (.inl rfl)
          · rename_i iface ht
            cases h
            exact .merge hc hsel (.inr ⟨iface, ht, rfl⟩)
        · rw [hu] at h
          split at h
          · cases h
            rw [← hs]
            exact .ignore hc hsel
          · rename_i iface ht
            cases h
            exact .pend hc hsel ht
  | arpInsert now =>
    simp only [ArpSys.step] at h
    split at h
    · cases h
    · rename_i p hp
      cases h
      obtain ⟨i, hi, he⟩ := arpInputInsert_trans s.caches now p.msg
      rw [he]
      exact .insert hp hi
  | arpResolve iface dev pa now =>
    cases h
    exact .resolve (arpResolve_trans s.caches now iface dev pa)
  | arpTimer now =>
    cases h
    exact .timer

end LLNStack
