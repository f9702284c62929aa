import LLNStack.Net.Dispatch

/-!
# LLNStack.Net.Drain

When `network_protocol_handler` ends although its handlers refill the queues, and although a handler
may fault, in which case the call never returns (`networkProtocolLoopMem`).

The setting is that of requests and replies (`Answers`): an entry causes at most one input, and that
one is `Quiet`, handled without a fault and without further input. Every entry has a weight, 1 if it
is quiet and 2 otherwise, and handling it causes input of less weight; so the weight of what is
queued bounds the number of handler calls. What was queued at the start is handled first, in its
order (`FromStart`), so that the loop returns exactly if none of that faults
(`networkProtocolLoopMem_iff`).
-/

namespace LLNStack

open Lib

variable {η σ : Type}

def protocolTable (protocols : List (NetworkProtocol η)) : List (BitVec 16 × η) :=
  protocols.map fun proto => (proto.type, proto.handler)

def queued (protocols : List (NetworkProtocol η)) : Nat :=
  (protocols.map (·.queue.length)).sum

def queuedWeight (weight : NetworkInput → Nat) (protocols : List (NetworkProtocol η)) : Nat :=
  (protocols.map fun proto =>
    (proto.queue.map fun entry => weight ⟨proto.type, entry.1, entry.2⟩).sum).sum

section Weight

variable (weight : NetworkInput → Nat) {protocols : List (NetworkProtocol η)}

theorem queuedWeight_networkInputHandler (input : NetworkInput)
    (protocols : List (NetworkProtocol η)) :
    queuedWeight weight (networkInputHandler true input protocols).1 ≤
      queuedWeight weight protocols + weight input := by
  induction protocols with
  | nil => exact Nat.zero_le _
  | cons proto rest ih =>
    simp only [queuedWeight, networkInputHandler, if_true] at ih ⊢
    split
    · rename_i htype
      obtain ⟨type, data, dev⟩ := input
      simp only at htype
      subst htype
      simp only [List.map_cons, List.map_append, List.map_nil, List.sum_cons, List.sum_append,
        List.sum_nil]
      omega
    · simp only [List.map_cons, List.sum_cons]
      omega

theorem queuedWeight_networkInputs (inputs : List NetworkInput)
    (protocols : List (NetworkProtocol η)) :
    queuedWeight weight (networkInputs protocols inputs) ≤
      queuedWeight weight protocols + (inputs.map weight).sum := by
  induction inputs generalizing protocols with
  | nil => exact Nat.le_refl _
  | cons input inputs ih =>
    have hone := queuedWeight_networkInputHandler weight input protocols
    have hrest := ih (networkInputHandler true input protocols).1
    rw [List.map_cons, List.sum_cons]
    exact Nat.le_trans hrest (by omega)

theorem queuedWeight_pop {proto : NetworkProtocol η} {k : Nat} {entry : Bytes × Nat}
    {rest : List (Bytes × Nat)} (hk : protocols[k]? = some proto)
    (hq : proto.queue = entry :: rest) :
    queuedWeight weight (protocols.set k { proto with queue := rest }) +
      weight ⟨proto.type, entry.1, entry.2⟩ = queuedWeight weight protocols := by
  induction protocols generalizing k with
  | nil => cases hk
  | cons p ps ih =>
    cases k with
    | zero =>
      cases hk
      simp only [queuedWeight, List.set_cons_zero, List.map_cons, List.sum_cons, hq]
      omega
    | succ k =>
      have ih := ih hk
      simp only [queuedWeight, List.set_cons_succ, List.map_cons, List.sum_cons] at ih ⊢
      omega

theorem queuedWeight_le {weight : NetworkInput → Nat} {n : Nat} (h : ∀ input, weight input ≤ n)
    (protocols : List (NetworkProtocol η)) :
    queuedWeight weight protocols ≤ n * queued protocols := by
  induction protocols with
  | nil => exact Nat.zero_le _
  | cons proto rest ih =>
    have hproto := List.sum_le_card_nsmul
      (proto.queue.map fun entry => weight ⟨proto.type, entry.1, entry.2⟩) n
      (fun w hw => by
        obtain ⟨entry, -, rfl⟩ := List.mem_map.mp hw
        exact h _)
    rw [List.length_map, smul_eq_mul, Nat.mul_comm] at hproto
    simp only [queuedWeight, queued, List.map_cons, List.sum_cons, Nat.mul_add] at ih ⊢
    omega

theorem protocolTable_networkInputs (inputs : List NetworkInput)
    (protocols : List (NetworkProtocol η)) :
    protocolTable (networkInputs protocols inputs) = protocolTable protocols := by
  induction inputs generalizing protocols with
  | nil => rfl
  | cons input inputs ih =>
    exact (ih _).trans (map_networkInputHandler (fun _ _ => rfl) input protocols)

theorem protocolTable_pop {proto : NetworkProtocol η} {k : Nat}
    (hk : protocols[k]? = some proto) (queue : List (Bytes × Nat)) :
    protocolTable (protocols.set k { proto with queue := queue }) = protocolTable protocols :=
  map_key_set hk rfl

theorem length_of_protocolTable {protocols' : List (NetworkProtocol η)}
    (h : protocolTable protocols' = protocolTable protocols) :
    protocols'.length = protocols.length := by
  simpa [protocolTable] using congrArg List.length h

end Weight

/-! ## What is queued -/

def AllQueued {η : Type} (P : NetworkInput → Prop) (protocols : List (NetworkProtocol η)) : Prop :=
  ∀ proto ∈ protocols, ∀ entry ∈ proto.queue, P ⟨proto.type, entry.1, entry.2⟩

namespace AllQueued

variable {η : Type} {P : NetworkInput → Prop} {protocols : List (NetworkProtocol η)}

theorem of_idle (h : Idle protocols) : AllQueued P protocols := by
  intro proto hproto entry hentry
  rw [h proto hproto] at hentry
  cases hentry

theorem mono {Q : NetworkInput → Prop} (h : AllQueued P protocols)
    (hPQ : ∀ input, P input → Q input) : AllQueued Q protocols :=
  fun proto hproto entry hentry => hPQ _ (h proto hproto entry hentry)

theorem input (h : AllQueued P protocols) {input : NetworkInput} (hin : P input) :
    AllQueued P (networkInputHandler true input protocols).1 := by
  induction protocols with
  | nil => exact h
  | cons proto rest ih =>
    obtain ⟨hproto, hrest⟩ := List.forall_mem_cons.mp h
    rw [networkInputHandler]
    split
    · rename_i htype
      refine List.forall_mem_cons.mpr ⟨forall_mem_snoc hproto ?_, hrest⟩
      simp only [htype]
      exact hin
    · exact List.forall_mem_cons.mpr ⟨hproto, ih hrest⟩

theorem inputs (h : AllQueued P protocols) {inputs : List NetworkInput}
    (hin : ∀ input ∈ inputs, P input) : AllQueued P (networkInputs protocols inputs) := by
  induction inputs generalizing protocols with
  | nil => exact h
  | cons input inputs ih =>
    obtain ⟨hfirst, hrest⟩ := List.forall_mem_cons.mp hin
    exact ih (h.input hfirst) hrest

theorem pop (h : AllQueued P protocols) {k : Nat} {proto : NetworkProtocol η}
    {entry : Bytes × Nat} {rest : List (Bytes × Nat)} (hk : protocols[k]? = some proto)
    (hq : proto.queue = entry :: rest) : P ⟨proto.type, entry.1, entry.2⟩ ∧
      AllQueued P (protocols.set k { proto with queue := rest }) := by
  have hproto := h proto (List.mem_of_getElem? hk)
  rw [hq] at hproto
  obtain ⟨hentry, hrest⟩ := List.forall_mem_cons.mp hproto
  refine ⟨hentry, fun p hp => ?_⟩
  rcases List.mem_or_eq_of_mem_set hp with hp | rfl
  · exact h p hp
  · exact hrest

end AllQueued

/-! ## A loop over handlers that can fault -/

/-- How far a call of `network_protocol_handler` gets: it returns, with a log of the calls it made
of handlers, a handler faults, or it is still running when the fuel is used up. -/
inductive DrainEnd (η σ : Type) where
  | returned (protocols : List (NetworkProtocol η)) (s : σ) (log : List (BitVec 16 × (Bytes × Nat)))
  | fault
  | running

def DrainEnd.left : DrainEnd η σ → Option (List (NetworkProtocol η) × σ)
  | .returned protocols s _ => some (protocols, s)
  | _ => none

def callsOf (t : BitVec 16) (log : List (BitVec 16 × (Bytes × Nat))) : Nat :=
  log.countP (·.1 = t)

theorem callsOf_snoc (t : BitVec 16) (log : List (BitVec 16 × (Bytes × Nat)))
    (call : BitVec 16 × (Bytes × Nat)) :
    callsOf t (log ++ [call]) = callsOf t log + if call.1 = t then 1 else 0 := by
  simp [callsOf, List.countP_append, List.countP_singleton]

/-- `network_protocol_handler` at the protocol in position `k`. A handler is `none` if it faults,
and it depends on the number of entries it was given before. -/
def networkProtocolLoopMem (handle : η → Nat → Bytes × Nat → σ → Option (σ × List NetworkInput)) :
    Nat → Nat → List (NetworkProtocol η) → σ → List (BitVec 16 × (Bytes × Nat)) → DrainEnd η σ
  | 0, _, _, _, _ => .running
  | fuel + 1, k, protocols, s, log =>
    match protocols[k]? with
    | none => .returned protocols s log
    | some proto =>
      match proto.queue with
      | [] => networkProtocolLoopMem handle fuel (k + 1) protocols s log
      | entry :: rest =>
        match handle proto.handler (callsOf proto.type log) entry s with
        | none => .fault
        | some r =>
          networkProtocolLoopMem handle fuel k
            (networkInputs (protocols.set k { proto with queue := rest }) r.2) r.1
            (log ++ [(proto.type, entry)])

theorem networkProtocolLoopMem_fault
    {handle : η → Nat → Bytes × Nat → σ → Option (σ × List NetworkInput)} {k : Nat}
    {protocols : List (NetworkProtocol η)} {proto : NetworkProtocol η} {entry : Bytes × Nat}
    {rest : List (Bytes × Nat)} {s : σ} {log : List (BitVec 16 × (Bytes × Nat))}
    (hk : protocols[k]? = some proto) (hq : proto.queue = entry :: rest)
    (hfault : handle proto.handler (callsOf proto.type log) entry s = none) (fuel : Nat) :
    networkProtocolLoopMem handle (fuel + 1) k protocols s log = .fault := by
  simp only [networkProtocolLoopMem, hk, hq, hfault]

/-- Whatever handles the input, and whenever it does, the handler returns and causes no input. -/
def Quiet (handle : η → Nat → Bytes × Nat → σ → Option (σ × List NetworkInput))
    (table : List (BitVec 16 × η)) (inv : σ → Prop) (input : NetworkInput) : Prop :=
  ∀ handler, (input.type, handler) ∈ table → ∀ n s, inv s →
    ∃ s', handle handler n (input.data, input.dev) s = some (s', [])

/-- Handlers that keep `inv`, fault exactly on `bad` entries, and cause at most one input, which is
quiet. -/
structure Answers (handle : η → Nat → Bytes × Nat → σ → Option (σ × List NetworkInput))
    (table : List (BitVec 16 × η)) (inv : σ → Prop) (bad : η → Nat → Bytes × Nat → Prop) :
    Prop where
  faults : ∀ handler n entry s, inv s → (handle handler n entry s = none ↔ bad handler n entry)
  returns : ∀ handler n entry s r, inv s → handle handler n entry s = some r →
    inv r.1 ∧ (r.2 = [] ∨ ∃ input, r.2 = [input] ∧ Quiet handle table inv input)

theorem Answers.quiet {handle : η → Nat → Bytes × Nat → σ → Option (σ × List NetworkInput)}
    {table : List (BitVec 16 × η)} {inv : σ → Prop} {bad : η → Nat → Bytes × Nat → Prop}
    (ha : Answers handle table inv bad) {handler : η} {n : Nat} {entry : Bytes × Nat} {s : σ}
    {r : σ × List NetworkInput} (hs : inv s) (hr : handle handler n entry s = some r) :
    ∀ input ∈ r.2, Quiet handle table inv input := by
  intro input hin
  rcases (ha.returns handler n entry s r hs hr).2 with hnone | ⟨input', hone, hq⟩
  · rw [hnone] at hin
    cases hin
  · rw [hone, List.mem_singleton] at hin
    exact hin ▸ hq

/-! ## What was queued at the start comes first -/

/-- The queue of a type holds what is left of the entries it had at the start, and behind them only
inputs that meet `P`. -/
def FromStart (start : BitVec 16 → List (Bytes × Nat)) (P : NetworkInput → Prop)
    (protocols : List (NetworkProtocol η)) (log : List (BitVec 16 × (Bytes × Nat))) : Prop :=
  ∀ t handler queue, slotOf protocols t = some (handler, queue) →
    ∃ late, queue = (start t).drop (callsOf t log) ++ late ∧
      ∀ entry ∈ late, P ⟨t, entry.1, entry.2⟩

namespace FromStart

variable {start : BitVec 16 → List (Bytes × Nat)} {P : NetworkInput → Prop}
  {protocols : List (NetworkProtocol η)} {log : List (BitVec 16 × (Bytes × Nat))}

theorem inputs (h : FromStart start P protocols log) {inputs : List NetworkInput}
    (hP : ∀ input ∈ inputs, P input) : FromStart start P (networkInputs protocols inputs) log := by
  induction inputs generalizing protocols with
  | nil => exact h
  | cons input inputs ih =>
    change FromStart start P (networkInputs (networkInputHandler true input protocols).1 inputs) log
    refine ih ?_ fun i hi => hP i (List.mem_cons_of_mem _ hi)
    intro t handler queue hslot
    rw [slotOf_networkInputHandler] at hslot
    split at hslot
    · rename_i ht
      obtain ⟨⟨handler', queue'⟩, hslot', he⟩ := Option.map_eq_some_iff.mp hslot
      cases he
      obtain ⟨late, hqueue, hlate⟩ := h t handler' queue' hslot'
      refine ⟨late ++ [(input.data, input.dev)], by rw [hqueue, List.append_assoc], ?_⟩
      refine forall_mem_snoc hlate ?_
      subst ht
      exact hP input List.mem_cons_self
    · exact h t handler queue hslot

theorem head (h : FromStart start P protocols log) (hd : (protocols.map (·.type)).Nodup)
    {proto : NetworkProtocol η} {entry : Bytes × Nat} {rest : List (Bytes × Nat)}
    (hmem : proto ∈ protocols) (hq : proto.queue = entry :: rest) :
    (start proto.type)[callsOf proto.type log]? = some entry ∨
      (start proto.type)[callsOf proto.type log]? = none ∧ P ⟨proto.type, entry.1, entry.2⟩ := by
  obtain ⟨late, hqueue, hlate⟩ := h _ _ _ (slotOf_registered hd hmem)
  rw [hq] at hqueue
  cases hdrop : (start proto.type).drop (callsOf proto.type log) with
  | nil =>
    rw [hdrop, List.nil_append] at hqueue
    exact .inr ⟨List.getElem?_eq_none (List.drop_eq_nil_iff.mp hdrop),
      hlate entry (hqueue ▸ List.mem_cons_self)⟩
  | cons e tl =>
    rw [hdrop, List.cons_append, List.cons.injEq] at hqueue
    have hget := congrArg (·[0]?) hdrop
    simp only [List.getElem?_drop, Nat.add_zero, List.getElem?_cons_zero] at hget
    exact .inl (hget.trans (congrArg some hqueue.1.symm))

/-- Nothing of the start is left in an empty queue. -/
theorem drained (h : FromStart start P protocols log) (hd : (protocols.map (·.type)).Nodup)
    {proto : NetworkProtocol η} (hmem : proto ∈ protocols) (hq : proto.queue = []) {n : Nat}
    (hn : callsOf proto.type log ≤ n) : (start proto.type)[n]? = none := by
  obtain ⟨late, hqueue, -⟩ := h _ _ _ (slotOf_registered hd hmem)
  rw [hq] at hqueue
  have hlen := List.drop_eq_nil_iff.mp (List.append_eq_nil_iff.mp hqueue.symm).1
  exact List.getElem?_eq_none (hlen.trans hn)

theorem pop (h : FromStart start P protocols log) (hd : (protocols.map (·.type)).Nodup) {k : Nat}
    {proto : NetworkProtocol η} {entry : Bytes × Nat} {rest : List (Bytes × Nat)}
    (hk : protocols[k]? = some proto) (hq : proto.queue = entry :: rest) :
    FromStart start P (protocols.set k { proto with queue := rest })
      (log ++ [(proto.type, entry)]) := by
  intro t handler queue hslot
  rw [slotOf_set hd hk] at hslot
  rw [callsOf_snoc]
  split at hslot
  · rename_i ht
    cases hslot
    subst ht
    obtain ⟨late, hqueue, hlate⟩ := h _ _ _ (slotOf_registered hd (List.mem_of_getElem? hk))
    rw [hq] at hqueue
    rw [if_pos rfl, ← List.drop_drop]
    cases hdrop : (start proto.type).drop (callsOf proto.type log) with
    | nil =>
      rw [hdrop, List.nil_append] at hqueue
      exact ⟨rest, rfl, fun e he => hlate e (hqueue ▸ List.mem_cons_of_mem _ he)⟩
    | cons e tl =>
      rw [hdrop, List.cons_append, List.cons.injEq] at hqueue
      exact ⟨late, hqueue.2, hlate⟩
  · rename_i ht
    rw [if_neg (Ne.symm ht), Nat.add_zero]
    exact h t handler queue hslot

end FromStart

def startQueue (protocols : List (NetworkProtocol η)) (t : BitVec 16) : List (Bytes × Nat) :=
  ((slotOf protocols t).map Prod.snd).getD []

theorem fromStart_refl (P : NetworkInput → Prop) (protocols : List (NetworkProtocol η)) :
    FromStart (startQueue protocols) P protocols [] := by
  intro t handler queue hslot
  exact ⟨[], by simp [startQueue, hslot, callsOf], nofun⟩

/-! ## The loop ends -/

section Ends

variable {handle : η → Nat → Bytes × Nat → σ → Option (σ × List NetworkInput)}
  {table : List (BitVec 16 × η)} {inv : σ → Prop} {bad : η → Nat → Bytes × Nat → Prop}
  {start : BitVec 16 → List (Bytes × Nat)} {protocols : List (NetworkProtocol η)} {s : σ}
  {log : List (BitVec 16 × (Bytes × Nat))}

theorem nodup_of_protocolTable (htable : protocolTable protocols = table)
    (hd : (table.map Prod.fst).Nodup) : (protocols.map (·.type)).Nodup := by
  rw [← htable, protocolTable, List.map_map] at hd
  exact hd

theorem mem_protocolTable (htable : protocolTable protocols = table) {proto : NetworkProtocol η}
    (hmem : proto ∈ protocols) : (proto.type, proto.handler) ∈ table :=
  htable ▸ List.mem_map_of_mem hmem

theorem protocolTable_handled (htable : protocolTable protocols = table) {k : Nat}
    {proto : NetworkProtocol η} (hk : protocols[k]? = some proto) (rest : List (Bytes × Nat))
    (inputs : List NetworkInput) :
    protocolTable (networkInputs (protocols.set k { proto with queue := rest }) inputs) = table :=
  ((protocolTable_networkInputs _ _).trans (protocolTable_pop hk rest)).trans htable

theorem networkProtocolLoopMem_safe (ha : Answers handle table inv bad)
    (hd : (table.map Prod.fst).Nodup) {fuel k : Nat} {protocols' : List (NetworkProtocol η)}
    {s' : σ} {log' : List (BitVec 16 × (Bytes × Nat))} (htable : protocolTable protocols = table)
    (hinv : inv s) (hstart : FromStart start (Quiet handle table inv) protocols log)
    (h : networkProtocolLoopMem handle fuel k protocols s log = .returned protocols' s' log')
    {i : Nat} {t : BitVec 16} {handler : η} (hki : k ≤ i) (hi : table[i]? = some (t, handler))
    {n : Nat} {entry : Bytes × Nat} (hn : callsOf t log ≤ n) (hentry : (start t)[n]? = some entry) :
    ¬ bad handler n entry := by
  induction fuel generalizing k protocols s log with
  | zero => cases h
  | succ fuel ih =>
    have hd' := nodup_of_protocolTable htable hd
    obtain ⟨p, hp, hpt⟩ : ∃ p, protocols[i]? = some p ∧ (p.type, p.handler) = (t, handler) := by
      rw [← htable, protocolTable, List.getElem?_map, Option.map_eq_some_iff] at hi
      exact hi
    simp only [networkProtocolLoopMem] at h
    split at h
    · rename_i hnone
      have hlt := (List.getElem?_eq_some_iff.mp hp).1
      rw [List.getElem?_eq_none_iff] at hnone
      omega
    · rename_i proto hk
      split at h
      · rename_i hq
        rcases Nat.eq_or_lt_of_le hki with rfl | hlt
        · rw [hk] at hp
          cases hp
          cases hpt
          rw [hstart.drained hd' (List.mem_of_getElem? hk) hq hn] at hentry
          cases hentry
        · exact ih htable hinv hstart h (by omega) hn
      · rename_i first rest hq
        split at h
        · cases h
        · rename_i r hr
          by_cases hsame : proto.type = t ∧ n = callsOf t log
          · obtain ⟨rfl, rfl⟩ := hsame
            have hkp : proto = p := List.inj_on_of_nodup_map hd' (List.mem_of_getElem? hk)
              (List.mem_of_getElem? hp) (congrArg Prod.fst hpt).symm
            subst hkp
            cases hpt
            rcases hstart.head hd' (List.mem_of_getElem? hk) hq with hfirst | ⟨hnone, -⟩
            · rw [hentry] at hfirst
              cases hfirst
              rw [← ha.faults _ _ entry s hinv, hr]
              exact Option.some_ne_none r
            · rw [hentry] at hnone
              cases hnone
          · have hinv' := (ha.returns _ _ _ _ r hinv hr).1
            refine ih (protocolTable_handled htable hk rest r.2) hinv'
              ((hstart.pop hd' hk hq).inputs (ha.quiet hinv hr)) h hki ?_
            rw [callsOf_snoc]
            split
            · have : n ≠ callsOf t log := fun he => hsame ⟨‹_›, he⟩
              omega
            · exact hn

/-- As long as everything queued meets `P`, under which handlers return, the loop is the one over
the handlers that cannot fault. -/
theorem networkProtocolLoopMem_left {handle' : η → Bytes × Nat → σ → σ × List NetworkInput}
    {P : NetworkInput → Prop}
    (hsame : ∀ t handler n entry s, (t, handler) ∈ table → inv s → P ⟨t, entry.1, entry.2⟩ →
      handle handler n entry s = some (handle' handler entry s) ∧ inv (handle' handler entry s).1 ∧
        ∀ input ∈ (handle' handler entry s).2, P input)
    (htable : protocolTable protocols = table) (hinv : inv s) (hP : AllQueued P protocols)
    (fuel k : Nat) (log : List (BitVec 16 × (Bytes × Nat))) :
    (networkProtocolLoopMem handle fuel k protocols s log).left =
      networkProtocolLoop handle' fuel k protocols s := by
  induction fuel generalizing k protocols s log with
  | zero => rfl
  | succ fuel ih =>
    cases hk : protocols[k]? with
    | none =>
      simp only [networkProtocolLoopMem, networkProtocolLoop, hk]
      rfl
    | some proto =>
      cases hq : proto.queue with
      | nil =>
        simp only [networkProtocolLoopMem, networkProtocolLoop, hk, hq]
        exact ih htable hinv hP _ log
      | cons entry rest =>
        have hmem := mem_protocolTable htable (List.mem_of_getElem? hk)
        obtain ⟨hentry, hrest⟩ := hP.pop hk hq
        obtain ⟨hsome, hinv', hinputs⟩ :=
          hsame _ _ (callsOf proto.type log) entry s hmem hinv hentry
        simp only [networkProtocolLoopMem, networkProtocolLoop, hk, hq, hsome]
        exact ih (protocolTable_handled htable hk rest _) hinv' (hrest.inputs hinputs) _ _

open Classical in
/-- What the handling of an input can amount to, with the reply it causes. -/
noncomputable def replyWeight
    (handle : η → Nat → Bytes × Nat → σ → Option (σ × List NetworkInput))
    (table : List (BitVec 16 × η)) (inv : σ → Prop) (input : NetworkInput) : Nat :=
  if Quiet handle table inv input then 1 else 2

theorem replyWeight_le (handle : η → Nat → Bytes × Nat → σ → Option (σ × List NetworkInput))
    (table : List (BitVec 16 × η)) (inv : σ → Prop) (input : NetworkInput) :
    replyWeight handle table inv input ≤ 2 := by
  unfold replyWeight
  split <;> decide

theorem replyWeight_handled (ha : Answers handle table inv bad) {t : BitVec 16} {handler : η}
    (hmem : (t, handler) ∈ table) {n : Nat} {entry : Bytes × Nat} {r : σ × List NetworkInput}
    (hinv : inv s) (hr : handle handler n entry s = some r) :
    (r.2.map (replyWeight handle table inv)).sum <
      replyWeight handle table inv ⟨t, entry.1, entry.2⟩ := by
  by_cases hquiet : Quiet handle table inv ⟨t, entry.1, entry.2⟩
  · obtain ⟨s', hs'⟩ := hquiet handler hmem n s hinv
    rw [hr] at hs'
    cases hs'
    rw [replyWeight, if_pos hquiet]
    exact Nat.zero_lt_one
  · rw [replyWeight, if_neg hquiet]
    rcases (ha.returns _ _ _ _ r hinv hr).2 with hnone | ⟨input, hone, hq⟩
    · rw [hnone]
      exact Nat.zero_lt_two
    · rw [hone, List.map_singleton, List.sum_singleton, replyWeight, if_pos hq]
      decide

/-- One unit of fuel is used for a protocol that is passed or an entry that is handled, and each
lowers the number of protocols ahead plus the weight of what is queued. -/
theorem networkProtocolLoopMem_returns (ha : Answers handle table inv bad)
    (hd : (table.map Prod.fst).Nodup)
    (hgood : ∀ t handler, (t, handler) ∈ table → ∀ n entry, (start t)[n]? = some entry →
      ¬ bad handler n entry)
    {fuel k : Nat} (htable : protocolTable protocols = table) (hinv : inv s)
    (hstart : FromStart start (Quiet handle table inv) protocols log)
    (hfuel : (protocols.length - k) +
      queuedWeight (replyWeight handle table inv) protocols < fuel) :
    ∃ protocols' s' log',
      networkProtocolLoopMem handle fuel k protocols s log = .returned protocols' s' log' ∧
      log'.length ≤ log.length + queuedWeight (replyWeight handle table inv) protocols := by
  induction fuel generalizing k protocols s log with
  | zero => omega
  | succ fuel ih =>
    have hd' := nodup_of_protocolTable htable hd
    simp only [networkProtocolLoopMem]
    split
    · exact ⟨_, _, _, rfl, Nat.le_add_right _ _⟩
    · rename_i proto hk
      have hlt := (List.getElem?_eq_some_iff.mp hk).1
      have hmem := mem_protocolTable htable (List.mem_of_getElem? hk)
      split
      · exact ih htable hinv hstart (by omega)
      · rename_i entry rest hq
        split
        · rename_i hfault
          rcases hstart.head hd' (List.mem_of_getElem? hk) hq with hfirst | ⟨-, hquiet⟩
          · exact absurd ((ha.faults _ _ _ _ hinv).mp hfault) (hgood _ _ hmem _ _ hfirst)
          · obtain ⟨s', hs'⟩ := hquiet _ hmem (callsOf proto.type log) s hinv
            rw [hs'] at hfault
            cases hfault
        · rename_i r hr
          have hless := replyWeight_handled ha hmem hinv hr
          have hpop := queuedWeight_pop (replyWeight handle table inv) hk hq
          have hpush := queuedWeight_networkInputs (replyWeight handle table inv) r.2
            (protocols.set k { proto with queue := rest })
          have htable' := protocolTable_handled htable hk rest r.2
          have hlen := length_of_protocolTable (htable'.trans htable.symm)
          obtain ⟨protocols', s', log', hrun, hlog⟩ := ih (k := k) htable'
            (ha.returns _ _ _ _ r hinv hr).1 ((hstart.pop hd' hk hq).inputs (ha.quiet hinv hr))
            (by omega)
          refine ⟨protocols', s', log', hrun, ?_⟩
          rw [List.length_append, List.length_singleton] at hlog
          omega

/-- **Requests and replies.** The loop returns, after at most two handler calls for each entry,
exactly if no entry that is queued at the start is bad. -/
theorem networkProtocolLoopMem_iff (ha : Answers handle table inv bad)
    (hd : (table.map Prod.fst).Nodup) (htable : protocolTable protocols = table) (hinv : inv s) :
    (∃ fuel protocols' s' log, log.length ≤ 2 * queued protocols ∧
        networkProtocolLoopMem handle fuel 0 protocols s [] = .returned protocols' s' log) ↔
      ∀ proto ∈ protocols, ∀ n entry, proto.queue[n]? = some entry →
        ¬ bad proto.handler n entry := by
  have hd' := nodup_of_protocolTable htable hd
  have hqueue : ∀ proto ∈ protocols, startQueue protocols proto.type = proto.queue := by
    intro proto hmem
    rw [startQueue, slotOf_registered hd' hmem]
    rfl
  have hstart := fromStart_refl (Quiet handle table inv) protocols
  constructor
  · rintro ⟨fuel, protocols', s', log, -, hrun⟩ proto hmem n entry hentry
    obtain ⟨i, hi⟩ := List.getElem?_of_mem hmem
    have htable_i : table[i]? = some (proto.type, proto.handler) := by
      rw [← htable, protocolTable, List.getElem?_map, hi]
      rfl
    exact networkProtocolLoopMem_safe ha hd htable hinv hstart hrun (Nat.zero_le i) htable_i
      (Nat.zero_le n) (by rw [hqueue proto hmem]; exact hentry)
  · intro hgood
    have hgood' : ∀ t handler, (t, handler) ∈ table → ∀ n entry,
        (startQueue protocols t)[n]? = some entry → ¬ bad handler n entry := by
      intro t handler hmem n entry hentry
      obtain ⟨proto, hproto, he⟩ := List.mem_map.mp (htable ▸ hmem :
        (t, handler) ∈ protocolTable protocols)
      cases he
      rw [hqueue proto hproto] at hentry
      exact hgood proto hproto n entry hentry
    have hle := queuedWeight_le (replyWeight_le handle table inv) protocols
    have hfuel : protocols.length - 0 + queuedWeight (replyWeight handle table inv) protocols <
        protocols.length + 2 * queued protocols + 1 := by omega
    obtain ⟨protocols', s', log, hrun, hlog⟩ :=
      networkProtocolLoopMem_returns ha hd hgood' htable hinv hstart hfuel
    rw [List.length_nil] at hlog
    exact ⟨_, protocols', s', log, by omega, hrun⟩

end Ends

end LLNStack
