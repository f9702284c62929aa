import LLNStack.Lib.Run
import LLNStack.Lib.Keyed
import LLNStack.Net.Protocol

/-!
# LLNStack.Net.Dispatch

The calls of `net.c` one after the other on one thread, with `network_protocol_handler` taken apart
into the steps of its loop, so that handlers may call back at any point. A handler is whatever is
called between `called` and `handlerReturn`.

* `slot_step`: what one step can do to the queue of one type.
* `dispatch_fifo`: every frame given for a type since it was registered is handled or still queued,
  once and in order.
* `networkProtocolLoop_run`: the loop as a function, with handlers that are functions, takes such
  steps.
-/

namespace LLNStack

open Lib

variable {η σ : Type}

/-- Where the thread is: outside `network_protocol_handler`, in its loop at the protocol in position
`k`, or in a handler called from there. -/
inductive DispatchPc where
  | outside
  | loop (k : Nat)
  | inHandler (k : Nat)
  deriving DecidableEq, Repr

/-- The code that runs is not that of the loop and may call into `net.c`. -/
def DispatchPc.mayCall : DispatchPc → Bool
  | .loop _ => false
  | _ => true

/-- The position after a protocol was put in front of the list. -/
def DispatchPc.shift : DispatchPc → DispatchPc
  | .inHandler k => .inHandler (k + 1)
  | pc => pc

structure DispatchSys (η : Type) where
  protocols : List (NetworkProtocol η)
  pc : DispatchPc

inductive DispatchAction (η : Type) where
  | register (type : BitVec 16) (handler : η)
  | input (input : NetworkInput)
  | protocolHandler
  | loopStep
  | handlerReturn

inductive DispatchResult (η : Type) where
  | ret (ret : Int)
  | called (type : BitVec 16) (handler : η) (entry : Bytes × Nat)
  | silent

namespace DispatchSys

def init : DispatchSys η := ⟨[], .outside⟩

def step (s : DispatchSys η) : DispatchAction η → Option (DispatchSys η × DispatchResult η)
  | .register type handler =>
    if s.pc.mayCall then
      let (protocols, ret) := networkProtocolRegister true type handler s.protocols
      some (⟨protocols, if ret = 0 then s.pc.shift else s.pc⟩, .ret ret)
    else none
  | .input input =>
    if s.pc.mayCall then
      let (protocols, ret) := networkInputHandler true input s.protocols
      some (⟨protocols, s.pc⟩, .ret ret)
    else none
  | .protocolHandler =>
    match s.pc with
    | .outside => some ({ s with pc := .loop 0 }, .silent)
    | _ => none
  | .loopStep =>
    match s.pc with
    | .loop k =>
      match s.protocols[k]? with
      | none => some ({ s with pc := .outside }, .ret 0)
      | some proto =>
        match proto.queue with
        | [] => some ({ s with pc := .loop (k + 1) }, .silent)
        | entry :: rest =>
          some (⟨s.protocols.set k { proto with queue := rest }, .inHandler k⟩,
            .called proto.type proto.handler entry)
    | _ => none
  | .handlerReturn =>
    match s.pc with
    | .inHandler k => some ({ s with pc := .loop k }, .silent)
    | _ => none

end DispatchSys

/-! ## What a trace shows -/

abbrev DispatchLabel (η : Type) := DispatchAction η × DispatchResult η

def registers (t : BitVec 16) : DispatchLabel η → Option η
  | (.register type handler, .ret ret) => if type = t ∧ ret = 0 then some handler else none
  | _ => none

def given (t : BitVec 16) : DispatchLabel η → Option (Bytes × Nat)
  | (.input input, _) => if input.type = t then some (input.data, input.dev) else none
  | _ => none

def handledBy (t : BitVec 16) : DispatchLabel η → Option (η × (Bytes × Nat))
  | (_, .called type handler entry) => if type = t then some (handler, entry) else none
  | _ => none

def handled (t : BitVec 16) (tr : List (DispatchLabel η)) : List (Bytes × Nat) :=
  tr.filterMap fun l => (handledBy t l).map Prod.snd

/-! ## One type -/

def slotOf (protocols : List (NetworkProtocol η)) (t : BitVec 16) :
    Option (η × List (Bytes × Nat)) :=
  (protocols.find? (·.type = t)).map fun proto => (proto.handler, proto.queue)

inductive SlotStep (t : BitVec 16) (l : DispatchLabel η) :
    Option (η × List (Bytes × Nat)) → Option (η × List (Bytes × Nat)) → Prop where
  | same {slot} : registers t l = none → handledBy t l = none → (given t l = none ∨ slot = none) →
      SlotStep t l slot slot
  | registered {handler} : registers t l = some handler → handledBy t l = none → given t l = none →
      SlotStep t l none (some (handler, []))
  | queued {handler queue entry} : registers t l = none → handledBy t l = none →
      given t l = some entry →
      SlotStep t l (some (handler, queue)) (some (handler, queue ++ [entry]))
  | popped {handler queue entry} : registers t l = none → handledBy t l = some (handler, entry) →
      given t l = none → SlotStep t l (some (handler, entry :: queue)) (some (handler, queue))

theorem map_networkInputHandler {α : Type} {f : NetworkProtocol η → α}
    (hf : ∀ proto queue, f { proto with queue := queue } = f proto) (input : NetworkInput)
    (protocols : List (NetworkProtocol η)) :
    (networkInputHandler true input protocols).1.map f = protocols.map f := by
  induction protocols with
  | nil => rfl
  | cons proto rest ih =>
    simp only [networkInputHandler, if_true]
    split
    · rw [List.map_cons, hf, List.map_cons]
    · rw [List.map_cons, ih, List.map_cons]

theorem slotOf_networkInputHandler (input : NetworkInput) (protocols : List (NetworkProtocol η))
    (t : BitVec 16) :
    slotOf (networkInputHandler true input protocols).1 t =
      if input.type = t then (slotOf protocols t).map fun slot =>
        (slot.1, slot.2 ++ [(input.data, input.dev)])
      else slotOf protocols t := by
  unfold slotOf
  induction protocols with
  | nil => simp [networkInputHandler]
  | cons proto rest ih =>
    by_cases hp : proto.type = input.type
    · by_cases ht : input.type = t
      · simp [networkInputHandler, hp, ht]
      · simp [networkInputHandler, hp, ht]
    · by_cases hpt : proto.type = t
      · subst hpt
        simp [networkInputHandler, hp, Ne.symm hp]
      · simp only [networkInputHandler, hp, if_false, List.find?_cons, hpt, decide_false]
        exact ih

theorem slotOf_set {protocols : List (NetworkProtocol η)} {proto : NetworkProtocol η} {k : Nat}
    (hd : (protocols.map (·.type)).Nodup) (hk : protocols[k]? = some proto)
    (queue : List (Bytes × Nat)) (t : BitVec 16) :
    slotOf (protocols.set k { proto with queue := queue }) t =
      if t = proto.type then some (proto.handler, queue) else slotOf protocols t := by
  unfold slotOf
  rw [find_key_set (y := { proto with queue := queue }) hd hk rfl]
  split <;> rfl

theorem slotOf_registered {protocols : List (NetworkProtocol η)} {proto : NetworkProtocol η}
    (hd : (protocols.map (·.type)).Nodup) (h : proto ∈ protocols) :
    slotOf protocols proto.type = some (proto.handler, proto.queue) := by
  unfold slotOf
  rw [find_key_of_mem hd h]
  rfl

theorem slotOf_cons (proto : NetworkProtocol η) (protocols : List (NetworkProtocol η))
    (t : BitVec 16) :
    slotOf (proto :: protocols) t =
      if proto.type = t then some (proto.handler, proto.queue) else slotOf protocols t := by
  unfold slotOf
  by_cases ht : proto.type = t
  · simp [ht]
  · simp [ht]

theorem slotOf_none {protocols : List (NetworkProtocol η)} {t : BitVec 16}
    (h : ∀ proto ∈ protocols, proto.type ≠ t) : slotOf protocols t = none := by
  unfold slotOf
  rw [find_key_none.mpr h]
  rfl

theorem slotStep_register {protocols : List (NetworkProtocol η)} {type : BitVec 16} (handler : η)
    (hnew : ∀ proto ∈ protocols, proto.type ≠ type) (t : BitVec 16) :
    SlotStep t (.register type handler, .ret 0) (slotOf protocols t)
      (slotOf (⟨type, [], handler⟩ :: protocols) t) := by
  rw [slotOf_cons]
  by_cases ht : type = t
  · subst ht
    rw [if_pos rfl, slotOf_none hnew]
    exact .registered (by simp [registers]) rfl rfl
  · rw [if_neg ht]
    exact .same (by simp [registers, ht]) rfl (.inl rfl)

theorem slotStep_input (input : NetworkInput) (ret : Int) (protocols : List (NetworkProtocol η))
    (t : BitVec 16) :
    SlotStep t (.input input, .ret ret) (slotOf protocols t)
      (slotOf (networkInputHandler true input protocols).1 t) := by
  rw [slotOf_networkInputHandler]
  by_cases ht : input.type = t
  · rw [if_pos ht]
    cases slotOf protocols t with
    | none => exact .same rfl rfl (.inr rfl)
    | some slot => exact .queued rfl rfl (by simp [given, ht])
  · rw [if_neg ht]
    exact .same rfl rfl (.inl (by simp [given, ht]))

theorem slotStep_pop {protocols : List (NetworkProtocol η)} {proto : NetworkProtocol η} {k : Nat}
    {entry : Bytes × Nat} {rest : List (Bytes × Nat)} (hd : (protocols.map (·.type)).Nodup)
    (hk : protocols[k]? = some proto) (hq : proto.queue = entry :: rest) (t : BitVec 16) :
    SlotStep t (.loopStep, .called proto.type proto.handler entry) (slotOf protocols t)
      (slotOf (protocols.set k { proto with queue := rest }) t) := by
  rw [slotOf_set hd hk]
  by_cases ht : t = proto.type
  · subst ht
    rw [if_pos rfl, slotOf_registered hd (List.mem_of_getElem? hk), hq]
    exact .popped rfl (by simp [handledBy]) rfl
  · rw [if_neg ht]
    exact .same rfl (by simp [handledBy, Ne.symm ht]) (.inl rfl)

theorem slot_step {s s' : DispatchSys η} {l : DispatchLabel η}
    (hd : (s.protocols.map (·.type)).Nodup) (h : stepRel DispatchSys.step s l s') :
    (s'.protocols.map (·.type)).Nodup ∧
      ∀ t, SlotStep t l (slotOf s.protocols t) (slotOf s'.protocols t) := by
  obtain ⟨action, result⟩ := l
  cases action with
  | register type handler =>
    simp only [stepRel, DispatchSys.step, networkProtocolRegister, if_true] at h
    split at h
    · split at h
      · cases h
        exact ⟨hd, fun t => .same (by simp [registers]) rfl (.inl rfl)⟩
      · rename_i hnew
        cases h
        have hnew' : ∀ proto ∈ s.protocols, proto.type ≠ type := by simpa using hnew
        exact ⟨List.nodup_cons.mpr ⟨by simpa using hnew', hd⟩, slotStep_register handler hnew'⟩
    · cases h
  | input input =>
    simp only [stepRel, DispatchSys.step] at h
    split at h
    · cases h
      refine ⟨?_, slotStep_input input _ s.protocols⟩
      rw [map_networkInputHandler fun _ _ => rfl]
      exact hd
    · cases h
  | protocolHandler =>
    simp only [stepRel, DispatchSys.step] at h
    split at h
    · cases h
      exact ⟨hd, fun t => .same rfl rfl (.inl rfl)⟩
    · cases h
  | loopStep =>
    simp only [stepRel, DispatchSys.step] at h
    split at h
    · split at h
      · cases h
        exact ⟨hd, fun t => .same rfl rfl (.inl rfl)⟩
      · rename_i proto hk
        split at h
        · cases h
          exact ⟨hd, fun t => .same rfl rfl (.inl rfl)⟩
        · rename_i entry rest hq
          cases h
          have htypes : (s.protocols.set _ { proto with queue := rest }).map (·.type) =
              s.protocols.map (·.type) := map_key_set hk rfl
          refine ⟨?_, slotStep_pop hd hk hq⟩
          rw [htypes]
          exact hd
    · cases h
  | handlerReturn =>
    simp only [stepRel, DispatchSys.step] at h
    split at h
    · cases h
      exact ⟨hd, fun t => .same rfl rfl (.inl rfl)⟩
    · cases h

/-! ## Whole runs -/

/-- The history of one type, whose slot is now `slot`: nothing before its first registration, and
from then on every frame given is handled, by the handler of that registration, or still queued. -/
inductive SlotHistory (t : BitVec 16) (tr : List (DispatchLabel η)) :
    Option (η × List (Bytes × Nat)) → Prop where
  | unregistered : (∀ l ∈ tr, registers t l = none) → (∀ l ∈ tr, handledBy t l = none) →
      SlotHistory t tr none
  | registered {handler queue before call after} : tr = before ++ call :: after →
      (∀ l ∈ before, registers t l = none) → registers t call = some handler →
      (∀ l ∈ after, registers t l = none) → handled t tr ++ queue = after.filterMap (given t) →
      (∀ l ∈ tr, ∀ called, handledBy t l = some called → called.1 = handler) →
      SlotHistory t tr (some (handler, queue))

theorem handled_snoc (t : BitVec 16) (tr : List (DispatchLabel η)) (l : DispatchLabel η) :
    handled t (tr ++ [l]) = handled t tr ++ ((handledBy t l).map Prod.snd).toList :=
  filterMap_snoc _ tr l

theorem handled_nil {t : BitVec 16} {tr : List (DispatchLabel η)}
    (h : ∀ l ∈ tr, handledBy t l = none) : handled t tr = [] := by
  refine List.filterMap_eq_nil_iff.mpr fun l hl => ?_
  rw [h l hl]
  rfl

namespace SlotHistory

variable {t : BitVec 16} {tr : List (DispatchLabel η)}
  {slot slot' : Option (η × List (Bytes × Nat))}

theorem step {l : DispatchLabel η} (h : SlotHistory t tr slot) (hl : SlotStep t l slot slot') :
    SlotHistory t (tr ++ [l]) slot' := by
  cases h with
  | unregistered hreg hcalls =>
    cases hl with
    | same hr hh _ => exact .unregistered (forall_mem_snoc hreg hr) (forall_mem_snoc hcalls hh)
    | registered hr hh hg =>
      have hnone := forall_mem_snoc hcalls hh
      refine .registered rfl hreg hr (by simp) ?_ ?_
      · rw [handled_nil hnone]
        rfl
      · intro l' hl' called hcalled
        rw [hnone l' hl'] at hcalled
        cases hcalled
  | @registered handler queue before call after htr hbefore hcall hafter hfifo hsame =>
    have htr' : tr ++ [l] = before ++ call :: (after ++ [l]) := by rw [htr]; simp
    cases hl with
    | same hr hh hg =>
      have hg' : given t l = none := hg.resolve_right (Option.some_ne_none _)
      refine .registered htr' hbefore hcall (forall_mem_snoc hafter hr) ?_
        (forall_mem_snoc hsame (by rw [hh]; simp))
      rw [handled_snoc, hh, filterMap_snoc, hg']
      simpa using hfifo
    | @queued _ _ entry hr hh hg =>
      refine .registered htr' hbefore hcall (forall_mem_snoc hafter hr) ?_
        (forall_mem_snoc hsame (by rw [hh]; simp))
      rw [handled_snoc, hh, filterMap_snoc, hg, ← hfifo]
      simp
    | @popped _ rest entry hr hh hg =>
      refine .registered htr' hbefore hcall (forall_mem_snoc hafter hr) ?_
        (forall_mem_snoc hsame (by rw [hh]; simp))
      rw [handled_snoc, hh, filterMap_snoc, hg, ← hfifo]
      simp

theorem of_registered {before after : List (DispatchLabel η)} {call : DispatchLabel η} {handler : η}
    (h : SlotHistory t tr slot) (htr : tr = before ++ call :: after)
    (hbefore : ∀ l ∈ before, registers t l = none) (hcall : registers t call = some handler) :
    ∃ queue, slot = some (handler, queue) ∧ handled t tr ++ queue = after.filterMap (given t) ∧
      ∀ l ∈ tr, ∀ called, handledBy t l = some called → called.1 = handler := by
  cases h with
  | unregistered hreg _ =>
    rw [hreg call (by rw [htr]; simp)] at hcall
    cases hcall
  | @registered handler₁ queue before₁ call₁ after₁ htr₁ hbefore₁ hcall₁ _ hfifo hsame =>
    obtain ⟨rfl, rfl, rfl⟩ := split_first_unique (htr.symm.trans htr₁) hbefore
      (by rw [hcall]; exact Option.some_ne_none _) hbefore₁
      (by rw [hcall₁]; exact Option.some_ne_none _)
    rw [hcall] at hcall₁
    cases hcall₁
    exact ⟨queue, rfl, hfifo, hsame⟩

theorem of_unregistered (h : SlotHistory t tr slot) (hnone : ∀ l ∈ tr, registers t l = none) :
    slot = none ∧ ∀ l ∈ tr, handledBy t l = none := by
  cases h with
  | unregistered _ hcalls => exact ⟨rfl, hcalls⟩
  | @registered _ _ _ call _ htr _ hcall _ _ _ =>
    rw [hnone call (by rw [htr]; simp)] at hcall
    cases hcall

end SlotHistory

theorem run_slotHistory {tr : List (DispatchLabel η)} {s : DispatchSys η}
    (h : Run (stepRel DispatchSys.step) DispatchSys.init tr s) :
    (s.protocols.map (·.type)).Nodup ∧ ∀ t, SlotHistory t tr (slotOf s.protocols t) := by
  refine h.history (P := fun tr s => (s.protocols.map (·.type)).Nodup ∧
    ∀ t, SlotHistory t tr (slotOf s.protocols t)) ?_ ?_
  · exact ⟨List.nodup_nil, fun t => .unregistered (by simp) (by simp)⟩
  · rintro tr s l s' - ⟨hd, hslots⟩ hl
    obtain ⟨hd', hstep⟩ := slot_step hd hl
    exact ⟨hd', fun t => (hslots t).step (hstep t)⟩

theorem register_again {s s' : DispatchSys η} {t : BitVec 16} {slot : η × List (Bytes × Nat)}
    {handler : η} {result : DispatchResult η} (hslot : slotOf s.protocols t = some slot)
    (h : stepRel DispatchSys.step s (.register t handler, result) s') :
    s' = s ∧ result = .ret (-1) := by
  obtain ⟨proto, hfind, -⟩ := Option.map_eq_some_iff.mp hslot
  have hany : s.protocols.any (·.type = t) = true :=
    List.any_eq_true.mpr
      ⟨proto, List.mem_of_find?_eq_some hfind, by simpa using List.find?_some hfind⟩
  simp only [stepRel, DispatchSys.step, networkProtocolRegister, hany, if_true] at h
  split at h
  · cases h
    exact ⟨rfl, rfl⟩
  · cases h

/-- **Dispatch is FIFO and exactly once.** In every run, for every type: once it was registered, the
frames passed to its handler followed by those in its queue are the frames given to
`network_input_handler` for it since then, and registering it again changes nothing; if it was not,
no handler was called for it. -/
theorem dispatch_fifo {tr : List (DispatchLabel η)} {s : DispatchSys η}
    (h : Run (stepRel DispatchSys.step) DispatchSys.init tr s) (t : BitVec 16) :
    (∀ before call after handler, tr = before ++ call :: after →
      (∀ l ∈ before, registers t l = none) → registers t call = some handler →
      ∃ queue, slotOf s.protocols t = some (handler, queue) ∧
        handled t tr ++ queue = after.filterMap (given t) ∧
        (∀ l ∈ tr, ∀ called, handledBy t l = some called → called.1 = handler) ∧
        ∀ handler' result s', stepRel DispatchSys.step s (.register t handler', result) s' →
          s' = s ∧ result = .ret (-1)) ∧
    ((∀ l ∈ tr, registers t l = none) →
      slotOf s.protocols t = none ∧ ∀ l ∈ tr, handledBy t l = none) := by
  have hist := (run_slotHistory h).2 t
  refine ⟨fun before call after handler htr hbefore hcall => ?_, hist.of_unregistered⟩
  obtain ⟨queue, hslot, hfifo, hsame⟩ := hist.of_registered htr hbefore hcall
  exact ⟨queue, hslot, hfifo, hsame, fun _ _ _ => register_again hslot⟩

/-- A frame that comes before its type is registered, one that a handler sends to its own type, a
second registration, and a frame of a type that nobody registered. -/
def reentrantInput : List (DispatchLabel Bool) :=
  [(.input ⟨networkProtocolTypeIp, [0], 0⟩, .ret 0),
    (.register networkProtocolTypeIp true, .ret 0),
    (.input ⟨networkProtocolTypeIp, [1], 0⟩, .ret 0),
    (.protocolHandler, .silent),
    (.loopStep, .called networkProtocolTypeIp true ([1], 0)),
    (.input ⟨networkProtocolTypeIp, [2], 0⟩, .ret 0),
    (.register networkProtocolTypeIp false, .ret (-1)),
    (.input ⟨networkProtocolTypeArp, [3], 0⟩, .ret 0),
    (.handlerReturn, .silent),
    (.loopStep, .called networkProtocolTypeIp true ([2], 0)),
    (.input ⟨networkProtocolTypeIp, [4], 0⟩, .ret 0)]

/-- Frames 1 and 2 were passed to the first handler, which still runs, and frame 4 is queued. -/
theorem reentrantInput_fifo : ∃ s,
    Run (stepRel DispatchSys.step) DispatchSys.init reentrantInput s ∧
      slotOf s.protocols networkProtocolTypeIp = some (true, [([4], 0)]) ∧
      handled networkProtocolTypeIp reentrantInput = [([1], 0), ([2], 0)] ∧
      slotOf s.protocols networkProtocolTypeArp = none := by
  have hexec : exec DispatchSys.step DispatchSys.init (reentrantInput.map Prod.fst) =
      some (reentrantInput, ⟨[⟨networkProtocolTypeIp, [([4], 0)], true⟩], .inHandler 0⟩) := rfl
  have hrun := (exec_run hexec).1
  have hhandled : handled networkProtocolTypeIp reentrantInput = [([1], 0), ([2], 0)] := by decide
  have hgiven : (reentrantInput.drop 2).filterMap (given networkProtocolTypeIp) =
      [([1], 0), ([2], 0)] ++ [([4], 0)] := by decide
  obtain ⟨queue, hslot, hfifo, -, -⟩ := (dispatch_fifo hrun networkProtocolTypeIp).1 [_] _
    (reentrantInput.drop 2) true rfl (by decide) (by decide)
  rw [hhandled, hgiven] at hfifo
  rw [List.append_cancel_left hfifo] at hslot
  exact ⟨_, hrun, hslot, hhandled,
    ((dispatch_fifo hrun networkProtocolTypeArp).2 (by decide)).1⟩

/-! ## The loop as a function -/

/-- `handle` with a log of its calls. -/
def logged (handle : η → Bytes × Nat → σ → σ × List NetworkInput) (handler : η)
    (entry : Bytes × Nat) (s : σ × List (η × (Bytes × Nat))) :
    (σ × List (η × (Bytes × Nat))) × List NetworkInput :=
  (((handle handler entry s.1).1, s.2 ++ [(handler, entry)]), (handle handler entry s.1).2)

def calls (tr : List (DispatchLabel η)) : List (η × (Bytes × Nat)) :=
  tr.filterMap fun
    | (_, .called _ handler entry) => some (handler, entry)
    | _ => none

/-- The log does not change what the loop does. -/
theorem networkProtocolLoop_logged (handle : η → Bytes × Nat → σ → σ × List NetworkInput)
    (fuel k : Nat) (protocols : List (NetworkProtocol η)) (s : σ) (log : List (η × (Bytes × Nat))) :
    (networkProtocolLoop (logged handle) fuel k protocols (s, log)).map (fun r => (r.1, r.2.1)) =
      networkProtocolLoop handle fuel k protocols s := by
  induction fuel generalizing k protocols s log with
  | zero => rfl
  | succ fuel ih =>
    simp only [networkProtocolLoop]
    split
    · rfl
    · split
      · exact ih _ _ _ _
      · exact ih _ _ _ _

theorem networkInputs_run (inputs : List NetworkInput) (protocols : List (NetworkProtocol η))
    (k : Nat) : ∃ tr, Run (stepRel DispatchSys.step) ⟨protocols, .inHandler k⟩ tr
      ⟨networkInputs protocols inputs, .inHandler k⟩ ∧ calls tr = [] := by
  induction inputs generalizing protocols with
  | nil => exact ⟨[], .nil, rfl⟩
  | cons input inputs ih =>
    obtain ⟨tr, hrun, hcalls⟩ := ih (networkInputHandler true input protocols).1
    have hstep : stepRel DispatchSys.step ⟨protocols, .inHandler k⟩
        (.input input, .ret (networkInputHandler true input protocols).2)
        ⟨(networkInputHandler true input protocols).1, .inHandler k⟩ := rfl
    exact ⟨_, (Run.nil.snoc hstep).append hrun, by simpa [calls] using hcalls⟩

theorem networkProtocolLoop_run (handle : η → Bytes × Nat → σ → σ × List NetworkInput)
    {fuel k : Nat} {protocols protocols' : List (NetworkProtocol η)} {s s' : σ}
    {log log' : List (η × (Bytes × Nat))}
    (h : networkProtocolLoop (logged handle) fuel k protocols (s, log) =
      some (protocols', s', log')) :
    ∃ tr, Run (stepRel DispatchSys.step) ⟨protocols, .loop k⟩ tr ⟨protocols', .outside⟩ ∧
      log' = log ++ calls tr := by
  induction fuel generalizing k protocols s log with
  | zero => cases h
  | succ fuel ih =>
    simp only [networkProtocolLoop] at h
    split at h
    · rename_i hk
      have hstep : stepRel DispatchSys.step ⟨protocols, .loop k⟩ (.loopStep, .ret 0)
          ⟨protocols, .outside⟩ := by
        simp only [stepRel, DispatchSys.step, hk]
      cases h
      exact ⟨_, Run.nil.snoc hstep, by simp [calls]⟩
    · rename_i proto hk
      split at h
      · rename_i hq
        have hstep : stepRel DispatchSys.step ⟨protocols, .loop k⟩ (.loopStep, .silent)
            ⟨protocols, .loop (k + 1)⟩ := by
          simp only [stepRel, DispatchSys.step, hk, hq]
        obtain ⟨tr, hrun, hlog⟩ := ih h
        exact ⟨_, (Run.nil.snoc hstep).append hrun, by simpa [calls] using hlog⟩
      · rename_i entry rest hq
        have hcall : stepRel DispatchSys.step ⟨protocols, .loop k⟩
            (.loopStep, .called proto.type proto.handler entry)
            ⟨protocols.set k { proto with queue := rest }, .inHandler k⟩ := by
          simp only [stepRel, DispatchSys.step, hk, hq]
        obtain ⟨inputs, hinputs, hnone⟩ := networkInputs_run (handle proto.handler entry s).2
          (protocols.set k { proto with queue := rest }) k
        have hreturn : ∀ ps : List (NetworkProtocol η), stepRel DispatchSys.step
            ⟨ps, .inHandler k⟩ (.handlerReturn, .silent) ⟨ps, .loop k⟩ := fun _ => rfl
        obtain ⟨tr, hrun, hlog⟩ := ih h
        refine ⟨_, (((Run.nil.snoc hcall).append hinputs).snoc (hreturn _)).append hrun, ?_⟩
        rw [hlog]
        simp only [calls] at hnone ⊢
        simp [hnone]

end LLNStack
