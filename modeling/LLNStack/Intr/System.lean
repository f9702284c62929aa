import LLNStack.Intr.Irq
import LLNStack.Net.Dispatch

/-!
# LLNStack.Intr.System

The interrupt thread of `interrupt.c` at work. It takes one pending signal after the other: SIGUSR1
makes it run `network_protocol_handler`, SIGUSR2 `network_event_handler`, SIGALRM
`network_timer_handler`; for any other signal it calls the handlers of the interrupt table in turn,
and these read the frames of their device into the protocol queues.

Other threads run meanwhile. They call `network_input_handler` by sending through the loopback
device, and they open and close devices; frames and signals come at any time. Between the
`queue_push` of `network_input_handler` and its `raise_softirq` other actions may happen: a thread
that is there is counted in `raising`, and `selfRaising` says that the interrupt thread is. A push
and a pop are one action each; nothing in the code makes them so, the queues have no lock.

The kernel's part: a frame is put in the device's buffer and its signal is sent in one action. A
signal outside the mask ends the process. Whether a signal that is pending already is kept once more
is left open. `open` gives a number that is free; which one is left open. A number that a driver
keeps after it was closed may be given to another device or to any other file of the process. The
`open` of a driver, and the `poll` of its handler with the `read` that follows, are one action each.
-/

namespace LLNStack

open Lib

/-- What an open descriptor stands for: the frames of a device, or some other file of the
process. -/
inductive OpenFile where
  | device (dev : Nat)
  | other
  deriving DecidableEq, Repr

/-- What does not change while the stack runs. -/
structure IntrConfig where
  table : IrqTable
  devices : Nat → NetworkDevice
  /-- The `irq` of the device's driver. -/
  irq : Nat → Nat

inductive IntrPc where
  | sigwait
  /-- In `network_protocol_handler` at the protocol in position `k`. -/
  | loop (k : Nat)
  | inHandler (k : Nat)
  /-- In the loop over the interrupt table, with these entries left. -/
  | dispatch (sig : Nat) (rest : List IrqEntry)
  /-- In the driver's handler, at its `poll` of the number that `fd` was when it was called. -/
  | isr (dev : Nat) (pfd : Option Nat) (sig : Nat) (rest : List IrqEntry)
  /-- A signal that nobody waits for has ended the process. -/
  | killed
  deriving DecidableEq, Repr

structure IntrSys (η : Type) where
  protocols : List (NetworkProtocol η)
  /-- The `fd` of each driver; `none` is -1. -/
  fds : Nat → Option Nat
  /-- The process's open descriptors by number. -/
  files : Nat → Option OpenFile
  /-- The frames that can be read from each device. -/
  rx : Nat → List Bytes
  pending : List Nat
  raising : Nat
  selfRaising : Bool
  pc : IntrPc

/-- How the driver's system calls end: as they should; with an error of `poll`, which makes the
handler return; or with an error of `read` or an interrupted `poll`, after which it polls again.
`otherData`: as they should, and a file that is no device's has these bytes to read. -/
inductive DriverIo where
  | ok
  | otherData (data : Bytes)
  | pollError
  | pollAgain
  deriving DecidableEq, Repr

def DriverIo.other : DriverIo → Option Bytes
  | .otherData data => some data
  | .ok | .pollError | .pollAgain => none

/-- How `open` of a driver ends: as it should, with an error of the first system call, or with an
error of a later one, which closes the descriptor and keeps its number. -/
inductive DriverOpen where
  | ok (n : Nat)
  | noDescriptor
  | closedAgain (n : Nat)
  deriving DecidableEq, Repr

inductive IntrAction where
  | frame (dev : Nat) (frame : Bytes) (kept : Bool)
  | networkInputHandler (alloc : Bool) (input : NetworkInput)
  | raiseSoftirq
  | networkInterrupt
  | alarm
  | deviceOpen (dev : Nat) (outcome : DriverOpen)
  | deviceClose (dev : Nat)
  /-- The process opens or closes a file that is no device's. -/
  | fileOpen (n : Nat)
  | fileClose (n : Nat)
  /-- `sigwait` returns the signal at this place of the pending ones. -/
  | sigwait (i : Nat)
  /-- The interrupt thread goes on. -/
  | go (io : DriverIo) (alloc : Bool)
  /-- A protocol handler calls `network_input_handler`. -/
  | handlerInput (alloc : Bool) (input : NetworkInput)
  deriving DecidableEq, Repr

inductive IntrResult (η : Type) where
  | silent
  | called (type : BitVec 16) (handler : η) (entry : Bytes × Nat)
  | read (dev : Nat) (frame : Bytes)
  | event
  | timer
  deriving DecidableEq, Repr

namespace IntrSys

variable {η : Type}

/-- The pending signals with one more. `kept`: whether one that is pending already is kept twice. -/
def addPending (kept : Bool) (sig : Nat) (pending : List Nat) : List Nat :=
  if sig ∈ pending ∧ kept = false then pending else pending ++ [sig]

def raise (cfg : IntrConfig) (kept : Bool) (sig : Nat) (s : IntrSys η) : IntrSys η :=
  if sig ∈ cfg.table.sigmask then { s with pending := addPending kept sig s.pending }
  else { s with pc := .killed }

/-- `queue_push` takes place. -/
def pushes (alloc : Bool) (input : NetworkInput) (s : IntrSys η) : Bool :=
  alloc && s.protocols.any (·.type = input.type)

/-- `network_input_handler` up to `raise_softirq`. -/
def push (alloc : Bool) (input : NetworkInput) (s : IntrSys η) : IntrSys η :=
  { s with protocols := (LLNStack.networkInputHandler alloc input s.protocols).1 }

def serve (cfg : IntrConfig) (sig : Nat) (s : IntrSys η) : IntrSys η × IntrResult η :=
  if sig = sigusr1 then ({ s with pc := .loop 0 }, .silent)
  else if sig = sigusr2 then (s, .event)
  else if sig = sigalrm then (s, .timer)
  else ({ s with pc := .dispatch sig cfg.table.irqVec }, .silent)

/-- What `ether_poll_helper` does with a frame. -/
def pollInput (cfg : IntrConfig) (alloc : Bool) (dev : Nat) (frame : Bytes) (s : IntrSys η) :
    IntrSys η :=
  match etherPollHelper (cfg.devices dev).address frame with
  | none => s
  | some (type, data) =>
    { s.push alloc ⟨type, data, dev⟩ with selfRaising := s.pushes alloc ⟨type, data, dev⟩ }

/-- The open file behind a driver's `fd`: none for -1 and for a number that is closed. -/
def fileOf (s : IntrSys η) (fd : Option Nat) : Option OpenFile := fd.bind s.files

/-- The device's `open` has succeeded and it has not been closed since. -/
def Up (dev : Nat) (s : IntrSys η) : Prop := s.fileOf (s.fds dev) = some (.device dev)

instance (dev : Nat) (s : IntrSys η) : Decidable (s.Up dev) :=
  inferInstanceAs (Decidable (_ = _))

/-- `poll` with no time to wait returns 1. It passes over -1, and it reports a closed number. -/
def ready (other : Option Bytes) (s : IntrSys η) : Option Nat → Bool
  | none => false
  | some n =>
    match s.files n with
    | none => true
    | some (.device dev) => !(s.rx dev).isEmpty
    | some .other => other.isSome

/-- `ether_poll_helper` with the `read` of the driver's `fd`; `none` while `read` blocks. -/
def driverRead (cfg : IntrConfig) (other : Option Bytes) (alloc : Bool) (dev : Nat)
    (s : IntrSys η) : Option (IntrSys η × IntrResult η) :=
  match s.fileOf (s.fds dev) with
  | none => some (s, .silent)
  | some (.device d) =>
    match s.rx d with
    | [] => none
    | frame :: rx =>
      some (({ s with rx := Function.update s.rx d rx } : IntrSys η).pollInput cfg alloc dev frame,
        .read dev frame)
  | some .other =>
    match other with
    | none => none
    | some data => some (s.pollInput cfg alloc dev data, .read dev data)

def advance (cfg : IntrConfig) (io : DriverIo) (alloc : Bool) (s : IntrSys η) :
    Option (IntrSys η × IntrResult η) :=
  if s.selfRaising then some (({ s with selfRaising := false } : IntrSys η).raise cfg false sigusr1,
    .silent)
  else
    match s.pc with
    | .sigwait | .killed => none
    | .loop k =>
      match s.protocols[k]? with
      | none => some ({ s with pc := .sigwait }, .silent)
      | some proto =>
        match proto.queue with
        | [] => some ({ s with pc := .loop (k + 1) }, .silent)
        | entry :: rest =>
          some ({ s with
            protocols := s.protocols.set k { proto with queue := rest }, pc := .inHandler k },
            .called proto.type proto.handler entry)
    | .inHandler k => some ({ s with pc := .loop k }, .silent)
    | .dispatch _ [] => some ({ s with pc := .sigwait }, .silent)
    | .dispatch sig (e :: rest) =>
      some ({ s with 
        pc := if e.irq = sig then .isr e.dev (s.fds e.dev) sig rest else .dispatch sig rest },
        .silent)
    | .isr dev pfd sig rest =>
      match io with
      | .pollError => some ({ s with pc := .dispatch sig rest }, .silent)
      | .pollAgain => some (s, .silent)
      | .ok | .otherData _ =>
        if s.ready io.other pfd then s.driverRead cfg io.other alloc dev
        else some ({ s with pc := .dispatch sig rest }, .silent)

def step (cfg : IntrConfig) (s : IntrSys η) (a : IntrAction) : Option (IntrSys η × IntrResult η) :=
  if s.pc = .killed then none
  else
    match a with
    | .frame dev frame kept =>
      if s.Up dev then
        some (({ s with rx := Function.update s.rx dev (s.rx dev ++ [frame]) } :
          IntrSys η).raise cfg kept (cfg.irq dev), .silent)
      else none
    | .networkInputHandler alloc input =>
      some ({ s.push alloc input with
        raising := if s.pushes alloc input then s.raising + 1 else s.raising }, .silent)
    | .raiseSoftirq =>
      if s.raising = 0 then none
      else some (({ s with raising := s.raising - 1 } : IntrSys η).raise cfg false sigusr1, .silent)
    | .networkInterrupt => some (s.raise cfg false sigusr2, .silent)
    | .alarm => some (s.raise cfg false sigalrm, .silent)
    | .deviceOpen dev outcome =>
      if s.Up dev then none
      else
        match outcome with
        | .noDescriptor => some ({ s with fds := Function.update s.fds dev none }, .silent)
        | .ok n =>
          if s.files n = none then
            some ({ s with
              fds := Function.update s.fds dev (some n)
              files := Function.update s.files n (some (.device dev)) }, .silent)
          else none
        | .closedAgain n =>
          if s.files n = none then
            some ({ s with fds := Function.update s.fds dev (some n) }, .silent)
          else none
    | .deviceClose dev =>
      match s.fds dev with
      | none => none
      | some n =>
        if s.files n = some (.device dev) then
          some ({ s with
            files := Function.update s.files n none
            rx := Function.update s.rx dev [] }, .silent)
        else none
    | .fileOpen n =>
      if s.files n = none then
        some ({ s with files := Function.update s.files n (some .other) }, .silent)
      else none
    | .fileClose n =>
      if s.files n = some .other then
        some ({ s with files := Function.update s.files n none }, .silent)
      else none
    | .sigwait i =>
      match s.pc with
      | .sigwait =>
        match s.pending[i]? with
        | none => none
        | some sig => some (({ s with pending := s.pending.eraseIdx i } : IntrSys η).serve cfg sig)
      | _ => none
    | .go io alloc => s.advance cfg io alloc
    | .handlerInput alloc input =>
      match s.pc with
      | .inHandler _ =>
        if s.selfRaising then none
        else some ({ s.push alloc input with selfRaising := s.pushes alloc input }, .silent)
      | _ => none

abbrev Step (cfg : IntrConfig) : IntrSys η → IntrAction × IntrResult η → IntrSys η → Prop :=
  stepRel (step cfg)

end IntrSys

/-! ## What an action can do -/

def IntrConfig.Listed (cfg : IntrConfig) (dev : Nat) : Prop :=
  ∃ e ∈ cfg.table.irqVec, e.irq = cfg.irq dev ∧ e.dev = dev

/-- The interrupt thread waits for the signals of the stack and for every interrupt of the table,
and no handler was entered for a signal of the stack. -/
structure IntrConfig.Ready (cfg : IntrConfig) : Prop where
  stack : stackSignals ⊆ cfg.table.sigmask
  waited : ∀ e ∈ cfg.table.irqVec, e.irq ∈ cfg.table.sigmask
  own : ∀ e ∈ cfg.table.irqVec, e.irq ∉ stackSignals

def OpenListed {η : Type} (cfg : IntrConfig) (s : IntrSys η) : Prop :=
  ∀ dev, s.Up dev → cfg.Listed dev

section

variable {η : Type}

inductive IntrTrans (cfg : IntrConfig) (s : IntrSys η) :
    IntrAction → IntrResult η → IntrSys η → Prop where
  | frame {dev : Nat} {frame : Bytes} {kept : Bool} : s.Up dev →
      IntrTrans cfg s (.frame dev frame kept) .silent
        { s with
          rx := Function.update s.rx dev (s.rx dev ++ [frame])
          pending := IntrSys.addPending kept (cfg.irq dev) s.pending }
  | input {alloc : Bool} {input : NetworkInput} :
      IntrTrans cfg s (.networkInputHandler alloc input) .silent
        { s.push alloc input with
          raising := if s.pushes alloc input then s.raising + 1 else s.raising }
  | softirq : s.raising ≠ 0 →
      IntrTrans cfg s .raiseSoftirq .silent
        { s with
          raising := s.raising - 1
          pending := IntrSys.addPending false sigusr1 s.pending }
  | signal {a : IntrAction} {sig : Nat} : a = .networkInterrupt ∨ a = .alarm →
      IntrTrans cfg s a .silent { s with pending := IntrSys.addPending false sig s.pending }
  | opened {dev n : Nat} : ¬ s.Up dev → s.files n = none →
      IntrTrans cfg s (.deviceOpen dev (.ok n)) .silent
        { s with
          fds := Function.update s.fds dev (some n)
          files := Function.update s.files n (some (.device dev)) }
  | openFailed {dev : Nat} : ¬ s.Up dev →
      IntrTrans cfg s (.deviceOpen dev .noDescriptor) .silent
        { s with fds := Function.update s.fds dev none }
  | openClosed {dev n : Nat} : ¬ s.Up dev → s.files n = none →
      IntrTrans cfg s (.deviceOpen dev (.closedAgain n)) .silent
        { s with fds := Function.update s.fds dev (some n) }
  | closed {dev n : Nat} : s.fds dev = some n → s.files n = some (.device dev) →
      IntrTrans cfg s (.deviceClose dev) .silent
        { s with
          files := Function.update s.files n none
          rx := Function.update s.rx dev [] }
  | fileOpened {n : Nat} : s.files n = none →
      IntrTrans cfg s (.fileOpen n) .silent
        { s with files := Function.update s.files n (some .other) }
  | fileClosed {n : Nat} : s.files n = some .other →
      IntrTrans cfg s (.fileClose n) .silent { s with files := Function.update s.files n none }
  | usr1 {i : Nat} : s.pc = .sigwait → s.pending[i]? = some sigusr1 →
      IntrTrans cfg s (.sigwait i) .silent
        { s with pending := s.pending.eraseIdx i, pc := .loop 0 }
  | served {i sig : Nat} {r : IntrResult η} : s.pc = .sigwait → s.pending[i]? = some sig →
      sig = sigusr2 ∨ sig = sigalrm → r = .event ∨ r = .timer →
      IntrTrans cfg s (.sigwait i) r { s with pending := s.pending.eraseIdx i }
  | irq {i sig : Nat} : s.pc = .sigwait → s.pending[i]? = some sig → sig ∉ stackSignals →
      IntrTrans cfg s (.sigwait i) .silent
        { s with pending := s.pending.eraseIdx i, pc := .dispatch sig cfg.table.irqVec }
  | selfRaised {io : DriverIo} {alloc : Bool} : s.selfRaising = true →
      IntrTrans cfg s (.go io alloc) .silent
        { s with
          selfRaising := false
          pending := IntrSys.addPending false sigusr1 s.pending }
  | loopEnd {io : DriverIo} {alloc : Bool} {k : Nat} : s.selfRaising = false → s.pc = .loop k →
      s.protocols[k]? = none → IntrTrans cfg s (.go io alloc) .silent { s with pc := .sigwait }
  | loopNext {io : DriverIo} {alloc : Bool} {k : Nat} {proto : NetworkProtocol η} :
      s.selfRaising = false → s.pc = .loop k → s.protocols[k]? = some proto → proto.queue = [] →
      IntrTrans cfg s (.go io alloc) .silent { s with pc := .loop (k + 1) }
  | called {io : DriverIo} {alloc : Bool} {k : Nat} {proto : NetworkProtocol η}
      {entry : Bytes × Nat} {rest : List (Bytes × Nat)} :
      s.selfRaising = false → s.pc = .loop k → s.protocols[k]? = some proto →
      proto.queue = entry :: rest →
      IntrTrans cfg s (.go io alloc) (.called proto.type proto.handler entry)
        { s with
          protocols := s.protocols.set k { proto with queue := rest }
          pc := .inHandler k }
  | handlerReturn {io : DriverIo} {alloc : Bool} {k : Nat} : s.selfRaising = false →
      s.pc = .inHandler k → IntrTrans cfg s (.go io alloc) .silent { s with pc := .loop k }
  | dispatchEnd {io : DriverIo} {alloc : Bool} {sig : Nat} : s.selfRaising = false →
      s.pc = .dispatch sig [] → IntrTrans cfg s (.go io alloc) .silent { s with pc := .sigwait }
  | dispatchSkip {io : DriverIo} {alloc : Bool} {sig : Nat} {e : IrqEntry} {rest : List IrqEntry} :
      s.selfRaising = false → s.pc = .dispatch sig (e :: rest) → e.irq ≠ sig →
      IntrTrans cfg s (.go io alloc) .silent { s with pc := .dispatch sig rest }
  | dispatchCall {io : DriverIo} {alloc : Bool} {sig : Nat} {e : IrqEntry} {rest : List IrqEntry} :
      s.selfRaising = false → s.pc = .dispatch sig (e :: rest) → e.irq = sig →
      IntrTrans cfg s (.go io alloc) .silent { s with pc := .isr e.dev (s.fds e.dev) sig rest }
  | pollError {alloc : Bool} {dev sig : Nat} {pfd : Option Nat} {rest : List IrqEntry} :
      s.selfRaising = false → s.pc = .isr dev pfd sig rest →
      IntrTrans cfg s (.go .pollError alloc) .silent { s with pc := .dispatch sig rest }
  | isrAgain {io : DriverIo} {alloc : Bool} {dev sig : Nat} {pfd : Option Nat}
      {rest : List IrqEntry} : s.selfRaising = false → s.pc = .isr dev pfd sig rest →
      IntrTrans cfg s (.go io alloc) .silent s
  | isrReturn {io : DriverIo} {alloc : Bool} {dev sig : Nat} {pfd : Option Nat}
      {rest : List IrqEntry} : s.selfRaising = false → s.pc = .isr dev pfd sig rest →
      s.ready io.other pfd = false →
      IntrTrans cfg s (.go io alloc) .silent { s with pc := .dispatch sig rest }
  | read {io : DriverIo} {alloc : Bool} {dev sig d : Nat} {pfd : Option Nat}
      {rest : List IrqEntry} {frame : Bytes} {rx : List Bytes} : s.selfRaising = false →
      s.pc = .isr dev pfd sig rest → s.fileOf (s.fds dev) = some (.device d) →
      s.rx d = frame :: rx →
      IntrTrans cfg s (.go io alloc) (.read dev frame)
        (({ s with rx := Function.update s.rx d rx } : IntrSys η).pollInput cfg alloc dev frame)
  | readOther {io : DriverIo} {alloc : Bool} {dev sig : Nat} {pfd : Option Nat}
      {rest : List IrqEntry} {data : Bytes} : s.selfRaising = false →
      s.pc = .isr dev pfd sig rest → s.fileOf (s.fds dev) = some .other →
      IntrTrans cfg s (.go io alloc) (.read dev data) (s.pollInput cfg alloc dev data)
  | handlerInput {alloc : Bool} {input : NetworkInput} {k : Nat} : s.selfRaising = false →
      s.pc = .inHandler k →
      IntrTrans cfg s (.handlerInput alloc input) .silent
        { s.push alloc input with selfRaising := s.pushes alloc input }

theorem raise_masked {cfg : IntrConfig} {kept : Bool} {sig : Nat} {s : IntrSys η}
    (h : sig ∈ cfg.table.sigmask) :
    s.raise cfg kept sig = { s with pending := IntrSys.addPending kept sig s.pending } := by
  rw [IntrSys.raise, if_pos h]

theorem poll_trans {cfg : IntrConfig} {s s' : IntrSys η} {io : DriverIo} {alloc : Bool}
    {r : IntrResult η} {dev sig : Nat} {pfd : Option Nat} {rest : List IrqEntry}
    (hself : s.selfRaising = false) (hpc : s.pc = .isr dev pfd sig rest)
    (h : (if s.ready io.other pfd then s.driverRead cfg io.other alloc dev
      else some ({ s with pc := .dispatch sig rest }, .silent)) = some (s', r)) :
    IntrTrans cfg s (.go io alloc) r s' := by
  split at h
  · simp only [IntrSys.driverRead] at h
    split at h
    · cases h
      exact .isrAgain hself hpc
    · rename_i d hfile
      split at h
      · cases h
      · rename_i frame rx hrx
        cases h
        exact .read hself hpc hfile hrx
    · rename_i hfile
      split at h
      · cases h
      · cases h
        exact .readOther hself hpc hfile
  · rename_i hready
    rw [Bool.not_eq_true] at hready
    cases h
    exact .isrReturn hself hpc hready

theorem advance_trans {cfg : IntrConfig} (hcfg : cfg.Ready) {s s' : IntrSys η} {io : DriverIo}
    {alloc : Bool} {r : IntrResult η} (h : s.advance cfg io alloc = some (s', r)) :
    IntrTrans cfg s (.go io alloc) r s' := by
  have husr1 : sigusr1 ∈ cfg.table.sigmask := hcfg.stack (by decide)
  simp only [IntrSys.advance] at h
  split at h
  · rename_i hself
    rw [raise_masked husr1] at h
    cases h
    exact .selfRaised hself
  · rename_i hself
    rw [Bool.not_eq_true] at hself
    split at h
    · cases h
    · cases h
    · rename_i k hpc
      split at h
      · rename_i hk
        cases h
        exact .loopEnd hself hpc hk
      · rename_i proto hk
        split at h
        · rename_i hq
          cases h
          exact .loopNext hself hpc hk hq
        · rename_i entry rest hq
          cases h
          exact .called hself hpc hk hq
    · rename_i k hpc
      cases h
      exact .handlerReturn hself hpc
    · rename_i sig hpc
      cases h
      exact .dispatchEnd hself hpc
    · rename_i sig e rest hpc
      cases h
      by_cases he : e.irq = sig
      · rw [if_pos he]
        exact .dispatchCall hself hpc he
      · rw [if_neg he]
        exact .dispatchSkip hself hpc he
    · rename_i dev pfd sig rest hpc
      split at h
      · cases h
        exact .pollError hself hpc
      · cases h
        exact .isrAgain hself hpc
      · exact poll_trans hself hpc h
      · exact poll_trans hself hpc h

theorem serve_trans {cfg : IntrConfig} {s s' : IntrSys η} {i sig : Nat} {r : IntrResult η}
    (hpc : s.pc = .sigwait) (hi : s.pending[i]? = some sig)
    (h : ({ s with pending := s.pending.eraseIdx i } : IntrSys η).serve cfg sig = (s', r)) :
    IntrTrans cfg s (.sigwait i) r s' := by
  simp only [IntrSys.serve] at h
  split at h
  · rename_i hs
    cases h
    exact .usr1 hpc (hs ▸ hi)
  · rename_i h1
    split at h
    · rename_i hs
      cases h
      exact .served hpc hi (.inl hs) (.inl rfl)
    · rename_i h2
      split at h
      · rename_i hs
        cases h
        exact .served hpc hi (.inr hs) (.inr rfl)
      · rename_i h3
        cases h
        exact .irq hpc hi (by simp [stackSignals, h1, h2, h3])

theorem intr_trans {cfg : IntrConfig} (hcfg : cfg.Ready) {s s' : IntrSys η}
    (hopen : OpenListed cfg s) {a : IntrAction} {r : IntrResult η}
    (h : IntrSys.step cfg s a = some (s', r)) : IntrTrans cfg s a r s' := by
  have hsig : ∀ {sig}, sig ∈ stackSignals → sig ∈ cfg.table.sigmask := fun hs => hcfg.stack hs
  simp only [IntrSys.step] at h
  split at h
  · cases h
  · cases a with
    | frame dev frame kept =>
      simp only at h
      split at h
      · rename_i hup
        obtain ⟨e, he, hirq, -⟩ := hopen dev hup
        rw [raise_masked (hirq ▸ hcfg.waited e he)] at h
        cases h
        exact .frame hup
      · cases h
    | networkInputHandler alloc input =>
      cases h
      exact .input
    | raiseSoftirq =>
      simp only at h
      split at h
      · cases h
      · rename_i hr
        rw [raise_masked (hsig (by decide))] at h
        cases h
        exact .softirq hr
    | networkInterrupt =>
      cases h
      rw [raise_masked (hsig (by decide))]
      exact .signal (.inl rfl)
    | alarm =>
      cases h
      rw [raise_masked (hsig (by decide))]
      exact .signal (.inr rfl)
    | deviceOpen dev outcome =>
      simp only at h
      split at h
      · cases h
      · rename_i hup
        split at h
        · cases h
          exact .openFailed hup
        · split at h
          · rename_i hfree
            cases h
            exact .opened hup hfree
          · cases h
        · split at h
          · rename_i hfree
            cases h
            exact .openClosed hup hfree
          · cases h
    | deviceClose dev =>
      simp only at h
      split at h
      · cases h
      · rename_i n hfd
        split at h
        · rename_i hfile
          cases h
          exact .closed hfd hfile
        · cases h
    | fileOpen n =>
      simp only at h
      split at h
      · rename_i hfree
        cases h
        exact .fileOpened hfree
      · cases h
    | fileClose n =>
      simp only at h
      split at h
      · rename_i hfile
        cases h
        exact .fileClosed hfile
      · cases h
    | sigwait i =>
      simp only at h
      split at h
      · rename_i hpc
        split at h
        · cases h
        · rename_i sig hi
          exact serve_trans hpc hi (Option.some.inj h)
      · cases h
    | go io alloc => exact advance_trans hcfg h
    | handlerInput alloc input =>
      simp only at h
      split at h
      · rename_i k hpc
        split at h
        · cases h
        · rename_i hself
          rw [Bool.not_eq_true] at hself
          cases h
          exact .handlerInput hself hpc
      · cases h

end

end LLNStack
