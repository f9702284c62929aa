import LLNStack.Lib.Run
import LLNStack.Lib.Keyed

/-!
# LLNStack.Intr.Irq

The interrupt table of `interrupt.c`. An interrupt is a signal; `intr_request_irq` enters a handler
for it and adds it to the set of signals that the interrupt thread waits for.

Two handlers share an interrupt only if both asked for that. After `intr_init`, whatever is
requested, every interrupt of the table is waited for, besides the three signals of the stack; but
the set is emptied by another `intr_init`, while the table is not.
-/

namespace LLNStack

open Lib

def sigusr1 : Nat := 10
def sigusr2 : Nat := 12
def sigalrm : Nat := 14
def sigrtmin : Nat := 34

def ValidSignal (sig : Nat) : Prop := 1 ≤ sig ∧ sig ≤ 64

instance (sig : Nat) : Decidable (ValidSignal sig) := inferInstanceAs (Decidable (_ ∧ _))

/-- `sigaddset` fails on what is no signal and leaves the set as it was. -/
def sigaddset (mask : Finset Nat) (sig : Nat) : Finset Nat :=
  if ValidSignal sig then insert sig mask else mask

def networkIrqShared : BitVec 32 := 0x0001#32

inductive IrqHandler where
  | etherTapIsr
  | etherPcapIsr
  deriving DecidableEq, Repr

def etherTapIrq : Nat := sigrtmin + 2
def etherPcapIrq : Nat := sigrtmin + 3

/-- `struct irq_entry`; the device is known by its index. -/
structure IrqEntry where
  irq : Nat
  handler : IrqHandler
  flags : BitVec 32
  dev : Nat
  deriving DecidableEq, Repr

/-- The globals of `interrupt.c`. -/
structure IrqTable where
  irqVec : List IrqEntry
  sigmask : Finset Nat
  deriving DecidableEq

/-- Static storage. -/
def IrqTable.zero : IrqTable := ⟨[], ∅⟩

def intrInit (t : IrqTable) : IrqTable :=
  { t with sigmask := sigaddset (sigaddset (sigaddset ∅ sigusr1) sigusr2) sigalrm }

/-- The test of `intr_request_irq` against one entry. -/
def IrqEntry.conflicts (entry : IrqEntry) (irq : Nat) (flags : BitVec 32) : Bool :=
  entry.irq = irq &&
    ((entry.flags ^^^ networkIrqShared) != 0#32 || (flags ^^^ networkIrqShared) != 0#32)

/-- `alloc`: whether the entry can be allocated. -/
def intrRequestIrq (alloc : Bool) (e : IrqEntry) (t : IrqTable) : IrqTable × Int :=
  if t.irqVec.any (·.conflicts e.irq e.flags) then (t, -1)
  else if alloc then (⟨e :: t.irqVec, sigaddset t.sigmask e.irq⟩, 0)
  else (t, -1)

/-! ## One request -/

inductive IrqAction where
  | intrInit
  | intrRequestIrq (alloc : Bool) (e : IrqEntry)
  deriving DecidableEq, Repr

def IrqTable.step (t : IrqTable) : IrqAction → Option (IrqTable × Int)
  | .intrInit => some (LLNStack.intrInit t, 0)
  | .intrRequestIrq alloc e => some (LLNStack.intrRequestIrq alloc e t)

abbrev IrqTable.Step : IrqTable → IrqAction × Int → IrqTable → Prop := stepRel IrqTable.step

def stackSignals : Finset Nat := {sigusr1, sigusr2, sigalrm}

def tapEntry (dev : Nat) : IrqEntry := ⟨etherTapIrq, .etherTapIsr, networkIrqShared, dev⟩

end LLNStack
