import LLNStack.Queue

/-!
# LLNStack.Net.Race

The queues of the protocols have no lock. An application that sends to the loopback device runs
`network_input_handler`, and so `queue_push`, on its own thread, while the interrupt thread runs
`queue_pop` in `network_protocol_handler` and `queue_push` for the frames it receives. Here two such
calls run in parallel on one queue, and a step of a call is one access to shared memory. `num++` and
`num--` are two accesses; the code does not depend on the count, but `net.c` prints it after a push
and a pop.

* `push_alone`, `pop_alone`: a call that runs alone is `queuePush` or `queuePop`.
* `push_pop_race`: a push and a pop in parallel treat the entries like one after the other, unless
  the queue holds a single entry; the count can be wrong afterwards for every queue.
* `push_push_race`: of two pushes in parallel, one can be lost, whatever the queue holds.
-/

namespace LLNStack

open Lib

structure SharedQueue (α δ : Type) where
  heap : α → Option (QueueEntry α δ)
  queue : QueueHead α

/-- The access that a call makes next. A push carries its entry and the data, a pop the entry it
takes. -/
inductive QueuePc (α δ : Type) where
  /-- `if (queue->tail)` -/
  | pushTail (c : α × Option δ)
  /-- `queue->tail->next = entry`, the load of the tail -/
  | pushLoad (c : α × Option δ)
  /-- and the store to its `next`. -/
  | pushLink (c : α × Option δ) (tail : α)
  | pushSetTail (c : α × Option δ)
  /-- `if (!queue->head)` -/
  | pushHead (c : α × Option δ)
  | pushSetHead (c : α × Option δ)
  /-- `queue->num++`, the load -/
  | pushCount (c : α × Option δ)
  /-- and the store. -/
  | pushSetCount (c : α × Option δ) (num : BitVec 32)
  /-- `if (!queue || !queue->head)` -/
  | popHead
  /-- `entry = queue->head` -/
  | popLoad
  /-- `queue->head = entry->next`, the load of `next` -/
  | popNext (entry : α)
  /-- and the store to the head. -/
  | popSetHead (entry : α) (next : Option α)
  /-- `if (!queue->head)` -/
  | popEmpty (entry : α)
  | popSetTail (entry : α)
  /-- `queue->num--`, the load -/
  | popCount (entry : α)
  /-- and the store. -/
  | popSetCount (entry : α) (num : BitVec 32)
  | popData (entry : α)
  | popFree (entry : α) (data : Option δ)
  /-- The call has returned. -/
  | done (data : Option δ)
  /-- A pointer that is NULL, or to memory that is not allocated, was followed. -/
  | fault

namespace QueuePc

variable {α δ : Type} [DecidableEq α]

def step (m : SharedQueue α δ) : QueuePc α δ → Option (SharedQueue α δ × QueuePc α δ)
  | .pushTail c =>
    match m.queue.tail with
    | none => some (m, .pushSetTail c)
    | some _ => some (m, .pushLoad c)
  | .pushLoad c =>
    match m.queue.tail with
    | none => some (m, .fault)
    | some tail => some (m, .pushLink c tail)
  | .pushLink c tail =>
    match setNext m.heap tail (some c.1) with
    | none => some (m, .fault)
    | some heap => some ({ m with heap := heap }, .pushSetTail c)
  | .pushSetTail c => some ({ m with queue := { m.queue with tail := some c.1 } }, .pushHead c)
  | .pushHead c =>
    match m.queue.head with
    | none => some (m, .pushSetHead c)
    | some _ => some (m, .pushCount c)
  | .pushSetHead c => some ({ m with queue := { m.queue with head := some c.1 } }, .pushCount c)
  | .pushCount c => some (m, .pushSetCount c m.queue.num)
  | .pushSetCount c num => some ({ m with queue := { m.queue with num := num + 1 } }, .done c.2)
  | .popHead =>
    match m.queue.head with
    | none => some (m, .done none)
    | some _ => some (m, .popLoad)
  | .popLoad =>
    match m.queue.head with
    | none => some (m, .fault)
    | some entry => some (m, .popNext entry)
  | .popNext entry =>
    match m.heap entry with
    | none => some (m, .fault)
    | some e => some (m, .popSetHead entry e.next)
  | .popSetHead entry next =>
    some ({ m with queue := { m.queue with head := next } }, .popEmpty entry)
  | .popEmpty entry =>
    match m.queue.head with
    | none => some (m, .popSetTail entry)
    | some _ => some (m, .popCount entry)
  | .popSetTail entry => some ({ m with queue := { m.queue with tail := none } }, .popCount entry)
  | .popCount entry => some (m, .popSetCount entry m.queue.num)
  | .popSetCount entry num =>
    some ({ m with queue := { m.queue with num := num - 1 } }, .popData entry)
  | .popData entry =>
    match m.heap entry with
    | none => some (m, .fault)
    | some e => some (m, .popFree entry e.data)
  | .popFree entry data =>
    match m.heap entry with
    | none => some (m, .fault)
    | some _ => some ({ m with heap := Function.update m.heap entry none }, .done data)
  | .done _ => none
  | .fault => none

/-- The number of accesses a call has left, at most. -/
def left : QueuePc α δ → Nat
  | .pushTail _ => 8
  | .pushLoad _ => 7
  | .pushLink _ _ => 6
  | .pushSetTail _ => 5
  | .pushHead _ => 4
  | .pushSetHead _ => 3
  | .pushCount _ => 2
  | .pushSetCount _ _ => 1
  | .popHead => 10
  | .popLoad => 9
  | .popNext _ => 8
  | .popSetHead _ _ => 7
  | .popEmpty _ => 6
  | .popSetTail _ => 5
  | .popCount _ => 4
  | .popSetCount _ _ => 3
  | .popData _ => 2
  | .popFree _ _ => 1
  | .done _ | .fault => 0

end QueuePc

/-- `memory_alloc` and the initialisation of an entry, before it is shared. -/
def SharedQueue.alloc {α δ : Type} [DecidableEq α] (m : SharedQueue α δ) (c : α × Option δ) :
    SharedQueue α δ :=
  { m with heap := Function.update m.heap c.1 (some ⟨none, c.2⟩) }

/-! ## A call alone -/

section Alone

variable {α δ : Type} [DecidableEq α]

def QueuePc.run (m : SharedQueue α δ) : Nat → QueuePc α δ → SharedQueue α δ × QueuePc α δ
  | 0, pc => (m, pc)
  | fuel + 1, pc =>
    match pc.step m with
    | none => (m, pc)
    | some (m', pc') => pc'.run m' fuel

/-- What a call that is over has done; `none` if it has faulted. -/
def QueuePc.outcome : SharedQueue α δ × QueuePc α δ → Option (SharedQueue α δ × Option δ)
  | (m, .done data) => some (m, data)
  | _ => none

/-- The same memory, with the heads of one queue. -/
def SharedQueue.toMem (m : SharedQueue α δ) : QueueMem Unit α δ := ⟨m.heap, fun _ => m.queue⟩

def SharedQueue.ofCall (r : QueueMem Unit α δ × Option δ) : SharedQueue α δ × Option δ :=
  (⟨r.1.heap, r.1.heads ()⟩, r.2)

theorem push_alone (m : SharedQueue α δ) (c : α × Option δ) :
    QueuePc.outcome (QueuePc.run (m.alloc c) 8 (.pushTail c)) =
      (queuePush m.toMem (some ()) c.2 (some c.1)).map SharedQueue.ofCall := by
  obtain ⟨heap, head, tail, num⟩ := m
  simp only [SharedQueue.alloc, SharedQueue.toMem, queuePush]
  generalize Function.update heap c.1 (some ⟨none, c.2⟩) = heap
  cases tail with
  | none =>
    cases head with
    | none => simp [QueuePc.run, QueuePc.step, QueuePc.outcome, SharedQueue.ofCall]
    | some h => simp [QueuePc.run, QueuePc.step, QueuePc.outcome, SharedQueue.ofCall]
  | some t =>
    cases hlink : setNext heap t (some c.1) with
    | none => simp [QueuePc.run, QueuePc.step, QueuePc.outcome, hlink]
    | some heap' =>
      cases head with
      | none => simp [QueuePc.run, QueuePc.step, QueuePc.outcome, SharedQueue.ofCall, hlink]
      | some h => simp [QueuePc.run, QueuePc.step, QueuePc.outcome, SharedQueue.ofCall, hlink]

theorem pop_alone (m : SharedQueue α δ) :
    QueuePc.outcome (QueuePc.run m 10 .popHead) =
      (queuePop m.toMem (some ())).map SharedQueue.ofCall := by
  obtain ⟨heap, head, tail, num⟩ := m
  simp only [SharedQueue.toMem, queuePop]
  cases head with
  | none => simp [QueuePc.run, QueuePc.step, QueuePc.outcome, SharedQueue.ofCall]
  | some h =>
    cases hnode : heap h with
    | none => simp [QueuePc.run, QueuePc.step, QueuePc.outcome, hnode]
    | some e =>
      obtain ⟨next, data⟩ := e
      cases next with
      | none => simp [QueuePc.run, QueuePc.step, QueuePc.outcome, SharedQueue.ofCall, hnode]
      | some n => simp [QueuePc.run, QueuePc.step, QueuePc.outcome, SharedQueue.ofCall, hnode]

end Alone

/-! ## Two calls in parallel -/

structure Parallel (α δ : Type) where
  mem : SharedQueue α δ
  first : QueuePc α δ
  second : QueuePc α δ

namespace Parallel

variable {α δ : Type} [DecidableEq α]

def step (s : Parallel α δ) : Bool → Option (Parallel α δ × Unit)
  | false => (s.first.step s.mem).map fun r => ({ s with mem := r.1, first := r.2 }, ())
  | true => (s.second.step s.mem).map fun r => ({ s with mem := r.1, second := r.2 }, ())

abbrev Step : Parallel α δ → Bool × Unit → Parallel α δ → Prop := stepRel step

def Ended (s : Parallel α δ) : Prop := s.first.step s.mem = none ∧ s.second.step s.mem = none

def pushPop (m : SharedQueue α δ) (c : α × Option δ) : Parallel α δ :=
  ⟨m.alloc c, .pushTail c, .popHead⟩

def pushPush (m : SharedQueue α δ) (c c' : α × Option δ) : Parallel α δ :=
  ⟨(m.alloc c).alloc c', .pushTail c, .pushTail c'⟩

end Parallel

/-- The entries of the queue are `cells`, in order. -/
structure SharedQueue.Lists {α δ : Type} (m : SharedQueue α δ) (cells : List (α × Option δ)) :
    Prop where
  chain : Chain m.heap m.queue.head cells
  tail : m.queue.tail = cells.getLast?.map Prod.fst

/-- What a pop returns. -/
def poppedFrom {α δ : Type} (cells : List (α × Option δ)) : Option δ :=
  (cells.head?.map Prod.snd).join

/-- Both calls have returned, as if one had been made before the other. -/
def Parallel.Sequential {α δ : Type} (s : Parallel α δ) (cells : List (α × Option δ))
    (c : α × Option δ) : Prop :=
  s.first = .done c.2 ∧
    ((s.second = .done (poppedFrom cells) ∧ s.mem.Lists (cells.tail ++ [c])) ∨
      (s.second = .done (poppedFrom (cells ++ [c])) ∧ s.mem.Lists (cells ++ [c]).tail))

section Steps

variable {α δ : Type} [DecidableEq α]

theorem QueuePc.step_left {m m' : SharedQueue α δ} {pc pc' : QueuePc α δ}
    (h : pc.step m = some (m', pc')) : pc'.left < pc.left := by
  cases pc with
  | pushSetTail c | pushSetHead c | pushCount c | pushSetCount c n | popSetHead e n
  | popSetTail e | popCount e | popSetCount e n =>
    cases h
    simp [left]
  | pushTail c | pushLoad c | pushLink c t | pushHead c | popHead | popLoad | popNext e
  | popEmpty e | popData e | popFree e d =>
    simp only [step] at h
    split at h <;> cases h <;> simp [left]
  | done d => cases h
  | fault => cases h

theorem QueuePc.ended {m : SharedQueue α δ} {pc : QueuePc α δ} (h : pc.step m = none) :
    (∃ data, pc = .done data) ∨ pc = .fault := by
  cases pc with
  | pushSetTail c | pushSetHead c | pushCount c | pushSetCount c n | popSetHead e n
  | popSetTail e | popCount e | popSetCount e n =>
    cases h
  | pushTail c | pushLoad c | pushLink c t | pushHead c | popHead | popLoad | popNext e
  | popEmpty e | popData e | popFree e d =>
    simp only [step] at h
    split at h <;> cases h
  | done d => exact .inl ⟨d, rfl⟩
  | fault => exact .inr rfl

inductive ParallelTrans (s : Parallel α δ) : Parallel α δ → Prop where
  | first {m : SharedQueue α δ} {pc : QueuePc α δ} : s.first.step s.mem = some (m, pc) →
      ParallelTrans s { s with mem := m, first := pc }
  | second {m : SharedQueue α δ} {pc : QueuePc α δ} : s.second.step s.mem = some (m, pc) →
      ParallelTrans s { s with mem := m, second := pc }

theorem parallel_trans {s s' : Parallel α δ} {l : Bool × Unit} (h : Parallel.Step s l s') :
    ParallelTrans s s' := by
  obtain ⟨turn, u⟩ := l
  have hstep : s.step turn = some (s', u) := h
  cases turn with
  | false =>
    obtain ⟨r, hr, heq⟩ := Option.map_eq_some_iff.mp hstep
    cases heq
    exact .first hr
  | true =>
    obtain ⟨r, hr, heq⟩ := Option.map_eq_some_iff.mp hstep
    cases heq
    exact .second hr

theorem Parallel.run_left {s₀ s : Parallel α δ} {tr : List (Bool × Unit)}
    (h : Run Parallel.Step s₀ tr s) :
    tr.length + (s.first.left + s.second.left) ≤ s₀.first.left + s₀.second.left := by
  refine h.history (P := fun tr s => tr.length + (s.first.left + s.second.left) ≤
    s₀.first.left + s₀.second.left) (by simp) fun tr s l s' _ ih hl => ?_
  rw [List.length_append, List.length_singleton]
  cases parallel_trans hl with
  | first hpc =>
    have hless := QueuePc.step_left hpc
    simp only
    omega
  | second hpc =>
    have hless := QueuePc.step_left hpc
    simp only
    omega

end Steps

/-! ## A push and a pop on a long queue -/

section Long

variable {α δ : Type}

/-- How far the push of `c` behind the entry `z` with data `y` is, with the tail of the queue and
the contents of `z`. -/
inductive PushPhase (c : α × Option δ) (z : α) (y : Option δ) :
    QueuePc α δ → Option α → Option (QueueEntry α δ) → Prop where
  | test : PushPhase c z y (.pushTail c) (some z) (some ⟨none, y⟩)
  | load : PushPhase c z y (.pushLoad c) (some z) (some ⟨none, y⟩)
  | link : PushPhase c z y (.pushLink c z) (some z) (some ⟨none, y⟩)
  | setTail : PushPhase c z y (.pushSetTail c) (some z) (some ⟨some c.1, y⟩)
  | head : PushPhase c z y (.pushHead c) (some c.1) (some ⟨some c.1, y⟩)
  | count : PushPhase c z y (.pushCount c) (some c.1) (some ⟨some c.1, y⟩)
  | setCount (num : BitVec 32) :
      PushPhase c z y (.pushSetCount c num) (some c.1) (some ⟨some c.1, y⟩)
  | done : PushPhase c z y (.done c.2) (some c.1) (some ⟨some c.1, y⟩)

/-- How far the pop of the entry `a` with data `x` in front of `b` is, with the head of the queue
and the contents of `a`. -/
inductive PopPhase (a b : α) (x : Option δ) :
    QueuePc α δ → Option α → Option (QueueEntry α δ) → Prop where
  | head : PopPhase a b x .popHead (some a) (some ⟨some b, x⟩)
  | load : PopPhase a b x .popLoad (some a) (some ⟨some b, x⟩)
  | next : PopPhase a b x (.popNext a) (some a) (some ⟨some b, x⟩)
  | setHead : PopPhase a b x (.popSetHead a (some b)) (some a) (some ⟨some b, x⟩)
  | empty : PopPhase a b x (.popEmpty a) (some b) (some ⟨some b, x⟩)
  | count : PopPhase a b x (.popCount a) (some b) (some ⟨some b, x⟩)
  | setCount (num : BitVec 32) : PopPhase a b x (.popSetCount a num) (some b) (some ⟨some b, x⟩)
  | data : PopPhase a b x (.popData a) (some b) (some ⟨some b, x⟩)
  | free : PopPhase a b x (.popFree a x) (some b) (some ⟨some b, x⟩)
  | done : PopPhase a b x (.done x) (some b) none

/-- The two calls work at different ends: the push at the tail and the entry `z`, the pop at the
head and the entry `a`. -/
structure LongInv (heap : α → Option (QueueEntry α δ)) (c : α × Option δ) (a b z : α)
    (x y : Option δ) (s : Parallel α δ) : Prop where
  push : PushPhase c z y s.first s.mem.queue.tail (s.mem.heap z)
  pop : PopPhase a b x s.second s.mem.queue.head (s.mem.heap a)
  frame : ∀ q, q ≠ a → q ≠ z → s.mem.heap q = heap q

theorem PopPhase.head_some {a b : α} {x : Option δ} {pc : QueuePc α δ} {head : Option α}
    {node : Option (QueueEntry α δ)} (h : PopPhase a b x pc head node) : ∃ q, head = some q := by
  cases h <;> exact ⟨_, rfl⟩

variable [DecidableEq α] {heap : α → Option (QueueEntry α δ)} {c : α × Option δ} {a b z : α}
  {x y : Option δ}

theorem push_phase {m m' : SharedQueue α δ} {pc pc' : QueuePc α δ} {head : α}
    (h : PushPhase c z y pc m.queue.tail (m.heap z)) (hhead : m.queue.head = some head)
    (hstep : pc.step m = some (m', pc')) :
    PushPhase c z y pc' m'.queue.tail (m'.heap z) ∧ m'.queue.head = m.queue.head ∧
      ∀ q, q ≠ z → m'.heap q = m.heap q := by
  generalize htail : m.queue.tail = tail at h
  generalize hnode : m.heap z = node at h
  cases h with
  | test =>
    simp only [QueuePc.step, htail] at hstep
    cases hstep
    rw [htail, hnode]
    exact ⟨.load, rfl, fun _ _ => rfl⟩
  | load =>
    simp only [QueuePc.step, htail] at hstep
    cases hstep
    rw [htail, hnode]
    exact ⟨.link, rfl, fun _ _ => rfl⟩
  | link =>
    simp only [QueuePc.step, setNext, hnode] at hstep
    cases hstep
    refine ⟨?_, rfl, fun q hq => Function.update_of_ne hq _ _⟩
    simp only [htail, Function.update_self]
    exact .setTail
  | setTail =>
    cases hstep
    rw [hnode]
    exact ⟨.head, rfl, fun _ _ => rfl⟩
  | head =>
    simp only [QueuePc.step, hhead] at hstep
    cases hstep
    rw [htail, hnode]
    exact ⟨.count, rfl, fun _ _ => rfl⟩
  | count =>
    cases hstep
    rw [htail, hnode]
    exact ⟨.setCount _, rfl, fun _ _ => rfl⟩
  | setCount num =>
    cases hstep
    rw [htail, hnode]
    exact ⟨.done, rfl, fun _ _ => rfl⟩
  | done => cases hstep

theorem pop_phase {m m' : SharedQueue α δ} {pc pc' : QueuePc α δ}
    (h : PopPhase a b x pc m.queue.head (m.heap a)) (hstep : pc.step m = some (m', pc')) :
    PopPhase a b x pc' m'.queue.head (m'.heap a) ∧ m'.queue.tail = m.queue.tail ∧
      ∀ q, q ≠ a → m'.heap q = m.heap q := by
  generalize hhead : m.queue.head = head at h
  generalize hnode : m.heap a = node at h
  cases h with
  | head =>
    simp only [QueuePc.step, hhead] at hstep
    cases hstep
    rw [hhead, hnode]
    exact ⟨.load, rfl, fun _ _ => rfl⟩
  | load =>
    simp only [QueuePc.step, hhead] at hstep
    cases hstep
    rw [hhead, hnode]
    exact ⟨.next, rfl, fun _ _ => rfl⟩
  | next =>
    simp only [QueuePc.step, hnode] at hstep
    cases hstep
    rw [hhead, hnode]
    exact ⟨.setHead, rfl, fun _ _ => rfl⟩
  | setHead =>
    cases hstep
    rw [hnode]
    exact ⟨.empty, rfl, fun _ _ => rfl⟩
  | empty =>
    simp only [QueuePc.step, hhead] at hstep
    cases hstep
    rw [hhead, hnode]
    exact ⟨.count, rfl, fun _ _ => rfl⟩
  | count =>
    cases hstep
    rw [hhead, hnode]
    exact ⟨.setCount _, rfl, fun _ _ => rfl⟩
  | setCount num =>
    cases hstep
    rw [hhead, hnode]
    exact ⟨.data, rfl, fun _ _ => rfl⟩
  | data =>
    simp only [QueuePc.step, hnode] at hstep
    cases hstep
    rw [hhead, hnode]
    exact ⟨.free, rfl, fun _ _ => rfl⟩
  | free =>
    simp only [QueuePc.step, hnode] at hstep
    cases hstep
    refine ⟨?_, rfl, fun q hq => Function.update_of_ne hq _ _⟩
    simp only [hhead, Function.update_self]
    exact .done
  | done => cases hstep

theorem long_step {s s' : Parallel α δ} {l : Bool × Unit} (haz : a ≠ z)
    (h : LongInv heap c a b z x y s) (hl : Parallel.Step s l s') :
    LongInv heap c a b z x y s' := by
  cases parallel_trans hl with
  | first hpc =>
    obtain ⟨head, hhead⟩ := h.pop.head_some
    obtain ⟨hphase, hsame, hframe⟩ := push_phase h.push hhead hpc
    refine ⟨hphase, ?_, fun q hqa hqz => (hframe q hqz).trans (h.frame q hqa hqz)⟩
    simp only
    rw [hsame, hframe a haz]
    exact h.pop
  | second hpc =>
    obtain ⟨hphase, hsame, hframe⟩ := pop_phase h.pop hpc
    refine ⟨?_, hphase, fun q hqa hqz => (hframe q hqa).trans (h.frame q hqa hqz)⟩
    simp only
    rw [hsame, hframe z haz.symm]
    exact h.push

theorem long_sequential {m : SharedQueue α δ} {s : Parallel α δ} {mid : List (α × Option δ)}
    (hc : m.heap c.1 = none) (hrest : Chain m.heap (some b) (mid ++ [(z, y)]))
    (ha : a ∉ (mid ++ [(z, y)]).map Prod.fst) (hac : a ≠ c.1)
    (h : LongInv (m.alloc c).heap c a b z x y s) (hend : s.Ended) :
    s.Sequential ((a, x) :: (mid ++ [(z, y)])) c := by
  have hpush := h.push
  have hpop := h.pop
  rcases QueuePc.ended hend.1 with ⟨d, hd⟩ | hfault
  · rcases QueuePc.ended hend.2 with ⟨d', hd'⟩ | hfault
    · rw [hd] at hpush
      rw [hd'] at hpop
      generalize htail : s.mem.queue.tail = tail at hpush
      generalize hnode : s.mem.heap z = node at hpush
      generalize hhead : s.mem.queue.head = head at hpop
      generalize s.mem.heap a = freed at hpop
      cases hpush
      cases hpop
      refine ⟨hd, .inl ⟨hd', ?_, ?_⟩⟩
      · rw [hhead]
        refine (hrest.snoc (y := c.2) hc).frame fun q hq => ?_
        by_cases hqz : q.1 = z
        · rw [hqz, hnode, Function.update_self]
        · rw [Function.update_of_ne hqz]
          refine h.frame q.1 ?_ hqz
          rintro rfl
          rcases List.mem_append.mp hq with hq | hq
          · exact ha (List.mem_map_of_mem hq)
          · rw [List.mem_singleton.mp hq] at hac
            exact hac rfl
      · rw [htail]
        simp
    · rw [hfault] at hpop
      cases hpop
  · rw [hfault] at hpush
    cases hpush

end Long

/-! ## A push and a pop on an empty queue -/

section Empty

variable {α δ : Type}

/-- The push before it sets the head, with the tail. -/
inductive PushFirst (c : α × Option δ) : QueuePc α δ → Option α → Prop where
  | test : PushFirst c (.pushTail c) none
  | setTail : PushFirst c (.pushSetTail c) none
  | head : PushFirst c (.pushHead c) (some c.1)
  | setHead : PushFirst c (.pushSetHead c) (some c.1)

/-- The push when it has set the head. -/
inductive PushOver (c : α × Option δ) : QueuePc α δ → Prop where
  | count : PushOver c (.pushCount c)
  | setCount (num : BitVec 32) : PushOver c (.pushSetCount c num)
  | done : PushOver c (.done c.2)

/-- The pop that takes the new entry, with the head, the tail and the contents of the entry. -/
inductive PopOnly (c : α × Option δ) :
    QueuePc α δ → Option α → Option α → Option (QueueEntry α δ) → Prop where
  | head : PopOnly c .popHead (some c.1) (some c.1) (some ⟨none, c.2⟩)
  | load : PopOnly c .popLoad (some c.1) (some c.1) (some ⟨none, c.2⟩)
  | next : PopOnly c (.popNext c.1) (some c.1) (some c.1) (some ⟨none, c.2⟩)
  | setHead : PopOnly c (.popSetHead c.1 none) (some c.1) (some c.1) (some ⟨none, c.2⟩)
  | empty : PopOnly c (.popEmpty c.1) none (some c.1) (some ⟨none, c.2⟩)
  | setTail : PopOnly c (.popSetTail c.1) none (some c.1) (some ⟨none, c.2⟩)
  | count : PopOnly c (.popCount c.1) none none (some ⟨none, c.2⟩)
  | setCount (num : BitVec 32) : PopOnly c (.popSetCount c.1 num) none none (some ⟨none, c.2⟩)
  | data : PopOnly c (.popData c.1) none none (some ⟨none, c.2⟩)
  | free : PopOnly c (.popFree c.1 c.2) none none (some ⟨none, c.2⟩)
  | done : PopOnly c (.done c.2) none none none

/-- The head is the last thing the push writes and the first thing the pop reads: the pop finds
nothing, or it finds the entry when the push has no more to do with it. -/
inductive EmptyInv (c : α × Option δ) (s : Parallel α δ) : Prop where
  | before : PushFirst c s.first s.mem.queue.tail → s.mem.queue.head = none →
      s.mem.heap c.1 = some ⟨none, c.2⟩ → s.second = .popHead ∨ s.second = .done none →
      EmptyInv c s
  | missed : PushOver c s.first → s.second = .done none → s.mem.queue.head = some c.1 →
      s.mem.queue.tail = some c.1 → s.mem.heap c.1 = some ⟨none, c.2⟩ → EmptyInv c s
  | found : PushOver c s.first →
      PopOnly c s.second s.mem.queue.head s.mem.queue.tail (s.mem.heap c.1) → EmptyInv c s

variable [DecidableEq α] {c : α × Option δ}

theorem pop_only {m m' : SharedQueue α δ} {pc pc' : QueuePc α δ}
    (h : PopOnly c pc m.queue.head m.queue.tail (m.heap c.1))
    (hstep : pc.step m = some (m', pc')) :
    PopOnly c pc' m'.queue.head m'.queue.tail (m'.heap c.1) := by
  generalize hhead : m.queue.head = head at h
  generalize htail : m.queue.tail = tail at h
  generalize hnode : m.heap c.1 = node at h
  cases h with
  | head =>
    simp only [QueuePc.step, hhead] at hstep
    cases hstep
    rw [hhead, htail, hnode]
    exact .load
  | load =>
    simp only [QueuePc.step, hhead] at hstep
    cases hstep
    rw [hhead, htail, hnode]
    exact .next
  | next =>
    simp only [QueuePc.step, hnode] at hstep
    cases hstep
    rw [hhead, htail, hnode]
    exact .setHead
  | setHead =>
    cases hstep
    rw [htail, hnode]
    exact .empty
  | empty =>
    simp only [QueuePc.step, hhead] at hstep
    cases hstep
    rw [hhead, htail, hnode]
    exact .setTail
  | setTail =>
    cases hstep
    rw [hhead, hnode]
    exact .count
  | count =>
    cases hstep
    rw [hhead, htail, hnode]
    exact .setCount _
  | setCount num =>
    cases hstep
    rw [hhead, htail, hnode]
    exact .data
  | data =>
    simp only [QueuePc.step, hnode] at hstep
    cases hstep
    rw [hhead, htail, hnode]
    exact .free
  | free =>
    simp only [QueuePc.step, hnode] at hstep
    cases hstep
    simp only [hhead, htail, Function.update_self]
    exact .done
  | done => cases hstep

/-- The rest of the push changes nothing but the count. -/
theorem push_over {m m' : SharedQueue α δ} {pc pc' : QueuePc α δ} (h : PushOver c pc)
    (hstep : pc.step m = some (m', pc')) :
    PushOver c pc' ∧ m'.queue.head = m.queue.head ∧ m'.queue.tail = m.queue.tail ∧
      m'.heap = m.heap := by
  cases h with
  | count =>
    cases hstep
    exact ⟨.setCount _, rfl, rfl, rfl⟩
  | setCount num =>
    cases hstep
    exact ⟨.done, rfl, rfl, rfl⟩
  | done => cases hstep

theorem empty_step {s s' : Parallel α δ} {l : Bool × Unit} (h : EmptyInv c s)
    (hl : Parallel.Step s l s') : EmptyInv c s' := by
  cases h with
  | before hfirst hhead hnode hsecond =>
    cases parallel_trans hl with
    | second hpc =>
      rcases hsecond with hsecond | hsecond
      · rw [hsecond] at hpc
        simp only [QueuePc.step, hhead] at hpc
        cases hpc
        exact .before hfirst hhead hnode (.inr rfl)
      · rw [hsecond] at hpc
        cases hpc
    | first hpc =>
      generalize htail : s.mem.queue.tail = tail at hfirst
      generalize hpush : s.first = push at hfirst hpc
      cases hfirst with
      | test =>
        simp only [QueuePc.step, htail] at hpc
        cases hpc
        refine .before ?_ hhead hnode hsecond
        simp only [htail]
        exact .setTail
      | setTail =>
        cases hpc
        exact .before .head hhead hnode hsecond
      | head =>
        simp only [QueuePc.step, hhead] at hpc
        cases hpc
        refine .before ?_ hhead hnode hsecond
        simp only [htail]
        exact .setHead
      | setHead =>
        cases hpc
        rcases hsecond with hsecond | hsecond
        · refine .found .count ?_
          simp only [htail, hnode, hsecond]
          exact .head
        · exact .missed .count hsecond rfl htail hnode
  | missed hfirst hsecond hhead htail hnode =>
    cases parallel_trans hl with
    | first hpc =>
      obtain ⟨hover, hh, ht, hheap⟩ := push_over hfirst hpc
      exact .missed hover hsecond (hh.trans hhead) (ht.trans htail) (by simp only [hheap, hnode])
    | second hpc =>
      rw [hsecond] at hpc
      cases hpc
  | found hfirst hsecond =>
    cases parallel_trans hl with
    | first hpc =>
      obtain ⟨hover, hh, ht, hheap⟩ := push_over hfirst hpc
      refine .found hover ?_
      simp only [hh, ht, hheap]
      exact hsecond
    | second hpc => exact .found hfirst (pop_only hsecond hpc)

theorem empty_sequential {s : Parallel α δ} (h : EmptyInv c s) (hend : s.Ended) :
    s.Sequential [] c := by
  have hover : ∀ {pc : QueuePc α δ} {m : SharedQueue α δ}, PushOver c pc → pc.step m = none →
      pc = .done c.2 := by
    intro pc m hpc hnone
    cases hpc with
    | count => cases hnone
    | setCount num => cases hnone
    | done => rfl
  cases h with
  | before hfirst hhead hnode hsecond =>
    rcases QueuePc.ended hend.1 with ⟨d, hd⟩ | hfault
    · rw [hd] at hfirst
      cases hfirst
    · rw [hfault] at hfirst
      cases hfirst
  | missed hfirst hsecond hhead htail hnode =>
    refine ⟨hover hfirst hend.1, .inl ⟨hsecond, ?_, htail⟩⟩
    exact ⟨hhead, none, hnode, rfl⟩
  | found hfirst hsecond =>
    refine ⟨hover hfirst hend.1, .inr ?_⟩
    rcases QueuePc.ended hend.2 with ⟨d, hd⟩ | hfault
    · rw [hd] at hsecond
      generalize hhead : s.mem.queue.head = head at hsecond
      generalize htail : s.mem.queue.tail = tail at hsecond
      generalize s.mem.heap c.1 = freed at hsecond
      cases hsecond
      exact ⟨hd, hhead, htail⟩
    · rw [hfault] at hsecond
      cases hsecond

end Empty

/-! ## Lost entries -/

section Lost

variable {α δ : Type}

theorem Chain.last {heap : α → Option (QueueEntry α δ)} {p : Option α}
    {cells : List (α × Option δ)} {z : α} {y : Option δ} (h : Chain heap p (cells ++ [(z, y)])) :
    heap z = some ⟨none, y⟩ := by
  obtain ⟨-, next, hnode, hnext⟩ := h.of_append
  rw [hnode, show next = none from hnext]

/-- A queue with two entries or more, seen from its ends: the first entry `a` is in front of `b` and
is not the last entry `z`, and neither is at the address `p`. -/
structure SharedQueue.Ends (m : SharedQueue α δ) (p a b z : α) (x y : Option δ)
    (mid : List (α × Option δ)) : Prop where
  head : m.queue.head = some a
  tail : m.queue.tail = some z
  first : m.heap a = some ⟨some b, x⟩
  last : m.heap z = some ⟨none, y⟩
  rest : Chain m.heap (some b) (mid ++ [(z, y)])
  single : a ∉ (mid ++ [(z, y)]).map Prod.fst
  distinct : a ≠ z ∧ a ≠ p ∧ z ≠ p

theorem SharedQueue.Lists.ends {m : SharedQueue α δ} {p a z : α} {x y : Option δ}
    {mid : List (α × Option δ)} (hm : m.Lists ((a, x) :: (mid ++ [(z, y)])))
    (hp : m.heap p = none) : ∃ b, m.Ends p a b z x y mid := by
  have hnodup := hm.chain.nodup
  obtain ⟨hhead, next, hnode, hrest⟩ := hm.chain
  obtain ⟨b, rfl⟩ : ∃ b, next = some b := by
    rw [← Option.ne_none_iff_exists', Ne, hrest.eq_nil_iff]
    simp
  rw [List.map_cons, List.nodup_cons] at hnodup
  have hz := Chain.last hrest
  have hother : ∀ {q : α} {e : QueueEntry α δ}, m.heap q = some e → q ≠ p := by
    rintro q e hq rfl
    rw [hp] at hq
    cases hq
  refine ⟨b, hhead, ?_, hnode, hz, hrest, hnodup.1, ?_, hother hnode, hother hz⟩
  · rw [hm.tail, ← List.cons_append, List.getLast?_concat]
    rfl
  · rintro rfl
    exact hnodup.1 (by simp)

variable [DecidableEq α]

theorem ended_done (m : SharedQueue α δ) (d d' : Option δ) :
    Parallel.Ended ⟨m, .done d, .done d'⟩ := ⟨rfl, rfl⟩

/-- The pop finds that its entry is the last one; the push is made behind that entry; the pop
empties the queue, and the new entry is lost. -/
def pushInsidePop : List Bool :=
  [true, true, true, false, false, false, false, false, false, false, true, true, true, true, true,
    true, true]

theorem single_lost {m : SharedQueue α δ} {a : α} {x : Option δ} (hm : m.Lists [(a, x)])
    {c : α × Option δ} (hc : m.heap c.1 = none) :
    ∃ tr s, Run Parallel.Step (.pushPop m c) tr s ∧ s.Ended ∧ ¬ s.Sequential [(a, x)] c := by
  obtain ⟨heap, head, tail, num⟩ := m
  obtain ⟨⟨hhead, next, hnode, hnext⟩, htail⟩ := hm
  simp only at hhead htail hnode hc
  have hnext : next = none := hnext
  have htail : tail = some a := htail
  have hne : a ≠ c.1 := by
    rintro rfl
    rw [hc] at hnode
    cases hnode
  subst hhead hnext htail
  obtain ⟨tr, heap', num', hexec⟩ : ∃ tr heap' num',
      exec Parallel.step (.pushPop ⟨heap, some a, some a, num⟩ c) pushInsidePop =
        some (tr, ⟨⟨heap', none, none, num'⟩, .done c.2, .done x⟩) := by
    simp [exec, pushInsidePop, Parallel.pushPop, SharedQueue.alloc, Parallel.step, QueuePc.step,
      setNext, hnode, hne]
  refine ⟨tr, _, (exec_run hexec).1, ended_done _ _ _, ?_⟩
  rintro ⟨-, ⟨-, hlists⟩ | ⟨-, hlists⟩⟩
  · exact absurd hlists.tail (by simp)
  · exact absurd hlists.tail (by simp)

theorem sequential_of_ne_one {m : SharedQueue α δ} {cells : List (α × Option δ)}
    (hm : m.Lists cells) {c : α × Option δ} (hc : m.heap c.1 = none) (hlen : cells.length ≠ 1)
    {tr : List (Bool × Unit)} {s : Parallel α δ} (hrun : Run Parallel.Step (.pushPop m c) tr s)
    (hend : s.Ended) : s.Sequential cells c := by
  cases cells with
  | nil =>
    have hinv : EmptyInv c s := by
      refine hrun.invariant (P := EmptyInv c) ?_ fun _ _ _ hi hl => empty_step hi hl
      refine .before ?_ hm.chain (Function.update_self ..) (.inl rfl)
      simp only [Parallel.pushPop, SharedQueue.alloc, hm.tail]
      exact .test
    exact empty_sequential hinv hend
  | cons first rest =>
    rcases List.eq_nil_or_concat rest with rfl | ⟨mid, ⟨z, y⟩, rfl⟩
    · exact absurd rfl hlen
    · rw [List.concat_eq_append] at hm ⊢
      obtain ⟨a, x⟩ := first
      obtain ⟨b, he⟩ := hm.ends hc
      obtain ⟨haz, hac, hzc⟩ := he.distinct
      have hinv : LongInv (m.alloc c).heap c a b z x y s := by
        refine hrun.invariant (P := LongInv (m.alloc c).heap c a b z x y) ⟨?_, ?_, ?_⟩
          fun _ _ _ hi hl => long_step haz hi hl
        · simp only [Parallel.pushPop, SharedQueue.alloc, he.tail, Function.update_of_ne hzc,
            he.last]
          exact .test
        · simp only [Parallel.pushPop, SharedQueue.alloc, he.head, Function.update_of_ne hac,
            he.first]
          exact .head
        · exact fun _ _ _ => rfl
      exact long_sequential hc he.rest he.single hac hinv hend

/-- Both calls load the count before either stores it: `push` accesses of the push, up to its load,
and `pop` accesses of the pop. -/
def countsCrossed (push pop : Nat) : List Bool :=
  List.replicate push false ++ List.replicate pop true ++ [false, true, false, true, true, true]

/-- The entries and results are those of a push before a pop, and the count is one too low. -/
structure Parallel.CountLost (s : Parallel α δ) (m : SharedQueue α δ) (cells : List (α × Option δ))
    (c : α × Option δ) : Prop where
  pushed : s.first = .done c.2
  popped : s.second = .done (poppedFrom (cells ++ [c]))
  lists : s.mem.Lists (cells ++ [c]).tail
  num : s.mem.queue.num = m.queue.num - 1

theorem count_lost {m : SharedQueue α δ} {cells : List (α × Option δ)} (hm : m.Lists cells)
    {c : α × Option δ} (hc : m.heap c.1 = none) :
    ∃ tr s, Run Parallel.Step (.pushPop m c) tr s ∧ s.CountLost m cells c := by
  obtain ⟨heap, head, tail, num⟩ := m
  cases cells with
  | nil =>
    have hhead : head = none := hm.chain
    have htail : tail = none := hm.tail
    subst hhead htail
    obtain ⟨tr, heap', hexec⟩ : ∃ tr heap',
        exec Parallel.step (.pushPop ⟨heap, none, none, num⟩ c) (countsCrossed 4 6) =
          some (tr, ⟨⟨heap', none, none, num - 1⟩, .done c.2, .done c.2⟩) := by
      simp [exec, countsCrossed, List.replicate, Parallel.pushPop, SharedQueue.alloc, Parallel.step,
        QueuePc.step]
    exact ⟨tr, _, (exec_run hexec).1, rfl, rfl, ⟨rfl, rfl⟩, rfl⟩
  | cons first rest =>
    obtain ⟨a, x⟩ := first
    rcases List.eq_nil_or_concat rest with rfl | ⟨mid, ⟨z, y⟩, rfl⟩
    · obtain ⟨⟨hhead, next, hnode, hnext⟩, htail⟩ := hm
      have hnext : next = none := hnext
      have hhead : head = some a := hhead
      have htail : tail = some a := htail
      have hac : a ≠ c.1 := by
        rintro rfl
        rw [hc] at hnode
        cases hnode
      simp only at hnode
      subst hhead hnext htail
      obtain ⟨tr, heap', hexec, hheap⟩ : ∃ tr heap',
          exec Parallel.step (.pushPop ⟨heap, some a, some a, num⟩ c) (countsCrossed 5 5) =
            some (tr, ⟨⟨heap', some c.1, some c.1, num - 1⟩, .done c.2, .done x⟩) ∧
          heap' c.1 = some ⟨none, c.2⟩ := by
        simp [exec, countsCrossed, List.replicate, Parallel.pushPop, SharedQueue.alloc,
          Parallel.step, QueuePc.step, setNext, hnode, hac, hac.symm]
      exact ⟨tr, _, (exec_run hexec).1, rfl, rfl, ⟨⟨rfl, none, hheap, rfl⟩, rfl⟩, rfl⟩
    · rw [List.concat_eq_append] at hm ⊢
      obtain ⟨b, hhead, htail, hfirst, hlast, -, -, haz, hac, hzc⟩ := hm.ends hc
      have hhead : head = some a := hhead
      have htail : tail = some z := htail
      simp only at hfirst hlast
      subst hhead htail
      obtain ⟨tr, heap', hexec⟩ : ∃ tr heap',
          exec Parallel.step (.pushPop ⟨heap, some a, some z, num⟩ c) (countsCrossed 5 5) =
            some (tr, ⟨⟨heap', some b, some c.1, num - 1⟩, .done c.2, .done x⟩) := by
        simp [exec, countsCrossed, List.replicate, Parallel.pushPop, SharedQueue.alloc,
          Parallel.step, QueuePc.step, setNext, hfirst, hlast, hac, hzc, haz]
      have hrun := (exec_run hexec).1
      have hseq := sequential_of_ne_one hm hc (by simp) hrun (ended_done _ _ _)
      refine ⟨tr, _, hrun, rfl, rfl, ?_, rfl⟩
      rcases hseq.2 with ⟨-, hlists⟩ | ⟨-, hlists⟩
      · exact hlists
      · exact hlists

def inTurns : Nat → List Bool
  | 0 => []
  | n + 1 => false :: true :: inTurns n

end Lost

/-- **A push and a pop without a lock.** When `queue_push` of a new entry and `queue_pop` run in
parallel on a queue with the entries `cells`, in whatever order they access the memory, both return
after at most 18 accesses together. They are sure not to fault, and to leave the entries and the
results of one call after the other, exactly if the queue does not hold a single entry. The count is
never safe: some order leaves everything else as after a push and a pop, and the count one too
low. -/
theorem push_pop_race {α δ : Type} [DecidableEq α] {m : SharedQueue α δ}
    {cells : List (α × Option δ)} (hm : m.Lists cells) {c : α × Option δ}
    (hc : m.heap c.1 = none) :
    (∀ tr s, Run Parallel.Step (.pushPop m c) tr s → tr.length ≤ 18) ∧
      ((∀ tr s, Run Parallel.Step (.pushPop m c) tr s → s.Ended → s.Sequential cells c) ↔
        cells.length ≠ 1) ∧
      ∃ tr s, Run Parallel.Step (.pushPop m c) tr s ∧ s.CountLost m cells c := by
  refine ⟨fun tr s hrun => ?_, ⟨fun hall hone => ?_, fun hlen tr s hrun hend => ?_⟩,
    count_lost hm hc⟩
  · have hleft := Parallel.run_left hrun
    simp only [Parallel.pushPop, QueuePc.left] at hleft
    omega
  · obtain ⟨⟨a, x⟩, rfl⟩ := List.length_eq_one_iff.mp hone
    obtain ⟨tr, s, hrun, hend, hnot⟩ := single_lost hm hc
    exact hnot (hall tr s hrun hend)
  · exact sequential_of_ne_one hm hc hlen hrun hend

/-- **Two pushes without a lock.** Whatever the queue holds, two pushes in parallel can both return
their data although only one of the entries is in the queue. -/
theorem push_push_race {α δ : Type} [DecidableEq α] {m : SharedQueue α δ}
    {cells : List (α × Option δ)} (hm : m.Lists cells) {c c' : α × Option δ}
    (hc : m.heap c.1 = none) (hc' : m.heap c'.1 = none) (hne : c.1 ≠ c'.1) :
    ∃ tr s, Run Parallel.Step (.pushPush m c c') tr s ∧ s.first = .done c.2 ∧
      s.second = .done c'.2 ∧ s.mem.Lists (cells ++ [c']) := by
  obtain ⟨heap, head, tail, num⟩ := m
  obtain ⟨hchain, htail⟩ := hm
  simp only at hchain htail hc hc'
  rcases List.eq_nil_or_concat cells with rfl | ⟨init, ⟨z, y⟩, rfl⟩
  · have hhead : head = none := hchain
    have htail : tail = none := htail
    subst hhead htail
    obtain ⟨tr, num', hexec⟩ : ∃ tr num', exec Parallel.step
        (.pushPush ⟨heap, none, none, num⟩ c c') (inTurns 6) = some (tr,
          ⟨⟨Function.update (Function.update heap c.1 (some ⟨none, c.2⟩)) c'.1 (some ⟨none, c'.2⟩),
            some c'.1, some c'.1, num'⟩, .done c.2, .done c'.2⟩) := by
      simp [exec, inTurns, Parallel.pushPush, SharedQueue.alloc, Parallel.step, QueuePc.step]
    refine ⟨tr, _, (exec_run hexec).1, rfl, rfl, ?_, rfl⟩
    exact ⟨rfl, none, Function.update_self .., rfl⟩
  · rw [List.concat_eq_append] at hchain htail ⊢
    have htail : tail = some z := by simpa using htail
    have hz := Chain.last hchain
    have hzc : z ≠ c.1 := by
      rintro rfl
      rw [hc] at hz
      cases hz
    have hzc' : z ≠ c'.1 := by
      rintro rfl
      rw [hc'] at hz
      cases hz
    obtain ⟨first, hhead⟩ : ∃ first, head = some first := by
      rw [← Option.ne_none_iff_exists', Ne, hchain.eq_nil_iff]
      simp
    subst hhead htail
    obtain ⟨tr, heap', num', hexec, hheap⟩ : ∃ tr heap' num', exec Parallel.step
        (.pushPush ⟨heap, some first, some z, num⟩ c c') (inTurns 7) = some (tr,
          ⟨⟨heap', some first, some c'.1, num'⟩, .done c.2, .done c'.2⟩) ∧
        heap' = Function.update (Function.update (Function.update heap c.1 (some ⟨none, c.2⟩)) c'.1
          (some ⟨none, c'.2⟩)) z (some ⟨some c'.1, y⟩) := by
      simp [exec, inTurns, Parallel.pushPush, SharedQueue.alloc, Parallel.step, QueuePc.step,
        setNext, hz, hzc, hzc']
    refine ⟨tr, _, (exec_run hexec).1, rfl, rfl, ?_, by simp⟩
    subst hheap
    have hfirst : Chain (Function.update heap c.1 (some ⟨none, c.2⟩)) (some first)
        (init ++ [(z, y)]) := by
      refine hchain.frame fun q hq => Function.update_of_ne ?_ _ _
      intro heq
      obtain ⟨next, hnode⟩ := hchain.allocated q hq
      rw [heq, hc] at hnode
      cases hnode
    exact hfirst.snoc (by rw [Function.update_of_ne hne.symm, hc'])

def oneEntry : SharedQueue Nat Nat :=
  ⟨fun p => if p = 0 then some ⟨none, some 5⟩ else none, some 0, some 0, 1⟩

theorem oneEntry_lists : oneEntry.Lists [(0, some 5)] := ⟨⟨rfl, none, rfl, rfl⟩, rfl⟩

/-- The push of 6 while the only entry is popped. -/
theorem oneEntry_raced : ∃ tr s, Run Parallel.Step (.pushPop oneEntry (1, some 6)) tr s ∧
    tr.length ≤ 18 ∧ s.Ended ∧ ¬ s.Sequential [(0, some 5)] (1, some 6) := by
  obtain ⟨hshort, hiff, -⟩ := push_pop_race oneEntry_lists (c := (1, some 6)) rfl
  have hnot := mt hiff.mp (not_not.mpr rfl)
  push Not at hnot
  obtain ⟨tr, s, hrun, hend, hbad⟩ := hnot
  exact ⟨tr, s, hrun, hshort tr s hrun, hend, hbad⟩

/-- The pushes of 6 and 7 behind the entry with 5. -/
theorem oneEntry_overwritten : ∃ tr s,
    Run Parallel.Step (.pushPush oneEntry (1, some 6) (2, some 7)) tr s ∧
    s.first = .done (some 6) ∧ s.second = .done (some 7) ∧
    s.mem.Lists [(0, some 5), (2, some 7)] :=
  push_push_race oneEntry_lists rfl rfl (by decide)

end LLNStack
