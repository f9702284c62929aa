import LLNStack.Lib.Chain
import LLNStack.Lib.Run

/-!
# LLNStack.Queue

The queues of `util.c`: linked lists of `struct queue_entry` with a head, a tail and a count. All
queues of the program share one heap. `FifoSys` says what they are for, a list per queue that grows
at its end and is served at its front; the other modules use such lists for the queues of protocols
and PCBs.

* `QueueMem.Holds`: each queue is a chain of entries of its own, from its head to its tail.
* `QueueMem.Holds.call`: a call of `queue_push` or `queue_pop` does not fault, answers as the list
  does and keeps `Holds`.
* `queue_refinement`: so it is in every run, with `queue_peek` and `queue_foreach` for the states
  that are reached.
-/

namespace LLNStack

open Lib

/-- `struct queue_entry`. A pointer is `none` where it is NULL, also the `void *data`. -/
abbrev QueueEntry (α δ : Type) : Type := Node α (Option δ)

structure QueueHead (α : Type) where
  head : Option α
  tail : Option α
  num : BitVec 32
  deriving DecidableEq, Repr

def QueueHead.zeroed {α : Type} : QueueHead α := ⟨none, none, 0⟩

def queueInit {α : Type} (queue : QueueHead α) : QueueHead α :=
  { queue with head := none, tail := none, num := 0 }

/-- The heads of the queues, and the heap of their entries. -/
structure QueueMem (ι α δ : Type) where
  heap : α → Option (QueueEntry α δ)
  heads : ι → QueueHead α

section Calls

variable {ι α δ : Type} [DecidableEq ι] [DecidableEq α]

/-- `entry->next = next`; `none` if `entry` is not allocated. -/
def setNext (heap : α → Option (QueueEntry α δ)) (entry : α) (next : Option α) :
    Option (α → Option (QueueEntry α δ)) :=
  match heap entry with
  | none => none
  | some e => some (Function.update heap entry (some { e with next := next }))

/-- `queue_push`, where `memory_alloc` returns `alloc`. The result is `none` if a pointer to memory
that is not allocated is followed. -/
def queuePush (m : QueueMem ι α δ) (queue : Option ι) (data : Option δ) (alloc : Option α) :
    Option (QueueMem ι α δ × Option δ) :=
  match queue with
  | none => some (m, none)
  | some q =>
    match alloc with
    | none => some (m, none)
    | some entry =>
      let heap := Function.update m.heap entry (some ⟨none, data⟩)
      let linked := match (m.heads q).tail with
        | none => some heap
        | some tail => setNext heap tail (some entry)
      match linked with
      | none => none
      | some heap =>
        let head := match (m.heads q).head with
          | none => some entry
          | some head => some head
        some (⟨heap, Function.update m.heads q ⟨head, some entry, (m.heads q).num + 1⟩⟩, data)

/-- `queue_pop`; `memory_free` takes the entry out of the heap. -/
def queuePop (m : QueueMem ι α δ) (queue : Option ι) : Option (QueueMem ι α δ × Option δ) :=
  match queue with
  | none => some (m, none)
  | some q =>
    match (m.heads q).head with
    | none => some (m, none)
    | some entry =>
      match m.heap entry with
      | none => none
      | some e =>
        let tail := match e.next with
          | none => none
          | some _ => (m.heads q).tail
        some (⟨Function.update m.heap entry none,
          Function.update m.heads q ⟨e.next, tail, (m.heads q).num - 1⟩⟩, e.data)

def queuePeek (m : QueueMem ι α δ) (queue : Option ι) : Option (Option δ) :=
  match queue with
  | none => some none
  | some q =>
    match (m.heads q).head with
    | none => some none
    | some entry => (m.heap entry).map (·.data)

/-- The loop of `queue_foreach`, for at most `fuel` tests of `entry`. What `func` does to the memory
behind `arg` is the function `func` on that memory. -/
def queueForeachLoop {σ : Type} (heap : α → Option (QueueEntry α δ)) (func : σ → Option δ → σ) :
    Nat → Option α → σ → Option σ
  | 0, _, _ => none
  | _ + 1, none, arg => some arg
  | fuel + 1, some entry, arg =>
    match heap entry with
    | none => none
    | some e => queueForeachLoop heap func fuel e.next (func arg e.data)

def queueForeach {σ : Type} (fuel : Nat) (m : QueueMem ι α δ) (queue : Option ι)
    (func : Option (σ → Option δ → σ)) (arg : σ) : Option σ :=
  match queue with
  | none => some arg
  | some q =>
    match func with
    | none => some arg
    | some func => queueForeachLoop m.heap func fuel (m.heads q).head arg

end Calls

/-! ## The system and what it implements -/

/-- A call. The allocator's answer is part of it. -/
inductive QueueAction (ι α δ : Type) where
  | queuePush (queue : Option ι) (data : Option δ) (alloc : Option α)
  | queuePop (queue : Option ι)

namespace QueueMem

variable {ι α δ : Type} [DecidableEq ι] [DecidableEq α]

/-- The allocator does not hand out memory that is in use. -/
def fresh (m : QueueMem ι α δ) : QueueAction ι α δ → Bool
  | .queuePush _ _ (some entry) => (m.heap entry).isNone
  | _ => true

def call (m : QueueMem ι α δ) : QueueAction ι α δ → Option (QueueMem ι α δ × Option δ)
  | .queuePush queue data alloc => LLNStack.queuePush m queue data alloc
  | .queuePop queue => LLNStack.queuePop m queue

end QueueMem

namespace QueueSys

def step {ι α δ : Type} [DecidableEq ι] [DecidableEq α] :
    QueueMem ι α δ → QueueAction ι α δ → Option (QueueMem ι α δ × Option δ) :=
  checked QueueMem.fresh QueueMem.call

end QueueSys

namespace FifoSys

variable {ι α δ : Type} [DecidableEq ι]

/-- A push whose allocation succeeds appends; a pop takes the first element if there is one. -/
def call (c : ι → List (Option δ)) : QueueAction ι α δ → (ι → List (Option δ)) × Option δ
  | .queuePush (some q) data (some _) => (Function.update c q (c q ++ [data]), data)
  | .queuePush _ _ _ => (c, none)
  | .queuePop (some q) => (Function.update c q (c q).tail, (c q).head?.join)
  | .queuePop none => (c, none)

def step (c : ι → List (Option δ)) (a : QueueAction ι α δ) :
    Option ((ι → List (Option δ)) × Option δ) :=
  some (call c a)

end FifoSys

/-! ## The lists in the heap -/

namespace QueueMem

variable {ι α δ : Type} [DecidableEq ι] [DecidableEq α] {m : QueueMem ι α δ}

structure ListAt (heap : α → Option (QueueEntry α δ)) (queue : QueueHead α)
    (cells : List (α × Option δ)) : Prop where
  chain : Chain heap queue.head cells
  tail : queue.tail = cells.getLast?.map Prod.fst
  num : queue.num = BitVec.ofNat 32 cells.length

/-- The queues hold `c`, each in entries of its own. -/
structure Holds (m : QueueMem ι α δ) (cells : ι → List (α × Option δ))
    (c : ι → List (Option δ)) : Prop where
  listAt : ∀ q, ListAt m.heap (m.heads q) (cells q)
  contents : ∀ q, (cells q).map Prod.snd = c q
  disjoint : ∀ q q', q ≠ q' → ∀ x ∈ cells q, ∀ y ∈ cells q', x.1 ≠ y.1

omit [DecidableEq ι] [DecidableEq α] in
theorem ListAt.tail_none_iff {heap : α → Option (QueueEntry α δ)} {queue : QueueHead α}
    {cells : List (α × Option δ)} (h : ListAt heap queue cells) :
    queue.head = none ↔ queue.tail = none := by
  rw [h.chain.eq_nil_iff, h.tail]
  simp

variable {cells : ι → List (α × Option δ)} {c : ι → List (Option δ)}

omit [DecidableEq α] in
theorem Holds.update (h : m.Holds cells c) {q : ι} {heap : α → Option (QueueEntry α δ)}
    {head : QueueHead α} {xs : List (α × Option δ)}
    (hq : ListAt heap head xs)
    (hframe : ∀ q', q' ≠ q → ∀ y ∈ cells q', heap y.1 = m.heap y.1 ∧ ∀ x ∈ xs, x.1 ≠ y.1) :
    Holds ⟨heap, Function.update m.heads q head⟩ (Function.update cells q xs)
      (Function.update c q (xs.map Prod.snd)) := by
  refine ⟨fun q' => ?_, fun q' => ?_, fun q₁ q₂ hne => ?_⟩
  · rcases eq_or_ne q' q with rfl | hq'
    · simpa only [Function.update_self] using hq
    · obtain ⟨hchain, htail, hnum⟩ := h.listAt q'
      simp only [Function.update_of_ne hq']
      exact ⟨hchain.frame fun y hy => (hframe q' hq' y hy).1, htail, hnum⟩
  · rcases eq_or_ne q' q with rfl | hq'
    · simp
    · rw [Function.update_of_ne hq', Function.update_of_ne hq', h.contents q']
  · rcases eq_or_ne q₁ q with rfl | h₁
    · rw [Function.update_self, Function.update_of_ne hne.symm]
      exact fun x hx y hy => (hframe q₂ hne.symm y hy).2 x hx
    · rcases eq_or_ne q₂ q with rfl | h₂
      · rw [Function.update_self, Function.update_of_ne h₁]
        exact fun x hx y hy => ((hframe q₁ h₁ x hx).2 y hy).symm
      · rw [Function.update_of_ne h₁, Function.update_of_ne h₂]
        exact h.disjoint q₁ q₂ hne

theorem queuePush_first {q : ι} (hhead : (m.heads q).head = none)
    (htail : (m.heads q).tail = none) (data : Option δ) (entry : α) :
    LLNStack.queuePush m (some q) data (some entry) =
      some (⟨Function.update m.heap entry (some ⟨none, data⟩), Function.update m.heads q
        ⟨some entry, some entry, (m.heads q).num + 1⟩⟩, data) := by
  simp only [LLNStack.queuePush, hhead, htail]

theorem queuePush_linked {q : ι} {head tail : α} {e : QueueEntry α δ}
    (hhead : (m.heads q).head = some head) (htail : (m.heads q).tail = some tail)
    (hnode : m.heap tail = some e) (data : Option δ) {entry : α} (hne : tail ≠ entry) :
    LLNStack.queuePush m (some q) data (some entry) =
      some (⟨Function.update (Function.update m.heap entry (some ⟨none, data⟩)) tail
          (some ⟨some entry, e.data⟩),
        Function.update m.heads q ⟨(m.heads q).head, some entry, (m.heads q).num + 1⟩⟩, data) := by
  simp only [LLNStack.queuePush, hhead, htail, setNext, Function.update_of_ne hne, hnode]

/-- `queue_push` with a fresh entry: whether or not there is a tail to link it to, the chain of the
queue ends with it, and only the entries of this queue change. -/
theorem ListAt.queuePush {q : ι} {xs : List (α × Option δ)} (h : ListAt m.heap (m.heads q) xs)
    (data : Option δ) {entry : α} (hfresh : m.heap entry = none) :
    ∃ heap head, LLNStack.queuePush m (some q) data (some entry) =
        some (⟨heap, Function.update m.heads q head⟩, data) ∧
      ListAt heap head (xs ++ [(entry, data)]) ∧
      ∀ a, a ≠ entry → a ∉ xs.map Prod.fst → heap a = m.heap a := by
  have hnum : (m.heads q).num + 1 = BitVec.ofNat 32 (xs ++ [(entry, data)]).length := by
    rw [h.num, List.length_append, List.length_singleton, BitVec.ofNat_add]
    rfl
  have htail : some entry = (xs ++ [(entry, data)]).getLast?.map Prod.fst := by simp
  rcases List.eq_nil_or_concat xs with rfl | ⟨init, ⟨t, x⟩, rfl⟩
  · have hhead : (m.heads q).head = none := h.chain
    have htail₀ : (m.heads q).tail = none := h.tail
    refine ⟨_, _, queuePush_first hhead htail₀ data entry, ⟨?_, htail, hnum⟩, ?_⟩
    · exact ⟨rfl, none, Function.update_self .., rfl⟩
    · exact fun a ha _ => Function.update_of_ne ha _ _
  · rw [List.concat_eq_append] at h hnum htail ⊢
    have htail₀ : (m.heads q).tail = some t := by simp [h.tail]
    obtain ⟨head, hhead⟩ : ∃ head, (m.heads q).head = some head := by
      rw [← Option.ne_none_iff_exists', Ne, h.chain.eq_nil_iff]
      simp
    obtain ⟨next, hnode⟩ := h.chain.allocated (t, x) (by simp)
    have hte : t ≠ entry := by
      rintro rfl
      rw [hfresh] at hnode
      cases hnode
    refine ⟨_, _, queuePush_linked hhead htail₀ hnode data hte,
      ⟨h.chain.snoc hfresh, htail, hnum⟩, ?_⟩
    · intro a ha hxs
      have hat : a ≠ t := by
        rintro rfl
        simp at hxs
      rw [Function.update_of_ne hat, Function.update_of_ne ha]

omit [DecidableEq ι] [DecidableEq α] in
theorem Holds.ne_fresh (h : m.Holds cells c) {entry : α} (hfresh : m.heap entry = none) {q : ι} :
    ∀ y ∈ cells q, entry ≠ y.1 := by
  rintro y hy rfl
  obtain ⟨next, hnode⟩ := (h.listAt q).chain.allocated y hy
  rw [hfresh] at hnode
  cases hnode

omit [DecidableEq ι] [DecidableEq α] in
theorem Holds.not_mem (h : m.Holds cells c) {q q' : ι} (hq' : q' ≠ q) {y : α × Option δ}
    (hy : y ∈ cells q') : y.1 ∉ (cells q).map Prod.fst := by
  intro hmem
  obtain ⟨x, hx, hxy⟩ := List.mem_map.mp hmem
  exact h.disjoint q q' hq'.symm x hx y hy hxy

theorem Holds.queuePush (h : m.Holds cells c) (q : ι) (data : Option δ) {entry : α}
    (hfresh : m.heap entry = none) :
    ∃ m' cells', LLNStack.queuePush m (some q) data (some entry) = some (m', data) ∧
      m'.Holds cells' (Function.update c q (c q ++ [data])) := by
  obtain ⟨heap, head, hpush, hlist, hframe⟩ := (h.listAt q).queuePush data hfresh
  refine ⟨_, Function.update cells q (cells q ++ [(entry, data)]), hpush, ?_⟩
  have hc : c q ++ [data] = (cells q ++ [(entry, data)]).map Prod.snd := by
    rw [List.map_append, h.contents q]
    rfl
  rw [hc]
  refine h.update hlist fun q' hq' y hy => ⟨?_, ?_⟩
  · exact hframe y.1 (h.ne_fresh hfresh y hy).symm (h.not_mem hq' hy)
  · intro x hx
    rcases List.mem_append.mp hx with hx | hx
    · exact h.disjoint q q' hq'.symm x hx y hy
    · rw [List.mem_singleton.mp hx]
      exact h.ne_fresh hfresh y hy

theorem queuePop_empty {q : ι} (h : ListAt m.heap (m.heads q) []) :
    LLNStack.queuePop m (some q) = some (m, none) := by
  have hhead : (m.heads q).head = none := h.chain
  simp only [LLNStack.queuePop, hhead]

/-- `queue_pop` on a queue with a first entry. The tail goes with the last entry. -/
theorem ListAt.queuePop {q : ι} {x : α × Option δ} {xs : List (α × Option δ)}
    (h : ListAt m.heap (m.heads q) (x :: xs)) :
    ∃ head, LLNStack.queuePop m (some q) =
        some (⟨Function.update m.heap x.1 none, Function.update m.heads q head⟩, x.2) ∧
      ListAt (Function.update m.heap x.1 none) head xs := by
  have hnodup := h.chain.nodup
  rw [List.map_cons, List.nodup_cons] at hnodup
  obtain ⟨hhead, next, hnode, hrest⟩ := h.chain
  have hnum : (m.heads q).num - 1 = BitVec.ofNat 32 xs.length := by
    rw [h.num, List.length_cons, BitVec.ofNat_add]
    exact BitVec.add_sub_cancel _ _
  have hchain : Chain (Function.update m.heap x.1 none) next xs := by
    refine hrest.frame fun y hy => Function.update_of_ne ?_ _ _
    intro heq
    exact hnodup.1 (heq ▸ List.mem_map_of_mem hy)
  cases xs with
  | nil =>
    have hnext : next = none := hrest
    subst hnext
    exact ⟨⟨none, none, _⟩, by simp only [LLNStack.queuePop, hhead, hnode], hchain, rfl, hnum⟩
  | cons y ys =>
    have hnext : next = some y.1 := hrest.1
    subst hnext
    exact ⟨⟨some y.1, (m.heads q).tail, _⟩, by simp only [LLNStack.queuePop, hhead, hnode], hchain,
      by simpa using h.tail, hnum⟩

theorem Holds.queuePop (h : m.Holds cells c) (q : ι) :
    ∃ m' cells', LLNStack.queuePop m (some q) = some (m', (c q).head?.join) ∧
      m'.Holds cells' (Function.update c q (c q).tail) := by
  have hc := h.contents q
  cases hcells : cells q with
  | nil =>
    have hempty := h.listAt q
    rw [hcells] at hempty hc
    have hcq : c q = [] := hc.symm
    refine ⟨m, cells, ?_, ?_⟩
    · rw [queuePop_empty hempty, hcq]
      rfl
    · rw [hcq, List.tail_nil, ← hcq, Function.update_eq_self]
      exact h
  | cons x xs =>
    have hlist := h.listAt q
    rw [hcells] at hlist hc
    obtain ⟨head, hpop, hlist'⟩ := hlist.queuePop
    have hcq : c q = x.2 :: xs.map Prod.snd := hc.symm
    refine ⟨_, Function.update cells q xs, by rw [hpop, hcq]; rfl, ?_⟩
    rw [hcq, List.tail_cons]
    refine h.update hlist' fun q' hq' y hy => ⟨?_, ?_⟩
    · refine Function.update_of_ne ?_ _ _
      exact (h.disjoint q q' hq'.symm x (by simp [hcells]) y hy).symm
    · intro z hz
      exact h.disjoint q q' hq'.symm z (by simp [hcells, hz]) y hy

theorem Holds.call (h : m.Holds cells c) {a : QueueAction ι α δ} (ha : m.fresh a = true) :
    ∃ m' cells', m.call a = some (m', (FifoSys.call c a).2) ∧
      m'.Holds cells' (FifoSys.call c a).1 := by
  cases a with
  | queuePush queue data alloc =>
    cases queue with
    | none => exact ⟨m, cells, rfl, h⟩
    | some q =>
      cases alloc with
      | none => exact ⟨m, cells, rfl, h⟩
      | some entry => exact h.queuePush q data (Option.isNone_iff_eq_none.mp ha)
  | queuePop queue =>
    cases queue with
    | none => exact ⟨m, cells, rfl, h⟩
    | some q => exact h.queuePop q

omit [DecidableEq ι] [DecidableEq α] in
theorem ListAt.queuePeek {q : ι} {xs : List (α × Option δ)} (h : ListAt m.heap (m.heads q) xs) :
    LLNStack.queuePeek m (some q) = some (xs.map Prod.snd).head?.join := by
  cases xs with
  | nil =>
    have hhead : (m.heads q).head = none := h.chain
    simp only [LLNStack.queuePeek, hhead]
    rfl
  | cons x xs =>
    obtain ⟨hhead, next, hnode, -⟩ := h.chain
    simp only [LLNStack.queuePeek, hhead, hnode]
    rfl

end QueueMem

theorem queueForeachLoop_chain {α δ σ : Type} {heap : α → Option (QueueEntry α δ)}
    (func : σ → Option δ → σ) {p : Option α} {xs : List (α × Option δ)} (h : Chain heap p xs)
    {fuel : Nat} (hfuel : xs.length < fuel) (arg : σ) :
    queueForeachLoop heap func fuel p arg = some ((xs.map Prod.snd).foldl func arg) := by
  induction xs generalizing p fuel arg with
  | nil =>
    obtain ⟨fuel, rfl⟩ := Nat.exists_eq_succ_of_ne_zero (Nat.ne_zero_of_lt hfuel)
    rw [show p = none from h]
    rfl
  | cons x xs ih =>
    obtain ⟨fuel, rfl⟩ := Nat.exists_eq_succ_of_ne_zero (Nat.ne_zero_of_lt hfuel)
    obtain ⟨rfl, next, hnode, hrest⟩ := h
    simp only [queueForeachLoop, hnode, List.map_cons, List.foldl_cons]
    exact ih hrest (by simpa using hfuel) _

/-! ## Runs -/

section Runs

variable {ι α δ : Type} [DecidableEq ι] [DecidableEq α]

omit [DecidableEq ι] [DecidableEq α] in
theorem QueueMem.holds_zeroed {m : QueueMem ι α δ} (h : ∀ q, m.heads q = QueueHead.zeroed) :
    m.Holds (fun _ => []) (fun _ => []) := by
  refine ⟨fun q => ?_, fun _ => rfl, fun _ _ _ x hx => by cases hx⟩
  rw [h q]
  exact ⟨rfl, rfl, rfl⟩

theorem QueueSys.step_fifo {m m' : QueueMem ι α δ} {c : ι → List (Option δ)}
    {l : QueueAction ι α δ × Option δ} (h : ∃ cells, m.Holds cells c)
    (hs : stepRel QueueSys.step m l m') :
    ∃ c', stepRel FifoSys.step c l c' ∧ ∃ cells', m'.Holds cells' c' := by
  obtain ⟨cells, h⟩ := h
  rw [stepRel, QueueSys.step, checked] at hs
  split at hs
  · rename_i hfresh
    obtain ⟨m₁, cells', hcall, hholds⟩ := h.call hfresh
    rw [hcall, Option.some.injEq, Prod.mk.injEq] at hs
    obtain ⟨rfl, hret⟩ := hs
    refine ⟨(FifoSys.call c l.1).1, ?_, cells', hholds⟩
    rw [stepRel, FifoSys.step, ← hret]
  · cases hs

/-- **Queue refinement.** From zeroed or initialised heads, with any allocation failing: the calls
answer as those on lists do, and each head leads to a chain without cycle that ends at the tail, has
the length `num` and holds the list. The next call does not fault, `queue_peek` returns the first
element, and `queue_foreach` passes the elements to `func` in order. -/
theorem queue_refinement {m₀ m : QueueMem ι α δ} {tr : List (QueueAction ι α δ × Option δ)}
    (h0 : ∀ q, m₀.heads q = QueueHead.zeroed ∨ ∃ old, m₀.heads q = queueInit old)
    (hrun : Run (stepRel QueueSys.step) m₀ tr m) :
    ∃ c, Run (stepRel FifoSys.step) (fun _ => []) tr c ∧
      (∀ q, ∃ cells, cells.map Prod.snd = c q ∧ (cells.map Prod.fst).Nodup ∧
        QueueMem.ListAt m.heap (m.heads q) cells ∧
        ((m.heads q).head = none ↔ (m.heads q).tail = none)) ∧
      (∀ a, m.fresh a = true → ∃ m', m.call a = some (m', (FifoSys.call c a).2)) ∧
      (∀ queue data, m.call (.queuePush queue data none) = some (m, none)) ∧
      ∀ q, queuePeek m (some q) = some (c q).head?.join ∧
        ∀ {σ : Type} (func : σ → Option δ → σ) (arg : σ) (fuel : Nat), (c q).length < fuel →
          queueForeach fuel m (some q) (some func) arg = some ((c q).foldl func arg) := by
  have hzero : ∀ q, m₀.heads q = QueueHead.zeroed := by
    intro q
    rcases h0 q with hq | ⟨old, hq⟩
    · exact hq
    · exact hq
  obtain ⟨c, hfifo, cells, hholds⟩ := hrun.simulation
    (⟨_, QueueMem.holds_zeroed hzero⟩ : ∃ cells, m₀.Holds cells fun _ => [])
    fun _ _ _ _ => QueueSys.step_fifo
  refine ⟨c, hfifo, fun q => ?_, fun a ha => ?_, fun queue data => ?_, fun q => ⟨?_, ?_⟩⟩
  · exact ⟨cells q, hholds.contents q, (hholds.listAt q).chain.nodup, hholds.listAt q,
      (hholds.listAt q).tail_none_iff⟩
  · obtain ⟨m', -, hcall, -⟩ := hholds.call ha
    exact ⟨m', hcall⟩
  · cases queue with
    | none => rfl
    | some q => rfl
  · rw [← hholds.contents q]
    exact (hholds.listAt q).queuePeek
  · intro σ func arg fuel hfuel
    rw [← hholds.contents q, List.length_map] at hfuel
    rw [← hholds.contents q]
    exact queueForeachLoop_chain func (hholds.listAt q).chain hfuel arg

end Runs

/-- Two queues with entries 0 to 2: the first is filled, fails to grow and is emptied. -/
def twoQueues : List (QueueAction Bool Nat Nat) :=
  [.queuePush (some true) (some 7) (some 0), .queuePush (some false) (some 8) (some 1),
    .queuePush (some true) (some 9) (some 2), .queuePush (some true) (some 10) none,
    .queuePop (some true), .queuePop (some true), .queuePop (some true)]

theorem twoQueues_refined : ∃ tr m c,
    Run (stepRel QueueSys.step) ⟨fun _ => none, fun _ => QueueHead.zeroed⟩ tr m ∧
    tr.map Prod.fst = twoQueues ∧
    tr.map Prod.snd = [some 7, some 8, some 9, none, some 7, some 9, none] ∧
    Run (stepRel FifoSys.step) (fun _ => []) tr c ∧
    queuePeek m (some false) = some (c false).head?.join := by
  obtain ⟨tr, m, hrun, hmap, hcheck⟩ := exec_check QueueSys.step
    ⟨fun _ => none, fun _ => QueueHead.zeroed⟩ twoQueues
    (fun r => r.1.map Prod.snd == [some 7, some 8, some 9, none, some 7, some 9, none])
    (by decide)
  obtain ⟨c, hfifo, -, -, -, hread⟩ := queue_refinement (fun _ => .inl rfl) hrun
  exact ⟨tr, m, c, hrun, hmap, eq_of_beq hcheck, hfifo, (hread false).1⟩

end LLNStack
