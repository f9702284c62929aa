import LLNStack.Intr.Receive

/-!
# LLNStack.Intr.Stale

Descriptors that are closed and not forgotten. When the `open` of a driver fails after its first
system call, and when a device is closed, the descriptor is closed but its number stays in the
driver's `fd`. The driver's interrupt handler goes on using it, and it is called as soon as any
device that shares the interrupt receives a frame.

* As long as the number is not given out again, `poll` reports it and `read` fails on it, so that
  the handler polls for ever. `stale_descriptor_hangs`: this is the only way in which serving an
  interrupt does not end; and when it happens, no soft interrupt, event or timer is served any more,
  and from the handler on no frame is read.
* When another device has got the number, the handler reads the frames of that device
  (`kept_number_steals`). They are then taken for its own: those addressed to the other device are
  dropped.
-/

namespace LLNStack

open Lib

variable {η : Type} {cfg : IntrConfig}

/-! ## The thread on its own -/

/-- The frames that drivers read, each with the device of the driver. -/
def reads : IntrAction × IntrResult η → Option (Nat × Bytes)
  | (_, .read dev frame) => some (dev, frame)
  | _ => none

/-- The interrupt thread goes on, nobody else does anything, its system calls succeed, and its
drivers read these frames. -/
def Alone (cfg : IntrConfig) (s : IntrSys η) (frames : List (Nat × Bytes)) (s' : IntrSys η) :
    Prop :=
  ∃ tr, Run (IntrSys.Step cfg) s tr s' ∧ (∀ l ∈ tr, l.1 = .go .ok true) ∧
    tr.filterMap reads = frames

theorem Alone.refl (s : IntrSys η) : Alone cfg s [] s := ⟨[], .nil, nofun, rfl⟩

theorem Alone.trans {s s' s'' : IntrSys η} {frames frames' : List (Nat × Bytes)}
    (h : Alone cfg s frames s') (h' : Alone cfg s' frames' s'') :
    Alone cfg s (frames ++ frames') s'' := by
  obtain ⟨tr, hrun, htr, rfl⟩ := h
  obtain ⟨tr', hrun', htr', rfl⟩ := h'
  exact ⟨tr ++ tr', hrun.append hrun', List.forall_mem_append.mpr ⟨htr, htr'⟩,
    List.filterMap_append⟩

theorem Alone.single {s s' : IntrSys η} {r : IntrResult η} (halive : s.pc ≠ .killed)
    (h : s.advance cfg .ok true = some (s', r)) :
    Alone cfg s (reads (.go .ok true, r)).toList s' := by
  have hstep : IntrSys.Step cfg s (.go .ok true, r) s' := by
    simp only [stepRel, IntrSys.step, if_neg halive]
    exact h
  refine ⟨[] ++ [(.go .ok true, r)], .snoc .nil hstep, by simp, ?_⟩
  rw [filterMap_snoc]
  rfl

/-- No descriptor is opened or closed, and every driver keeps its number. -/
structure SameFiles (s s' : IntrSys η) : Prop where
  fds : s'.fds = s.fds
  files : s'.files = s.files

theorem SameFiles.refl (s : IntrSys η) : SameFiles s s := ⟨rfl, rfl⟩

theorem SameFiles.trans {s s' s'' : IntrSys η} (h : SameFiles s s') (h' : SameFiles s' s'') :
    SameFiles s s'' :=
  ⟨h'.fds.trans h.fds, h'.files.trans h.files⟩

theorem alone_settle (hcfg : cfg.Ready) {s : IntrSys η} (halive : s.pc ≠ .killed) :
    ∃ s', Alone cfg s [] s' ∧ s'.selfRaising = false ∧ s'.pc = s.pc ∧ SameFiles s s' ∧
      s'.rx = s.rx ∧ s'.protocols = s.protocols := by
  cases hself : s.selfRaising with
  | false => exact ⟨s, .refl s, hself, rfl, .refl s, rfl, rfl⟩
  | true =>
    have husr1 : sigusr1 ∈ cfg.table.sigmask := hcfg.stack (by decide)
    have hstep : s.advance cfg .ok true =
        some (({ s with selfRaising := false } : IntrSys η).raise cfg false sigusr1, .silent) := by
      simp only [IntrSys.advance, hself, if_true]
    rw [raise_masked husr1] at hstep
    exact ⟨_, .single halive hstep, rfl, rfl, ⟨rfl, rfl⟩, rfl, rfl⟩

theorem alone_return {dev sig : Nat} {pfd : Option Nat} {rest : List IrqEntry} {s : IntrSys η}
    (hpc : s.pc = .isr dev pfd sig rest) (hself : s.selfRaising = false)
    (hready : s.ready none pfd = false) :
    Alone cfg s [] { s with pc := .dispatch sig rest } := by
  have hstep : s.advance cfg .ok true = some ({ s with pc := .dispatch sig rest }, .silent) := by
    simp [IntrSys.advance, hself, hpc, DriverIo.other, hready]
  exact .single (by rw [hpc]; simp) hstep

/-- A driver's handler reads what there is at its number, and returns. The frames go to the queues
as frames of this driver's device. -/
theorem alone_isr (hcfg : cfg.Ready) {dev d n sig : Nat} {rest : List IrqEntry} {rx : List Bytes}
    {s : IntrSys η} (hpc : s.pc = .isr dev (some n) sig rest) (hself : s.selfRaising = false)
    (hfd : s.fds dev = some n) (hfile : s.files n = some (.device d)) (hrx : s.rx d = rx) :
    ∃ s', Alone cfg s (rx.map fun f => (dev, f)) s' ∧ s'.pc = .dispatch sig rest ∧
      SameFiles s s' ∧ s'.rx d = [] ∧
      ∀ t ∈ s.protocols.map (·.type),
        queueOf s'.protocols t = queueOf s.protocols t ++ rx.filterMap (entryOf cfg dev t) := by
  induction rx generalizing s with
  | nil =>
    have hready : s.ready none (some n) = false := by simp [IntrSys.ready, hfile, hrx]
    exact ⟨_, alone_return hpc hself hready, rfl, ⟨rfl, rfl⟩, hrx, fun _ _ => by simp⟩
  | cons frame rx ih =>
    have hstep : s.advance cfg .ok true =
        some (({ s with rx := Function.update s.rx d rx } : IntrSys η).pollInput cfg true dev frame,
          .read dev frame) := by
      simp [IntrSys.advance, hself, hpc, IntrSys.ready, IntrSys.driverRead, IntrSys.fileOf, hfd,
        hfile, hrx]
    have hread := Alone.single (by rw [hpc]; simp) hstep
    obtain ⟨s₁, hsettle, hself₁, hpc₁, hsame₁, hrx₁, hprot₁⟩ := alone_settle hcfg
      (s := ({ s with rx := Function.update s.rx d rx } : IntrSys η).pollInput cfg true dev frame)
      (by rw [pollInput_pc]; simp [hpc])
    have hsame : SameFiles s s₁ :=
      ⟨hsame₁.fds.trans (pollInput_fds ..), hsame₁.files.trans (pollInput_files ..)⟩
    rw [pollInput_pc] at hpc₁
    rw [pollInput_rx] at hrx₁
    obtain ⟨s', hrest, hpc', hsame', hrx', hqueues⟩ := ih (hpc₁.trans hpc) hself₁
      (by rw [hsame.fds, hfd]) (by rw [hsame.files, hfile])
      (by rw [hrx₁]; exact Function.update_self ..)
    refine ⟨s', (hread.trans hsettle).trans hrest, hpc', hsame.trans hsame', hrx', fun t ht => ?_⟩
    have htypes : t ∈ s₁.protocols.map (·.type) := by
      rw [hprot₁, types_pollInput]
      exact ht
    rw [hqueues t htypes, hprot₁,
      queueOf_pollInput (s := { s with rx := Function.update s.rx d rx }) ht, List.filterMap_cons]
    cases entryOf cfg dev t frame with
    | none => simp
    | some entry => simp

/-- The number that the driver keeps is closed. -/
def StaleFd (dev n : Nat) (s : IntrSys η) : Prop := s.fds dev = some n ∧ s.files n = none

theorem SameFiles.staleFd {s s' : IntrSys η} (h : SameFiles s s') {dev n : Nat} :
    StaleFd dev n s' ↔ StaleFd dev n s := by
  rw [StaleFd, h.fds, h.files, StaleFd]

theorem alone_entry (hcfg : cfg.Ready) {sig : Nat} {e : IrqEntry} {rest : List IrqEntry}
    {s : IntrSys η} (hpc : s.pc = .dispatch sig (e :: rest)) (hself : s.selfRaising = false)
    (hfd : e.irq = sig → ∀ n, ¬ StaleFd e.dev n s) :
    ∃ frames s', Alone cfg s frames s' ∧ s'.pc = .dispatch sig rest ∧ SameFiles s s' := by
  have hnk : s.pc ≠ .killed := by simp [hpc]
  by_cases he : e.irq = sig
  · have hcall := Alone.single hnk (show s.advance cfg .ok true =
        some ({ s with pc := .isr e.dev (s.fds e.dev) sig rest }, .silent) by
      simp [IntrSys.advance, hself, hpc, he])
    have hreturn (hready : s.ready none (s.fds e.dev) = false) : ∃ frames s',
        Alone cfg s frames s' ∧ s'.pc = .dispatch sig rest ∧ SameFiles s s' :=
      ⟨_, _, hcall.trans (alone_return rfl hself hready), rfl, ⟨rfl, rfl⟩⟩
    cases hdev : s.fds e.dev with
    | none => exact hreturn (by rw [hdev]; rfl)
    | some n =>
      cases hfile : s.files n with
      | none => exact absurd ⟨hdev, hfile⟩ (hfd he n)
      | some file =>
        cases file with
        | other => exact hreturn (by simp [IntrSys.ready, hdev, hfile])
        | device d =>
          obtain ⟨s', hrest, hpc', hsame, -⟩ := alone_isr hcfg
            (s := { s with pc := .isr e.dev (s.fds e.dev) sig rest }) (by rw [hdev]) hself hdev
            hfile rfl
          exact ⟨_, s', hcall.trans hrest, hpc', ⟨hsame.fds, hsame.files⟩⟩
  · have hskip : s.advance cfg .ok true = some ({ s with pc := .dispatch sig rest }, .silent) := by
      simp [IntrSys.advance, hself, hpc, he]
    exact ⟨_, _, .single hnk hskip, rfl, ⟨rfl, rfl⟩⟩

/-- The thread comes to the end of the table, or into the handler of a driver that keeps a closed
number. -/
theorem alone_dispatch (hcfg : cfg.Ready) {sig : Nat} {rest : List IrqEntry} {s : IntrSys η}
    (hpc : s.pc = .dispatch sig rest) :
    ∃ frames s', Alone cfg s frames s' ∧ SameFiles s s' ∧
      (s'.pc = .sigwait ∨ ∃ e ∈ rest, e.irq = sig ∧ ∃ n rest', StaleFd e.dev n s ∧
        s'.pc = .isr e.dev (some n) sig rest') := by
  induction rest generalizing s with
  | nil =>
    obtain ⟨s₁, hsettle, hself, hpc₁, hsame, -⟩ := alone_settle hcfg (s := s) (by rw [hpc]; simp)
    have hend : s₁.advance cfg .ok true = some ({ s₁ with pc := .sigwait }, .silent) := by
      simp [IntrSys.advance, hself, hpc₁, hpc]
    exact ⟨_, _, hsettle.trans (.single (by rw [hpc₁, hpc]; simp) hend), ⟨hsame.fds, hsame.files⟩,
      .inl rfl⟩
  | cons e rest ih =>
    obtain ⟨s₁, hsettle, hself, hpc₁, hsame₁, -⟩ := alone_settle hcfg (s := s) (by rw [hpc]; simp)
    by_cases hstale : e.irq = sig ∧ ∃ n, StaleFd e.dev n s
    · obtain ⟨he, n, hn⟩ := hstale
      have hcall : s₁.advance cfg .ok true =
          some ({ s₁ with pc := .isr e.dev (some n) sig rest }, .silent) := by
        simp [IntrSys.advance, hself, hpc₁, hpc, he, hsame₁.fds, hn.1]
      exact ⟨_, _, hsettle.trans (.single (by rw [hpc₁, hpc]; simp) hcall),
        ⟨hsame₁.fds, hsame₁.files⟩, .inr ⟨e, List.mem_cons_self, he, n, rest, hn, rfl⟩⟩
    · obtain ⟨frames, s₂, hentry, hpc₂, hsame₂⟩ := alone_entry hcfg (hpc₁.trans hpc) hself
        fun he n hn => hstale ⟨he, n, hsame₁.staleFd.mp hn⟩
      obtain ⟨frames', s', hrest, hsame', hend⟩ := ih hpc₂
      have hsame := (hsame₁.trans hsame₂).trans hsame'
      refine ⟨_, s', (hsettle.trans hentry).trans hrest, hsame, hend.imp_right ?_⟩
      rintro ⟨e', he', hirq, n, rest', hn, hpc'⟩
      exact ⟨e', List.mem_cons_of_mem _ he', hirq, n, rest',
        (hsame₁.trans hsame₂).staleFd.mp hn, hpc'⟩

/-! ## The thread in a handler with a closed number -/

/-- The result shows that the thread served a soft interrupt, an event or a timer. -/
def Serves : IntrResult η → Prop
  | .called _ _ _ | .event | .timer => True
  | .silent | .read _ _ => False

/-- The number is not given out again, and the device is not opened again. -/
def NotTaken (dev n : Nat) : IntrAction → Prop
  | .deviceOpen d outcome => d ≠ dev ∧ outcome ≠ .ok n ∧ outcome ≠ .closedAgain n
  | .fileOpen m => m ≠ n
  | _ => True

/-- The interrupt thread is in the handler of a driver that keeps a closed number or will come to
it. -/
structure Trapped (cfg : IntrConfig) (irq dev n : Nat) (s : IntrSys η) : Prop where
  files : FilesKept cfg s
  fd : StaleFd dev n s
  pc : ToServe irq dev (some n) s.pc

theorem StaleFd.step {dev n : Nat} {s s' : IntrSys η} {a : IntrAction} {r : IntrResult η}
    (h : StaleFd dev n s) (hn : NotTaken dev n a) (ht : IntrTrans cfg s a r s') :
    StaleFd dev n s' := by
  obtain ⟨hfd, hfile⟩ := h
  cases ht with
  | @opened d m _ _ =>
    obtain ⟨hd, hm, -⟩ := hn
    have hmn : n ≠ m := fun he => hm (by rw [he])
    exact ⟨(Function.update_of_ne hd.symm ..).trans hfd,
      (Function.update_of_ne hmn ..).trans hfile⟩
  | openFailed _ | openClosed _ _ => exact ⟨(Function.update_of_ne hn.1.symm ..).trans hfd, hfile⟩
  | @closed _ m _ _ | @fileClosed m _ =>
    refine ⟨hfd, ?_⟩
    by_cases hmn : n = m
    · subst hmn
      exact Function.update_self ..
    · exact (Function.update_of_ne hmn ..).trans hfile
  | fileOpened _ => exact ⟨hfd, (Function.update_of_ne (Ne.symm hn) ..).trans hfile⟩
  | read _ _ _ _ | readOther _ _ _ =>
    exact ⟨by rw [pollInput_fds]; exact hfd, by rw [pollInput_files]; exact hfile⟩
  | _ => exact ⟨hfd, hfile⟩

theorem StaleFd.ready {dev n : Nat} {s : IntrSys η} (h : StaleFd dev n s) (other : Option Bytes) :
    s.ready other (s.fds dev) = true := by
  simp [IntrSys.ready, h.1, h.2]

theorem Trapped.step (hcfg : cfg.Ready) {irq dev n : Nat} {s s' : IntrSys η} {a : IntrAction}
    {r : IntrResult η} (h : Trapped cfg irq dev n s) (ha : Proper cfg a) (hn : NotTaken dev n a)
    (hl : IntrSys.Step cfg s (a, r) s') : Trapped cfg irq dev n s' ∧ ¬ Serves r := by
  have ht := intr_trans hcfg h.files.openListed hl
  have hpc := h.pc
  rw [← h.fd.1] at hpc
  have hkept := toServe_kept ha ht h.fd.ready hpc
  rw [h.fd.1] at hkept
  refine ⟨⟨h.files.step ha ht, h.fd.step hn ht, hkept⟩, ?_⟩
  cases ht with
  | served hsig _ _ _ | called _ hsig _ _ =>
    rw [hsig] at hpc
    cases hpc
  | _ => exact id

theorem run_trapped (hcfg : cfg.Ready) {irq dev n : Nat} {s s' : IntrSys η}
    (h : Trapped cfg irq dev n s) {tr : List (IntrAction × IntrResult η)}
    (hrun : Run (Guarded (IntrSys.Step cfg) fun _ l => Proper cfg l.1 ∧ NotTaken dev n l.1)
      s tr s') : Trapped cfg irq dev n s' ∧ ∀ l ∈ tr, ¬ Serves l.2 := by
  refine hrun.history (P := fun tr s' => Trapped cfg irq dev n s' ∧ ∀ l ∈ tr, ¬ Serves l.2)
    ⟨h, nofun⟩ ?_
  rintro tr s₁ ⟨a, r⟩ s₂ - ⟨htrap, hserves⟩ ⟨hl, ha, hn⟩
  obtain ⟨htrap', hr⟩ := htrap.step hcfg ha hn hl
  exact ⟨htrap', forall_mem_snoc hserves hr⟩

theorem Trapped.not_sigwait {irq dev n : Nat} {s : IntrSys η} (h : Trapped cfg irq dev n s) :
    s.pc ≠ .sigwait := by
  intro hpc
  have hs := h.pc
  rw [hpc] at hs
  cases hs

theorem Trapped.silent (hcfg : cfg.Ready) {irq dev n sig : Nat} {rest : List IrqEntry}
    {s s' : IntrSys η} {a : IntrAction} {r : IntrResult η} (h : Trapped cfg irq dev n s)
    (hpc : s.pc = .isr dev (some n) sig rest) (ha : Proper cfg a)
    (hl : IntrSys.Step cfg s (a, r) s') : r = .silent ∧ s'.pc = .isr dev (some n) sig rest := by
  have ht := intr_trans hcfg h.files.openListed hl
  have hnone : s.fileOf (s.fds dev) = none := by
    rw [IntrSys.fileOf, h.fd.1, Option.bind_some, h.fd.2]
  cases ht with
  | frame _ | input | softirq _ | signal _ | opened _ _ | openFailed _ | openClosed _ _
  | closed _ _ | fileOpened _ | fileClosed _ | selfRaised _ | isrAgain _ _ | handlerInput _ _ =>
    exact ⟨rfl, hpc⟩
  | usr1 hpc' _ | served hpc' _ _ _ | irq hpc' _ _ | loopEnd _ hpc' _ | loopNext _ hpc' _ _
  | called _ hpc' _ _ | handlerReturn _ hpc' | dispatchEnd _ hpc' | dispatchSkip _ hpc' _
  | dispatchCall _ hpc' _ =>
    rw [hpc] at hpc'
    cases hpc'
  | pollError _ _ => exact absurd rfl ha
  | isrReturn _ hpc' hready =>
    rw [hpc] at hpc'
    cases hpc'
    rw [← h.fd.1, h.fd.ready] at hready
    cases hready
  | read _ hpc' hfile _ | readOther _ hpc' hfile =>
    rw [hpc] at hpc'
    cases hpc'
    rw [hnone] at hfile
    cases hfile

theorem run_silent (hcfg : cfg.Ready) {irq dev n sig : Nat} {rest : List IrqEntry}
    {s s' : IntrSys η} (h : Trapped cfg irq dev n s) (hpc : s.pc = .isr dev (some n) sig rest)
    {tr : List (IntrAction × IntrResult η)}
    (hrun : Run (Guarded (IntrSys.Step cfg) fun _ l => Proper cfg l.1 ∧ NotTaken dev n l.1)
      s tr s') : ∀ l ∈ tr, l.2 = .silent := by
  have hhist := hrun.history (P := fun tr s' => (Trapped cfg irq dev n s' ∧
    s'.pc = .isr dev (some n) sig rest) ∧ ∀ l ∈ tr, l.2 = .silent) ⟨⟨h, hpc⟩, nofun⟩ ?_
  · exact hhist.2
  · rintro tr s₁ ⟨a, r⟩ s₂ - ⟨⟨htrap, hpc₁⟩, hsilent⟩ ⟨hl, ha, hn⟩
    obtain ⟨hr, hpc₂⟩ := htrap.silent hcfg hpc₁ ha hl
    exact ⟨⟨(htrap.step hcfg ha hn hl).1, hpc₂⟩, forall_mem_snoc hsilent hr⟩

/-- **Stale descriptors.** Whenever the interrupt thread begins to serve an interrupt: going on
alone, it comes back to `sigwait` exactly if none of the drivers whose handlers it is to call keeps
a closed number; otherwise it comes into the handler of one that does. Then, in any interleaving in
which this number is not given out again and this device not opened again, it does not come back,
no soft interrupt, event or timer is served, and from the handler on nothing is read either. -/
theorem stale_descriptor_hangs (hcfg : cfg.Ready) {s₀ s : IntrSys η} (hs₀ : Started cfg s₀)
    {tr : List (IntrAction × IntrResult η)}
    (h : Run (Guarded (IntrSys.Step cfg) fun _ l => Proper cfg l.1) s₀ tr s)
    {sig : Nat} {rest : List IrqEntry} (hpc : s.pc = .dispatch sig rest) :
    ((∃ frames s', Alone cfg s frames s' ∧ s'.pc = .sigwait) ↔
      ∀ e ∈ rest, e.irq = sig → ∀ n, ¬ StaleFd e.dev n s) ∧
    ((∃ e ∈ rest, e.irq = sig ∧ ∃ n, StaleFd e.dev n s) → ∃ e ∈ rest, e.irq = sig ∧ ∃ n,
      StaleFd e.dev n s ∧ ∃ frames s' rest', Alone cfg s frames s' ∧
        s'.pc = .isr e.dev (some n) sig rest') ∧
    ∀ e ∈ rest, e.irq = sig → ∀ n, StaleFd e.dev n s → ∀ tr' s',
      Run (Guarded (IntrSys.Step cfg) fun _ l => Proper cfg l.1 ∧ NotTaken e.dev n l.1) s tr' s' →
      s'.pc ≠ .sigwait ∧ (∀ l ∈ tr', ¬ Serves l.2) ∧
      ∀ rest', s'.pc = .isr e.dev (some n) sig rest' → ∀ tr'' s'',
        Run (Guarded (IntrSys.Step cfg) fun _ l => Proper cfg l.1 ∧ NotTaken e.dev n l.1)
          s' tr'' s'' → ∀ l ∈ tr'', l.2 = .silent := by
  have hfiles := (hs₀.run hcfg h).1.files
  have htrapped : ∀ e ∈ rest, e.irq = sig → ∀ n, StaleFd e.dev n s →
      Trapped cfg sig e.dev n s := by
    intro e he hirq n hfd
    exact ⟨hfiles, hfd, by rw [hpc]; exact ⟨rfl, e, he, hirq, rfl⟩⟩
  -- alone, the thread neither opens anything nor meets an error of `poll`
  have hreturns : (∃ frames s', Alone cfg s frames s' ∧ s'.pc = .sigwait) →
      ∀ e ∈ rest, e.irq = sig → ∀ n, ¬ StaleFd e.dev n s := by
    rintro ⟨frames, s', ⟨tr', hrun, hgo, -⟩, hpc'⟩ e he hirq n hfd
    have hguard := hrun.guard (C := fun _ l => Proper cfg l.1 ∧ NotTaken e.dev n l.1)
      fun l hl _ => by
        rw [hgo l hl]
        exact ⟨nofun, trivial⟩
    exact (run_trapped hcfg (htrapped e he hirq n hfd) hguard).1.not_sigwait hpc'
  obtain ⟨frames, s', halone, -, hend⟩ := alone_dispatch hcfg hpc
  refine ⟨⟨hreturns, fun hfresh => ?_⟩, ?_, fun e he hirq n hfd tr' s' hrun => ?_⟩
  · rcases hend with hend | ⟨e, he, hirq, n, -, hn, -⟩
    · exact ⟨frames, s', halone, hend⟩
    · exact absurd hn (hfresh e he hirq n)
  · rintro ⟨e, he, hirq, n, hn⟩
    rcases hend with hend | ⟨e', he', hirq', n', rest', hn', hpc'⟩
    · exact absurd hn (hreturns ⟨frames, s', halone, hend⟩ e he hirq n)
    · exact ⟨e', he', hirq', n', hn', frames, s', rest', halone, hpc'⟩
  · obtain ⟨htrap, hserves⟩ := run_trapped hcfg (htrapped e he hirq n hfd) hrun
    exact ⟨htrap.not_sigwait, hserves, fun rest' hpc' tr'' s'' hrun' =>
      run_silent hcfg htrap hpc' hrun'⟩

def twoTapConfig : IntrConfig where
  table := (intrRequestIrq true (tapEntry 1) tapConfig.table).1
  devices := fun dev =>
    if dev = 1 then { tapConfig.devices 1 with address := .ofBytes 2 0 0 0 0 3 }
    else tapConfig.devices dev
  irq := tapConfig.irq

theorem twoTapConfig_ready : twoTapConfig.Ready where
  stack := by decide
  waited := by decide
  own := by decide

theorem tapStarted_twoTap : Started twoTapConfig tapStarted where
  idle := tapStarted_started.idle
  distinct := tapStarted_started.distinct
  files := by
    intro n dev hfile
    obtain ⟨hfd, e, he, hirq, hdev⟩ := tapStarted_started.files n dev hfile
    exact ⟨hfd, e, List.mem_cons_of_mem _ he, hirq, hdev⟩
  rx := fun _ => rfl
  pending := rfl
  raising := rfl
  selfRaising := rfl
  pc := rfl

/-- The second device cannot be opened, and the first one receives a frame. -/
def openFailsThenFrame : List IntrAction :=
  [.deviceOpen 1 (.closedAgain 4), .frame 0 tapFrame false, .sigwait 0]

/-- The interrupt is never done with, and the frame is never handled, unless the number 4 is given
out again or the device opened. -/
theorem openFailsThenFrame_hangs : ∃ tr s,
    Run (Guarded (IntrSys.Step twoTapConfig) fun _ l => Proper twoTapConfig l.1) tapStarted tr s ∧
    tr.map Prod.fst = openFailsThenFrame ∧
    (¬ ∃ frames s', Alone twoTapConfig s frames s' ∧ s'.pc = .sigwait) ∧
    ∀ tr' s', Run (Guarded (IntrSys.Step twoTapConfig) fun _ l => Proper twoTapConfig l.1 ∧
      NotTaken 1 4 l.1) s tr' s' → s'.pc ≠ .sigwait ∧ ∀ l ∈ tr', ¬ Serves l.2 := by
  obtain ⟨tr, s, hrun, hmap, hcheck⟩ := exec_check (IntrSys.step twoTapConfig) tapStarted
    openFailsThenFrame (fun r => decide ((r.2.fds 1 = some 4 ∧ r.2.files 4 = none) ∧
      r.2.pc = .dispatch etherTapIrq [tapEntry 1, tapEntry 0])) (by decide +kernel)
  obtain ⟨hstale, hpc⟩ := of_decide_eq_true hcheck
  have hproper : ∀ l ∈ tr, Proper twoTapConfig l.1 := by
    intro l hl
    have ha : l.1 ∈ openFailsThenFrame := hmap ▸ List.mem_map_of_mem hl
    generalize l.1 = a at ha
    simp only [openFailsThenFrame, List.mem_cons, List.not_mem_nil, or_false] at ha
    rcases ha with rfl | rfl | rfl
    · exact ⟨tapEntry 1, by decide, rfl, rfl⟩
    · trivial
    · trivial
  have hguard := hrun.guard (C := fun _ l => Proper twoTapConfig l.1) fun l hl _ => hproper l hl
  obtain ⟨hiff, -, hhang⟩ := stale_descriptor_hangs twoTapConfig_ready tapStarted_twoTap hguard hpc
  refine ⟨tr, s, hguard, hmap, fun hret => ?_, fun tr' s' hrun' => ?_⟩
  · exact hiff.mp hret (tapEntry 1) (by simp) rfl 4 hstale
  · obtain ⟨hnever, hserves, -⟩ := hhang (tapEntry 1) (by simp) rfl 4 hstale tr' s' hrun'
    exact ⟨hnever, hserves⟩

/-! ## A number that another device has got -/

/-- **Stolen frames.** When the interrupt thread comes to the entry of a driver that keeps the
number on which a device is open, the handler reads all the frames that wait at this device, and
enters them as frames of its own device. -/
theorem kept_number_steals (hcfg : cfg.Ready) {s : IntrSys η} {sig dev n : Nat} {e : IrqEntry}
    {rest : List IrqEntry} (hpc : s.pc = .dispatch sig (e :: rest)) (hirq : e.irq = sig)
    (hfd : s.fds e.dev = some n) (hfile : s.files n = some (.device dev)) :
    ∃ s', Alone cfg s ((s.rx dev).map fun f => (e.dev, f)) s' ∧ s'.pc = .dispatch sig rest ∧
      s'.rx dev = [] ∧ ∀ t ∈ s.protocols.map (·.type),
        queueOf s'.protocols t = queueOf s.protocols t ++
          (s.rx dev).filterMap (entryOf cfg e.dev t) := by
  obtain ⟨s₁, hsettle, hself, hpc₁, hsame, hrx, hprot⟩ := alone_settle hcfg (s := s)
    (by rw [hpc]; simp)
  have hfd₁ : s₁.fds e.dev = some n := by rw [hsame.fds, hfd]
  have hfile₁ : s₁.files n = some (.device dev) := by rw [hsame.files, hfile]
  have hcall : s₁.advance cfg .ok true =
      some ({ s₁ with pc := .isr e.dev (some n) sig rest }, .silent) := by
    simp [IntrSys.advance, hself, hpc₁, hpc, hirq, hfd₁]
  obtain ⟨s', hread, hpc', -, hrx', hqueues⟩ := alone_isr hcfg
    (s := { s₁ with pc := .isr e.dev (some n) sig rest }) rfl hself hfd₁ hfile₁
    (congrFun hrx dev)
  refine ⟨s', ?_, hpc', hrx', fun t ht => ?_⟩
  · exact (hsettle.trans (.single (by rw [hpc₁, hpc]; simp) hcall)).trans hread
  · rw [hqueues t (by simpa [hprot] using ht), hprot]

/-- Nothing but the standard streams is open. -/
def tapUnopened : IntrSys Unit :=
  { tapStarted with
    fds := fun _ => none
    files := fun n => if n < 3 then some .other else none }

/-- The second device cannot be opened; the first one can, and gets the lowest free number; it
receives a frame. -/
def openFailsThenReused : List IntrAction :=
  [.deviceOpen 1 (.closedAgain 3), .deviceOpen 0 (.ok 3), .frame 0 tapFrame false, .sigwait 0]

/-- The frame is lost. -/
theorem openFailsThenReused_stolen : ∃ tr s s',
    Run (IntrSys.Step twoTapConfig) tapUnopened tr s ∧ tr.map Prod.fst = openFailsThenReused ∧
    Alone twoTapConfig s [(1, tapFrame)] s' ∧ s'.rx 0 = [] ∧
    queueOf s'.protocols networkProtocolTypeIp = [] := by
  obtain ⟨tr, s, hrun, hmap, hcheck⟩ := exec_check (IntrSys.step twoTapConfig) tapUnopened
    openFailsThenReused (fun r => decide ((r.2.fds 1 = some 3 ∧ r.2.files 3 = some (.device 0)) ∧
      r.2.pc = .dispatch etherTapIrq [tapEntry 1, tapEntry 0] ∧ r.2.rx 0 = [tapFrame] ∧
      networkProtocolTypeIp ∈ r.2.protocols.map (·.type) ∧
      queueOf r.2.protocols networkProtocolTypeIp = [])) (by decide +kernel)
  obtain ⟨⟨hfd, hfile⟩, hpc, hrx, hreg, hqueue⟩ := of_decide_eq_true hcheck
  obtain ⟨s', halone, -, hrx', hqueues⟩ := kept_number_steals twoTapConfig_ready hpc rfl hfd hfile
  rw [hrx] at halone hqueues
  refine ⟨tr, s, s', hrun, hmap, halone, hrx', ?_⟩
  rw [hqueues _ hreg, hqueue]
  decide

end LLNStack
