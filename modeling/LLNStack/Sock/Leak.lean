import LLNStack.Sock.Owner

/-!
# LLNStack.Sock.Leak

Socket slots that are in use without a socket. `sock_open` takes a slot before it calls `udp_open`
and keeps it when that fails; `sock_close` has no case for stream sockets, so their slots are never
given back. `SlotSafe` says that a step runs into neither, and `noLeak_iff_slotSafe` that the
slots in use are the open sockets, throughout a run, exactly if all its steps are safe.
-/

namespace LLNStack

open Lib

/-- What a `sock_open` or `sock_close` has to do: a failed open changes no slot, and a close of an
open socket succeeds and gives the slot back. -/
def SlotContract (live : Fin maxSocks → Option Int) (socks socks' : Socks) :
    SockAction × UdpResult → Prop
  | (.sockOpen _ _ _, .ret r) => r = -1 → socks' = socks
  | (.sockClose id _, .ret r) =>
    ∀ i : Fin maxSocks, id = i.val → live i ≠ none → r = 0 ∧ (socks' i).used = false
  | _ => True

/-- The slots in use are the open sockets, and the last call kept its contract. -/
def NoLeak (tr : List (SockAction × UdpResult)) (s : SockSys) : Prop :=
  (∀ i, (s.socks i).used = true ↔ openSocks tr i ≠ none) ∧
    ∀ tr₁ l s₁, tr = tr₁ ++ [l] → Run SockSys.Step SockSys.init tr₁ s₁ →
      SlotContract (openSocks tr₁) s₁.socks s.socks l

/-- The condition on a step, in the state before it: a datagram socket that would get a slot also
gets a PCB, and the socket to be closed is not a stream socket. -/
def SlotSafe (s : SockSys) : SockAction × UdpResult → Prop
  | (.sockOpen domain type protocol, _) =>
    domain = afInet → type = sockDgram → protocol = 0 → (∃ i, (s.socks i).used = false) →
      ∃ j, (s.udp.pcbs j).state = .stateFree
  | (.sockClose id _, _) => ∀ i : Fin maxSocks, id = i.val → (s.socks i).type ≠ sockStream
  | _ => True

theorem SlotOk.type_stream {pcbs : Pcbs} {t : Option Int} {sock : Sock} (h : SlotOk pcbs t sock)
    (ht : sock.type = sockStream) : t = some sockStream := by
  cases h with
  | stream => rfl
  | free | failed | dgram _ => cases ht

theorem SlotOk.live_used {pcbs : Pcbs} {t : Option Int} {sock : Sock} (h : SlotOk pcbs t sock)
    (ht : t ≠ none) : sock.used = true ∧ (sock.type = sockStream ∨ sock.type = sockDgram) := by
  cases h with
  | free | failed => exact absurd rfl ht
  | stream => exact ⟨rfl, .inl rfl⟩
  | dgram _ => exact ⟨rfl, .inr rfl⟩

/-! ## One step -/

theorem slotSafe_of_contract {live : Fin maxSocks → Option Int} {s s' : SockSys} {a : SockAction}
    {r : UdpResult} (ho : Owned live s) (ht : SockTrans s a r s')
    (h : SlotContract live s.socks s'.socks (a, r)) : SlotSafe s (a, r) := by
  cases ht with
  | openReject hf =>
    rintro hd ht hp ⟨i, hi⟩
    rw [hf hd (.inr ht) hp i] at hi; cases hi
  | openStream _ => exact fun _ ht => absurd ht (by decide)
  | @openDgram i _ _ hi hu =>
    intro _ _ _ _
    cases hu with
    | openFail _ =>
      -- the slot taken stays taken
      have hs := congrFun (h (if_pos rfl)) i
      simp only [Function.update_self] at hs
      rw [← hs] at hi; cases hi
    | openOk hj => exact ⟨_, hj⟩
  | closeReject hn =>
    intro i hi hstream
    have hl := (ho.slot i).type_stream hstream
    obtain ⟨h0, -⟩ := h i hi (by rw [hl]; nofun)
    cases h0
  | closeDgram _ hid hi _ =>
    rintro i rfl
    rw [Fin.ext (Int.ofNat_inj.mp hid), hi]
    decide
  | callReject ho' hc =>
    cases a with
    | sockOpen d t p => exact absurd rfl (ho' d t p)
    | sockClose id d => exact absurd rfl (hc id d)
    | _ => trivial
  | bind _ _ _ | sendto _ _ _ | recvfrom _ _ _ _ | input _ | event _ | woken _ | spurious _ =>
    trivial

theorem contract_of_slotSafe {live : Fin maxSocks → Option Int} {s s' : SockSys} {a : SockAction}
    {r : UdpResult} (ho : Owned live s) (ht : SockTrans s a r s') (h : SlotSafe s (a, r)) :
    SlotContract live s.socks s'.socks (a, r) := by
  cases ht with
  | openReject _ => exact fun _ => rfl
  | @openStream i hi =>
    intro hr
    rw [((ho.slot i).unused hi).2, if_neg (by decide)] at hr
    omega
  | @openDgram i _ _ hi hu =>
    intro hr
    cases hu with
    | openFail hf =>
      obtain ⟨j, hj⟩ := h rfl rfl rfl ⟨i, hi⟩
      exact absurd hj (hf j)
    | openOk hj =>
      rw [if_neg (by omega)] at hr
      omega
  | closeReject hn =>
    intro i hi hl
    rcases ((ho.slot i).live_used hl).2 with hs | hd
    · exact absurd hs (h i hi)
    · exact absurd hd (hn i hi)
  | closeDgram _ hid hi _ =>
    rintro i rfl -
    simp only [Fin.ext (Int.ofNat_inj.mp hid), Function.update_self]
    exact ⟨trivial, rfl⟩
  | callReject ho' hc =>
    cases a with
    | sockOpen d t p => exact absurd rfl (ho' d t p)
    | sockClose id d => exact absurd rfl (hc id d)
    | _ => trivial
  | bind _ _ _ | sendto _ _ _ | recvfrom _ _ _ _ | input _ | event _ | woken _ | spurious _ =>
    trivial

theorem used_update {live : Fin maxSocks → Option Int} {socks : Socks} {k : Fin maxSocks}
    {t : Option Int} {sock : Sock} (h : ∀ i, (socks i).used = true → live i ≠ none)
    (hk : sock.used = true → t ≠ none) (i : Fin maxSocks) :
    (Function.update socks k sock i).used = true → Function.update live k t i ≠ none := by
  by_cases he : i = k
  · subst he; simpa only [Function.update_self] using hk
  · simpa only [Function.update_of_ne he] using h i

theorem used_of_slotSafe {live : Fin maxSocks → Option Int} {s s' : SockSys} {a : SockAction}
    {r : UdpResult} (ho : Owned live s) (ht : SockTrans s a r s') (h : SlotSafe s (a, r))
    (hu : ∀ i, (s.socks i).used = true → live i ≠ none) (i : Fin maxSocks) :
    (s'.socks i).used = true → observeSock live (a, r) i ≠ none := by
  cases ht with
  | openReject _ | closeReject _ | callReject _ _ => rw [observeSock_reject]; exact hu i
  | @openStream k hk =>
    rw [((ho.slot k).unused hk).2, if_neg (by decide), observeSock_open]
    exact used_update hu (fun _ => Option.some_ne_none _) i
  | @openDgram k _ _ hk hudp =>
    cases hudp with
    | openFail hf =>
      obtain ⟨j, hj⟩ := h rfl rfl rfl ⟨k, hk⟩
      exact absurd hj (hf j)
    | openOk _ =>
      rw [if_neg (by omega), observeSock_open]
      exact used_update hu (fun _ => Option.some_ne_none _) i
  | closeDgram _ hid _ _ =>
    subst hid
    rw [observeSock_close]
    exact used_update hu (fun h => by cases h) i
  | bind _ _ _ | sendto _ _ _ | recvfrom _ _ _ _ | input _ | event _ | woken _ | spurious _ =>
    exact hu i

/-! ## Whole runs -/

/-- **No socket-slot leak.** In a run of socket calls of any length, the slots in use are exactly
the open sockets in every state, every failed `sock_open` leaves the table as it was and every
`sock_close` of an open socket succeeds and frees its slot, exactly if no step opens a datagram
socket while all PCBs are taken and none closes a stream socket. -/
theorem noLeak_iff_slotSafe {tr : List (SockAction × UdpResult)} {s : SockSys}
    (h : Run SockSys.Step SockSys.init tr s) :
    Run.Throughout SockSys.Step SockSys.init tr NoLeak ↔
      Run (Guarded SockSys.Step SlotSafe) SockSys.init tr s := by
  refine Run.guarded_iff (stepRel_deterministic _) ?_ ?_ h
  · refine ⟨fun i => ⟨nofun, fun h => absurd rfl h⟩, fun tr₁ l s₁ he => by simp at he⟩
  · rintro tr s ⟨a, r⟩ s' hr ⟨hused, -⟩ hl
    obtain ⟨ho, hc⟩ := run_owned hr.of_guarded
    have ht := sock_trans hl
    constructor
    · rintro ⟨-, hcon⟩
      exact slotSafe_of_contract ho ht (hcon tr (a, r) s rfl hr.of_guarded)
    · intro hsafe
      refine ⟨fun i => ⟨?_, ?_⟩, ?_⟩
      · rw [openSocks_snoc]
        exact used_of_slotSafe ho ht hsafe (fun i => (hused i).mp) i
      · rw [openSocks_snoc]
        exact fun hi => (((ho.step hc ht).slot i).live_used hi).1
      · intro tr₁ l s₁ he h₁
        obtain ⟨rfl, hlast⟩ := List.append_inj' he rfl
        cases hlast
        rw [h₁.deterministic (stepRel_deterministic _) hr.of_guarded]
        exact contract_of_slotSafe ho ht hsafe

/-- A stream socket is opened and closed. -/
def streamThenClose : List SockAction := [.sockOpen afInet sockStream 0, .sockClose 0 0]

/-- Sixteen datagram sockets are opened, and one more. -/
def seventeenOpens : List SockAction := List.replicate 17 (.sockOpen afInet sockDgram 0)

/-- `sock_close` returns -1 for the open stream socket and its slot stays in use; the seventeenth
`sock_open` returns -1 and takes slot 16. -/
theorem slots_leak :
    (∃ tr s, Run SockSys.Step SockSys.init tr s ∧ tr.map Prod.fst = streamThenClose ∧
      tr.map Prod.snd = [.ret 0, .ret (-1)] ∧ (s.socks 0).used = true) ∧
    ∃ tr s, Run SockSys.Step SockSys.init tr s ∧ tr.map Prod.fst = seventeenOpens ∧
      (tr.map Prod.snd).getLast? = some (.ret (-1)) ∧
      openSocks tr 16 = none ∧ (s.socks 16).used = true := by
  constructor
  · obtain ⟨tr, s, hr, hm, hp⟩ := exec_check SockSys.step SockSys.init streamThenClose
      (fun r => decide (r.1.map Prod.snd = [.ret 0, .ret (-1)] ∧ (r.2.socks 0).used = true))
      (by decide +kernel)
    exact ⟨tr, s, hr, hm, of_decide_eq_true hp⟩
  · obtain ⟨tr, s, hr, hm, hp⟩ := exec_check SockSys.step SockSys.init seventeenOpens
      (fun r => decide ((r.1.map Prod.snd).getLast? = some (.ret (-1)) ∧
        openSocks r.1 16 = none ∧ (r.2.socks 16).used = true)) (by decide +kernel)
    exact ⟨tr, s, hr, hm, of_decide_eq_true hp⟩

theorem dgramOpenClose_noLeak : ∃ tr s, Run SockSys.Step SockSys.init tr s ∧
    tr.map Prod.fst = [.sockOpen afInet sockDgram 0, .sockClose 0 0] ∧
    Run.Throughout SockSys.Step SockSys.init tr NoLeak := by
  have hopen : Run (Guarded SockSys.Step SlotSafe) SockSys.init
      ([] ++ [(.sockOpen afInet sockDgram 0, .ret (sockOpen .init afInet sockDgram 0).2)])
      (sockOpen .init afInet sockDgram 0).1 :=
    .snoc .nil ⟨rfl, fun _ _ _ _ => ⟨0, rfl⟩⟩
  have hclose : Run (Guarded SockSys.Step SlotSafe) SockSys.init
      (([] ++ [(.sockOpen afInet sockDgram 0, .ret (sockOpen .init afInet sockDgram 0).2)]) ++
        [(.sockClose 0 0, .ret (sockClose 0 (sockOpen .init afInet sockDgram 0).1 0).2)])
      (sockClose 0 (sockOpen .init afInet sockDgram 0).1 0).1 := by
    have hidle : (sockOpen .init afInet sockDgram 0).1.udp.waiters = [] := by decide +kernel
    refine .snoc hopen ⟨if_pos hidle, fun i hi => ?_⟩
    have : i = 0 := Fin.ext (Int.ofNat_inj.mp hi.symm)
    subst this
    decide +kernel
  exact ⟨_, _, hclose.of_guarded, rfl, (noLeak_iff_slotSafe hclose.of_guarded).mpr hclose⟩

end LLNStack
