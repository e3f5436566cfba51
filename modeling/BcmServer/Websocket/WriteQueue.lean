import BcmServer.Lts.Pool

/-!
# BcmServer.Websocket.WriteQueue — the write queue of a session

`write` appends to the queue under its mutex and notifies the condition when
the queue has become one long. `runWrite`, the only reader, waits on the
condition when it finds the queue empty, takes the whole queue and writes the
payloads out without the mutex. It does not look at the queue again when it
wakes up, so a spurious wake-up takes an empty queue.

* `writes_in_order`: in every interleaving the payloads handed to `async_write`
  are a prefix of the payloads appended, in the order of the mutex, and
  `runWrite` waits without a notification on its way only while the queue is
  empty.

Two invariants carry it. The mutex has one holder (`Inv.mutex`), so between an
append and its notification the reader can neither test the queue nor go to
sleep. And what was appended is what was sent, what the reader has taken and
what is queued, in this order (`Inv.account`).
-/

namespace BcmServer.Websocket

open BcmServer.Lts

variable {π : Type*}

/-- Where `runWrite` is. -/
inductive WriterStage where
  /-- before the test of the loop -/
  | top
  /-- before `m_writeQueueMtx` is taken -/
  | lock
  /-- before the test for an empty queue -/
  | test
  /-- in `m_writeQueueCond.wait`, not notified -/
  | waiting
  /-- awake, before the mutex is taken again -/
  | woken
  | swap
  | unlock
  /-- before the second test of `m_running` -/
  | check
  | sending
  | done
deriving DecidableEq, Repr

/-- The stages in which `runWrite` holds the mutex. -/
def WriterStage.holds : WriterStage → Bool
  | test | swap | unlock => true
  | top | lock | waiting | woken | check | sending | done => false

/-- The write queue of a session, with what has been appended and what has been
handed to `async_write`. -/
structure WriteQueue (π : Type*) where
  /-- `m_running` -/
  running : Bool
  /-- `m_writeQueueMtx` is held -/
  locked : Bool
  /-- `m_writeQueue` -/
  queue : List π
  stage : WriterStage
  /-- what is left of `tmpQueue` -/
  tmpQueue : List π
  /-- the payloads in the order of `push_back` -/
  appended : List π
  /-- the payloads in the order of `async_write` -/
  sent : List π
deriving DecidableEq, Repr

/-- A running fiber besides `runWrite`: what it does next. -/
inductive WriteTask (π : Type*) where
  /-- `write`, before the mutex is taken -/
  | lock (payload : π)
  /-- `write`, before `push_back` -/
  | push (payload : π)
  /-- `write`, before the size is tested -/
  | notify
  /-- the end of `run`, before the mutex is taken -/
  | exitLock
  /-- the end of `run`, before `notify_one` -/
  | exitNotify
  /-- before the mutex is given back -/
  | unlock
deriving DecidableEq, Repr

/-- The stages in which a fiber holds the mutex. -/
def WriteTask.holds : WriteTask π → Bool
  | push _ | notify | exitNotify | unlock => true
  | lock _ | exitLock => false

/-- A notification this fiber still has to make. -/
def WriteTask.notifies : WriteTask π → Bool
  | notify => true
  | lock _ | push _ | exitLock | exitNotify | unlock => false

/-- What happens besides the fibers that `write` and `run` are. -/
inductive WriteEvent (π : Type*) where
  /-- `runWrite` takes its next step -/
  | runWrite
  /-- a wake-up without a notification -/
  | spurious
  | write (payload : π)
  /-- `m_running` is cleared, by `disconnect` or at the end of `run` -/
  | stop
  /-- `run` reaches its last statement -/
  | leave
deriving DecidableEq, Repr

namespace WriteQueue

def initial : WriteQueue π where
  running := true
  locked := false
  queue := []
  stage := .top
  tmpQueue := []
  appended := []
  sent := []

/-- `m_writeQueueCond.notify_one()`; nobody but `runWrite` waits. -/
def notifyOne (s : WriteQueue π) : WriteQueue π :=
  { s with stage := if s.stage = .waiting then .woken else s.stage }

/-- The next atomic step of `WebsocketSession::runWrite`. -/
def runWrite (s : WriteQueue π) : Option (WriteQueue π) :=
  match s.stage with
  | .top => some { s with stage := if s.running then .lock else .done }
  | .lock => if s.locked then none else some { s with locked := true, stage := .test }
  | .test =>
      -- `wait` gives the mutex back
      if s.queue.isEmpty then some { s with locked := false, stage := .waiting }
      else some { s with stage := .swap }
  | .waiting => none
  | .woken => if s.locked then none else some { s with locked := true, stage := .swap }
  | .swap => some { s with tmpQueue := s.queue, queue := [], stage := .unlock }
  | .unlock => some { s with locked := false, stage := .check }
  | .check => some { s with stage := if s.running then .sending else .done }
  | .sending =>
      match s.tmpQueue with
      | [] => some { s with stage := .top }
      | payload :: rest =>
          -- an error of `async_write` is logged only
          some { s with tmpQueue := rest, sent := s.sent ++ [payload] }
  | .done => none

end WriteQueue

/-- The next atomic step of a fiber. -/
def writeNext (s : WriteQueue π) (k : WriteTask π) : Option (WriteQueue π × List (WriteTask π)) :=
  match k with
  | .lock payload =>
      if s.locked then none else some ({ s with locked := true }, [.push payload])
  | .push payload =>
      some ({ s with queue := s.queue ++ [payload], appended := s.appended ++ [payload] },
        [.notify])
  | .notify => some (if s.queue.length = 1 then s.notifyOne else s, [.unlock])
  | .exitLock => if s.locked then none else some ({ s with locked := true }, [.exitNotify])
  | .exitNotify => some (s.notifyOne, [.unlock])
  | .unlock => some ({ s with locked := false }, [])

/-- The fibers of a session around its write queue. -/
def writeSystem (π : Type*) : CallSystem (WriteQueue π) (WriteTask π) Unit (WriteEvent π) where
  next s k _ := writeNext s k
  env p
    | .runWrite => p.shared.runWrite.map fun s => (s, [])
    | .spurious =>
        if p.shared.stage = .waiting then some ({ p.shared with stage := .woken }, []) else none
    | .write payload => some (p.shared, [.lock payload])
    | .stop => some ({ p.shared with running := false }, [])
    | .leave => some (p.shared, [.exitLock])

def writeInit : Pool (WriteQueue π) (WriteTask π) := ⟨WriteQueue.initial, []⟩

/-! ## The invariant -/

/-- The stages in which the reader has nothing left of a queue it took. -/
def WriterStage.fresh : WriterStage → Bool
  | top | lock | test | waiting | woken | swap => true
  | unlock | check | sending | done => false

/-- The mutex is held by the fibers and the reader together at most once; what
was appended is sent, taken or queued, in this order; and a sleeping reader is
owed a notification as long as the queue is not empty. -/
structure WriteQueue.Inv (s : WriteQueue π) (calls : List (WriteTask π)) : Prop where
  mutex : calls.countP WriteTask.holds + s.stage.holds.toNat = s.locked.toNat
  account : s.sent ++ s.tmpQueue ++ s.queue = s.appended
  fresh : s.stage.fresh → s.tmpQueue = []
  /-- between an append and its notification the queue is one long -/
  pending : s.stage = .waiting → 0 < calls.countP WriteTask.notifies → s.queue.length = 1
  asleep : s.stage = .waiting → calls.countP WriteTask.notifies = 0 → s.queue = []

namespace WriteQueue

theorem inv_init : Inv (initial : WriteQueue π) [] where
  mutex := rfl
  account := rfl
  fresh _ := rfl
  pending h := by cases h
  asleep _ _ := rfl

theorem Inv.perm {s : WriteQueue π} {L L' : List (WriteTask π)} (h : s.Inv L)
    (hL : L.Perm L') : s.Inv L' where
  mutex := by rw [← hL.countP_eq]; exact h.mutex
  account := h.account
  fresh := h.fresh
  pending := by rw [← hL.countP_eq]; exact h.pending
  asleep := by rw [← hL.countP_eq]; exact h.asleep

/-- Who still owes a notification holds the mutex. -/
theorem notifies_le_holds (L : List (WriteTask π)) :
    L.countP WriteTask.notifies ≤ L.countP WriteTask.holds := by
  refine List.countP_mono_left ?_
  intro k _ hk
  cases k <;> simp_all [WriteTask.notifies, WriteTask.holds]

/-- A fiber in the critical section is alone there: the others do not hold the
mutex, neither does the reader. -/
theorem Inv.alone {s : WriteQueue π} {k : WriteTask π} {L : List (WriteTask π)}
    (h : s.Inv (k :: L)) (hk : k.holds) :
    L.countP WriteTask.holds = 0 ∧ L.countP WriteTask.notifies = 0 ∧ s.stage.holds = false ∧
      s.locked = true := by
  have hm := h.mutex
  have hle := notifies_le_holds L
  have hlocked : s.locked.toNat ≤ 1 := Bool.toNat_le s.locked
  rw [List.countP_cons_of_pos hk] at hm
  have hstage : s.stage.holds.toNat = 0 := by omega
  refine ⟨by omega, by omega, ?_, ?_⟩
  · exact Bool.toNat_eq_zero.mp hstage
  · exact Bool.toNat_eq_one.mp (by omega)

/-- A reader in the critical section is alone there. -/
theorem Inv.reader {s : WriteQueue π} {L : List (WriteTask π)} (h : s.Inv L)
    (hstage : s.stage.holds = true) : L.countP WriteTask.holds = 0 := by
  have hm := h.mutex
  have hlocked : s.locked.toNat ≤ 1 := Bool.toNat_le s.locked
  rw [hstage, Bool.toNat_true] at hm
  omega

/-- A free mutex has no holder. -/
theorem Inv.nobody {s : WriteQueue π} {L : List (WriteTask π)} (h : s.Inv L)
    (hfree : s.locked = false) : L.countP WriteTask.holds = 0 ∧ s.stage.holds = false := by
  have hm := h.mutex
  rw [hfree, Bool.toNat_false, Nat.add_eq_zero_iff] at hm
  exact ⟨hm.1, Bool.toNat_eq_zero.mp hm.2⟩

/-- A fiber takes the free mutex. -/
theorem Inv.acquire {s : WriteQueue π} {k k' : WriteTask π} {L : List (WriteTask π)}
    (h : s.Inv (k :: L)) (hfree : s.locked = false) (hk : k'.holds = true)
    (hn : k'.notifies = k.notifies) :
    ({ s with locked := true } : WriteQueue π).Inv (k' :: L) := by
  obtain ⟨hholds, hstage⟩ := h.nobody hfree
  have hsame : (k' :: L).countP WriteTask.notifies = (k :: L).countP WriteTask.notifies := by
    rw [List.countP_cons, List.countP_cons, hn]
  refine ⟨?_, h.account, h.fresh, by rw [hsame]; exact h.pending, by rw [hsame]; exact h.asleep⟩
  have hL : L.countP WriteTask.holds = 0 := by
    have hle : L.countP WriteTask.holds ≤ (k :: L).countP WriteTask.holds :=
      (List.sublist_cons_self k L).countP_le
    omega
  rw [List.countP_cons_of_pos hk, hL, hstage]
  rfl

/-- `notify_one` leaves the queue, the mutex and the payloads alone, and no
reader sleeps after it. -/
theorem Inv.notifyOne {s : WriteQueue π} {k : WriteTask π} {L : List (WriteTask π)}
    (h : s.Inv (k :: L)) (hk : k.holds) : s.notifyOne.Inv (.unlock :: L) := by
  obtain ⟨hholds, -, hstage, hlocked⟩ := h.alone hk
  have hawake : s.notifyOne.stage ≠ .waiting := by
    simp only [WriteQueue.notifyOne]
    split <;> simp_all
  refine ⟨?_, h.account, ?_, fun hw => absurd hw hawake, fun hw => absurd hw hawake⟩
  · have hfree : s.notifyOne.stage.holds = false := by
      simp only [WriteQueue.notifyOne]
      split
      · rfl
      · exact hstage
    show (WriteTask.unlock :: L).countP WriteTask.holds + s.notifyOne.stage.holds.toNat =
      s.locked.toNat
    rw [List.countP_cons_of_pos rfl, hholds, hfree, hlocked]
    rfl
  · intro hf
    refine h.fresh ?_
    simp only [WriteQueue.notifyOne] at hf
    split at hf
    · rename_i hw
      rw [hw]
      rfl
    · exact hf

/-- Every step of a fiber keeps the invariant. -/
theorem inv_next {s s' : WriteQueue π} {k : WriteTask π} {ks L : List (WriteTask π)}
    (h : s.Inv (k :: L)) (hnext : writeNext s k = some (s', ks)) : s'.Inv (ks ++ L) := by
  cases k with
  | lock payload =>
      simp only [writeNext] at hnext
      split at hnext
      · cases hnext
      · rename_i hfree
        cases hnext
        exact h.acquire (Bool.not_eq_true _ ▸ hfree) rfl rfl
  | push payload =>
      obtain ⟨hholds, hnotifies, hstage, hlocked⟩ := h.alone rfl
      cases hnext
      refine ⟨h.mutex, ?_, h.fresh, ?_, ?_⟩
      · rw [← List.append_assoc, h.account]
      · -- the reader sleeps on an empty queue, so the append makes it one long
        intro hw _
        have hempty : s.queue = [] := by
          refine h.asleep hw ?_
          rw [List.countP_cons_of_neg (by simp [WriteTask.notifies]), hnotifies]
        simp [hempty]
      · intro _ hnone
        simp [WriteTask.notifies] at hnone
  | notify =>
      simp only [writeNext, Option.some.injEq, Prod.mk.injEq] at hnext
      obtain ⟨rfl, rfl⟩ := hnext
      split
      · exact h.notifyOne rfl
      · -- without a notification the reader is not asleep
        rename_i hlen
        have hawake : s.stage ≠ .waiting := by
          intro hw
          exact hlen (h.pending hw (by simp [WriteTask.notifies]))
        exact ⟨h.mutex, h.account, h.fresh, fun hw => absurd hw hawake,
          fun hw => absurd hw hawake⟩
  | exitLock =>
      simp only [writeNext] at hnext
      split at hnext
      · cases hnext
      · rename_i hfree
        cases hnext
        exact h.acquire (Bool.not_eq_true _ ▸ hfree) rfl rfl
  | exitNotify =>
      cases hnext
      exact h.notifyOne rfl
  | unlock =>
      obtain ⟨hholds, hnotifies, hstage, hlocked⟩ := h.alone rfl
      cases hnext
      refine ⟨?_, h.account, h.fresh, h.pending, h.asleep⟩
      simp [hholds, hstage]

/-- The reader takes the free mutex. -/
theorem Inv.enter {s : WriteQueue π} {L : List (WriteTask π)} {stage : WriterStage}
    (h : s.Inv L) (hfree : s.locked = false) (hfresh : s.stage.fresh = true)
    (hholds : stage.holds = true) (hawake : stage ≠ .waiting) :
    ({ s with locked := true, stage := stage } : WriteQueue π).Inv L := by
  obtain ⟨hnobody, -⟩ := h.nobody hfree
  have htmp := h.fresh hfresh
  refine ⟨?_, h.account, fun _ => htmp, fun hw => absurd hw hawake, fun hw => absurd hw hawake⟩
  rw [hnobody, hholds]
  rfl

/-- Every step of `runWrite` keeps the invariant. -/
theorem inv_runWrite {s s' : WriteQueue π} {L : List (WriteTask π)} (h : s.Inv L)
    (hstep : s.runWrite = some s') : s'.Inv L := by
  have hm := h.mutex
  unfold runWrite at hstep
  split at hstep
  · -- top
    rename_i hstage
    cases hstep
    rw [hstage] at hm
    have htmp := h.fresh (by rw [hstage]; rfl)
    refine ⟨?_, h.account, fun _ => htmp, ?_, ?_⟩
    · by_cases hr : s.running <;> simpa [hr, WriterStage.holds] using hm
    · by_cases hr : s.running <;> simp [hr]
    · by_cases hr : s.running <;> simp [hr]
  · -- lock
    rename_i hstage
    split at hstep
    · cases hstep
    · rename_i hfree
      cases hstep
      exact h.enter (Bool.not_eq_true _ ▸ hfree) (by rw [hstage]; rfl) rfl (by decide)
  · -- test: the reader holds the mutex, so no notification is owed
    rename_i hstage
    have htmp := h.fresh (by rw [hstage]; rfl)
    have hholds := h.reader (by rw [hstage]; rfl)
    split at hstep
    · rename_i hempty
      cases hstep
      have hnotifies := notifies_le_holds L
      refine ⟨?_, h.account, fun _ => htmp, ?_, fun _ _ => List.isEmpty_iff.mp hempty⟩
      · rw [hholds]
        rfl
      · intro _ hpos
        omega
    · rw [hstage] at hm
      cases hstep
      exact ⟨hm, h.account, fun _ => htmp, fun hw => (by cases hw), fun hw => (by cases hw)⟩
  · cases hstep
  · -- woken
    rename_i hstage
    split at hstep
    · cases hstep
    · rename_i hfree
      cases hstep
      exact h.enter (Bool.not_eq_true _ ▸ hfree) (by rw [hstage]; rfl) rfl (by decide)
  · -- swap: the whole queue is taken, nothing was left of the one before
    rename_i hstage
    cases hstep
    rw [hstage] at hm
    have htmp := h.fresh (by rw [hstage]; rfl)
    have haccount := h.account
    rw [htmp, List.append_nil] at haccount
    refine ⟨hm, ?_, fun hf => (by cases hf), fun hw => (by cases hw), fun hw => (by cases hw)⟩
    rw [List.append_nil]
    exact haccount
  · -- unlock
    rename_i hstage
    cases hstep
    have hholds := h.reader (by rw [hstage]; rfl)
    refine ⟨?_, h.account, fun hf => (by cases hf), fun hw => (by cases hw),
      fun hw => (by cases hw)⟩
    rw [hholds]
    rfl
  · -- check
    rename_i hstage
    cases hstep
    rw [hstage] at hm
    refine ⟨?_, h.account, ?_, ?_, ?_⟩
    · by_cases hr : s.running <;> simpa [hr, WriterStage.holds] using hm
    · by_cases hr : s.running <;> simp [hr, WriterStage.fresh]
    · by_cases hr : s.running <;> simp [hr]
    · by_cases hr : s.running <;> simp [hr]
  · -- sending
    rename_i hstage
    rw [hstage] at hm
    split at hstep
    · rename_i htmp
      cases hstep
      exact ⟨hm, h.account, fun _ => htmp, fun hw => (by cases hw), fun hw => (by cases hw)⟩
    · rename_i payload rest htmp
      cases hstep
      have haccount := h.account
      rw [htmp] at haccount
      refine ⟨by rw [hstage]; exact hm, ?_, ?_, ?_, ?_⟩
      · rw [← haccount]
        simp
      · simp [hstage, WriterStage.fresh]
      · simp [hstage]
      · simp [hstage]
  · cases hstep

/-- A fiber that starts outside the critical section changes nothing. -/
theorem Inv.start {s : WriteQueue π} {k : WriteTask π} {L : List (WriteTask π)} (h : s.Inv L)
    (hk : k.holds = false) : s.Inv (L ++ [k]) := by
  have hn : k.notifies = false := by
    cases k <;> simp_all [WriteTask.notifies, WriteTask.holds]
  have hholds : (L ++ [k]).countP WriteTask.holds = L.countP WriteTask.holds := by simp [hk]
  have hnotifies : (L ++ [k]).countP WriteTask.notifies = L.countP WriteTask.notifies := by
    simp [hn]
  exact ⟨by rw [hholds]; exact h.mutex, h.account, h.fresh, by rw [hnotifies]; exact h.pending,
    by rw [hnotifies]; exact h.asleep⟩

theorem inv_env {p : Pool (WriteQueue π) (WriteTask π)} {e : WriteEvent π} {s : WriteQueue π}
    {ks : List (WriteTask π)} (h : p.shared.Inv p.calls)
    (henv : (writeSystem π).env p e = some (s, ks)) : s.Inv (p.calls ++ ks) := by
  cases e with
  | runWrite =>
      obtain ⟨t, ht, heq⟩ := Option.map_eq_some_iff.mp henv
      cases heq
      rw [List.append_nil]
      exact inv_runWrite h ht
  | spurious =>
      simp only [writeSystem] at henv
      split at henv
      · rename_i hw
        cases henv
        rw [List.append_nil]
        have hm := h.mutex
        rw [hw] at hm
        exact ⟨hm, h.account, fun _ => h.fresh (by rw [hw]; rfl), fun hw => (by cases hw),
          fun hw => (by cases hw)⟩
      · cases henv
  | write payload =>
      cases henv
      exact h.start rfl
  | stop =>
      cases henv
      rw [List.append_nil]
      exact ⟨h.mutex, h.account, h.fresh, h.pending, h.asleep⟩
  | leave =>
      cases henv
      exact h.start rfl

theorem inv_run {p : Pool (WriteQueue π) (WriteTask π)} {ls : List (Sched Unit (WriteEvent π))}
    (hrun : (writeSystem π).machine.run writeInit ls = some p) : p.shared.Inv p.calls := by
  refine (writeSystem π).reachable_invariant (fun p => p.shared.Inv p.calls) ?_ ?_ inv_init hrun
  · intro p q k rest _ s ks hinv hperm hnext hs hks
    rw [hs]
    exact (inv_next (hinv.perm hperm) hnext).perm hks.symm
  · intro p e s ks hinv henv
    exact inv_env hinv henv

end WriteQueue

/-- The write queue loses and reorders nothing: in every interleaving what has
been handed to `async_write` is a prefix of what has been appended, and while
`runWrite` waits and no notification is on its way the queue is empty. -/
theorem writes_in_order {p : Pool (WriteQueue π) (WriteTask π)}
    {ls : List (Sched Unit (WriteEvent π))}
    (hrun : (writeSystem π).machine.run writeInit ls = some p) :
    p.shared.sent <+: p.shared.appended ∧
      (p.shared.stage = .waiting → (∀ k ∈ p.calls, k.notifies = false) → p.shared.queue = []) := by
  have hinv := WriteQueue.inv_run hrun
  constructor
  · rw [← hinv.account, List.append_assoc]
    exact List.prefix_append _ _
  · intro hwaiting hnone
    refine hinv.asleep hwaiting ?_
    rw [List.countP_eq_zero]
    intro k hk
    simp [hnone k hk]

/-- Two payloads, the second appended while the reader writes the first out; then
the reader goes to sleep again. -/
def writeRun : List (Sched Unit (WriteEvent ℕ)) :=
  List.replicate 3 (.env .runWrite) ++ .env (.write 1) :: List.replicate 4 (.call 0 ()) ++
    List.replicate 5 (.env .runWrite) ++ .env (.write 2) :: List.replicate 4 (.call 0 ()) ++
    List.replicate 12 (.env .runWrite)

def writeEnd : Pool (WriteQueue ℕ) (WriteTask ℕ) where
  shared :=
    { running := true
      locked := false
      queue := []
      stage := .waiting
      tmpQueue := []
      appended := [1, 2]
      sent := [1, 2] }
  calls := []

theorem writes_in_order_run :
    (writeSystem ℕ).machine.run writeInit writeRun = some writeEnd ∧
      writeEnd.shared.sent <+: writeEnd.shared.appended ∧ writeEnd.shared.queue = [] := by
  have hrun : (writeSystem ℕ).machine.run writeInit writeRun = some writeEnd := by
    decide +kernel
  obtain ⟨hsent, hqueue⟩ := writes_in_order hrun
  exact ⟨hrun, hsent, hqueue rfl (by simp [writeEnd])⟩

end BcmServer.Websocket
