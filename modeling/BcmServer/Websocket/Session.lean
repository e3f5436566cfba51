import BcmServer.Dispatcher.Channel
import BcmServer.Lts.Pool

/-!
# BcmServer.Websocket.Session — the promises of a websocket session

`sendRequest` hands a promise to the session. It is fulfilled with the client's
response, or with a dummy response when the session is not running or when
`run` clears what is pending at its end. The running flag is tested before the
promise is put in the map, and the map is locked for single operations only.

* `promises_at_most_once`: in every interleaving no promise is fulfilled twice.
* `promise_left_behind`: one that is inserted after `clearPromises`, by a
  `sendRequest` that had found the session running before, is never fulfilled.
* `promises_exactly_once`: that is the only way. If no `sendRequest` is between
  its test and its insertion when `clearPromises` runs, then once `run` and all
  calls have returned nothing is pending and every promise was fulfilled
  exactly once.

The account behind both: every promise handed in is fulfilled, pending or with
a call that has not inserted it yet, and with only one of them (`Accounted`).

The write queue carries the requests to the client; whether and when they get
there shows in the responses only.
-/

namespace BcmServer.Websocket

open BcmServer.Dispatcher BcmServer.Lts

/-- A `WebsocketResponseMessage`, as far as the session reads it. -/
structure Response where
  id : UInt64
  status : UInt32
deriving DecidableEq, Repr

/-- `m_dummyResponse` -/
def dummyResponse : Response := ⟨0, connectionClosedWithoutResponse⟩

/-- Where `run` is. -/
inductive RunStage where
  /-- before `m_running = true` -/
  | starting
  /-- in the read loop -/
  | reading
  /-- after the loop, before `m_running` is tested -/
  | leaving
  /-- before `m_running = false` -/
  | closing
  /-- before `clearPromises` -/
  | clearing
  | done
deriving DecidableEq, Repr

/-- A `WebsocketSession` and what has happened to its promises, which are
numbered. -/
structure Session where
  /-- `m_running` -/
  running : Bool
  stage : RunStage
  /-- `m_pendingPromises` -/
  pending : List (UInt64 × ℕ)
  /-- the request ids generated so far -/
  used : List UInt64
  /-- the promises passed to `sendRequest` -/
  handed : List ℕ
  /-- the calls of `set_value`, in order -/
  fulfilled : List (ℕ × Response)
deriving DecidableEq, Repr

/-- A running fiber: what it does next. -/
inductive SessionTask where
  /-- `sendRequest`, before the test of `m_running` -/
  | sendTest (x : ℕ)
  /-- `sendRequest`, before the insertion -/
  | sendInsert (x : ℕ)
  /-- `sendRequest`, before `checkPromisesCapacity` -/
  | sendCheck
  /-- `handleResponseMessage` -/
  | response (r : Response)
  /-- the fiber that `disconnect` posts -/
  | disconnect
deriving DecidableEq, Repr

/-- What happens besides the fibers. -/
inductive SessionEvent where
  /-- `run` takes its next step; in the read loop it gets a response or an error -/
  | run (r : Option Response)
  | sendRequest (x : ℕ)
  | disconnect
deriving DecidableEq, Repr

namespace Session

def initial : Session where
  running := false
  stage := .starting
  pending := []
  used := []
  handed := []
  fulfilled := []

/-- `set_value` -/
def fulfil (s : Session) (x : ℕ) (r : Response) : Session :=
  { s with fulfilled := s.fulfilled ++ [(x, r)] }

/-- `kMaxPromiseSize` -/
def kMaxPromiseSize : ℕ := 100000

/-- `WebsocketSession::handleResponseMessage` -/
def handleResponseMessage (s : Session) (r : Response) : Session :=
  match s.pending.lookup r.id with
  | none => s
  | some x =>
      { s.fulfil x r with pending := s.pending.filter fun e => e.1 ≠ r.id }

/-- `WebsocketSession::clearPromises` -/
def clearPromises (s : Session) : Session :=
  { s with
    fulfilled := s.fulfilled ++ s.pending.map fun e => (e.2, dummyResponse)
    pending := [] }

/-- The next atomic step of `run`, with the response handler it starts. -/
def run (s : Session) (r : Option Response) : Option (Session × List SessionTask) :=
  match s.stage with
  | .starting => some ({ s with running := true, stage := .reading }, [])
  | .reading =>
      match r with
      | some r => some (s, [.response r])
      | none => some ({ s with stage := .leaving }, [])
  | .leaving => some ({ s with stage := if s.running then .closing else .clearing }, [])
  | .closing => some ({ s with running := false, stage := .clearing }, [])
  | .clearing => some ({ s.clearPromises with stage := .done }, [])
  | .done => none

end Session

/-- The next atomic step of a fiber; `id` is what `generateRequestId` gives, if
it is asked. Ids are distinct. -/
def sessionNext (s : Session) (k : SessionTask) (id : UInt64) :
    Option (Session × List SessionTask) :=
  match k with
  | .sendTest x =>
      if s.running then some (s, [.sendInsert x]) else some (s.fulfil x dummyResponse, [])
  | .sendInsert x =>
      if id ∈ s.used then none
      else some ({ s with pending := s.pending ++ [(id, x)], used := id :: s.used }, [.sendCheck])
  | .sendCheck =>
      some (s, if s.pending.length < Session.kMaxPromiseSize then [] else [.disconnect])
  | .response r => some (s.handleResponseMessage r, [])
  | .disconnect => some ({ s with running := false }, [])

/-- The fibers of a session. Every `sendRequest` comes with a promise of its
own. -/
def sessionSystem : CallSystem Session SessionTask UInt64 SessionEvent where
  next := sessionNext
  env p
    | .run r => p.shared.run r
    | .sendRequest x =>
        if x ∈ p.shared.handed then none
        else some ({ p.shared with handed := x :: p.shared.handed }, [.sendTest x])
    | .disconnect => some (p.shared, [.disconnect])

def sessionInit : Pool Session SessionTask := ⟨Session.initial, []⟩

/-! ## The account of the promises -/

/-- The promise a call holds. -/
def SessionTask.holds : SessionTask → List ℕ
  | sendTest x | sendInsert x => [x]
  | sendCheck | response _ | disconnect => []

/-- Every promise handed in is fulfilled, pending or held, and only once. -/
structure Accounted (p : Pool Session SessionTask) : Prop where
  nodup : p.shared.handed.Nodup
  keys : (p.shared.pending.map Prod.fst).Nodup
  used : ∀ e ∈ p.shared.pending, e.1 ∈ p.shared.used
  account : (p.shared.fulfilled.map Prod.fst ++ (p.shared.pending.map Prod.snd ++
    p.calls.flatMap SessionTask.holds)).Perm p.shared.handed

/-- A key of the map occurs once, so erasing it takes out one entry. -/
theorem perm_erase_key {l : List (UInt64 × ℕ)} {id : UInt64} {x : ℕ}
    (hkeys : (l.map Prod.fst).Nodup) (h : l.lookup id = some x) :
    l.Perm ((id, x) :: l.filter fun e => e.1 ≠ id) := by
  induction l with
  | nil => cases h
  | cons e l ih =>
      rcases e with ⟨k, y⟩
      rw [List.map_cons, List.nodup_cons] at hkeys
      by_cases hk : id = k
      · subst hk
        rw [List.lookup_cons_self, Option.some.injEq] at h
        subst h
        -- no other entry has the key
        have hall : l.filter (fun e => e.1 ≠ id) = l := by
          rw [List.filter_eq_self]
          intro e he
          have hne : e.1 ≠ id := fun heq => hkeys.1 (List.mem_map.mpr ⟨e, he, heq⟩)
          simpa using hne
        rw [List.filter_cons_of_neg (by simp), hall]
      · rw [List.lookup_cons, beq_eq_false_iff_ne.mpr hk] at h
        have hperm := ih hkeys.2 h
        rw [List.filter_cons_of_pos (by simpa using Ne.symm hk)]
        exact (hperm.cons _).trans (List.Perm.swap _ _ _)

/-- What a step that turns the calls holding `held` into those holding `held'`
does to the account. -/
structure AccountMove (s s' : Session) (held held' : List ℕ) : Prop where
  handed : s'.handed = s.handed
  keys : (s'.pending.map Prod.fst).Nodup
  used : ∀ e ∈ s'.pending, e.1 ∈ s'.used
  account : (s'.fulfilled.map Prod.fst ++ (s'.pending.map Prod.snd ++ held')).Perm
    (s.fulfilled.map Prod.fst ++ (s.pending.map Prod.snd ++ held))

section Moves

variable {s : Session} (hkeys : (s.pending.map Prod.fst).Nodup)
  (hused : ∀ e ∈ s.pending, e.1 ∈ s.used)

include hkeys hused

/-- The response to a pending request moves its promise to the fulfilled ones;
any other response changes nothing. -/
theorem accountMove_response (r : Response) : AccountMove s (s.handleResponseMessage r) [] [] := by
  unfold Session.handleResponseMessage
  split
  · exact ⟨rfl, hkeys, hused, List.Perm.refl _⟩
  · rename_i x hx
    have hperm := (perm_erase_key hkeys hx).map Prod.snd
    refine ⟨rfl, ?_, ?_, ?_⟩
    · exact hkeys.sublist (List.filter_sublist.map _)
    · intro e he
      exact hused e (List.mem_of_mem_filter he)
    · simp only [Session.fulfil, List.map_append, List.map_cons, List.map_nil, List.append_nil,
        List.append_assoc, List.cons_append, List.nil_append]
      exact (hperm.symm).append_left _

theorem accountMove_next {k : SessionTask} {id : UInt64} {r : Session × List SessionTask}
    (hnext : sessionNext s k id = some r) :
    AccountMove s r.1 k.holds (r.2.flatMap SessionTask.holds) := by
  cases k with
  | sendTest x =>
      simp only [sessionNext] at hnext
      split at hnext
      · cases hnext
        exact ⟨rfl, hkeys, hused, List.Perm.refl _⟩
      · cases hnext
        refine ⟨rfl, hkeys, hused, ?_⟩
        simp only [Session.fulfil, SessionTask.holds, List.map_append, List.map_cons, List.map_nil,
          List.flatMap_nil, List.append_nil, List.append_assoc]
        exact List.Perm.append_left _ List.perm_append_comm
  | sendInsert x =>
      simp only [sessionNext] at hnext
      split at hnext
      · cases hnext
      · rename_i hnew
        cases hnext
        refine ⟨rfl, ?_, ?_, ?_⟩
        · -- the id is new, so it is not a key yet
          rw [List.map_append, List.map_singleton]
          refine List.nodup_append_comm.mp (List.nodup_cons.mpr ⟨?_, hkeys⟩)
          intro hmem
          rcases List.mem_map.mp hmem with ⟨e, he, heq⟩
          have hin := hused e he
          rw [heq] at hin
          exact hnew hin
        · intro e he
          rcases List.mem_append.mp he with he | he
          · exact List.mem_cons_of_mem _ (hused e he)
          · rw [List.mem_singleton.mp he]
            exact List.mem_cons_self
        · simp [SessionTask.holds]
  | sendCheck =>
      cases hnext
      refine ⟨rfl, hkeys, hused, ?_⟩
      split <;> exact List.Perm.refl _
  | response r =>
      cases hnext
      exact accountMove_response hkeys hused r
  | disconnect =>
      cases hnext
      exact ⟨rfl, hkeys, hused, List.Perm.refl _⟩

theorem accountMove_run {r : Option Response} {t : Session × List SessionTask}
    (hrun : s.run r = some t) : AccountMove s t.1 [] (t.2.flatMap SessionTask.holds) := by
  unfold Session.run at hrun
  split at hrun
  · cases hrun
    exact ⟨rfl, hkeys, hused, List.Perm.refl _⟩
  · split at hrun <;> cases hrun <;> exact ⟨rfl, hkeys, hused, List.Perm.refl _⟩
  · cases hrun
    exact ⟨rfl, hkeys, hused, List.Perm.refl _⟩
  · cases hrun
    exact ⟨rfl, hkeys, hused, List.Perm.refl _⟩
  · cases hrun
    refine ⟨rfl, List.nodup_nil, fun e he => (nomatch he), ?_⟩
    have hclear : (s.pending.map fun e => (e.2, dummyResponse)).map Prod.fst =
        s.pending.map Prod.snd := by
      rw [List.map_map]
      rfl
    simp only [Session.clearPromises, List.map_append, hclear, List.map_nil, List.flatMap_nil,
      List.append_nil]
    exact List.Perm.refl _
  · cases hrun

end Moves

/-! ## At most once -/

/-- A move of one call among the others. -/
theorem accounted_move {p q : Pool Session SessionTask} {held : List ℕ}
    {ks rest : List SessionTask} (h : Accounted p)
    (hp : (p.calls.flatMap SessionTask.holds).Perm (held ++ rest.flatMap SessionTask.holds))
    (hq : q.calls.Perm (ks ++ rest))
    (hmove : AccountMove p.shared q.shared held (ks.flatMap SessionTask.holds)) : Accounted q := by
  refine ⟨by rw [hmove.handed]; exact h.nodup, hmove.keys, hmove.used, ?_⟩
  have hqholds := hq.flatMap_right SessionTask.holds
  rw [List.flatMap_append] at hqholds
  rw [hmove.handed]
  calc (q.shared.fulfilled.map Prod.fst ++ (q.shared.pending.map Prod.snd ++
          q.calls.flatMap SessionTask.holds))
      |>.Perm (q.shared.fulfilled.map Prod.fst ++ (q.shared.pending.map Prod.snd ++
          (ks.flatMap SessionTask.holds ++ rest.flatMap SessionTask.holds))) :=
        (hqholds.append_left _).append_left _
    _ |>.Perm (p.shared.fulfilled.map Prod.fst ++ (p.shared.pending.map Prod.snd ++
          (held ++ rest.flatMap SessionTask.holds))) := by
        have h := hmove.account.append_right (rest.flatMap SessionTask.holds)
        simpa only [List.append_assoc] using h
    _ |>.Perm (p.shared.fulfilled.map Prod.fst ++ (p.shared.pending.map Prod.snd ++
          p.calls.flatMap SessionTask.holds)) := (hp.symm.append_left _).append_left _
    _ |>.Perm p.shared.handed := h.account

theorem accounted_call {p q : Pool Session SessionTask} {k : SessionTask}
    {rest ks : List SessionTask} {id : UInt64} {s : Session} (h : Accounted p)
    (hp : p.calls.Perm (k :: rest)) (hnext : sessionNext p.shared k id = some (s, ks))
    (hs : q.shared = s) (hq : q.calls.Perm (ks ++ rest)) : Accounted q := by
  subst hs
  have hpholds := hp.flatMap_right SessionTask.holds
  rw [List.flatMap_cons] at hpholds
  exact accounted_move h hpholds hq (accountMove_next h.keys h.used hnext)

theorem accounted_env {p : Pool Session SessionTask} {ev : SessionEvent} {s : Session}
    {ks : List SessionTask} (h : Accounted p) (henv : sessionSystem.env p ev = some (s, ks)) :
    Accounted ⟨s, p.calls ++ ks⟩ := by
  cases ev with
  | run r =>
      exact accounted_move h (List.Perm.refl _) List.perm_append_comm
        (accountMove_run h.keys h.used henv)
  | sendRequest x =>
      simp only [sessionSystem] at henv
      split at henv
      · cases henv
      · rename_i hnew
        cases henv
        refine ⟨List.nodup_cons.mpr ⟨hnew, h.nodup⟩, h.keys, h.used, ?_⟩
        have hacc := (List.perm_append_singleton x _).trans (h.account.cons x)
        simpa [SessionTask.holds, List.flatMap_append] using hacc
  | disconnect =>
      cases henv
      refine ⟨h.nodup, h.keys, h.used, ?_⟩
      simpa [SessionTask.holds, List.flatMap_append] using h.account

theorem accounted_run {ls : List (Sched UInt64 SessionEvent)} {p : Pool Session SessionTask}
    (hrun : sessionSystem.machine.run sessionInit ls = some p) : Accounted p := by
  refine sessionSystem.reachable_invariant Accounted ?_ ?_ ?_ hrun
  · intro p q k rest id s ks h hp hnext hs hq
    exact accounted_call h hp hnext hs hq
  · intro p ev s ks h henv
    exact accounted_env h henv
  · exact ⟨List.nodup_nil, List.nodup_nil, fun e he => (nomatch he), List.Perm.refl _⟩

/-- No promise is fulfilled twice, in any interleaving. -/
theorem promises_at_most_once {ls : List (Sched UInt64 SessionEvent)} {p : Pool Session SessionTask}
    (hrun : sessionSystem.machine.run sessionInit ls = some p) (x : ℕ) :
    (p.shared.fulfilled.map Prod.fst).count x ≤ 1 := by
  have h := accounted_run hrun
  have hcount := h.account.count_eq x
  rw [List.count_append] at hcount
  have hle := List.nodup_iff_count_le_one.mp h.nodup x
  omega

/-! ## Exactly once -/

/-- A `sendRequest` that has not returned. -/
def SessionTask.isSend : SessionTask → Bool
  | sendTest _ | sendInsert _ | sendCheck => true
  | response _ | disconnect => false

/-- A `sendRequest` that found the session running and has not inserted yet. -/
def SessionTask.inserts : SessionTask → Bool
  | sendInsert _ => true
  | sendTest _ | sendCheck | response _ | disconnect => false

/-- `clearPromises` runs only while no `sendRequest` is between its test of
`m_running` and its insertion. -/
def undisturbed (p : Pool Session SessionTask) : SessionEvent → Bool
  | .run _ => p.shared.stage ≠ .clearing || p.calls.all fun k => !k.inserts
  | .sendRequest _ | .disconnect => true

def Undisturbed : Pool Session SessionTask → Sched UInt64 SessionEvent → Prop :=
  CallSystem.allow (fun _ _ _ => True) (fun p ev => undisturbed p ev = true)

instance (p : Pool Session SessionTask) (l : Sched UInt64 SessionEvent) :
    Decidable (Undisturbed p l) :=
  inferInstanceAs (Decidable (CallSystem.allow _ _ p l))

/-- The session is not running when it clears, and once it has cleared nothing
is pending and nothing will be. -/
structure Settled (p : Pool Session SessionTask) : Prop where
  stopped : p.shared.stage = .clearing ∨ p.shared.stage = .done → p.shared.running = false
  cleared : p.shared.stage = .done →
    p.shared.pending = [] ∧ ∀ k ∈ p.calls, k.inserts = false

theorem settled_call {p q : Pool Session SessionTask} {k : SessionTask}
    {rest ks : List SessionTask} {id : UInt64} {s : Session} (h : Settled p)
    (hp : p.calls.Perm (k :: rest)) (hnext : sessionNext p.shared k id = some (s, ks))
    (hs : q.shared = s) (hq : q.calls.Perm (ks ++ rest)) : Settled q := by
  have hrest : p.shared.stage = .done → ∀ k' ∈ rest, k'.inserts = false := by
    intro hdone k' hk'
    exact (h.cleared hdone).2 k' (hp.mem_iff.mpr (List.mem_cons_of_mem _ hk'))
  have hk : p.shared.stage = .done → k.inserts = false := by
    intro hdone
    exact (h.cleared hdone).2 k (hp.mem_iff.mpr List.mem_cons_self)
  -- no call changes the stage or starts the session again, and after the end
  -- none adds an entry or is about to
  have hkey : s.stage = p.shared.stage ∧
      (p.shared.running = false → s.running = false) ∧
      (p.shared.stage = .done → s.pending = [] ∧ ∀ k' ∈ ks, k'.inserts = false) := by
    cases k with
    | sendTest x =>
        simp only [sessionNext] at hnext
        split at hnext
        · rename_i hrunning
          cases hnext
          refine ⟨rfl, fun hoff => hoff, fun hdone => ?_⟩
          rw [h.stopped (Or.inr hdone)] at hrunning
          cases hrunning
        · cases hnext
          exact ⟨rfl, fun hoff => hoff, fun hdone => ⟨(h.cleared hdone).1, fun k' hk' => (nomatch hk')⟩⟩
    | sendInsert x =>
        simp only [sessionNext] at hnext
        split at hnext
        · cases hnext
        · cases hnext
          exact ⟨rfl, fun hoff => hoff, fun hdone => absurd (hk hdone) (by simp [SessionTask.inserts])⟩
    | sendCheck =>
        cases hnext
        refine ⟨rfl, fun hoff => hoff, fun hdone => ⟨(h.cleared hdone).1, fun k' hk' => ?_⟩⟩
        split at hk'
        · cases hk'
        · rw [List.mem_singleton.mp hk']
          rfl
    | response r =>
        cases hnext
        unfold Session.handleResponseMessage
        split
        · exact ⟨rfl, fun hoff => hoff, fun hdone => ⟨(h.cleared hdone).1, fun k' hk' => (nomatch hk')⟩⟩
        · rename_i x hx
          refine ⟨rfl, fun hoff => hoff, fun hdone => ?_⟩
          rw [(h.cleared hdone).1] at hx
          cases hx
    | disconnect =>
        cases hnext
        exact ⟨rfl, fun _ => rfl,
          fun hdone => ⟨(h.cleared hdone).1, fun k' hk' => (nomatch hk')⟩⟩
  rcases hkey with ⟨hstage, hrunning, hdone⟩
  constructor
  · intro hst
    rw [hs, hstage] at hst
    rw [hs]
    exact hrunning (h.stopped hst)
  · intro hst
    rw [hs, hstage] at hst
    rw [hs]
    refine ⟨(hdone hst).1, fun k' hk' => ?_⟩
    rcases List.mem_append.mp (hq.mem_iff.mp hk') with hk' | hk'
    · exact (hdone hst).2 k' hk'
    · exact hrest hst k' hk'

theorem settled_run {p : Pool Session SessionTask} {r : Option Response} {s : Session}
    {ks : List SessionTask} (h : Settled p) (hcond : undisturbed p (.run r) = true)
    (hstep : p.shared.run r = some (s, ks)) : Settled ⟨s, p.calls ++ ks⟩ := by
  unfold Session.run at hstep
  split at hstep
  · cases hstep
    exact ⟨fun hst => by simp at hst, fun hst => (nomatch hst)⟩
  · rename_i hst0
    split at hstep <;> cases hstep
    · refine ⟨fun hst => ?_, fun hst => ?_⟩ <;> simp [hst0] at hst
    · exact ⟨fun hst => by simp at hst, fun hst => (nomatch hst)⟩
  · cases hstep
    cases hrunning : p.shared.running with
    | true => exact ⟨fun hst => by simp at hst, fun hst => by simp at hst⟩
    | false => exact ⟨fun _ => rfl, fun hst => by simp at hst⟩
  · cases hstep
    exact ⟨fun _ => rfl, fun hst => (nomatch hst)⟩
  · rename_i hst0
    cases hstep
    -- `clearPromises`: the condition says that nobody is about to insert
    have hnone : ∀ k ∈ p.calls, k.inserts = false := by
      simpa [undisturbed, hst0] using hcond
    refine ⟨fun _ => h.stopped (Or.inl hst0), fun _ => ⟨rfl, ?_⟩⟩
    rw [List.append_nil]
    exact hnone
  · cases hstep

theorem settled_of_run {ls : List (Sched UInt64 SessionEvent)} {p : Pool Session SessionTask}
    (hrun : sessionSystem.machine.run sessionInit ls = some p)
    (hok : sessionSystem.machine.Meets Undisturbed sessionInit ls) : Settled p := by
  refine sessionSystem.run_invariant Settled ?_ ?_ ?_ hok hrun
  · intro p q k rest id s ks h hp _ hnext hs hq
    exact settled_call h hp hnext hs hq
  · intro p ev s ks h hcond henv
    cases ev with
    | run r => exact settled_run h hcond henv
    | sendRequest x =>
        simp only [sessionSystem] at henv
        split at henv
        · cases henv
        · cases henv
          refine ⟨h.stopped, fun hst => ⟨(h.cleared hst).1, fun k hk => ?_⟩⟩
          rcases List.mem_append.mp hk with hk | hk
          · exact (h.cleared hst).2 k hk
          · rw [List.mem_singleton.mp hk]
            rfl
    | disconnect =>
        cases henv
        refine ⟨h.stopped, fun hst => ⟨(h.cleared hst).1, fun k hk => ?_⟩⟩
        rcases List.mem_append.mp hk with hk | hk
        · exact (h.cleared hst).2 k hk
        · rw [List.mem_singleton.mp hk]
          rfl
  · exact ⟨fun hst => by simp [sessionInit, Session.initial] at hst, fun hst => (nomatch hst)⟩

/-- **Promises are fulfilled exactly once.** At most once in every
interleaving; and in every interleaving that meets `Undisturbed`, once `run` has
finished and every `sendRequest` has returned, nothing is pending and every
promise handed in was fulfilled. -/
theorem promises_exactly_once (ls : List (Sched UInt64 SessionEvent))
    (p : Pool Session SessionTask) (hrun : sessionSystem.machine.run sessionInit ls = some p) :
    (∀ x, (p.shared.fulfilled.map Prod.fst).count x ≤ 1) ∧
    (sessionSystem.machine.Meets Undisturbed sessionInit ls → p.shared.stage = .done →
      (∀ k ∈ p.calls, k.isSend = false) →
      p.shared.pending = [] ∧
      ∀ x ∈ p.shared.handed, (p.shared.fulfilled.map Prod.fst).count x = 1) := by
  refine ⟨promises_at_most_once hrun, fun hok hdone hreturned => ?_⟩
  have hpending : p.shared.pending = [] := ((settled_of_run hrun hok).cleared hdone).1
  have h := accounted_run hrun
  have hholds : p.calls.flatMap SessionTask.holds = [] := by
    rw [List.flatMap_eq_nil_iff]
    intro k hk
    have hk' := hreturned k hk
    cases k <;> first | rfl | cases hk'
  have hacc := h.account
  rw [hpending, hholds, List.map_nil, List.append_nil, List.append_nil] at hacc
  refine ⟨hpending, fun x hx => ?_⟩
  rw [hacc.count_eq]
  exact List.count_eq_one_of_mem h.nodup hx

/-- A request is answered, another is pending when the connection breaks. -/
def quietClose : List (Sched UInt64 SessionEvent) :=
  [.env (.run none), .env (.sendRequest 1), .env (.sendRequest 2), .call 0 10, .call 0 10,
   .call 1 20, .call 1 20, .env (.run (some ⟨10, 200⟩)), .call 2 0, .env .disconnect,
   .env (.run none), .call 2 0, .env (.run none), .env (.run none), .call 0 0, .call 0 0]

theorem promises_exactly_once_quietClose :
    ∃ p, sessionSystem.machine.run sessionInit quietClose = some p ∧ p.shared.pending = [] ∧
      p.shared.handed = [2, 1] ∧
      ∀ x ∈ p.shared.handed, (p.shared.fulfilled.map Prod.fst).count x = 1 := by
  have hsome : (sessionSystem.machine.run sessionInit quietClose).isSome := by decide
  have hok : sessionSystem.machine.Meets Undisturbed sessionInit quietClose := by decide
  have hview : (sessionSystem.machine.run sessionInit quietClose).map
      (fun p => (p.calls, p.shared.stage, p.shared.handed)) = some ([], .done, [2, 1]) := by decide
  rcases Option.isSome_iff_exists.mp hsome with ⟨p, hp⟩
  rw [hp, Option.map_some, Option.some.injEq, Prod.mk.injEq, Prod.mk.injEq] at hview
  rcases hview with ⟨hcalls, hstage, hhanded⟩
  have hdone := (promises_exactly_once quietClose p hp).2 hok hstage (by simp [hcalls])
  exact ⟨p, hp, hdone.1, hhanded, hdone.2⟩

/-- A `sendRequest` finds the session running; the connection breaks and `run`
clears the promises; then the promise is inserted. -/
def lateInsert : List (Sched UInt64 SessionEvent) :=
  [.env (.run none), .env (.sendRequest 1), .call 0 10, .env (.run none), .env (.run none),
   .env (.run none), .env (.run none), .call 0 10, .call 0 10]

/-- Without the condition a promise can stay pending for ever. -/
theorem promise_left_behind :
    ¬ ∀ (ls : List (Sched UInt64 SessionEvent)) (p : Pool Session SessionTask),
      sessionSystem.machine.run sessionInit ls = some p →
      (∀ x, (p.shared.fulfilled.map Prod.fst).count x ≤ 1) ∧
      (p.shared.stage = .done → (∀ k ∈ p.calls, k.isSend = false) → p.shared.pending = []) := by
  intro hclaim
  have hsome : (sessionSystem.machine.run sessionInit lateInsert).isSome := by decide
  have hview : (sessionSystem.machine.run sessionInit lateInsert).map
      (fun p => (p.calls, p.shared.stage, p.shared.pending)) = some ([], .done, [(10, 1)]) := by
    decide
  rcases Option.isSome_iff_exists.mp hsome with ⟨p, hp⟩
  rw [hp, Option.map_some, Option.some.injEq, Prod.mk.injEq, Prod.mk.injEq] at hview
  rcases hview with ⟨hcalls, hstage, hpending⟩
  have hnil := (hclaim lateInsert p hp).2 hstage (by simp [hcalls])
  rw [hpending] at hnil
  cases hnil

end BcmServer.Websocket
