import BcmServer.Lts.Pool

/-!
# BcmServer.Redis.Failover — one partition of `RedisDbManager`

Every operation takes the current server of its partition, tries it, and while
that fails moves the shared index to the next server and tries that one, as many
times as there are servers. `updateRedisConnPeriod` moves the index back to the
first server that answers. The partitions have nothing in common but the mutex,
so the model is of one.

* `current_lt`: the index is always one of a server.
* `failover_finds_server`: while a server answers, every operation succeeds, in
  every interleaving in which (`Unskipped`) the index is not moved on from that
  server, nor moved back before it by more than what an operation under way
  still has left.
* `failover_skips_server`: two operations that have failed on the same server
  each move the index on, over the server that answers.

How many times the index has to be moved to reach the server (`ahead`) bounds
what an operation needs; while nobody moves on from the server every move makes
it less, whoever moves.
-/

namespace BcmServer.Redis

open BcmServer.Lts

/-- The operations of `RedisDbManager`. -/
inductive DbOp where
  | hset
  | hmset
  | hget
  | hmget
  | hdel
  | zadd
  | incr
  | expire
  | ttl
  | del
  | set
  | get
deriving DecidableEq, Repr

/-- What comes of an attempt at a server. -/
inductive Attempt where
  /-- the command is executed -/
  | executed
  /-- no connection, or an error -/
  | failed
  /-- a pooled connection on which no reply comes -/
  | noReply
deriving DecidableEq, Repr

/-- An operation that has not returned. It holds a server, or has to switch. -/
structure DbCall where
  id : ℕ
  op : DbOp
  server : Option ℕ
  loopCounter : ℕ
deriving DecidableEq, Repr

/-- The threads: the operations, and `updateRedisConnPeriod` with the index it
has copied and the server it tries next, or with what it is about to write. -/
inductive DbThread where
  | call (c : DbCall)
  | probing (copied redisId : ℕ)
  | storing (redisId : ℕ)
deriving DecidableEq, Repr

/-- What an operation has returned. -/
structure DbResult where
  id : ℕ
  success : Bool
  /-- calls of `getNextRedis` -/
  switches : ℕ
deriving DecidableEq, Repr

/-- A partition. -/
structure DbPartition where
  /-- `partitionRedisVector.size()` -/
  servers : ℕ
  /-- `m_currPartitionConn` -/
  current : ℕ
  /-- operations begun so far -/
  begun : ℕ
  results : List DbResult
  /-- the process is gone -/
  crashed : Bool
deriving DecidableEq, Repr

/-- What starts: an operation, or the periodic update. -/
inductive DbStart where
  | call (op : DbOp)
  | update
deriving DecidableEq, Repr

namespace DbPartition

def initial (servers current : ℕ) : DbPartition := ⟨servers, current, 0, [], false⟩

/-- `getNextRedis` -/
def nextIndex (s : DbPartition) : ℕ := (s.current + 1) % s.servers

def result (s : DbPartition) (c : DbCall) (success : Bool) (switches : ℕ) : DbPartition :=
  { s with results := s.results ++ [⟨c.id, success, switches⟩] }

/-- An operation takes its next step; every operation is this loop. -/
def callNext (s : DbPartition) (c : DbCall) (e : Attempt) : DbPartition × List DbThread :=
  match c.server with
  | some _ =>
      match e, c.op with
      | .executed, _ => (s.result c true c.loopCounter, [])
      -- the log line of `RedisConn::incr` reads the reply there is not
      | .noReply, .incr => ({ s with crashed := true }, [])
      | _, _ => (s, [.call { c with server := none }])
  | none =>
      let s' := { s with current := s.nextIndex }
      if c.loopCounter + 1 < s.servers then
        (s', [.call { c with server := some s.nextIndex, loopCounter := c.loopCounter + 1 }])
      else (s'.result c false (c.loopCounter + 1), [])

/-- The rest of the loop over `redisId`. -/
def probeFrom (copied redisId : ℕ) : List DbThread :=
  if redisId ≤ copied then [.probing copied redisId] else []

def next (s : DbPartition) (k : DbThread) (e : Attempt) : Option (DbPartition × List DbThread) :=
  if s.crashed then none
  else match k with
    | .call c => some (s.callNext c e)
    | .probing copied redisId =>
        if e = .executed ∧ redisId < copied then some (s, [.storing redisId])
        else some (s, probeFrom copied (redisId + 1))
    | .storing redisId => some ({ s with current := redisId }, [])

def env (p : Pool DbPartition DbThread) (e : DbStart) : Option (DbPartition × List DbThread) :=
  if p.shared.crashed then none
  else match e with
    | .call op =>
        some ({ p.shared with begun := p.shared.begun + 1 },
          [.call ⟨p.shared.begun, op, some p.shared.current, 0⟩])
    | .update => some (p.shared, probeFrom p.shared.current 0)

def system : CallSystem DbPartition DbThread Attempt DbStart := ⟨next, env⟩

/-- The schedules of the threads. -/
def machine : Machine (Pool DbPartition DbThread) (Sched Attempt DbStart) := system.machine

/-- The steps an operation has left, at most. -/
def remaining (s : DbPartition) (c : DbCall) : ℕ :=
  2 * (s.servers - c.loopCounter) + if c.server.isSome then 1 else 0

/-! ## The index is in range -/

/-- A thread of a partition. -/
def Threaded (s : DbPartition) : DbThread → Prop
  | .call c => c.id < s.begun ∧ c.loopCounter < s.servers
  | .probing copied redisId => copied < s.servers ∧ redisId ≤ copied
  | .storing redisId => redisId < s.servers

/-- What holds in every reachable state of a partition of `n` servers. -/
structure InRange (n : ℕ) (p : Pool DbPartition DbThread) : Prop where
  servers : p.shared.servers = n
  current : p.shared.current < n
  threads : ∀ k ∈ p.calls, p.shared.Threaded k
  numbered : ∀ r ∈ p.shared.results, r.id < p.shared.begun

/-- What one step of an operation does: it returns, takes the process with it,
gives a server up, or switches to the next. -/
inductive CallStep (s : DbPartition) (c : DbCall) (e : Attempt) :
    DbPartition → List DbThread → Prop where
  | success (j : ℕ) (hserver : c.server = some j) (he : e = .executed) :
      CallStep s c e (s.result c true c.loopCounter) []
  | crash (j : ℕ) (hserver : c.server = some j) (hop : c.op = .incr) (he : e = .noReply) :
      CallStep s c e { s with crashed := true } []
  | giveUp (j : ℕ) (hserver : c.server = some j) (he : e ≠ .executed) :
      CallStep s c e s [.call { c with server := none }]
  | switch (hserver : c.server = none) (hlt : c.loopCounter + 1 < s.servers) :
      CallStep s c e { s with current := s.nextIndex }
        [.call { c with server := some s.nextIndex, loopCounter := c.loopCounter + 1 }]
  | exhausted (hserver : c.server = none) (hle : s.servers ≤ c.loopCounter + 1) :
      CallStep s c e ({ s with current := s.nextIndex }.result c false (c.loopCounter + 1)) []

variable {s : DbPartition} {c : DbCall} {n L m : ℕ} {p q : Pool DbPartition DbThread}

theorem callStep (s : DbPartition) (c : DbCall) (e : Attempt) :
    CallStep s c e (s.callNext c e).1 (s.callNext c e).2 := by
  unfold callNext
  split
  · next j hserver =>
    split
    · exact .success j hserver rfl
    · next hop => exact .crash j hserver hop rfl
    · next hne _ => exact .giveUp j hserver hne
  · next hserver =>
    dsimp only
    split
    · next hlt => exact .switch hserver hlt
    · next hle => exact .exhausted hserver (by omega)

/-- What a step of a thread does, unless the process is gone. -/
inductive ThreadStep (s : DbPartition) (e : Attempt) :
    DbThread → DbPartition → List DbThread → Prop where
  | call {c : DbCall} {s' : DbPartition} {ks : List DbThread} (h : CallStep s c e s' ks) :
      ThreadStep s e (.call c) s' ks
  | found {copied redisId : ℕ} (hlt : redisId < copied) :
      ThreadStep s e (.probing copied redisId) s [.storing redisId]
  | goOn {copied redisId : ℕ} :
      ThreadStep s e (.probing copied redisId) s (probeFrom copied (redisId + 1))
  | store {redisId : ℕ} : ThreadStep s e (.storing redisId) { s with current := redisId } []

theorem threadStep {s' : DbPartition} {k : DbThread} {ks : List DbThread} {e : Attempt}
    (h : s.next k e = some (s', ks)) : s.crashed = false ∧ ThreadStep s e k s' ks := by
  unfold next at h
  split at h
  · cases h
  · next hcrashed =>
    refine ⟨by simpa using hcrashed, ?_⟩
    cases k with
    | call c =>
        have hstep := callStep s c e
        rw [Option.some.inj h] at hstep
        exact .call hstep
    | probing copied redisId =>
        dsimp only at h
        split at h
        · next hfound =>
          cases h
          exact .found hfound.2
        · cases h
          exact .goOn
    | storing redisId =>
        cases h
        exact .store

/-- Every step of an operation leaves it with fewer. -/
theorem callStep_remaining {e : Attempt} {s' : DbPartition} {ks : List DbThread}
    (h : CallStep s c e s' ks) : ∀ c', .call c' ∈ ks → s'.remaining c' < s.remaining c := by
  intro c' hc'
  cases h with
  | success j hserver he => cases hc'
  | crash j hserver hop he => cases hc'
  | giveUp j hserver he =>
      cases List.mem_singleton.mp hc'
      simp [remaining, hserver]
  | switch hserver hlt =>
      cases List.mem_singleton.mp hc'
      simp only [remaining, hserver, Option.isSome_some, Option.isSome_none, if_true,
        Bool.false_eq_true, if_false]
      omega
  | exhausted hserver hle => cases hc'

theorem next_remaining (hs : s.crashed = false) (c : DbCall) (e : Attempt) :
    ∃ s' ks, s.next (.call c) e = some (s', ks) ∧
      ∀ c', .call c' ∈ ks → s'.remaining c' < s.remaining c :=
  ⟨_, _, by simp only [next, hs, Bool.false_eq_true, if_false],
    callStep_remaining (callStep s c e)⟩

theorem nextIndex_lt (h : s.current < s.servers) : s.nextIndex < s.servers :=
  Nat.mod_lt _ (by omega)

theorem probeFrom_mem {copied redisId : ℕ} {k : DbThread} (h : k ∈ probeFrom copied redisId) :
    k = .probing copied redisId ∧ redisId ≤ copied := by
  unfold probeFrom at h
  split at h
  · next hle => exact ⟨List.mem_singleton.mp h, hle⟩
  · cases h

/-- A thread stays one when more operations have begun. -/
theorem Threaded.mono {t : DbPartition} {k : DbThread} (h : s.Threaded k)
    (hservers : t.servers = s.servers) (hbegun : s.begun ≤ t.begun) : t.Threaded k := by
  cases k with
  | call c =>
      rw [Threaded] at h ⊢
      omega
  | probing copied redisId =>
      rw [Threaded] at h ⊢
      omega
  | storing redisId =>
      rw [Threaded] at h ⊢
      omega

/-- What a step keeps of the partition, and of the threads it leads to. -/
theorem threadStep_inRange {s' : DbPartition} {k : DbThread} {ks : List DbThread} {e : Attempt}
    (h : ThreadStep s e k s' ks) (hcurrent : s.current < s.servers) (hk : s.Threaded k)
    (hresults : ∀ r ∈ s.results, r.id < s.begun) :
    s'.servers = s.servers ∧ s'.begun = s.begun ∧ s'.current < s.servers ∧
      (∀ k' ∈ ks, s'.Threaded k') ∧ ∀ r ∈ s'.results, r.id < s.begun := by
  have hresult : ∀ {c : DbCall} (b : Bool) (m : ℕ), c.id < s.begun →
      ∀ r ∈ s.results ++ [⟨c.id, b, m⟩], r.id < s.begun := by
    intro c b m hc r hr
    rcases List.mem_append.mp hr with hr | hr
    · exact hresults r hr
    · rw [List.mem_singleton.mp hr]
      exact hc
  cases h with
  | call h =>
      obtain ⟨hid, hloop⟩ : _ ∧ _ := hk
      cases h with
      | success j hserver he =>
          exact ⟨rfl, rfl, hcurrent, by simp, hresult true _ hid⟩
      | crash j hserver hop he => exact ⟨rfl, rfl, hcurrent, by simp, hresults⟩
      | giveUp j hserver he =>
          refine ⟨rfl, rfl, hcurrent, ?_, hresults⟩
          simpa [Threaded] using ⟨hid, hloop⟩
      | switch hserver hlt =>
          refine ⟨rfl, rfl, nextIndex_lt hcurrent, ?_, hresults⟩
          simpa [Threaded] using ⟨hid, hlt⟩
      | exhausted hserver hle =>
          exact ⟨rfl, rfl, nextIndex_lt hcurrent, by simp, hresult false _ hid⟩
  | found hlt =>
      obtain ⟨hcopied, hle⟩ : _ ∧ _ := hk
      refine ⟨rfl, rfl, hcurrent, ?_, hresults⟩
      intro k' hk'
      rw [List.mem_singleton.mp hk', Threaded]
      omega
  | goOn =>
      refine ⟨rfl, rfl, hcurrent, ?_, hresults⟩
      intro k' hk'
      obtain ⟨rfl, hle⟩ := probeFrom_mem hk'
      exact ⟨hk.1, hle⟩
  | store => exact ⟨rfl, rfl, hk, by simp, hresults⟩

theorem inRange_initial {i : ℕ} (h : i < n) : InRange n ⟨initial n i, []⟩ :=
  ⟨rfl, h, by simp, by simp [initial]⟩

theorem InRange.call {k : DbThread} {rest ks : List DbThread} {e : Attempt} {s' : DbPartition}
    (h : InRange n p) (hperm : p.calls.Perm (k :: rest)) (hstep : ThreadStep p.shared e k s' ks)
    (hs : q.shared = s') (hks : q.calls.Perm (ks ++ rest)) : InRange n q := by
  have hcurrent : p.shared.current < p.shared.servers := by
    rw [h.servers]
    exact h.current
  obtain ⟨hservers, hbegun, hcur, hthreads, hresults⟩ := threadStep_inRange hstep hcurrent
    (h.threads k (hperm.mem_iff.mpr List.mem_cons_self)) h.numbered
  subst hs
  refine ⟨hservers.trans h.servers, h.servers ▸ hcur, ?_, ?_⟩
  · intro k' hk'
    rcases List.mem_append.mp (hks.mem_iff.mp hk') with hnew | hold
    · exact hthreads k' hnew
    · have hmem : k' ∈ p.calls := hperm.mem_iff.mpr (List.mem_cons_of_mem k hold)
      exact (h.threads k' hmem).mono hservers (by omega)
  · rw [hbegun]
    exact hresults

/-- What starts: an operation that holds the current server, or the probing of
the first one. -/
theorem env_cases {e : DbStart} {s' : DbPartition} {ks : List DbThread}
    (h : env p e = some (s', ks)) : p.shared.crashed = false ∧
      ((∃ op, s' = { p.shared with begun := p.shared.begun + 1 } ∧
        ks = [.call ⟨p.shared.begun, op, some p.shared.current, 0⟩]) ∨
      (s' = p.shared ∧ ks = probeFrom p.shared.current 0)) := by
  unfold env at h
  split at h
  · cases h
  · next hcrashed =>
    refine ⟨by simpa using hcrashed, ?_⟩
    cases e with
    | call op =>
        cases h
        exact Or.inl ⟨op, rfl, rfl⟩
    | update =>
        cases h
        exact Or.inr ⟨rfl, rfl⟩

theorem InRange.env {e : DbStart} {s' : DbPartition} {ks : List DbThread} (h : InRange n p)
    (hstep : env p e = some (s', ks)) : InRange n ⟨s', p.calls ++ ks⟩ := by
  obtain ⟨-, ⟨op, rfl, rfl⟩ | ⟨rfl, rfl⟩⟩ := env_cases hstep
  · refine ⟨h.servers, h.current, ?_, ?_⟩
    · intro k hk
      rcases List.mem_append.mp hk with hold | hnew
      · exact (h.threads k hold).mono rfl (Nat.le_succ _)
      · rw [List.mem_singleton.mp hnew]
        refine ⟨Nat.lt_succ_self _, ?_⟩
        show 0 < p.shared.servers
        rw [h.servers]
        exact Nat.zero_lt_of_lt h.current
    · intro r hr
      exact Nat.lt_succ_of_lt (h.numbered r hr)
  · refine ⟨h.servers, h.current, ?_, h.numbered⟩
    intro k hk
    rcases List.mem_append.mp hk with hold | hnew
    · exact h.threads k hold
    · obtain ⟨rfl, hle⟩ := probeFrom_mem hnew
      refine ⟨?_, hle⟩
      rw [h.servers]
      exact h.current

theorem inRange_run {i : ℕ} {ls : List (Sched Attempt DbStart)} (hi : i < n)
    (hrun : machine.run ⟨initial n i, []⟩ ls = some p) : InRange n p := by
  refine system.reachable_invariant (InRange n) ?_ ?_ (inRange_initial hi) hrun
  · intro p q k rest e s' ks hinv hperm hnext hs hks
    exact hinv.call hperm (threadStep hnext).2 hs hks
  · intro p e s' ks hinv hstep
    exact hinv.env hstep

/-- The index is always one of a server. -/
theorem current_lt {i : ℕ} {ls : List (Sched Attempt DbStart)} (hi : i < n)
    (hrun : machine.run ⟨initial n i, []⟩ ls = some p) : p.shared.current < n :=
  (inRange_run hi hrun).current

/-! ## A server that answers -/

/-- How many times the index has to be moved to get from one server to another. -/
def ahead (n L i : ℕ) : ℕ := if i ≤ L then L - i else n - i + L

theorem ahead_lt {i : ℕ} (hL : L < n) (hi : i < n) : ahead n L i < n := by
  unfold ahead
  split <;> omega

/-- Moving the index on brings the server nearer, if it is not the current one. -/
theorem ahead_next {i : ℕ} (hL : L < n) (hi : i < n) (hne : i ≠ L) :
    ahead n L ((i + 1) % n) + 1 = ahead n L i := by
  have hmod : (i + 1) % n = if i + 1 = n then 0 else i + 1 := by
    split
    · next heq => rw [heq, Nat.mod_self]
    · exact Nat.mod_eq_of_lt (by omega)
  rw [hmod]
  unfold ahead
  split <;> split <;> split <;> omega

/-- Every attempt at the server succeeds. -/
def reachable (L : ℕ) (k : DbThread) (e : Attempt) : Bool :=
  match k with
  | .call c => c.server ≠ some L || e = .executed
  | .probing _ redisId => redisId ≠ L || e = .executed
  | .storing _ => true

/-- From the current server an operation gets to the server with the attempts it
has left, or it holds the server. -/
def reaches (L current : ℕ) (s : DbPartition) (c : DbCall) : Bool :=
  c.server = some L || c.loopCounter + ahead s.servers L current < s.servers

/-- The index is not moved on from the server, nor moved back so far that an
operation with a number from `m` on does not get to it; and the process is not
lost. -/
def unskipped (m L : ℕ) (p : Pool DbPartition DbThread) (k : DbThread) (e : Attempt) : Bool :=
  match k with
  | .call c =>
      match c.server with
      | some _ => c.op ≠ .incr || e ≠ .noReply
      | none => p.shared.current ≠ L
  | .probing _ _ => true
  | .storing redisId => p.calls.all fun
      | .call c => c.id < m || reaches L redisId p.shared c
      | .probing _ _ | .storing _ => true

def Reachable (L : ℕ) : Pool DbPartition DbThread → Sched Attempt DbStart → Prop :=
  CallSystem.allow (fun _ k e => reachable L k e = true) fun _ _ => True

def Unskipped (m L : ℕ) : Pool DbPartition DbThread → Sched Attempt DbStart → Prop :=
  CallSystem.allow (fun p k e => unskipped m L p k e = true) fun _ _ => True

instance (L : ℕ) (p : Pool DbPartition DbThread) (l : Sched Attempt DbStart) :
    Decidable (Reachable L p l) :=
  CallSystem.allow.decidable _ _ p l

instance (m L : ℕ) (p : Pool DbPartition DbThread) (l : Sched Attempt DbStart) :
    Decidable (Unskipped m L p l) :=
  CallSystem.allow.decidable _ _ p l

/-- The operations with a number from `m` on: none has failed or been lost, none
has switched as many times as there are servers, and each is nearer its end with
every step it takes. -/
structure Served (m : ℕ) (p : Pool DbPartition DbThread) : Prop where
  results : ∀ r ∈ p.shared.results, m ≤ r.id → r.success = true ∧ r.switches < p.shared.servers
  running : ∀ c, .call c ∈ p.calls → m ≤ c.id → c.loopCounter < p.shared.servers
  accounted : ∀ id, m ≤ id → id < p.shared.begun →
    (∃ r ∈ p.shared.results, r.id = id) ∨ ∃ c, .call c ∈ p.calls ∧ c.id = id
  nearer : p.shared.crashed = false → ∀ c, .call c ∈ p.calls → ∀ e, ∃ s' ks,
    p.shared.next (.call c) e = some (s', ks) ∧
      ∀ c', .call c' ∈ ks → s'.remaining c' < p.shared.remaining c

/-- The invariant of a run in which the server answers. -/
structure Inv (m n L : ℕ) (crashed : Bool) (p : Pool DbPartition DbThread) : Prop
    extends InRange n p where
  reaching : ∀ c, .call c ∈ p.calls → m ≤ c.id → reaches L p.shared.current p.shared c = true
  results : ∀ r ∈ p.shared.results, m ≤ r.id → r.success = true ∧ r.switches < p.shared.servers
  accounted : ∀ id, m ≤ id → id < p.shared.begun →
    (∃ r ∈ p.shared.results, r.id = id) ∨ ∃ c, .call c ∈ p.calls ∧ c.id = id
  crashed : p.shared.crashed = crashed

theorem Inv.served {crashed : Bool} (h : Inv m n L crashed p) : Served m p where
  results := h.results
  running _ hc _ := (h.threads _ hc).2
  accounted := h.accounted
  nearer hs c _ e := next_remaining hs c e

/-- An operation that has tried all servers but the one it is about to switch to
has only that one left. -/
theorem reaches_iff : reaches L m s c = true ↔
    c.server = some L ∨ c.loopCounter + ahead s.servers L m < s.servers := by
  simp [reaches]

/-- A switch brings every operation nearer to the server. -/
theorem reaches_next (hL : L < s.servers) (hcurrent : s.current < s.servers) (hne : s.current ≠ L)
    (h : reaches L s.current s c = true) : reaches L s.nextIndex s c = true := by
  rw [reaches_iff] at h ⊢
  have hnext := ahead_next hL hcurrent hne
  refine h.imp_right fun h => ?_
  rw [nextIndex]
  omega

/-- And the operation that switches does not lose by it. -/
theorem reaches_switch (hL : L < s.servers) (hcurrent : s.current < s.servers)
    (hne : s.current ≠ L) (hserver : c.server = none) (h : reaches L s.current s c = true) :
    c.loopCounter + 1 < s.servers ∧ reaches L s.nextIndex s
      { c with server := some s.nextIndex, loopCounter := c.loopCounter + 1 } = true := by
  rw [reaches_iff, hserver] at h
  have hnext := ahead_next hL hcurrent hne
  have hleft : c.loopCounter + ahead s.servers L s.current < s.servers := by simpa using h
  refine ⟨by omega, reaches_iff.mpr (Or.inr ?_)⟩
  show c.loopCounter + 1 + ahead s.servers L ((s.current + 1) % s.servers) < s.servers
  omega

/-- What a step of a thread does to the operations: those after it are the
others and the successors of the thread. -/
structure Effect (m L : ℕ) (s : DbPartition) (k : DbThread) (rest ks : List DbThread)
    (s' : DbPartition) : Prop where
  crashed : s'.crashed = s.crashed
  reaching : ∀ c, .call c ∈ ks ++ rest → m ≤ c.id → reaches L s'.current s c = true
  kept : ∀ r ∈ s.results, r ∈ s'.results
  results : ∀ r ∈ s'.results, r ∈ s.results ∨
    (m ≤ r.id → r.success = true ∧ r.switches < s.servers)
  followed : ∀ c, k = .call c →
    (∃ r ∈ s'.results, r.id = c.id) ∨ ∃ c', .call c' ∈ ks ∧ c'.id = c.id

theorem Inv.callEffect {crashed : Bool} {rest ks : List DbThread} {e : Attempt}
    {s' : DbPartition} (h : Inv m n L crashed p) (hL : L < n)
    (hperm : p.calls.Perm (.call c :: rest)) (hreach : reachable L (.call c) e = true)
    (hok : unskipped m L p (.call c) e = true) (hstep : CallStep p.shared c e s' ks) :
    Effect m L p.shared (.call c) rest ks s' := by
  have hmem : .call c ∈ p.calls := hperm.mem_iff.mpr List.mem_cons_self
  have hcurrent : p.shared.current < p.shared.servers := by
    rw [h.servers]
    exact h.current
  have hLs : L < p.shared.servers := by
    rw [h.servers]
    exact hL
  have hothers : ∀ c', .call c' ∈ rest → m ≤ c'.id →
      reaches L p.shared.current p.shared c' = true := fun c' hc' =>
    h.reaching c' (hperm.mem_iff.mpr (List.mem_cons_of_mem _ hc'))
  cases hstep with
  | success j hserver he =>
      refine ⟨rfl, hothers, fun r hr => List.mem_append_left _ hr, ?_, ?_⟩
      · intro r hr
        refine (List.mem_append.mp hr).imp_right fun hnew _ => ?_
        rw [List.mem_singleton.mp hnew]
        exact ⟨rfl, (h.threads _ hmem).2⟩
      · intro c' hc'
        cases hc'
        exact Or.inl ⟨_, List.mem_append_right _ List.mem_cons_self, rfl⟩
  | crash j hserver hop he =>
      simp [unskipped, hserver, hop, he] at hok
  | giveUp j hserver he =>
      refine ⟨rfl, ?_, fun r hr => hr, fun r hr => Or.inl hr, ?_⟩
      · intro c' hc' hid
        rcases List.mem_cons.mp hc' with hc' | hc'
        · -- what it held was not the server, which answers
          obtain rfl : c' = { c with server := none } := by injection hc'
          have hreaches := h.reaching c hmem hid
          have hne : j ≠ L := by
            rintro rfl
            simp [reachable, hserver, he] at hreach
          rw [reaches_iff, hserver] at hreaches
          rw [reaches_iff]
          exact Or.inr (hreaches.resolve_left (by simpa using hne))
        · exact hothers c' hc' hid
      · intro c' hc'
        cases hc'
        exact Or.inr ⟨_, List.mem_cons_self, rfl⟩
  | switch hserver hlt =>
      -- the current server is another one, so the switch brings all nearer
      have hne : p.shared.current ≠ L := by simpa [unskipped, hserver] using hok
      refine ⟨rfl, ?_, fun r hr => hr, fun r hr => Or.inl hr, ?_⟩
      · intro c' hc' hid
        rcases List.mem_cons.mp hc' with hc' | hc'
        · cases hc'
          exact (reaches_switch hLs hcurrent hne hserver (h.reaching c hmem hid)).2
        · exact reaches_next hLs hcurrent hne (hothers c' hc' hid)
      · intro c' hc'
        cases hc'
        exact Or.inr ⟨_, List.mem_cons_self, rfl⟩
  | exhausted hserver hle =>
      have hne : p.shared.current ≠ L := by simpa [unskipped, hserver] using hok
      refine ⟨rfl, ?_, fun r hr => List.mem_append_left _ hr, ?_, ?_⟩
      · intro c' hc' hid
        exact reaches_next hLs hcurrent hne (hothers c' hc' hid)
      · intro r hr
        refine (List.mem_append.mp hr).imp_right fun hnew hid => ?_
        -- the server was within its reach, and it has not got there
        rw [List.mem_singleton.mp hnew] at hid
        have hleft := (reaches_switch hLs hcurrent hne hserver (h.reaching c hmem hid)).1
        omega
      · intro c' hc'
        cases hc'
        exact Or.inl ⟨_, List.mem_append_right _ List.mem_cons_self, rfl⟩

theorem Inv.effect {crashed : Bool} {k : DbThread} {rest ks : List DbThread} {e : Attempt}
    {s' : DbPartition} (h : Inv m n L crashed p) (hL : L < n) (hperm : p.calls.Perm (k :: rest))
    (hreach : reachable L k e = true) (hok : unskipped m L p k e = true)
    (hstep : ThreadStep p.shared e k s' ks) : Effect m L p.shared k rest ks s' := by
  have hothers : ∀ c', .call c' ∈ rest → m ≤ c'.id →
      reaches L p.shared.current p.shared c' = true := fun c' hc' =>
    h.reaching c' (hperm.mem_iff.mpr (List.mem_cons_of_mem _ hc'))
  cases hstep with
  | call hstep => exact h.callEffect hL hperm hreach hok hstep
  | found hlt =>
      refine ⟨rfl, ?_, fun r hr => hr, fun r hr => Or.inl hr, by simp⟩
      simpa using hothers
  | goOn =>
      refine ⟨rfl, ?_, fun r hr => hr, fun r hr => Or.inl hr, by simp⟩
      intro c' hc'
      rcases List.mem_append.mp hc' with hnew | hold
      · cases (probeFrom_mem hnew).1
      · exact hothers c' hold
  | store =>
      -- a store moves the index back; the condition says for whom that is too far
      refine ⟨rfl, ?_, fun r hr => hr, fun r hr => Or.inl hr, by simp⟩
      intro c' hc' hid
      have hmem : .call c' ∈ p.calls := hperm.mem_iff.mpr (List.mem_cons_of_mem _ hc')
      have hall := List.all_eq_true.mp hok _ hmem
      simp only [Bool.or_eq_true, decide_eq_true_eq] at hall
      exact hall.resolve_left (by omega)

theorem Inv.call {crashed : Bool} {k : DbThread} {rest ks : List DbThread} {e : Attempt}
    {s' : DbPartition} (h : Inv m n L crashed p) (hL : L < n) (hperm : p.calls.Perm (k :: rest))
    (hreach : reachable L k e = true) (hok : unskipped m L p k e = true)
    (hstep : ThreadStep p.shared e k s' ks) (hs : q.shared = s')
    (hks : q.calls.Perm (ks ++ rest)) : Inv m n L crashed q := by
  have heffect := h.effect hL hperm hreach hok hstep
  have hrange : InRange n q := h.toInRange.call hperm hstep hs hks
  have hservers : q.shared.servers = p.shared.servers := hrange.servers.trans h.servers.symm
  have hbegun : q.shared.begun = p.shared.begun := by
    rw [hs]
    exact (threadStep_inRange hstep (by rw [h.servers]; exact h.current)
      (h.threads k (hperm.mem_iff.mpr List.mem_cons_self)) h.numbered).2.1
  subst hs
  refine ⟨hrange, ?_, ?_, ?_, heffect.crashed.trans h.crashed⟩
  · intro c hc hid
    have hreaches := heffect.reaching c (hks.mem_iff.mp hc) hid
    rw [reaches_iff] at hreaches ⊢
    rwa [hservers]
  · intro r hr hid
    rw [hservers]
    exact (heffect.results r hr).elim (fun hold => h.results r hold hid) fun hnew => hnew hid
  · intro id hm hlt
    rw [hbegun] at hlt
    rcases h.accounted id hm hlt with ⟨r, hr, hid⟩ | ⟨c, hc, hid⟩
    · exact Or.inl ⟨r, heffect.kept r hr, hid⟩
    · rcases List.mem_cons.mp (hperm.mem_iff.mp hc) with hk | hrest
      · subst hid
        refine (heffect.followed c hk.symm).imp_right ?_
        rintro ⟨c', hc', hid⟩
        exact ⟨c', hks.mem_iff.mpr (List.mem_append_left _ hc'), hid⟩
      · exact Or.inr ⟨c, hks.mem_iff.mpr (List.mem_append_right _ hrest), hid⟩

theorem Inv.env {crashed : Bool} {e : DbStart} {s' : DbPartition} {ks : List DbThread}
    (h : Inv m n L crashed p) (hL : L < n) (hstep : env p e = some (s', ks)) :
    Inv m n L crashed ⟨s', p.calls ++ ks⟩ := by
  have hrange := h.toInRange.env hstep
  obtain ⟨-, ⟨op, rfl, rfl⟩ | ⟨rfl, rfl⟩⟩ := env_cases hstep
  · refine ⟨hrange, ?_, h.results, ?_, h.crashed⟩
    · intro c hc hid
      rcases List.mem_append.mp hc with hold | hnew
      · exact h.reaching c hold hid
      · -- all servers are ahead of it
        cases List.mem_singleton.mp hnew
        rw [reaches_iff]
        refine Or.inr ?_
        have hahead := ahead_lt hL h.current
        rw [← h.servers] at hahead
        simpa using hahead
    · intro id hm hlt
      rcases Nat.lt_succ_iff_lt_or_eq.mp hlt with hlt | rfl
      · refine (h.accounted id hm hlt).imp_right ?_
        rintro ⟨c, hc, hid⟩
        exact ⟨c, List.mem_append_left _ hc, hid⟩
      · exact Or.inr ⟨_, List.mem_append_right _ List.mem_cons_self, rfl⟩
  · refine ⟨hrange, ?_, h.results, ?_, h.crashed⟩
    · intro c hc
      rcases List.mem_append.mp hc with hold | hnew
      · exact h.reaching c hold
      · cases (probeFrom_mem hnew).1
    · intro id hm hlt
      refine (h.accounted id hm hlt).imp_right ?_
      rintro ⟨c, hc, hid⟩
      exact ⟨c, List.mem_append_left _ hc, hid⟩

/-- Nothing is asked of a state in which no operation has the number `m` yet. -/
theorem InRange.inv (h : InRange n p) : Inv p.shared.begun n L p.shared.crashed p where
  toInRange := h
  reaching c hc hid := absurd (h.threads _ hc).1 (by omega)
  results r hr hid := absurd (h.numbered r hr) (by omega)
  accounted id hm hlt := absurd hlt (by omega)
  crashed := rfl

end DbPartition

open DbPartition

namespace DbPartition

/-- Two operations hold the first of two servers. -/
def twoHolding : Pool DbPartition DbThread where
  shared := ⟨2, 0, 2, [], false⟩
  calls := [.call ⟨0, .hset, some 0, 0⟩, .call ⟨1, .get, some 0, 0⟩]

/-- A third fails on the first server and is executed by the second, on which a
fourth begins; the first server is back. -/
def thirdSwitches : List (Sched Attempt DbStart) :=
  [.env (.call .zadd), .call 2 .failed, .call 2 .failed, .env (.call .incr), .call 2 .executed,
    .call 2 .executed, .env .update, .call 2 .executed, .call 2 .executed]

end DbPartition

end BcmServer.Redis
