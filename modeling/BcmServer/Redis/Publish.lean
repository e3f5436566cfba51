import BcmServer.Dispatcher.Address
import BcmServer.Lts.Pool
import BcmServer.Redis.AsyncConn
import BcmServer.Util.ConsistentHash

/-!
# BcmServer.Redis.Publish — a publish and its answer

`OnlineRedisManager::publish` finds the partition of the hash key, the partition
takes its first available connection, and the connection posts the command to
its event loop, where it is given to hiredis or not. The handler of the caller
travels with it, wrapped once by the partition. `DispatchManager::publish` waits
on a promise that only this handler sets.

The model follows one handler through these layers while other publishes run,
connections come and go and change their state at any time.

* `publish_answered_iff`: once nothing can run any more, the handler of a call
  has been invoked exactly once if and only if none of the call's steps took one
  of the ways out that drop it (`answers`): no partition for the key, a command
  that cannot be formatted, a connection that is not up when the task runs, a
  command hiredis refuses. A `DispatchManager::publish` has returned under
  exactly the same condition.
* `publish_unanswered`: without the condition the caller can wait for ever.

A publish without a handler has nobody to answer and is left out.
-/

namespace BcmServer.Redis

open BcmServer.Util BcmServer.Lts BcmServer.Dispatcher

/-! ## The manager -/

/-- The publishing side of a `RedisPartition`: the keys of
`m_availablePubConns`. -/
structure PubPartition where
  availablePubConns : List ℕ
deriving DecidableEq, Repr

/-- `OnlineRedisManager`, with the state of every publishing connection. -/
structure OnlineRedisManager where
  consistentHash : HashCircle
  partitions : Bytes → Option PubPartition
  states : Bytes → ℕ → ConnectionState

namespace OnlineRedisManager

/-- The constructor. -/
def initial : OnlineRedisManager := ⟨[], fun _ => none, fun _ _ => .disconnected⟩

/-- One partition of the configuration. Its connections are not up yet. -/
def addPartition (m : OnlineRedisManager) (name : Bytes) : OnlineRedisManager :=
  { m with
    partitions := Function.update m.partitions name (some ⟨[]⟩)
    consistentHash := m.consistentHash.addServer name }

theorem addPartition_consistentHash (m : OnlineRedisManager) (name : Bytes) :
    (m.addPartition name).consistentHash = m.consistentHash.addServer name := by
  simp only [addPartition]

/-- `OnlineRedisManager::init`, on the partitions with their numbers of
configured servers, in the order of their names. -/
def init (m : OnlineRedisManager) : List (Bytes × ℕ) → OnlineRedisManager × Bool
  | [] => (m, false)
  | cfg => addPartitions m cfg
where
  /-- The loop of `init`. -/
  addPartitions (m : OnlineRedisManager) : List (Bytes × ℕ) → OnlineRedisManager × Bool
    | [] => (m, true)
    | (name, servers) :: rest =>
        if servers = 0 then (m, false)
        else addPartitions (m.addPartition name) rest

/-- `OnlineRedisManager::getPartitionByHashKey`: the name of the partition. -/
def getPartitionByHashKey (m : OnlineRedisManager) (hashKey : Bytes) : Option Bytes :=
  let partitionName := m.consistentHash.getServer hashKey
  if partitionName = [] then none
  else (m.partitions partitionName).map fun _ => partitionName

/-- The connection `RedisPartition::tryPublish` takes: the first of the
available ones. -/
def firstPubConn (m : OnlineRedisManager) (name : Bytes) : Option ℕ :=
  (m.partitions name).bind fun part => part.availablePubConns.min?

/-- Every server on the circle is a partition. -/
def CircleOk (m : OnlineRedisManager) : Prop :=
  ∀ e ∈ m.consistentHash, e.2 ≠ [] ∧ (m.partitions e.2).isSome

theorem circleOk_addPartitions {m : OnlineRedisManager} {cfg : List (Bytes × ℕ)}
    (hm : m.CircleOk) (hnames : ∀ c ∈ cfg, c.1 ≠ []) :
    (init.addPartitions m cfg).1.CircleOk := by
  induction cfg generalizing m with
  | nil => exact hm
  | cons c cfg ih =>
      rcases c with ⟨name, servers⟩
      simp only [init.addPartitions]
      split
      · exact hm
      · refine ih (fun e he => ?_) (fun c hc => hnames c (List.mem_cons_of_mem _ hc))
        by_cases hname : e.2 = name
        · rw [hname]
          exact ⟨hnames _ List.mem_cons_self, by simp [addPartition]⟩
        · rw [addPartition_consistentHash] at he
          have hold := hm e ((HashCircle.mem_addServer he).resolve_right hname)
          exact ⟨hold.1, by simpa [addPartition, hname] using hold.2⟩

theorem consistentHash_addPartitions {m : OnlineRedisManager} {cfg : List (Bytes × ℕ)}
    (h : m.consistentHash ≠ [] ∨ cfg ≠ []) (hdone : (init.addPartitions m cfg).2 = true) :
    (init.addPartitions m cfg).1.consistentHash ≠ [] := by
  induction cfg generalizing m with
  | nil => exact h.resolve_right (fun hnil => hnil rfl)
  | cons c cfg ih =>
      rcases c with ⟨name, servers⟩
      simp only [init.addPartitions] at hdone ⊢
      split
      · rename_i hzero
        rw [if_pos hzero] at hdone
        cases hdone
      · rename_i hzero
        rw [if_neg hzero] at hdone
        refine ih (Or.inl ?_) hdone
        rw [addPartition_consistentHash]
        exact HashCircle.addServer_ne_nil _ _

/-- After a successful `init` with named partitions no key is without one. -/
theorem getPartitionByHashKey_init {cfg : List (Bytes × ℕ)} (hnames : ∀ c ∈ cfg, c.1 ≠ [])
    (hdone : (initial.init cfg).2 = true) (hashKey : Bytes) :
    ((initial.init cfg).1.getPartitionByHashKey hashKey).isSome := by
  cases cfg with
  | nil => cases hdone
  | cons c cfg =>
      have hok : (initial.init (c :: cfg)).1.CircleOk :=
        circleOk_addPartitions (fun e he => by cases he) hnames
      have hne : (initial.init (c :: cfg)).1.consistentHash ≠ [] :=
        consistentHash_addPartitions (Or.inr (List.cons_ne_nil _ _)) hdone
      rcases HashCircle.getServer_mem hne hashKey with ⟨e, he, hserver⟩
      have hpart := hok e he
      rw [hserver] at hpart
      simp only [getPartitionByHashKey, if_neg hpart.1, Option.isSome_map]
      exact hpart.2

end OnlineRedisManager

/-! ## The calls -/

/-- The manager, the handlers handed in, those a `DispatchManager::publish`
waits for, the handler invocations and the returned calls. -/
structure PublishState where
  manager : OnlineRedisManager
  handed : List ℕ
  dispatched : List ℕ
  answered : List (ℕ × Int × Reply)
  returned : List (ℕ × Bool)

namespace PublishState

/-- The handler of the caller is invoked. -/
def answer (s : PublishState) (h : ℕ) (status : Int) (reply : Reply) : PublishState :=
  { s with answered := s.answered ++ [(h, status, reply)] }

/-- The handler `tryPublish` wraps around the caller's: an error is logged and
nothing else. -/
def onPublished (s : PublishState) (h : ℕ) (status : Int) (reply : Reply) : PublishState :=
  if status ≠ redisOk then s else s.answer h status reply

end PublishState

/-- What the handler of `DispatchManager::publish` sets the promise to, an
`int32_t`. -/
def promiseValue (status : Int) (reply : Reply) : Int :=
  if status ≠ redisOk ∨ reply.isInteger = false then 0 else reply.getInteger.bmod (2 ^ 32)

/-- A publish on its way, by the layer that handles it next, with the handler
of the caller; or a caller that waits. -/
inductive PublishTask where
  | manager (hashKey channel message : Bytes) (h : ℕ)
  | partition (name channel message : Bytes) (h : ℕ)
  | exec (name : Bytes) (conn : ℕ) (channel message : Bytes) (h : ℕ)
  | run (name : Bytes) (conn : ℕ) (h : ℕ)
  | reply (h : ℕ)
  | wait (h : ℕ)
deriving DecidableEq, Repr

/-- What is left open about a step: whether the command can be formatted, what
hiredis answers to it, and the reply to it. -/
structure Outcome where
  formatted : Bool
  res : Int
  reply : Reply
deriving DecidableEq, Repr

def publishNext (s : PublishState) (k : PublishTask) (e : Outcome) :
    Option (PublishState × List PublishTask) :=
  match k with
  | .manager hashKey channel message h =>
      match s.manager.getPartitionByHashKey hashKey with
      | none => some (s, [])
      | some name => some (s, [.partition name channel message h])
  | .partition name channel message h =>
      match s.manager.firstPubConn name with
      | none => some (s.answer h redisErr .null, [])
      | some conn => some (s, [.exec name conn channel message h])
  | .exec name conn _ _ h => some (s, if e.formatted then [.run name conn h] else [])
  | .run name conn h =>
      match AsyncCmd.run (s.manager.states name conn) e.res with
      | some status => some (s.onPublished h status .null, [])
      | none => some (s, [.reply h])
  | .reply h => some (s.onPublished h redisOk e.reply, [])
  | .wait h =>
      match s.answered.find? fun a => a.1 = h with
      | none => none
      | some (_, status, reply) =>
          some ({ s with returned := s.returned ++ [(h, decide (promiseValue status reply > 0))] }, [])

/-- New calls, and changes of the connections. -/
inductive PublishEvent where
  | publish (hashKey channel message : Bytes) (h : ℕ)
  | dispatch (a : DispatchAddress) (message : Bytes) (h : ℕ)
  | available (name : Bytes) (conns : List ℕ)
  | state (name : Bytes) (conn : ℕ) (st : ConnectionState)

/-- A handler belongs to one call. -/
def publishEnv (s : PublishState) : PublishEvent → Option (PublishState × List PublishTask)
  | .publish hashKey channel message h =>
      if h ∈ s.handed then none
      else some ({ s with handed := h :: s.handed }, [.manager hashKey channel message h])
  | .dispatch a message h =>
      if h ∈ s.handed then none
      else some ({ s with handed := h :: s.handed, dispatched := h :: s.dispatched },
        [.manager a.uid a.getSerialized message h, .wait h])
  | .available name conns =>
      some ({ s with manager := { s.manager with
        partitions := Function.update s.manager.partitions name
          ((s.manager.partitions name).map fun _ => ⟨conns⟩) } }, [])
  | .state name conn st =>
      some ({ s with manager := { s.manager with
        states := fun n c => if n = name ∧ c = conn then st else s.manager.states n c } }, [])

def publishSystem : CallSystem PublishState PublishTask Outcome PublishEvent where
  next := publishNext
  env p ev := publishEnv p.shared ev

/-- No call has been made. -/
def publishInit (m : OnlineRedisManager) : Pool PublishState PublishTask :=
  ⟨⟨m, [], [], [], []⟩, []⟩

/-! ## The condition -/

/-- The caller's handler a task carries. -/
def PublishTask.holds : PublishTask → List ℕ
  | manager _ _ _ h | partition _ _ _ h | exec _ _ _ _ h | run _ _ h | reply h => [h]
  | wait _ => []

/-- The step passes the handler on or invokes it: there is a partition for the
key, the command can be formatted, and when the task runs the connection is up
and hiredis takes the command. -/
def answers (s : PublishState) (k : PublishTask) (e : Outcome) : Bool :=
  match k with
  | .manager hashKey _ _ _ => (s.manager.getPartitionByHashKey hashKey).isSome
  | .exec _ _ _ _ _ => e.formatted
  | .run name conn _ => s.manager.states name conn = .connected && e.res = redisOk
  | .partition _ _ _ _ | .reply _ | .wait _ => true

/-- Every step of the call with handler `h` answers. -/
def Answers (h : ℕ) : Pool PublishState PublishTask → Sched Outcome PublishEvent → Prop :=
  CallSystem.allow (fun p k e => h ∉ k.holds ∨ answers p.shared k e = true) (fun _ _ => True)

instance (h : ℕ) (p : Pool PublishState PublishTask) (l : Sched Outcome PublishEvent) :
    Decidable (Answers h p l) :=
  inferInstanceAs (Decidable (CallSystem.allow _ _ p l))

/-! ## One step -/

/-- What a step of a call does with the handlers. -/
structure PublishMove (s s' : PublishState) (k : PublishTask) (e : Outcome)
    (ks : List PublishTask) : Prop where
  handed : s'.handed = s.handed
  dispatched : s'.dispatched = s.dispatched
  answered : ∀ a ∈ s.answered, a ∈ s'.answered
  /-- a handler is passed on or invoked -/
  kept : answers s k e = true → ∀ x,
    (s'.answered.map Prod.fst).count x + (ks.flatMap PublishTask.holds).count x =
      (s.answered.map Prod.fst).count x + k.holds.count x
  /-- or dropped -/
  dropped : answers s k e = false → s'.answered = s.answered ∧ ks = []
  returned : ∀ x ∈ s.returned.map Prod.fst, x ∈ s'.returned.map Prod.fst
  returns : ∀ x ∈ s'.returned.map Prod.fst,
    x ∈ s.returned.map Prod.fst ∨ x ∈ s.answered.map Prod.fst
  waits : ∀ x, k = .wait x → x ∈ s'.returned.map Prod.fst

/-- A step that only touches the handlers. -/
theorem PublishMove.of_frame {s s' : PublishState} {k : PublishTask} {e : Outcome}
    {ks : List PublishTask} (hhanded : s'.handed = s.handed)
    (hdispatched : s'.dispatched = s.dispatched) (hreturned : s'.returned = s.returned)
    (hanswered : ∀ a ∈ s.answered, a ∈ s'.answered) (hwait : ∀ x, k ≠ .wait x)
    (hkept : answers s k e = true → ∀ x,
      (s'.answered.map Prod.fst).count x + (ks.flatMap PublishTask.holds).count x =
        (s.answered.map Prod.fst).count x + k.holds.count x)
    (hdropped : answers s k e = false → s'.answered = s.answered ∧ ks = []) :
    PublishMove s s' k e ks where
  handed := hhanded
  dispatched := hdispatched
  answered := hanswered
  kept := hkept
  dropped := hdropped
  returned := fun x hx => by rwa [hreturned]
  returns := fun x hx => Or.inl (by rwa [hreturned] at hx)
  waits := fun x hx => absurd hx (hwait x)

theorem count_answer (s : PublishState) (h x : ℕ) (status : Int) (reply : Reply) :
    ((s.answer h status reply).answered.map Prod.fst).count x =
      (s.answered.map Prod.fst).count x + [h].count x := by
  simp [PublishState.answer, List.count_append]

theorem publishMove_next {s s' : PublishState} {k : PublishTask} {e : Outcome}
    {ks : List PublishTask} (hnext : publishNext s k e = some (s', ks)) :
    PublishMove s s' k e ks := by
  cases k with
  | manager hashKey channel message h =>
      simp only [publishNext] at hnext
      split at hnext
      · rename_i hnone
        cases hnext
        refine .of_frame rfl rfl rfl (fun _ ha => ha) (fun x hx => by cases hx) (fun hans => ?_)
          (fun _ => ⟨rfl, rfl⟩)
        simp [answers, hnone] at hans
      · rename_i name hname
        cases hnext
        refine .of_frame rfl rfl rfl (fun _ ha => ha) (fun x hx => by cases hx) (fun _ x => rfl)
          (fun hans => ?_)
        simp [answers, hname] at hans
  | partition name channel message h =>
      simp only [publishNext] at hnext
      split at hnext
      · cases hnext
        refine .of_frame rfl rfl rfl (fun _ ha => List.mem_append_left _ ha)
          (fun x hx => by cases hx) (fun _ x => ?_) (fun hans => Bool.noConfusion hans)
        rw [count_answer]
        rfl
      · cases hnext
        exact .of_frame rfl rfl rfl (fun _ ha => ha) (fun x hx => by cases hx) (fun _ x => rfl)
          (fun hans => Bool.noConfusion hans)
  | exec name conn channel message h =>
      cases hnext
      refine .of_frame rfl rfl rfl (fun _ ha => ha) (fun x hx => by cases hx) (fun hans x => ?_)
        (fun hans => ?_)
      · rw [if_pos (show e.formatted = true from hans)]
        rfl
      · have hunformatted : e.formatted = false := hans
        simp [hunformatted]
  | run name conn h =>
      simp only [publishNext, AsyncCmd.run] at hnext
      by_cases hup : s.manager.states name conn = .connected
      · by_cases hres : e.res = redisOk
        · simp only [hup, hres, ne_eq, not_true_eq_false, if_false, Option.some.injEq,
            Prod.mk.injEq] at hnext
          rcases hnext with ⟨rfl, rfl⟩
          refine .of_frame rfl rfl rfl (fun _ ha => ha) (fun x hx => by cases hx) (fun _ x => rfl)
            (fun hans => ?_)
          simp [answers, hup, hres] at hans
        · simp only [hup, hres, ne_eq, not_true_eq_false, not_false_eq_true, if_false, if_true,
            PublishState.onPublished, Option.some.injEq, Prod.mk.injEq] at hnext
          rcases hnext with ⟨rfl, rfl⟩
          refine .of_frame rfl rfl rfl (fun _ ha => ha) (fun x hx => by cases hx) (fun hans => ?_)
            (fun _ => ⟨rfl, rfl⟩)
          simp [answers, hres] at hans
      · -- the wrapper swallows the error of a connection that is down
        have hdrop : s.onPublished h redisErr .null = s := rfl
        simp only [hup, ne_eq, not_false_eq_true, if_true, hdrop, Option.some.injEq,
          Prod.mk.injEq] at hnext
        rcases hnext with ⟨rfl, rfl⟩
        refine .of_frame rfl rfl rfl (fun _ ha => ha) (fun x hx => by cases hx) (fun hans => ?_)
          (fun _ => ⟨rfl, rfl⟩)
        simp [answers, hup] at hans
  | reply h =>
      cases hnext
      refine .of_frame rfl rfl rfl (fun _ ha => List.mem_append_left _ ha)
        (fun x hx => by cases hx) (fun _ x => ?_) (fun hans => Bool.noConfusion hans)
      rw [show s.onPublished h redisOk e.reply = s.answer h redisOk e.reply from rfl, count_answer]
      rfl
  | wait h =>
      simp only [publishNext] at hnext
      split at hnext
      · cases hnext
      · rename_i x status reply hfind
        cases hnext
        have hx : x = h := by simpa using List.find?_some hfind
        have hmem := List.mem_of_find?_eq_some hfind
        refine ⟨rfl, rfl, fun _ ha => ha, fun _ x => rfl, fun hans => Bool.noConfusion hans,
          fun y hy => ?_,
          fun y hy => ?_, fun y hy => ?_⟩
        · simp only [List.map_append, List.mem_append]
          exact Or.inl hy
        · simp only [List.map_append, List.mem_append] at hy
          refine hy.imp_right fun hy => ?_
          rw [List.mem_singleton.mp hy, ← hx]
          exact List.mem_map.mpr ⟨_, hmem, rfl⟩
        · cases hy
          simp

/-! ## Handlers on their way -/

/-- How often a handler was invoked or may still be. -/
def openCount (x : ℕ) (p : Pool PublishState PublishTask) : ℕ :=
  (p.shared.answered.map Prod.fst).count x + (p.calls.flatMap PublishTask.holds).count x

theorem openCount_calls {p : Pool PublishState PublishTask} {k : PublishTask}
    {rest : List PublishTask} (hp : p.calls.Perm (k :: rest)) (x : ℕ) :
    openCount x p = (p.shared.answered.map Prod.fst).count x + k.holds.count x +
      (rest.flatMap PublishTask.holds).count x := by
  have hholds := (hp.flatMap_right PublishTask.holds).count_eq x
  rw [List.flatMap_cons, List.count_append] at hholds
  rw [openCount, hholds, Nat.add_assoc]

theorem openCount_successors {q : Pool PublishState PublishTask} {rest ks : List PublishTask}
    (hq : q.calls.Perm (ks ++ rest)) (x : ℕ) :
    openCount x q = (q.shared.answered.map Prod.fst).count x +
      (ks.flatMap PublishTask.holds).count x + (rest.flatMap PublishTask.holds).count x := by
  have hholds := (hq.flatMap_right PublishTask.holds).count_eq x
  rw [List.flatMap_append, List.count_append] at hholds
  rw [openCount, hholds, Nat.add_assoc]

section Step

variable {p q : Pool PublishState PublishTask} {k : PublishTask} {rest ks : List PublishTask}
  {e : Outcome}

/-- A step that answers keeps every handler. -/
theorem openCount_kept (hp : p.calls.Perm (k :: rest)) (hq : q.calls.Perm (ks ++ rest))
    (hmove : PublishMove p.shared q.shared k e ks) (hans : answers p.shared k e = true) (x : ℕ) :
    openCount x q = openCount x p := by
  rw [openCount_calls hp, openCount_successors hq, hmove.kept hans x]

/-- A step that does not loses the handler of its call and no other. -/
theorem openCount_dropped (hp : p.calls.Perm (k :: rest)) (hq : q.calls.Perm (ks ++ rest))
    (hmove : PublishMove p.shared q.shared k e ks) (hans : answers p.shared k e = false) (x : ℕ) :
    openCount x q + k.holds.count x = openCount x p := by
  rcases hmove.dropped hans with ⟨hanswered, hks⟩
  rw [openCount_calls hp, openCount_successors hq, hanswered, hks, List.flatMap_nil, List.count_nil]
  omega

theorem openCount_le (hp : p.calls.Perm (k :: rest)) (hq : q.calls.Perm (ks ++ rest))
    (hmove : PublishMove p.shared q.shared k e ks) (x : ℕ) : openCount x q ≤ openCount x p := by
  cases hans : answers p.shared k e with
  | true => exact (openCount_kept hp hq hmove hans x).le
  | false =>
      have hdrop := openCount_dropped hp hq hmove hans x
      omega

end Step

/-- No step of the environment but a new call touches the handlers. -/
theorem publishEnv_cases {s s' : PublishState} {ks : List PublishTask} {ev : PublishEvent}
    (henv : publishEnv s ev = some (s', ks)) :
    s'.answered = s.answered ∧ s'.returned = s.returned ∧
    ((s'.handed = s.handed ∧ s'.dispatched = s.dispatched ∧ ks = []) ∨
      ∃ h, h ∉ s.handed ∧ s'.handed = h :: s.handed ∧ ks.flatMap PublishTask.holds = [h] ∧
        (s'.dispatched = s.dispatched ∨ (s'.dispatched = h :: s.dispatched ∧ .wait h ∈ ks))) := by
  cases ev with
  | publish hashKey channel message h =>
      simp only [publishEnv] at henv
      split at henv
      · cases henv
      · rename_i hnew
        cases henv
        exact ⟨rfl, rfl, Or.inr ⟨h, hnew, rfl, rfl, Or.inl rfl⟩⟩
  | dispatch a message h =>
      simp only [publishEnv] at henv
      split at henv
      · cases henv
      · rename_i hnew
        cases henv
        exact ⟨rfl, rfl, Or.inr ⟨h, hnew, rfl, rfl, Or.inr ⟨rfl, by simp⟩⟩⟩
  | available name conns =>
      cases henv
      exact ⟨rfl, rfl, Or.inl ⟨rfl, rfl, rfl⟩⟩
  | state name conn st =>
      cases henv
      exact ⟨rfl, rfl, Or.inl ⟨rfl, rfl, rfl⟩⟩

theorem openCount_env {p : Pool PublishState PublishTask} {s' : PublishState}
    {ks : List PublishTask} (hanswered : s'.answered = p.shared.answered) (x : ℕ) :
    openCount x ⟨s', p.calls ++ ks⟩ = openCount x p + (ks.flatMap PublishTask.holds).count x := by
  simp only [openCount, hanswered, List.flatMap_append, List.count_append]
  omega

/-! ## Runs -/

/-- No handler is there twice, only answered calls return, and a
`DispatchManager::publish` waits until it returns. -/
structure PublishInv (p : Pool PublishState PublishTask) : Prop where
  nodup : p.shared.handed.Nodup
  once : ∀ x, openCount x p ≤ p.shared.handed.count x
  returned : ∀ x ∈ p.shared.returned.map Prod.fst, x ∈ p.shared.answered.map Prod.fst
  waiting : ∀ x ∈ p.shared.dispatched,
    .wait x ∈ p.calls ∨ x ∈ p.shared.returned.map Prod.fst

theorem publishInv_call {p q : Pool PublishState PublishTask} {k : PublishTask} {e : Outcome}
    {rest ks : List PublishTask} (h : PublishInv p) (hp : p.calls.Perm (k :: rest))
    (hmove : PublishMove p.shared q.shared k e ks) (hq : q.calls.Perm (ks ++ rest)) :
    PublishInv q := by
  have hmono : ∀ x ∈ p.shared.answered.map Prod.fst, x ∈ q.shared.answered.map Prod.fst := by
    intro x hx
    rcases List.mem_map.mp hx with ⟨a, ha, rfl⟩
    exact List.mem_map.mpr ⟨a, hmove.answered a ha, rfl⟩
  refine ⟨by rw [hmove.handed]; exact h.nodup, fun x => ?_, fun x hx => ?_, fun x hx => ?_⟩
  · rw [hmove.handed]
    exact (openCount_le hp hq hmove x).trans (h.once x)
  · rcases hmove.returns x hx with hret | hans
    · exact hmono x (h.returned x hret)
    · exact hmono x hans
  · rw [hmove.dispatched] at hx
    rcases h.waiting x hx with hwait | hret
    · rcases List.mem_cons.mp (hp.mem_iff.mp hwait) with hk | hrest
      · exact Or.inr (hmove.waits x hk.symm)
      · exact Or.inl (hq.mem_iff.mpr (List.mem_append_right ks hrest))
    · exact Or.inr (hmove.returned x hret)

theorem publishInv_env {p : Pool PublishState PublishTask} {ev : PublishEvent} {s' : PublishState}
    {ks : List PublishTask} (h : PublishInv p) (henv : publishEnv p.shared ev = some (s', ks)) :
    PublishInv ⟨s', p.calls ++ ks⟩ := by
  rcases publishEnv_cases henv with ⟨hanswered, hreturned, hcases⟩
  have hret : ∀ x ∈ s'.returned.map Prod.fst, x ∈ s'.answered.map Prod.fst := by
    rw [hreturned, hanswered]
    exact h.returned
  have hold : ∀ x ∈ p.shared.dispatched,
      .wait x ∈ p.calls ++ ks ∨ x ∈ s'.returned.map Prod.fst := by
    intro x hx
    rw [hreturned]
    exact (h.waiting x hx).imp_left (List.mem_append_left ks)
  rcases hcases with ⟨hhanded, hdispatched, rfl⟩ | ⟨y, hnew, hhanded, hholds, hdispatched⟩
  · refine ⟨by rw [hhanded]; exact h.nodup, fun x => ?_, hret, fun x hx => ?_⟩
    · rw [openCount_env hanswered, hhanded]
      exact h.once x
    · exact hold x (by rwa [hdispatched] at hx)
  · refine ⟨by rw [hhanded]; exact List.nodup_cons.mpr ⟨hnew, h.nodup⟩, fun x => ?_, hret,
      fun x hx => ?_⟩
    · have honce := h.once x
      rw [openCount_env hanswered, hhanded, hholds, List.count_cons, List.count_cons, List.count_nil]
      omega
    · rcases hdispatched with hdispatched | ⟨hdispatched, hwait⟩
      · exact hold x (by rwa [hdispatched] at hx)
      · rw [hdispatched] at hx
        rcases List.mem_cons.mp hx with rfl | hx
        · exact Or.inl (List.mem_append_right _ hwait)
        · exact hold x hx

theorem publishInv_step {p q : Pool PublishState PublishTask} {l : Sched Outcome PublishEvent}
    (h : PublishInv p) (hstep : publishSystem.machine.step p l = some q) : PublishInv q := by
  rcases publishSystem.step_cases hstep with
    ⟨i, e, k, rest, s, ks, -, -, hp, hnext, rfl, hq⟩ | ⟨ev, s, ks, -, henv, rfl⟩
  · exact publishInv_call h hp (publishMove_next hnext) hq
  · exact publishInv_env h henv

/-- The handler `h` was handed in and nobody has it any more. -/
def Lost (h : ℕ) (p : Pool PublishState PublishTask) : Prop :=
  h ∈ p.shared.handed ∧ openCount h p = 0

theorem lost_step {h : ℕ} {p q : Pool PublishState PublishTask} {l : Sched Outcome PublishEvent}
    (hlost : Lost h p) (hstep : publishSystem.machine.step p l = some q) : Lost h q := by
  rcases hlost with ⟨hmem, hzero⟩
  rcases publishSystem.step_cases hstep with
    ⟨i, e, k, rest, s, ks, -, -, hp, hnext, rfl, hq⟩ | ⟨ev, s, ks, -, henv, rfl⟩
  · have hmove := publishMove_next hnext
    have hle := openCount_le hp hq hmove h
    exact ⟨by rwa [hmove.handed], by omega⟩
  · rcases publishEnv_cases henv with ⟨hanswered, -, hcases⟩
    rcases hcases with ⟨hhanded, -, rfl⟩ | ⟨y, hnew, hhanded, hholds, -⟩
    · refine ⟨by rwa [hhanded], ?_⟩
      rw [openCount_env hanswered, hzero]
      rfl
    · have hne : y ≠ h := fun heq => hnew (heq ▸ hmem)
      refine ⟨by rw [hhanded]; exact List.mem_cons_of_mem y hmem, ?_⟩
      rw [openCount_env hanswered, hzero, hholds, List.count_singleton, if_neg (by simpa using hne)]

/-- A step of the call that does not answer loses its handler. -/
theorem lost_of_unanswered {h : ℕ} {p q : Pool PublishState PublishTask}
    {l : Sched Outcome PublishEvent} (hinv : PublishInv p) (hbreak : ¬ Answers h p l)
    (hstep : publishSystem.machine.step p l = some q) : Lost h q := by
  rcases publishSystem.step_cases hstep with
    ⟨i, e, k, rest, s, ks, rfl, hk, hp, hnext, rfl, hq⟩ | ⟨ev, s, ks, rfl, henv, rfl⟩
  · simp only [Answers, CallSystem.allow, hk, not_or, not_not, Bool.not_eq_true] at hbreak
    have hmove := publishMove_next hnext
    have hdrop := openCount_dropped hp hq hmove hbreak.2 h
    have hheld : 0 < k.holds.count h := List.count_pos_iff.mpr hbreak.1
    have honce := hinv.once h
    have hle := List.nodup_iff_count_le_one.mp hinv.nodup h
    refine ⟨?_, by omega⟩
    rw [hmove.handed]
    exact List.count_pos_iff.mp (by omega)
  · exact absurd trivial hbreak

/-- The handler `h`, once handed in, was invoked once or will be. -/
def Kept (h : ℕ) (p : Pool PublishState PublishTask) : Prop :=
  PublishInv p ∧ (h ∈ p.shared.handed → openCount h p = 1)

theorem kept_step {h : ℕ} {p q : Pool PublishState PublishTask} {l : Sched Outcome PublishEvent}
    (hkept : Kept h p) (hok : Answers h p l) (hstep : publishSystem.machine.step p l = some q) :
    Kept h q := by
  refine ⟨publishInv_step hkept.1 hstep, ?_⟩
  rcases publishSystem.step_cases hstep with
    ⟨i, e, k, rest, s, ks, rfl, hk, hp, hnext, rfl, hq⟩ | ⟨ev, s, ks, -, henv, rfl⟩
  · simp only [Answers, CallSystem.allow, hk] at hok
    have hmove := publishMove_next hnext
    rw [hmove.handed]
    intro hmem
    rw [← hkept.2 hmem]
    cases hans : answers p.shared k e with
    | true => exact openCount_kept hp hq hmove hans h
    | false =>
        have hdrop := openCount_dropped hp hq hmove hans h
        have hother : h ∉ k.holds := hok.resolve_right (by simp [hans])
        rw [List.count_eq_zero_of_not_mem hother] at hdrop
        exact hdrop
  · rcases publishEnv_cases henv with ⟨hanswered, -, hcases⟩
    rw [openCount_env hanswered]
    rcases hcases with ⟨hhanded, -, rfl⟩ | ⟨y, hnew, hhanded, hholds, -⟩
    · intro hmem
      exact hkept.2 (by rwa [hhanded] at hmem)
    · intro hmem
      rw [hhanded] at hmem
      rw [hholds, List.count_singleton]
      rcases List.mem_cons.mp hmem with rfl | hmem
      · -- a new handler has not been seen before
        have honce := hkept.1.once h
        rw [List.count_eq_zero_of_not_mem hnew] at honce
        simp only [beq_self_eq_true, if_true]
        omega
      · have hne : y ≠ h := fun heq => hnew (heq ▸ hmem)
        rw [hkept.2 hmem, if_neg (by simpa using hne)]

theorem publishInv_init (m : OnlineRedisManager) : PublishInv (publishInit m) :=
  ⟨List.nodup_nil, fun _ => le_refl 0, fun _ hx => absurd hx List.not_mem_nil,
    fun _ hx => absurd hx List.not_mem_nil⟩

/-- Only callers can be left when nothing can run any more. -/
theorem holds_eq_nil_of_stuck {s : PublishState} {k : PublishTask}
    (hstuck : ∀ e, publishNext s k e = none) : k.holds = [] := by
  have h := hstuck ⟨true, redisOk, .null⟩
  cases k with
  | manager | partition | run =>
      simp only [publishNext] at h
      split at h <;> cases h
  | exec | reply => cases h
  | wait x => rfl

/-- **A publish answers exactly when no step of it drops the handler.** Once
nothing can run any more, the handler has been invoked exactly once, and a
`DispatchManager::publish` that waits for it has returned, if and only if every
step of the call met `answers`. -/
theorem publish_answered_iff (m : OnlineRedisManager) (ls : List (Sched Outcome PublishEvent))
    (p : Pool PublishState PublishTask)
    (hrun : publishSystem.machine.run (publishInit m) ls = some p)
    (hdone : ∀ k ∈ p.calls, ∀ e, publishNext p.shared k e = none)
    (h : ℕ) (hh : h ∈ p.shared.handed) :
    ((p.shared.answered.map Prod.fst).count h = 1 ↔
      publishSystem.machine.Meets (Answers h) (publishInit m) ls) ∧
    (h ∈ p.shared.dispatched → (h ∈ p.shared.returned.map Prod.fst ↔
      publishSystem.machine.Meets (Answers h) (publishInit m) ls)) := by
  have hinv : PublishInv p :=
    publishSystem.machine.run_invariant PublishInv (fun s a t hs _ hst => publishInv_step hs hst)
      (publishInv_init m) (publishSystem.machine.meets_of_forall (fun _ _ => trivial) _ ls) hrun
  -- nothing is on its way any more
  have hopen : (p.shared.answered.map Prod.fst).count h = openCount h p := by
    have hnil : p.calls.flatMap PublishTask.holds = [] :=
      List.flatMap_eq_nil_iff.mpr fun k hk => holds_eq_nil_of_stuck (hdone k hk)
    rw [openCount, hnil, List.count_nil, Nat.add_zero]
  have hanswered : (p.shared.answered.map Prod.fst).count h = 1 ↔
      publishSystem.machine.Meets (Answers h) (publishInit m) ls := by
    rw [hopen]
    constructor
    · intro hone
      by_contra hnot
      have hlost := publishSystem.machine.run_broken PublishInv (Lost h)
        (fun _ _ _ hs hst => publishInv_step hs hst) (fun _ _ _ hs hst => lost_step hs hst)
        (fun _ _ _ hs hno hst => lost_of_unanswered hs hno hst) (publishInv_init m) hrun hnot
      rw [hlost.2] at hone
      cases hone
    · intro hmeets
      have hkept := publishSystem.machine.run_invariant (Kept h)
        (fun _ _ _ hs hok hst => kept_step hs hok hst)
        ⟨publishInv_init m, fun hmem => absurd hmem List.not_mem_nil⟩ hmeets hrun
      exact hkept.2 hh
  refine ⟨hanswered, fun hdis => ?_⟩
  rw [← hanswered]
  constructor
  · intro hret
    have hpos : 0 < (p.shared.answered.map Prod.fst).count h :=
      List.count_pos_iff.mpr (hinv.returned h hret)
    have honce := hinv.once h
    have hle := List.nodup_iff_count_le_one.mp hinv.nodup h
    omega
  · intro hone
    rcases hinv.waiting h hdis with hwait | hret
    · exfalso
      have hmem : h ∈ p.shared.answered.map Prod.fst := List.count_pos_iff.mp (by omega)
      rcases List.mem_map.mp hmem with ⟨a, ha, hah⟩
      have hblocked := hdone _ hwait ⟨true, redisOk, .null⟩
      simp only [publishNext] at hblocked
      split at hblocked
      · rename_i hnone
        exact absurd hah (by simpa using List.find?_eq_none.mp hnone a ha)
      · cases hblocked
    · exact hret

/-- One partition with one available connection that is up. -/
def onePartition : OnlineRedisManager where
  consistentHash := [(5, [112])]
  partitions := fun name => if name = [112] then some ⟨[0]⟩ else none
  states := fun _ _ => .connected

/-- A message for a device goes out and its reply comes back. -/
def publishRun : List (Sched Outcome PublishEvent) :=
  [.env (.dispatch ⟨[97], 1⟩ [120] 1), .call 0 ⟨true, 0, .null⟩, .call 0 ⟨true, 0, .null⟩,
   .call 0 ⟨true, 0, .null⟩, .call 0 ⟨true, 0, .null⟩, .call 0 ⟨true, 0, .integer 1⟩,
   .call 0 ⟨true, 0, .null⟩]

theorem publish_answered_iff_publishRun :
    ∃ p, publishSystem.machine.run (publishInit onePartition) publishRun = some p ∧
      p.shared.dispatched = [1] ∧ (p.shared.answered.map Prod.fst).count 1 = 1 ∧
      1 ∈ p.shared.returned.map Prod.fst := by
  have hsome : (publishSystem.machine.run (publishInit onePartition) publishRun).isSome := by decide
  have hok : publishSystem.machine.Meets (Answers 1) (publishInit onePartition) publishRun := by
    decide
  have hview : (publishSystem.machine.run (publishInit onePartition) publishRun).map
      (fun p => (p.calls, p.shared.handed, p.shared.dispatched)) = some ([], [1], [1]) := by decide
  rcases Option.isSome_iff_exists.mp hsome with ⟨p, hp⟩
  rw [hp, Option.map_some, Option.some.injEq, Prod.mk.injEq, Prod.mk.injEq] at hview
  rcases hview with ⟨hcalls, hhanded, hdispatched⟩
  have hiff := publish_answered_iff onePartition publishRun p hp (by simp [hcalls]) 1
    (by simp [hhanded])
  exact ⟨p, hp, hdispatched, hiff.1.mpr hok, (hiff.2 (by simp [hdispatched])).mpr hok⟩

/-- The connection breaks after it was chosen, before the task runs. -/
def brokenRun : List (Sched Outcome PublishEvent) :=
  [.env (.dispatch ⟨[97], 1⟩ [120] 1), .call 0 ⟨true, 0, .null⟩, .call 0 ⟨true, 0, .null⟩,
   .call 0 ⟨true, 0, .null⟩, .env (.state [112] 0 .reconnecting), .env (.available [112] []),
   .call 0 ⟨true, 0, .null⟩]

/-- Without the condition the handler can be dropped and the caller waits for
ever. -/
theorem publish_unanswered :
    ¬ ∀ (m : OnlineRedisManager) (ls : List (Sched Outcome PublishEvent))
      (p : Pool PublishState PublishTask),
      publishSystem.machine.run (publishInit m) ls = some p →
      (∀ k ∈ p.calls, ∀ e, publishNext p.shared k e = none) →
      ∀ h ∈ p.shared.handed, (p.shared.answered.map Prod.fst).count h = 1 ∧
        (h ∈ p.shared.dispatched → h ∈ p.shared.returned.map Prod.fst) := by
  intro hclaim
  have hsome : (publishSystem.machine.run (publishInit onePartition) brokenRun).isSome := by decide
  have hview : (publishSystem.machine.run (publishInit onePartition) brokenRun).map
      (fun p => (p.calls, p.shared.handed, p.shared.answered)) = some ([.wait 1], [1], []) := by
    decide
  rcases Option.isSome_iff_exists.mp hsome with ⟨p, hp⟩
  rw [hp, Option.map_some, Option.some.injEq, Prod.mk.injEq, Prod.mk.injEq] at hview
  rcases hview with ⟨hcalls, hhanded, hanswered⟩
  have hstuck : ∀ k ∈ p.calls, ∀ e, publishNext p.shared k e = none := by
    intro k hk e
    rw [hcalls, List.mem_singleton] at hk
    simp [hk, publishNext, hanswered]
  have hone := (hclaim onePartition brokenRun p hp hstuck 1 (by simp [hhanded])).1
  simp [hanswered] at hone

end BcmServer.Redis
