import BcmServer.Redis.Connecting
import BcmServer.Util.ConsistentHash
import BcmServer.Util.Ordered

/-!
# BcmServer.Redis.RedisClientSync — sets of the cluster

A key has its server, by its hash. Every server has a pool of connections; a call takes
one of them, or a new one if there is none, and puts it back. Keys that are asked for
together are asked for server by server.

The servers are given with hiredis, as `RedisConn` has it. What they answer may change from
command to command; the second half is about servers that stay as they are. There a key is
asked for with the same outcome alone (`smembers_steady`) and among others
(`smembersBatch_steady`), but for the flag: it is about the connections, not about the
answers.
-/

namespace BcmServer.Redis

open BcmServer.Util BcmServer.Lts

variable {σ α : Type}

/-- `RedisServer`: hiredis with its state, and the contexts of the connections in the pool -/
structure RedisServer (σ : Type) where
  hiredis : Server σ
  state : σ
  redisPassword : Bytes
  redisConnList : List (Option RedisContext)

namespace RedisServer

/-- A call on a connection that is not in the pool -/
def onConn (context : Option RedisContext) (x : Run σ α) :
    Fueled ConnFault (RedisServer σ) (α × Option RedisContext) := fun s =>
  (x ⟨context, s.state, 0⟩).map fun result =>
    (result.1.map fun a => (a, result.2.context), { s with state := result.2.server })

/-- `getRedisConn`, by the context of the connection; none is a null pointer. -/
def getRedisConn (fuel : ℕ) : Fueled ConnFault (RedisServer σ) (Option (Option RedisContext)) := do
  let s ← Fueled.get
  match s.redisConnList with
  | [] =>
      let result ← onConn none (RedisConn.connectRedis s.hiredis s.redisPassword fuel)
      return if result.1 then some result.2 else none
  | context :: rest =>
      Fueled.modify fun s => { s with redisConnList := rest }
      return some context

def freeRedisConn (context : Option RedisContext) : Fueled ConnFault (RedisServer σ) Unit :=
  Fueled.modify fun s => { s with redisConnList := s.redisConnList ++ [context] }

/-- What a call does on a server: nothing if it gets no connection -/
def withRedisConn (fuel : ℕ) (call : Server σ → Run σ Bool → Run σ α) :
    Fueled ConnFault (RedisServer σ) (Option α) := do
  let s ← Fueled.get
  match ← getRedisConn fuel with
  | none => return none
  | some context =>
      let result ← onConn context
        (call s.hiredis (RedisConn.reConnectRedis s.hiredis s.redisPassword fuel))
      freeRedisConn result.2
      return some result.1

end RedisServer

/-- `m_vecRedisClusterList`, whose keys are the numbers from 0 on -/
abbrev Cluster (σ : Type) := List (RedisServer σ)

namespace RedisClientSync

/-- `getRedisServer`, by its index -/
def getRedisServer (cl : Cluster σ) (key : Bytes) : Option ℕ :=
  if cl.isEmpty then none else some ((fnvHash key).toNat % cl.length)

/-- A call on the server at an index -/
def onServer (i : ℕ) (x : Fueled ConnFault (RedisServer σ) (Option α)) :
    Fueled ConnFault (Cluster σ) (Option α) := fun cl =>
  match cl[i]? with
  | none => some (.ok none, cl)
  | some s => (x s).map fun result => (result.1, cl.set i result.2)

def smembers (fuel : ℕ) (key : Bytes) (memberList : List Bytes) :
    Fueled ConnFault (Cluster σ) (Bool × List Bytes) := do
  let cl ← Fueled.get
  match getRedisServer cl key with
  | none => return (false, memberList)
  | some i =>
      let result ← onServer i <| RedisServer.withRedisConn fuel fun server reConnect =>
        Attempted.value <$> RedisConn.smembers server reConnect key memberList
      return result.getD (false, memberList)

/-- The loop of `smembersBatch` over the servers, with the keys of each -/
def smembersNodes (fuel : ℕ) : List (ℕ × List Bytes) → Bool → (Bytes → Option (List Bytes)) →
    Fueled ConnFault (Cluster σ) (Bool × (Bytes → Option (List Bytes)))
  | [], isSuccess, m => return (isSuccess, m)
  | (i, keys) :: nodes, isSuccess, m => do
      let result ← onServer i <| RedisServer.withRedisConn fuel fun server reConnect =>
        RedisConn.smembersBatch server reConnect keys m
      match result with
      | none => smembersNodes fuel nodes isSuccess m
      | some (b, m) => smembersNodes fuel nodes (isSuccess && b) m

/-- `mapNodeKeys`, in the order of the indices: that of the source goes by addresses. -/
def mapNodeKeys (cl : Cluster σ) (setKeys : Finset Bytes) : List (ℕ × List Bytes) :=
  (List.range cl.length).filterMap fun i =>
    let keys := (inOrder setKeys).filter fun key => getRedisServer cl key = some i
    if keys.isEmpty then none else some (i, keys)

def smembersBatch (fuel : ℕ) (setKeys : Finset Bytes)
    (mapKeyMembers : Bytes → Option (List Bytes)) :
    Fueled ConnFault (Cluster σ) (Bool × (Bytes → Option (List Bytes))) := do
  let cl ← Fueled.get
  let nodes := mapNodeKeys cl setKeys
  if nodes.isEmpty then return (false, mapKeyMembers)
  smembersNodes fuel nodes true mapKeyMembers

end RedisClientSync

/-! ## Servers that stay as they are -/

/-- What `SMEMBERS` is answered, if that is a success -/
def Server.members (server : Server Unit) (key : Bytes) : Option (List Bytes) :=
  let answer := (server.command (.format (RedisConn.text "SMEMBERS %b") [.b key]) ()).1
  if answer.isSuccess then
    some ((answer.reply.elim [] RedisReply.elements).map RedisConn.elementText)
  else none

/-- Whether a connection is made -/
def Server.Reachable (server : Server Unit) : Prop := (server.connect ()).1 = .connected

instance (server : Server Unit) : Decidable server.Reachable :=
  inferInstanceAs (Decidable (_ = _))

/-- The password is accepted, if there is one. -/
def Server.Accepts (server : Server Unit) (password : Bytes) : Prop :=
  password = [] ∨ (server.command (RedisConn.auth password) ()).1.isSuccess = true

namespace RedisConn

variable {server : Server Unit} {password : Bytes}

/-- To connect again comes to this. -/
def Reconnects (server : Server Unit) (r : Run Unit Bool) : Prop :=
  ∀ conn, ∃ t, r conn = some (.ok (decide server.Reachable), t) ∧
    (server.Reachable → t.context ≠ none)

theorem connectRedis_steady (haccepts : server.Accepts password) (fuel : ℕ)
    (conn : RedisConn Unit) (h : conn.context = none) :
    ∃ t, connectRedis server password (fuel + 1) conn = some (.ok (decide server.Reachable), t) ∧
      (server.Reachable → t.context ≠ none) := by
  by_cases hreach : server.Reachable
  · rw [decide_eq_true hreach]
    by_cases hpassword : password = []
    · subst hpassword
      exact ⟨_, connectRedis_open h hreach, fun _ => accepted_context⟩
    · have hauth := haccepts.resolve_left hpassword
      exact ⟨_, connectRedis_accepted h hpassword hreach hauth, fun _ => sent_context _⟩
  · rw [decide_eq_false hreach]
    exact ⟨_, connectRedis_refused h hreach, fun hreach' => absurd hreach' hreach⟩

theorem reconnects_reConnectRedis (haccepts : server.Accepts password) (fuel : ℕ) :
    Reconnects server (reConnectRedis server password (fuel + 1)) := fun conn => by
  obtain ⟨t, ht, hcontext⟩ := connectRedis_steady haccepts fuel { conn with context := none } rfl
  exact ⟨t, ht, hcontext⟩

section Steady

variable {r : Run Unit Bool} {conn : RedisConn Unit}

/-- A connection that is there, or can be made -/
def Live (server : Server Unit) (conn : RedisConn Unit) : Prop :=
  conn.context ≠ none ∨ server.Reachable

theorem connected_live (hr : Reconnects server r) (h : Live server conn) :
    ∃ t, connected r conn = some (.ok true, t) ∧ t.context ≠ none := by
  by_cases hcontext : conn.context = none
  · have hreach := h.resolve_left (not_not_intro hcontext)
    obtain ⟨t, ht, hconnected⟩ := hr conn
    rw [decide_eq_true hreach] at ht
    exact ⟨t, (connected_none hcontext).trans ht, hconnected hreach⟩
  · exact ⟨conn, connected_some hcontext, hcontext⟩

theorem connected_dead (hr : Reconnects server r) (h : ¬ Live server conn) :
    ∃ t, connected r conn = some (.ok false, t) := by
  obtain ⟨hcontext, hreach⟩ := not_or.mp h
  obtain ⟨t, ht, -⟩ := hr conn
  rw [decide_eq_false hreach] at ht
  exact ⟨t, (connected_none (not_not.mp hcontext)).trans ht⟩

/-- The second attempt gets the answer of the first. -/
theorem attempts_steady (hr : Reconnects server r) (cmd : Command) (h : conn.context ≠ none) :
    ∃ answers t, attempts server r cmd conn = some (.ok
      ⟨if (server.command cmd ()).1.isSuccess then (server.command cmd ()).1.reply else none,
        answers⟩, t) := by
  cases hsuccess : (server.command cmd ()).1.isSuccess with
  | true => exact ⟨_, _, attempts_success h hsuccess⟩
  | false =>
      rw [attempts_again h hsuccess]
      obtain ⟨t, ht, hcontext⟩ := hr (sent server cmd conn)
      rw [Fueled.bind_ok ht]
      by_cases hreach : server.Reachable
      · rw [decide_eq_true hreach, secondAttempt_true _ (hcontext hreach)]
        have hagain : (answered server cmd t).isSuccess = false := hsuccess
        rw [hagain]
        exact ⟨_, _, rfl⟩
      · rw [decide_eq_false hreach]
        exact ⟨_, _, rfl⟩

theorem twoAttempts_live (hr : Reconnects server r) (cmd : Command) (h : Live server conn) :
    ∃ answers t, twoAttempts server r cmd conn = some (.ok
      ⟨if (server.command cmd ()).1.isSuccess then (server.command cmd ()).1.reply else none,
        answers⟩, t) := by
  obtain ⟨t, ht, hcontext⟩ := connected_live hr h
  rw [twoAttempts_eq, Fueled.bind_ok ht]
  exact attempts_steady hr cmd hcontext

theorem twoAttempts_dead (hr : Reconnects server r) (cmd : Command) (h : ¬ Live server conn) :
    ∃ t, twoAttempts server r cmd conn = some (.ok ⟨none, []⟩, t) := by
  obtain ⟨t, ht⟩ := connected_dead hr h
  rw [twoAttempts_eq, Fueled.bind_ok ht]
  exact ⟨t, rfl⟩

/-- What `smembers` returns: the members behind those that are there already -/
def returned (memberList : List Bytes) : Option (List Bytes) → Bool × List Bytes
  | none => (false, memberList)
  | some members => (true, memberList ++ members)

theorem smembers_live (hr : Reconnects server r) (key : Bytes) (memberList : List Bytes)
    (h : Live server conn) :
    ∃ t, (Attempted.value <$> smembers server r key memberList) conn =
      some (.ok (returned memberList (server.members key)), t) := by
  obtain ⟨answers, t, ht⟩ := twoAttempts_live hr (.format (text "SMEMBERS %b") [.b key]) h
  refine ⟨t, ?_⟩
  cases hsuccess : (server.command (.format (text "SMEMBERS %b") [.b key]) ()).1.isSuccess with
  | true =>
      obtain ⟨reply, hreply⟩ := Option.isSome_iff_exists.mp (reply_isSome_of_success hsuccess)
      rw [hsuccess, if_pos rfl, hreply] at ht
      have hmembers : server.members key = some (reply.elements.map elementText) := by
        simp only [Server.members, hsuccess, hreply]
        rfl
      rw [hmembers]
      exact (Fueled.bind_ok (Fueled.bind_ok ht)).trans rfl
  | false =>
      rw [hsuccess, if_neg Bool.false_ne_true] at ht
      have hmembers : server.members key = none := by
        simp [Server.members, hsuccess]
      rw [hmembers]
      exact (Fueled.bind_ok (Fueled.bind_ok ht)).trans rfl

theorem smembers_dead (hr : Reconnects server r) (key : Bytes) (memberList : List Bytes)
    (h : ¬ Live server conn) :
    ∃ t, (Attempted.value <$> smembers server r key memberList) conn =
      some (.ok (false, memberList), t) := by
  obtain ⟨t, ht⟩ := twoAttempts_dead hr (.format (text "SMEMBERS %b") [.b key]) h
  exact ⟨t, (Fueled.bind_ok (Fueled.bind_ok ht)).trans rfl⟩

end Steady

/-! ## Many keys on a connection -/

/-- What the keys add to the map -/
def addMembers (server : Server Unit) (keys : List Bytes) (m : Bytes → Option (List Bytes)) :
    Bytes → Option (List Bytes) :=
  keys.foldl (fun m key => pushAll m key ((server.members key).getD [])) m

theorem pushAll_apply {m : Bytes → Option (List Bytes)} {key : Bytes} (hfresh : m key = none)
    (members : Option (List Bytes)) (k : Bytes) :
    pushAll m key (members.getD []) k = if k = key then members.filter (· ≠ []) else m k := by
  obtain _ | _ | ⟨member, members⟩ := members <;>
    by_cases hk : k = key <;> simp [pushAll, hk, hfresh, Option.filter]

/-- Keys that are not in the map yet get their members, if they have any. -/
theorem addMembers_apply {keys : List Bytes} (hnodup : keys.Nodup)
    {m : Bytes → Option (List Bytes)} (hfresh : ∀ key ∈ keys, m key = none) (k : Bytes) :
    addMembers server keys m k =
      if k ∈ keys then (server.members k).filter (· ≠ []) else m k := by
  induction keys generalizing m with
  | nil => rfl
  | cons key keys ih =>
      obtain ⟨hkey, hnodup⟩ := List.nodup_cons.mp hnodup
      have hpush := pushAll_apply (hfresh key List.mem_cons_self) (server.members key)
      have hrest := ih hnodup (m := pushAll m key ((server.members key).getD [])) fun k hk => by
        have hne : k ≠ key := fun heq => hkey (heq ▸ hk)
        rw [hpush, if_neg hne]
        exact hfresh k (List.mem_cons_of_mem key hk)
      rw [hpush] at hrest
      rw [addMembers, List.foldl_cons]
      refine hrest.trans ?_
      by_cases hk : k = key
      · subst hk
        rw [if_neg hkey, if_pos rfl, if_pos List.mem_cons_self]
      · simp only [List.mem_cons, hk, false_or, if_false]

/-- Keys none of which is answered add nothing. -/
theorem addMembers_of_none {keys : List Bytes} (h : ∀ key ∈ keys, server.members key = none)
    (m : Bytes → Option (List Bytes)) : addMembers server keys m = m := by
  induction keys generalizing m with
  | nil => rfl
  | cons key keys ih =>
      rw [addMembers, List.foldl_cons, h key List.mem_cons_self]
      exact ih (fun k hk => h k (List.mem_cons_of_mem key hk)) m

section Batch

variable {r : Run Unit Bool} {conn : RedisConn Unit}

/-- What one key of a round does -/
theorem smembersRound_cons (key : Bytes) (keys : List Bytes) (nFailures : ℕ)
    (m : Bytes → Option (List Bytes)) (h : conn.context ≠ none) :
    smembersRound server (key :: keys) nFailures m conn =
      smembersRound server keys (nFailures + if (server.members key).isNone then 1 else 0)
        (pushAll m key ((server.members key).getD []))
        (sent server (.format (text "SMEMBERS %b") [.b key]) conn) := by
  have hanswer : answered server (.format (text "SMEMBERS %b") [.b key]) conn =
      (server.command (.format (text "SMEMBERS %b") [.b key]) ()).1 := rfl
  rw [smembersRound, Fueled.bind_ok (redisCommand_apply _ h), hanswer]
  cases hreply : (server.command (.format (text "SMEMBERS %b") [.b key]) ()).1.reply with
  | none =>
      have hmembers : server.members key = none := by
        simp [Server.members, Answer.isSuccess, hreply, isReplySuccess]
      rw [hmembers]
      rfl
  | some reply =>
      cases hsuccess : isReplySuccess (some reply) with
      | true =>
          have hmembers : server.members key = some (reply.elements.map elementText) := by
            simp [Server.members, Answer.isSuccess, hreply, hsuccess]
          simp [hmembers, hsuccess]
      | false =>
          have hmembers : server.members key = none := by
            simp [Server.members, Answer.isSuccess, hreply, hsuccess]
          simp [hmembers, hsuccess, pushAll]

theorem smembersRound_steady (server : Server Unit) {conn : RedisConn Unit} (keys : List Bytes)
    (nFailures : ℕ) (m : Bytes → Option (List Bytes)) (h : conn.context ≠ none) :
    ∃ t, smembersRound server keys nFailures m conn = some (.ok
      (nFailures + keys.countP fun key => (server.members key).isNone,
        addMembers server keys m), t) := by
  induction keys generalizing nFailures m conn with
  | nil => exact ⟨conn, rfl⟩
  | cons key keys ih =>
      have hsent : (sent server (.format (text "SMEMBERS %b") [.b key]) conn).context ≠ none :=
        sent_context _
      obtain ⟨t, ht⟩ := ih (nFailures + if (server.members key).isNone then 1 else 0)
        (pushAll m key ((server.members key).getD [])) hsent
      rw [smembersRound_cons key keys nFailures m h, List.countP_cons]
      refine ⟨t, ht.trans ?_⟩
      rw [Nat.add_assoc, Nat.add_comm (ite _ _ _)]
      rfl

theorem smembersBatch_live (hr : Reconnects server r) (keys : List Bytes)
    (m : Bytes → Option (List Bytes)) (h : Live server conn) :
    ∃ t, smembersBatch server r keys m conn =
      some (.ok (true, addMembers server keys m), t) := by
  obtain ⟨t, ht, hcontext⟩ := connected_live hr h
  obtain ⟨u, hu⟩ := smembersRound_steady server keys 0 m hcontext
  rw [smembersBatch, Fueled.bind_ok ht]
  simp only [Bool.not_true, Bool.false_eq_true, if_false]
  rw [Fueled.bind_ok hu, Nat.zero_add]
  by_cases hall : keys.countP (fun key => (server.members key).isNone) = keys.length
  · -- no key is answered, neither in this round nor in the next one
    have hnone : ∀ key ∈ keys, server.members key = none := fun key hkey =>
      Option.isNone_iff_eq_none.mp (List.countP_eq_length.mp hall key hkey)
    obtain ⟨v, hv, hconnected⟩ := hr u
    simp only [hall, ne_eq, not_true_eq_false, if_false, addMembers_of_none hnone]
    rw [Fueled.bind_ok hv]
    by_cases hreach : server.Reachable
    · obtain ⟨w, hw⟩ := smembersRound_steady server keys 0 m (hconnected hreach)
      rw [addMembers_of_none hnone] at hw
      simp only [hreach, decide_true, Bool.not_true, Bool.false_eq_true, if_false]
      exact ⟨w, Fueled.bind_ok hw⟩
    · simp only [hreach, decide_false, Bool.not_false, if_true]
      exact ⟨v, rfl⟩
  · rw [if_pos hall]
    exact ⟨u, rfl⟩

theorem smembersBatch_dead (hr : Reconnects server r) (keys : List Bytes)
    (m : Bytes → Option (List Bytes)) (h : ¬ Live server conn) :
    ∃ t, smembersBatch server r keys m conn = some (.ok (false, m), t) := by
  obtain ⟨t, ht⟩ := connected_dead hr h
  rw [smembersBatch, Fueled.bind_ok ht]
  exact ⟨t, rfl⟩

end Batch

end RedisConn

/-! ## A call on a server -/

/-- What becomes of the connection that a call gets -/
inductive ConnState where
  | up
  /-- a connection of the pool has no context any more, and is not made again -/
  | dropped
  /-- there is no connection -/
  | refused
deriving DecidableEq, Repr

/-- What a call comes to with a connection that is up, and with one that was dropped -/
def ConnState.outcome (live dead : α) : ConnState → Option α
  | up => some live
  | dropped => some dead
  | refused => none

namespace RedisServer

variable {s : RedisServer Unit}

def connState (s : RedisServer Unit) : ConnState :=
  if s.hiredis.Reachable then .up
  else
    match s.redisConnList with
    | [] => .refused
    | none :: _ => .dropped
    | some _ :: _ => .up

def Accepts (s : RedisServer Unit) : Prop := s.hiredis.Accepts s.redisPassword

theorem onConn_ok {context : Option RedisContext} {x : Run Unit α} {a : α} {t : RedisConn Unit}
    (h : x ⟨context, s.state, 0⟩ = some (.ok a, t)) :
    onConn context x s = some (.ok (a, t.context), { s with state := t.server }) := by
  rw [onConn, h]
  rfl

theorem getRedisConn_steady (haccepts : s.Accepts) (fuel : ℕ) :
    ∃ got t, getRedisConn (fuel + 1) s = some (.ok got, t) ∧
      ((got = none ∧ s.connState = .refused) ∨ ∃ context, got = some context ∧
        ((RedisConn.Live s.hiredis ⟨context, (), 0⟩ ∧ s.connState = .up) ∨
          (¬ RedisConn.Live s.hiredis ⟨context, (), 0⟩ ∧ s.connState = .dropped))) := by
  cases hpool : s.redisConnList with
  | nil =>
      obtain ⟨t, ht, hcontext⟩ := RedisConn.connectRedis_steady haccepts fuel
        ⟨none, s.state, 0⟩ rfl
      have hget : getRedisConn (fuel + 1) s = some
          (.ok (if s.hiredis.Reachable then some t.context else none),
            { s with state := t.server }) := by
        rw [getRedisConn, Fueled.get_bind_apply, hpool]
        refine (Fueled.bind_ok (onConn_ok ht)).trans ?_
        by_cases hreach : s.hiredis.Reachable <;> simp [hreach, hpool]
      refine ⟨_, _, hget, ?_⟩
      by_cases hreach : s.hiredis.Reachable
      · rw [if_pos hreach]
        exact .inr ⟨_, rfl, .inl ⟨.inr hreach, if_pos hreach⟩⟩
      · rw [if_neg hreach]
        refine .inl ⟨rfl, ?_⟩
        rw [connState, if_neg hreach, hpool]
  | cons context rest =>
      refine ⟨some context, _, by rw [getRedisConn, Fueled.get_bind_apply, hpool]; rfl,
        .inr ⟨context, rfl, ?_⟩⟩
      by_cases hreach : s.hiredis.Reachable
      · exact .inl ⟨.inr hreach, if_pos hreach⟩
      · have hstate : s.connState = match s.redisConnList with
            | [] => .refused
            | none :: _ => .dropped
            | some _ :: _ => .up := if_neg hreach
        rw [hpool] at hstate
        cases context with
        | none => exact .inr ⟨not_or.mpr ⟨not_not_intro rfl, hreach⟩, hstate⟩
        | some context => exact .inl ⟨.inl (Option.some_ne_none _), hstate⟩

/-- A call whose outcome depends on nothing but whether the connection is up -/
theorem withRedisConn_steady (haccepts : s.Accepts) (fuel : ℕ)
    (call : Server Unit → Run Unit Bool → Run Unit α) {live dead : α}
    (hlive : ∀ r conn, RedisConn.Reconnects s.hiredis r → RedisConn.Live s.hiredis conn →
      ∃ t, call s.hiredis r conn = some (.ok live, t))
    (hdead : ∀ r conn, RedisConn.Reconnects s.hiredis r → ¬ RedisConn.Live s.hiredis conn →
      ∃ t, call s.hiredis r conn = some (.ok dead, t)) :
    ∃ t, withRedisConn (fuel + 1) call s = some (.ok (s.connState.outcome live dead), t) := by
  have hr := RedisConn.reconnects_reConnectRedis haccepts fuel
  obtain ⟨got, t, ht, ⟨rfl, hstate⟩ | ⟨context, rfl, hcontext⟩⟩ := getRedisConn_steady haccepts fuel
  · rw [withRedisConn, Fueled.get_bind_apply, Fueled.bind_ok ht, hstate]
    exact ⟨t, rfl⟩
  · have hcall : ∃ a u, s.connState.outcome live dead = some a ∧
        call s.hiredis (RedisConn.reConnectRedis s.hiredis s.redisPassword (fuel + 1))
          ⟨context, t.state, 0⟩ = some (.ok a, u) := by
      obtain ⟨hup, hstate⟩ | ⟨hdown, hstate⟩ := hcontext
      · obtain ⟨u, hu⟩ := hlive _ _ hr hup
        exact ⟨live, u, by rw [hstate]; rfl, hu⟩
      · obtain ⟨u, hu⟩ := hdead _ _ hr hdown
        exact ⟨dead, u, by rw [hstate]; rfl, hu⟩
    obtain ⟨a, u, ha, hu⟩ := hcall
    rw [withRedisConn, Fueled.get_bind_apply, Fueled.bind_ok ht, ha]
    exact ⟨_, Fueled.bind_ok (onConn_ok hu)⟩

end RedisServer

/-! ## Keys of the cluster -/

namespace RedisClientSync

variable {cl cl' : Cluster Unit}

/-- The server of a key -/
def serverOf (cl : Cluster Unit) (key : Bytes) : Option (RedisServer Unit) :=
  (getRedisServer cl key).bind fun i => cl[i]?

/-- What the cluster answers for a key -/
def members (cl : Cluster Unit) (key : Bytes) : Option (List Bytes) :=
  (serverOf cl key).bind fun s => if s.connState = .up then s.hiredis.members key else none

/-- The key is asked for on a connection that is not there any more. -/
def Dropped (cl : Cluster Unit) (key : Bytes) : Prop :=
  ∃ s ∈ serverOf cl key, s.connState = .dropped

theorem members_nil (key : Bytes) : members [] key = none := rfl

theorem members_of_dropped {key : Bytes} (h : Dropped cl key) : members cl key = none := by
  obtain ⟨s, hs, hstate⟩ := h
  rw [members, Option.mem_def.mp hs, Option.bind_some, hstate]
  rfl

theorem getRedisServer_eq_none {key : Bytes} : getRedisServer cl key = none ↔ cl = [] := by
  cases cl <;> simp [getRedisServer]

theorem exists_server {key : Bytes} {i : ℕ} (h : getRedisServer cl key = some i) :
    ∃ s, cl[i]? = some s ∧ serverOf cl key = some s := by
  have hserver : serverOf cl key = cl[i]? := by rw [serverOf, h, Option.bind_some]
  cases cl with
  | nil => cases h
  | cons s cl =>
      have hi : (fnvHash key).toNat % (s :: cl).length = i := Option.some.inj h
      have hlt : i < (s :: cl).length := hi ▸ Nat.mod_lt _ (Nat.succ_pos cl.length)
      exact ⟨_, List.getElem?_eq_getElem hlt, hserver.trans (List.getElem?_eq_getElem hlt)⟩

theorem onServer_ok {i : ℕ} {s t : RedisServer Unit}
    {x : Fueled ConnFault (RedisServer Unit) (Option α)} {a : Option α} (hs : cl[i]? = some s)
    (h : x s = some (.ok a, t)) : onServer i x cl = some (.ok a, cl.set i t) := by
  rw [onServer, hs]
  show (x s).map _ = _
  rw [h]
  rfl

/-- One key that is asked for -/
theorem smembers_steady (haccepts : ∀ s ∈ cl, s.Accepts) (fuel : ℕ) (key : Bytes)
    (memberList : List Bytes) :
    ∃ t, smembers (fuel + 1) key memberList cl =
      some (.ok (RedisConn.returned memberList (members cl key)), t) := by
  rw [smembers, Fueled.get_bind_apply]
  cases hindex : getRedisServer cl key with
  | none =>
      refine ⟨cl, ?_⟩
      rw [members, serverOf, hindex]
      rfl
  | some i =>
      obtain ⟨s, hs, hserver⟩ := exists_server hindex
      obtain ⟨t, ht⟩ := RedisServer.withRedisConn_steady
        (haccepts s (List.mem_of_getElem? hs)) fuel
        (fun server r => Attempted.value <$> RedisConn.smembers server r key memberList)
        (fun _ _ hr hlive => RedisConn.smembers_live hr key memberList hlive)
        (fun _ _ hr hdead => RedisConn.smembers_dead hr key memberList hdead)
      refine ⟨cl.set i t, (Fueled.bind_ok (onServer_ok hs ht)).trans ?_⟩
      rw [members, hserver, Option.bind_some]
      cases s.connState <;> rfl

/-- The members that are found of the keys asked for so far -/
def found (cl : Cluster Unit) (done : Finset Bytes) : Bytes → Option (List Bytes) := fun key =>
  if key ∈ done then (members cl key).filter (· ≠ []) else none

/-- A server with its keys -/
structure IsNode (cl : Cluster Unit) (node : ℕ × List Bytes) : Prop where
  ne_nil : node.2 ≠ []
  nodup : node.2.Nodup
  server : ∀ key ∈ node.2, getRedisServer cl key = some node.1

theorem found_congr {done done' : Finset Bytes}
    (h : ∀ key, members cl key ≠ none → (key ∈ done ↔ key ∈ done')) :
    found cl done = found cl done' := by
  funext key
  by_cases hmembers : members cl key = none
  · simp [found, hmembers]
  · simp [found, h key hmembers]

theorem IsNode.serverOf_eq {node : ℕ × List Bytes} (hnode : IsNode cl node) :
    ∃ s, cl[node.1]? = some s ∧ ∀ key ∈ node.2, serverOf cl key = some s := by
  obtain ⟨key, hkey⟩ := List.exists_mem_of_ne_nil _ hnode.ne_nil
  obtain ⟨s, hs, -⟩ := exists_server (hnode.server key hkey)
  refine ⟨s, hs, fun key hkey => ?_⟩
  rw [serverOf, hnode.server key hkey, Option.bind_some, hs]

/-- The keys of one server -/
theorem smembersNode_steady (haccepts : ∀ s ∈ cl, s.Accepts) (fuel : ℕ) {node : ℕ × List Bytes}
    (hnode : IsNode cl node) {done : Finset Bytes} (hdone : ∀ key ∈ node.2, key ∉ done)
    (hsame : cl'[node.1]? = cl[node.1]?) :
    ∃ result t, onServer node.1 (RedisServer.withRedisConn (fuel + 1) fun server reConnect =>
        RedisConn.smembersBatch server reConnect node.2 (found cl done)) cl' =
        some (.ok result, cl'.set node.1 t) ∧
      result.elim (found cl done) Prod.snd = found cl (done ∪ node.2.toFinset) ∧
      (result.elim true Prod.fst = true ↔ ∀ key ∈ node.2, ¬ Dropped cl key) := by
  obtain ⟨s, hs, hserver⟩ := hnode.serverOf_eq
  obtain ⟨t, ht⟩ := RedisServer.withRedisConn_steady
    (haccepts s (List.mem_of_getElem? hs)) fuel
    (fun server r => RedisConn.smembersBatch server r node.2 (found cl done))
    (fun _ _ hr hlive => RedisConn.smembersBatch_live hr node.2 (found cl done) hlive)
    (fun _ _ hr hdead => RedisConn.smembersBatch_dead hr node.2 (found cl done) hdead)
  refine ⟨_, t, onServer_ok (hsame.trans hs) ht, ?_⟩
  -- a server that is not up answers nothing
  have hnone : s.connState ≠ .up → found cl done = found cl (done ∪ node.2.toFinset) := by
    intro hstate
    refine found_congr fun key hmembers => ?_
    have hkey : key ∉ node.2 := fun hkey => hmembers (by
      rw [members, hserver key hkey, Option.bind_some, if_neg hstate])
    simp [hkey]
  have hdropped : ∀ key ∈ node.2, (Dropped cl key ↔ s.connState = .dropped) := by
    intro key hkey
    simp [Dropped, hserver key hkey]
  obtain ⟨key, hkey⟩ := List.exists_mem_of_ne_nil _ hnode.ne_nil
  cases hstate : s.connState with
  | up =>
      refine ⟨?_, iff_of_true rfl fun key hkey hdrop => ?_⟩
      · funext key
        have hfresh : ∀ key ∈ node.2, found cl done key = none := fun key hkey =>
          if_neg (hdone key hkey)
        refine (RedisConn.addMembers_apply hnode.nodup hfresh key).trans ?_
        by_cases hkey : key ∈ node.2
        · have hmembers : members cl key = s.hiredis.members key := by
            rw [members, hserver key hkey, Option.bind_some, if_pos hstate]
          simp [found, hkey, hmembers]
        · simp [found, hkey]
      · rw [hdropped key hkey, hstate] at hdrop
        cases hdrop
  | dropped =>
      refine ⟨hnone (by rw [hstate]; decide), iff_of_false Bool.false_ne_true fun h => ?_⟩
      exact h key hkey ((hdropped key hkey).mpr hstate)
  | refused =>
      refine ⟨hnone (by rw [hstate]; decide), iff_of_true rfl fun key hkey hdrop => ?_⟩
      rw [hdropped key hkey, hstate] at hdrop
      cases hdrop

theorem smembersNodes_steady (haccepts : ∀ s ∈ cl, s.Accepts) (fuel : ℕ)
    {nodes : List (ℕ × List Bytes)} (hnodes : ∀ node ∈ nodes, IsNode cl node)
    (hindex : (nodes.map Prod.fst).Nodup) (done : Finset Bytes)
    (hdone : ∀ node ∈ nodes, ∀ key ∈ node.2, key ∉ done)
    (hsame : ∀ node ∈ nodes, cl'[node.1]? = cl[node.1]?) (isSuccess : Bool) :
    ∃ flag t, smembersNodes (fuel + 1) nodes isSuccess (found cl done) cl' =
        some (.ok (flag, found cl (done ∪ (nodes.flatMap Prod.snd).toFinset)), t) ∧
      (flag = true ↔ isSuccess = true ∧ ∀ key ∈ nodes.flatMap Prod.snd, ¬ Dropped cl key) := by
  induction nodes generalizing done cl' isSuccess with
  | nil => exact ⟨isSuccess, cl', by simp [smembersNodes], by simp⟩
  | cons node nodes ih =>
      obtain ⟨hnode, hnodes⟩ := List.forall_mem_cons.mp hnodes
      obtain ⟨hdoneNode, hdone⟩ := List.forall_mem_cons.mp hdone
      obtain ⟨hsameNode, hsame⟩ := List.forall_mem_cons.mp hsame
      obtain ⟨hne, hindex⟩ := List.nodup_cons.mp hindex
      obtain ⟨result, t, ht, hfound, hflag⟩ :=
        smembersNode_steady haccepts fuel hnode hdoneNode hsameNode
      have hdone' : ∀ node' ∈ nodes, ∀ key ∈ node'.2, key ∉ done ∪ node.2.toFinset := by
        intro node' hnode' key hkey hmem
        rcases Finset.mem_union.mp hmem with hmem | hmem
        · exact hdone node' hnode' key hkey hmem
        · -- a key has one server
          have hindex' := (hnodes node' hnode').server key hkey
          rw [hnode.server key (List.mem_toFinset.mp hmem)] at hindex'
          exact hne (Option.some.inj hindex' ▸ List.mem_map_of_mem hnode')
      have hsame' : ∀ node' ∈ nodes, (cl'.set node.1 t)[node'.1]? = cl[node'.1]? := by
        intro node' hnode'
        have hindex' : node.1 ≠ node'.1 := fun heq =>
          hne (List.mem_map.mpr ⟨node', hnode', heq.symm⟩)
        rw [List.getElem?_set_ne hindex']
        exact hsame node' hnode'
      obtain ⟨flag, u, hu, hflags⟩ := ih hnodes hindex (done ∪ node.2.toFinset) hdone' hsame'
        (isSuccess && result.elim true Prod.fst)
      refine ⟨flag, u, ?_, ?_⟩
      · rw [smembersNodes, Fueled.bind_ok ht, List.flatMap_cons, List.toFinset_append,
          ← Finset.union_assoc, ← hu, ← hfound]
        cases result <;> simp
      · rw [hflags, Bool.and_eq_true, hflag, List.flatMap_cons, List.forall_mem_append, and_assoc]

theorem node_eq_some {keys : List Bytes} {i : ℕ} {node : ℕ × List Bytes} :
    (if keys.isEmpty then none else some (i, keys)) = some node ↔ keys ≠ [] ∧ (i, keys) = node := by
  cases keys <;> simp

theorem mem_mapNodeKeys {setKeys : Finset Bytes} {node : ℕ × List Bytes} :
    node ∈ mapNodeKeys cl setKeys ↔ node.1 < cl.length ∧ node.2 ≠ [] ∧
      node.2 = (inOrder setKeys).filter fun key => getRedisServer cl key = some node.1 := by
  obtain ⟨i, keys⟩ := node
  simp only [mapNodeKeys, List.mem_filterMap, List.mem_range, node_eq_some]
  constructor
  · rintro ⟨j, hj, hne, h⟩
    obtain ⟨rfl, rfl⟩ := Prod.mk.inj h
    exact ⟨hj, hne, rfl⟩
  · rintro ⟨hi, hne, hkeys⟩
    exact ⟨i, hi, hkeys ▸ hne, by rw [hkeys]⟩

theorem isNode_of_mem {setKeys : Finset Bytes} {node : ℕ × List Bytes}
    (h : node ∈ mapNodeKeys cl setKeys) : IsNode cl node := by
  obtain ⟨-, hne, hkeys⟩ := mem_mapNodeKeys.mp h
  refine ⟨hne, hkeys ▸ (nodup_inOrder setKeys).filter _, fun key hkey => ?_⟩
  rw [hkeys] at hkey
  exact of_decide_eq_true (List.mem_filter.mp hkey).2

theorem nodup_mapNodeKeys (setKeys : Finset Bytes) :
    ((mapNodeKeys cl setKeys).map Prod.fst).Nodup := by
  refine List.Nodup.sublist (sublist_map_filterMap (k := id) (fun i node h => ?_) _) ?_
  · exact congrArg Prod.fst (node_eq_some.mp h).2.symm
  · rw [List.map_id]
    exact List.nodup_range

/-- If there is a server, every key is asked for. -/
theorem mem_keys_mapNodeKeys {setKeys : Finset Bytes} {key : Bytes} :
    key ∈ (mapNodeKeys cl setKeys).flatMap Prod.snd ↔ cl ≠ [] ∧ key ∈ setKeys := by
  constructor
  · intro h
    obtain ⟨node, hnode, hkey⟩ := List.mem_flatMap.mp h
    have hserver := (isNode_of_mem hnode).server key hkey
    obtain ⟨-, -, hkeys⟩ := mem_mapNodeKeys.mp hnode
    rw [hkeys] at hkey
    refine ⟨fun hnil => ?_, mem_inOrder.mp (List.mem_filter.mp hkey).1⟩
    rw [getRedisServer_eq_none.mpr hnil] at hserver
    cases hserver
  · rintro ⟨hc, hkey⟩
    obtain ⟨i, hindex⟩ := Option.ne_none_iff_exists'.mp (mt getRedisServer_eq_none.mp hc)
    obtain ⟨s, hs, -⟩ := exists_server hindex
    have hmem : key ∈ (inOrder setKeys).filter fun key => getRedisServer cl key = some i :=
      List.mem_filter.mpr ⟨mem_inOrder.mpr hkey, decide_eq_true hindex⟩
    refine List.mem_flatMap.mpr ⟨(i, _), mem_mapNodeKeys.mpr ⟨?_, List.ne_nil_of_mem hmem, rfl⟩,
      hmem⟩
    exact (List.getElem?_eq_some_iff.mp hs).1

/-- The keys that are asked for together -/
theorem smembersBatch_steady (haccepts : ∀ s ∈ cl, s.Accepts) (fuel : ℕ) (setKeys : Finset Bytes) :
    ∃ flag t, smembersBatch (fuel + 1) setKeys (fun _ => none) cl =
        some (.ok (flag, found cl setKeys), t) ∧
      (flag = true ↔ cl ≠ [] ∧ setKeys.Nonempty ∧ ∀ key ∈ setKeys, ¬ Dropped cl key) := by
  have hempty : found cl ∅ = fun _ => none := by
    funext key
    exact if_neg (Finset.notMem_empty key)
  rw [smembersBatch, Fueled.get_bind_apply]
  by_cases hnodes : mapNodeKeys cl setKeys = []
  · have hnone : ¬ (cl ≠ [] ∧ setKeys.Nonempty) := by
      rintro ⟨hc, key, hkey⟩
      have hmem := mem_keys_mapNodeKeys.mpr ⟨hc, hkey⟩
      rw [hnodes] at hmem
      cases hmem
    have hfound : found cl setKeys = fun _ => none := by
      rw [← hempty]
      refine found_congr fun key hmembers => iff_of_false (fun hkey => ?_) (Finset.notMem_empty key)
      refine hnone ⟨fun hc => hmembers ?_, key, hkey⟩
      rw [hc, members_nil]
    rw [hnodes, hfound]
    exact ⟨false, cl, rfl, iff_of_false Bool.false_ne_true fun h => hnone ⟨h.1, h.2.1⟩⟩
  · obtain ⟨node, hnode⟩ := List.exists_mem_of_ne_nil _ hnodes
    obtain ⟨key, hkey⟩ := List.exists_mem_of_ne_nil _ (isNode_of_mem hnode).ne_nil
    obtain ⟨hc, hkey⟩ := mem_keys_mapNodeKeys.mp (List.mem_flatMap.mpr ⟨node, hnode, hkey⟩)
    have hkeys : ∅ ∪ ((mapNodeKeys cl setKeys).flatMap Prod.snd).toFinset = setKeys := by
      ext key
      rw [Finset.empty_union, List.mem_toFinset, mem_keys_mapNodeKeys]
      exact and_iff_right hc
    obtain ⟨flag, t, ht, hflag⟩ := smembersNodes_steady haccepts fuel
      (fun _ h => isNode_of_mem h) (nodup_mapNodeKeys setKeys) ∅
      (fun _ _ key _ => Finset.notMem_empty key) (fun _ _ => rfl) true
    rw [hempty, hkeys] at ht
    refine ⟨flag, t, ?_, ?_⟩
    · rw [List.isEmpty_eq_false_iff.mpr hnodes]
      exact ht
    · simp only [hflag, mem_keys_mapNodeKeys, true_and, hc, ne_eq, not_false_eq_true]
      exact ⟨fun h => ⟨⟨key, hkey⟩, h⟩, fun h => h.2⟩

end RedisClientSync

end BcmServer.Redis
