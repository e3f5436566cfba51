import BcmServer.Redis.RedisConn

/-!
# BcmServer.Redis.Connecting — whether connecting to redis ends

A rejected AUTH makes `connectRedis` connect again, which sends AUTH again. A command
connects again twice at most, so everything ends if connecting does.

`connecting_ends_iff`: if there is a password, all calls end if and only if no server goes
on accepting connections and rejecting the AUTH that comes first on each. They end after a
bounded number of connections if and only if there is a bound on such rejections.

Calls that dereference a null pointer have ended.
-/

namespace BcmServer.Redis

open BcmServer.Util BcmServer.Lts

variable {σ α β : Type} {server : Server σ} {password : Bytes}

/-- The server accepts a connection and rejects its first AUTH, and is in this state then. -/
def Server.rejects (server : Server σ) (password : Bytes) (s : σ) : Option σ :=
  if (server.connect s).1 = .connected then
    let (answer, t) := server.command (RedisConn.auth password) (server.connect s).2
    if answer.isSuccess then none else some t
  else none

/-- So many times in a row -/
def Server.Rejects (server : Server σ) (password : Bytes) : ℕ → σ → Prop
  | 0, _ => True
  | n + 1, s => ∃ t ∈ server.rejects password s, server.Rejects password n t

namespace RedisConn

/-! ## hiredis -/

theorem derefContext_apply {conn : RedisConn σ} {context : RedisContext}
    (h : conn.context = some context) : derefContext conn = some (.ok context, conn) := by
  simp [derefContext, h]

theorem derefContext_null {conn : RedisConn σ} (h : conn.context = none) :
    derefContext conn = some (.error .nullContext, conn) := by
  simp [derefContext, h]

/-- The connection after a command -/
def sent (server : Server σ) (cmd : Command) (conn : RedisConn σ) : RedisConn σ where
  context := some ⟨(server.command cmd conn.server).1.err⟩
  server := (server.command cmd conn.server).2
  connects := conn.connects

/-- The answer to a command -/
def answered (server : Server σ) (cmd : Command) (conn : RedisConn σ) : Answer :=
  (server.command cmd conn.server).1

theorem redisCommand_apply {conn : RedisConn σ} (cmd : Command) (h : conn.context ≠ none) :
    redisCommand server cmd conn = some (.ok (answered server cmd conn), sent server cmd conn) := by
  obtain ⟨context, hcontext⟩ := Option.ne_none_iff_exists'.mp h
  rw [redisCommand, Fueled.bind_ok (derefContext_apply hcontext)]
  rfl

theorem redisCommand_null {conn : RedisConn σ} (cmd : Command) (h : conn.context = none) :
    redisCommand server cmd conn = some (.error .nullContext, conn) := by
  rw [redisCommand, Fueled.bind_error (derefContext_null h)]

theorem redisConnectWithTimeout_apply (conn : RedisConn σ) :
    redisConnectWithTimeout server conn =
      some (.ok (decide ((server.connect conn.server).1 = .connected)),
        ⟨if (server.connect conn.server).1 = .connected then some ⟨false⟩ else none,
          (server.connect conn.server).2, conn.connects + 1⟩) := rfl

/-! ## Two attempts -/

section TwoAttempts

variable {conn : RedisConn σ} {r : Run σ Bool} {cmd : Command}

/-- The second attempt, if there is one -/
def secondAttempt (server : Server σ) (cmd : Command) (first : Answer) (connected : Bool) :
    Run σ (Attempted (Option RedisReply)) := do
  if !connected then return ⟨none, [first]⟩
  let second ← redisCommand server cmd
  return ⟨if second.isSuccess then second.reply else none, [first, second]⟩

/-- The attempts on a connection -/
def attempts (server : Server σ) (r : Run σ Bool) (cmd : Command) :
    Run σ (Attempted (Option RedisReply)) := do
  let first ← redisCommand server cmd
  if first.isSuccess then return ⟨first.reply, [first]⟩
  secondAttempt server cmd first (← r)

theorem twoAttempts_eq : twoAttempts server r cmd = (connected r >>= fun c =>
    if !c then pure ⟨none, []⟩ else attempts server r cmd) := rfl

theorem connected_some (h : conn.context ≠ none) : connected r conn = some (.ok true, conn) := by
  obtain ⟨context, hcontext⟩ := Option.ne_none_iff_exists'.mp h
  simp [connected, hcontext]

theorem connected_none (h : conn.context = none) : connected r conn = r conn := by
  simp [connected, h]

theorem attempts_success (h : conn.context ≠ none)
    (hsuccess : (answered server cmd conn).isSuccess = true) :
    attempts server r cmd conn = some (.ok ⟨(answered server cmd conn).reply,
      [answered server cmd conn]⟩, sent server cmd conn) := by
  rw [attempts, Fueled.bind_ok (redisCommand_apply cmd h), if_pos hsuccess]
  rfl

theorem attempts_again (h : conn.context ≠ none)
    (hsuccess : (answered server cmd conn).isSuccess = false) :
    attempts server r cmd conn =
      (r >>= secondAttempt server cmd (answered server cmd conn)) (sent server cmd conn) := by
  rw [attempts, Fueled.bind_ok (redisCommand_apply cmd h), hsuccess]
  rfl

theorem secondAttempt_true (first : Answer) (h : conn.context ≠ none) :
    secondAttempt server cmd first true conn = some (.ok
      ⟨if (answered server cmd conn).isSuccess then (answered server cmd conn).reply else none,
        [first, answered server cmd conn]⟩, sent server cmd conn) := by
  simp only [secondAttempt, Bool.not_true, Bool.false_eq_true, if_false]
  rw [Fueled.bind_ok (redisCommand_apply cmd h)]
  rfl

theorem twoAttempts_some (h : conn.context ≠ none) :
    twoAttempts server r cmd conn = attempts server r cmd conn := by
  rw [twoAttempts_eq, Fueled.bind_ok (connected_some h)]
  rfl

theorem reply_isSome_of_success {answer : Answer} (h : answer.isSuccess = true) :
    answer.reply.isSome = true := by
  cases hreply : answer.reply with
  | none =>
      rw [Answer.isSuccess, hreply] at h
      cases h
  | some reply => rfl

theorem performed_ok {reply : Option RedisReply} {answers : List Answer} {t : RedisConn σ}
    (h : twoAttempts server r cmd conn = some (.ok ⟨reply, answers⟩, t)) :
    performed server r cmd conn = some (.ok ⟨reply.isSome, answers⟩, t) := by
  rw [performed, perform, Fueled.bind_ok h]
  cases reply <;> rfl

end TwoAttempts

/-! ## Connecting -/

section Connect

variable {conn : RedisConn σ} {fuel : ℕ}

theorem connectRedis_some (h : conn.context ≠ none) :
    connectRedis server password (fuel + 1) conn = some (.ok true, conn) := by
  obtain ⟨context, hcontext⟩ := Option.ne_none_iff_exists'.mp h
  simp [connectRedis, hcontext]

theorem connectRedis_refused (h : conn.context = none)
    (hconnect : (server.connect conn.server).1 ≠ .connected) :
    connectRedis server password (fuel + 1) conn =
      some (.ok false, ⟨none, (server.connect conn.server).2, conn.connects + 1⟩) := by
  rw [connectRedis, Fueled.get_bind_apply, h]
  simp only [Option.isSome_none, Bool.false_eq_true, if_false]
  rw [Fueled.bind_ok (redisConnectWithTimeout_apply conn)]
  simp [hconnect]

/-- The connection after it was accepted -/
def accepted (server : Server σ) (conn : RedisConn σ) : RedisConn σ :=
  ⟨some ⟨false⟩, (server.connect conn.server).2, conn.connects + 1⟩

/-- What follows AUTH: the connection is to be there. -/
def finish (authed : Bool) : Run σ Bool := do
  if !authed then return false
  let _ ← derefContext
  return true

theorem connectRedis_connected (h : conn.context = none)
    (hconnect : (server.connect conn.server).1 = .connected) :
    connectRedis server password (fuel + 1) conn =
      (authenticate password (redisCmdArgs1 server (reConnectRedis server password fuel)
        (text "AUTH") password) >>= finish) (accepted server conn) := by
  rw [connectRedis, Fueled.get_bind_apply, h]
  simp only [Option.isSome_none, Bool.false_eq_true, if_false]
  rw [Fueled.bind_ok (redisConnectWithTimeout_apply conn)]
  simp only [hconnect, decide_true, Bool.not_true, Bool.false_eq_true, if_false, if_true]
  rfl

/-- Without a password -/
theorem connectRedis_open (h : conn.context = none)
    (hconnect : (server.connect conn.server).1 = .connected) :
    connectRedis server [] (fuel + 1) conn = some (.ok true, accepted server conn) := by
  rw [connectRedis_connected h hconnect]
  rfl

theorem finish_true (h : conn.context ≠ none) : finish true conn = some (.ok true, conn) := by
  obtain ⟨context, hcontext⟩ := Option.ne_none_iff_exists'.mp h
  simp only [finish, Bool.not_true, Bool.false_eq_true, if_false]
  rw [Fueled.bind_ok (derefContext_apply hcontext)]
  rfl

theorem accepted_context : (accepted server conn).context ≠ none := Option.some_ne_none _

theorem sent_context (cmd : Command) : (sent server cmd conn).context ≠ none :=
  Option.some_ne_none _

/-- What `connectRedis` makes of the attempts at AUTH: the log line of a failure reads the context
that was freed. -/
def afterAuth : Option (Except ConnFault (Attempted (Option RedisReply)) × RedisConn σ) →
    Option (Except ConnFault Bool × RedisConn σ)
  | none => none
  | some (.error fault, t) => some (.error fault, t)
  | some (.ok ⟨none, _⟩, t) => some (.error .nullContext, { t with context := none })
  | some (.ok ⟨some _, _⟩, t) => (finish true) t

theorem authenticate_eq (hpassword : password ≠ []) (r : Run σ Bool) (conn : RedisConn σ) :
    (authenticate password (redisCmdArgs1 server r (text "AUTH") password) >>= finish) conn =
      afterAuth (twoAttempts server r (auth password) conn) := by
  have hauth : redisCmdArgs1 server r (text "AUTH") password =
      performed server r (auth password) := rfl
  have hrequired : password.isEmpty = false := by simpa using hpassword
  rw [hauth, authenticate, hrequired]
  simp only [Bool.false_eq_true, if_false]
  cases htwo : twoAttempts server r (auth password) conn with
  | none =>
      have hperformed : performed server r (auth password) conn = none := by
        rw [performed, perform, Fueled.bind_none htwo]
      rw [Fueled.bind_none (Fueled.bind_none hperformed)]
      rfl
  | some result =>
      obtain ⟨fault | ⟨reply, answers⟩, t⟩ := result
      · have hperformed : performed server r (auth password) conn = some (.error fault, t) := by
          rw [performed, perform, Fueled.bind_error htwo]
        rw [Fueled.bind_error (Fueled.bind_error hperformed)]
        rfl
      · have hperformed := performed_ok htwo
        cases reply with
        | none =>
            refine Fueled.bind_error ?_
            rw [Fueled.bind_ok hperformed]
            rfl
        | some reply =>
            refine Fueled.bind_ok ?_
            rw [Fueled.bind_ok hperformed]
            rfl

/-- The first AUTH is accepted. -/
theorem connectRedis_accepted (h : conn.context = none) (hpassword : password ≠ [])
    (hconnect : (server.connect conn.server).1 = .connected)
    (hauth : (answered server (auth password) (accepted server conn)).isSuccess = true) :
    connectRedis server password (fuel + 1) conn =
      some (.ok true, sent server (auth password) (accepted server conn)) := by
  obtain ⟨reply, hreply⟩ := Option.isSome_iff_exists.mp (reply_isSome_of_success hauth)
  rw [connectRedis_connected h hconnect, authenticate_eq hpassword,
    twoAttempts_some accepted_context, attempts_success accepted_context hauth, hreply]
  exact finish_true (sent_context _)

/-- What comes of a first AUTH that is rejected, after the connection is made again: the second
one, and a null pointer where that fails. -/
def retried (server : Server σ) (password : Bytes) :
    Option (Except ConnFault Bool × RedisConn σ) → Option (Except ConnFault Bool × RedisConn σ)
  | none => none
  | some (.error fault, t) => some (.error fault, t)
  | some (.ok false, t) => some (.error .nullContext, { t with context := none })
  | some (.ok true, t) =>
      if (answered server (auth password) t).isSuccess then
        some (.ok true, sent server (auth password) t)
      else some (.error .nullContext, { sent server (auth password) t with context := none })

/-- The connection after its first AUTH was rejected, and it was freed -/
def rejected (server : Server σ) (password : Bytes) (conn : RedisConn σ) : RedisConn σ :=
  { sent server (auth password) (accepted server conn) with context := none }

theorem connectRedis_rejected (h : conn.context = none) (hpassword : password ≠ [])
    (hconnect : (server.connect conn.server).1 = .connected)
    (hauth : (answered server (auth password) (accepted server conn)).isSuccess = false)
    (hcontext : ∀ t, connectRedis server password fuel (rejected server password conn) =
      some (.ok true, t) → t.context ≠ none) :
    connectRedis server password (fuel + 1) conn = retried server password
      (connectRedis server password fuel (rejected server password conn)) := by
  have hagain : reConnectRedis server password fuel
      (sent server (auth password) (accepted server conn)) =
      connectRedis server password fuel (rejected server password conn) := rfl
  rw [connectRedis_connected h hconnect, authenticate_eq hpassword,
    twoAttempts_some accepted_context, attempts_again accepted_context hauth]
  cases hr : connectRedis server password fuel (rejected server password conn) with
  | none =>
      rw [Fueled.bind_none (hagain.trans hr)]
      rfl
  | some result =>
      obtain ⟨fault | _ | _, t⟩ := result
      · rw [Fueled.bind_error (hagain.trans hr)]
        rfl
      · rw [Fueled.bind_ok (hagain.trans hr)]
        rfl
      · rw [Fueled.bind_ok (hagain.trans hr), secondAttempt_true _ (hcontext t hr)]
        cases hsecond : (answered server (auth password) t).isSuccess with
        | false => simp [retried, hsecond, afterAuth]
        | true =>
            obtain ⟨reply, hreply⟩ := Option.isSome_iff_exists.mp (reply_isSome_of_success hsecond)
            simp only [retried, hsecond, hreply, if_true]
            exact finish_true (sent_context _)

/-- What `connectRedis` can meet, if it is not connected -/
theorem connect_cases (server : Server σ) (password : Bytes) (conn : RedisConn σ) :
    ((server.connect conn.server).1 ≠ .connected ∧ server.rejects password conn.server = none) ∨
    ((server.connect conn.server).1 = .connected ∧
      (answered server (auth password) (accepted server conn)).isSuccess = true ∧
      server.rejects password conn.server = none) ∨
    ((server.connect conn.server).1 = .connected ∧
      (answered server (auth password) (accepted server conn)).isSuccess = false ∧
      server.rejects password conn.server = some (rejected server password conn).server) := by
  have hrejects : server.rejects password conn.server =
      if (server.connect conn.server).1 = .connected then
        if (answered server (auth password) (accepted server conn)).isSuccess then none
        else some (rejected server password conn).server
      else none := rfl
  by_cases hconnect : (server.connect conn.server).1 = .connected
  · rw [if_pos hconnect] at hrejects
    cases hauth : (answered server (auth password) (accepted server conn)).isSuccess with
    | true =>
        rw [hauth, if_pos rfl] at hrejects
        exact .inr (.inl ⟨hconnect, rfl, hrejects⟩)
    | false =>
        rw [hauth, if_neg Bool.false_ne_true] at hrejects
        exact .inr (.inr ⟨hconnect, rfl, hrejects⟩)
  · rw [if_neg hconnect] at hrejects
    exact .inl ⟨hconnect, hrejects⟩

theorem retried_eq_some {x : Option (Except ConnFault Bool × RedisConn σ)}
    {r : Except ConnFault Bool} {t : RedisConn σ} (h : retried server password x = some (r, t)) :
    ∃ r' u, x = some (r', u) ∧ t.connects = u.connects ∧ (r = .ok true → t.context ≠ none) := by
  obtain _ | ⟨fault | _ | _, u⟩ := x
  · cases h
  · obtain ⟨rfl, rfl⟩ := Prod.mk.inj (Option.some.inj h)
    exact ⟨_, u, rfl, rfl, fun hok => nomatch hok⟩
  · obtain ⟨rfl, rfl⟩ := Prod.mk.inj (Option.some.inj h)
    exact ⟨_, u, rfl, rfl, fun hok => nomatch hok⟩
  · by_cases hauth : (answered server (auth password) u).isSuccess = true
    · rw [retried, if_pos hauth] at h
      obtain ⟨rfl, rfl⟩ := Prod.mk.inj (Option.some.inj h)
      exact ⟨_, u, rfl, rfl, fun _ => sent_context _⟩
    · rw [retried, if_neg hauth] at h
      obtain ⟨rfl, rfl⟩ := Prod.mk.inj (Option.some.inj h)
      exact ⟨_, u, rfl, rfl, fun hok => nomatch hok⟩

/-- There is a context if it says so. -/
theorem context_of_connectRedis {t : RedisConn σ}
    (h : connectRedis server password fuel conn = some (.ok true, t)) : t.context ≠ none := by
  induction fuel generalizing conn t with
  | zero => cases h
  | succ fuel ih =>
      by_cases hcontext : conn.context = none
      · by_cases hpassword : password = []
        · subst hpassword
          by_cases hconnect : (server.connect conn.server).1 = .connected
          · rw [connectRedis_open hcontext hconnect] at h
            obtain ⟨-, rfl⟩ := Prod.mk.inj (Option.some.inj h)
            exact accepted_context
          · rw [connectRedis_refused hcontext hconnect] at h
            cases h
        · obtain ⟨hconnect, -⟩ | ⟨hconnect, hauth, -⟩ | ⟨hconnect, hauth, -⟩ :=
            connect_cases server password conn
          · rw [connectRedis_refused hcontext hconnect] at h
            cases h
          · rw [connectRedis_accepted hcontext hpassword hconnect hauth] at h
            obtain ⟨-, rfl⟩ := Prod.mk.inj (Option.some.inj h)
            exact sent_context _
          · rw [connectRedis_rejected hcontext hpassword hconnect hauth fun t ht => ih ht] at h
            obtain ⟨_, _, _, _, hok⟩ := retried_eq_some h
            exact hok rfl
      · rw [connectRedis_some hcontext] at h
        obtain ⟨-, rfl⟩ := Prod.mk.inj (Option.some.inj h)
        exact hcontext

/-- How `connectRedis` goes on, one case for each way in which it does -/
inductive Round (server : Server σ) (password : Bytes) (fuel : ℕ) (conn : RedisConn σ) : Prop
  | connected (h : conn.context ≠ none)
      (heq : connectRedis server password (fuel + 1) conn = some (.ok true, conn))
  | refused (h : conn.context = none) (hrejects : server.rejects password conn.server = none)
      (hconnect : (server.connect conn.server).1 ≠ .connected)
      (heq : connectRedis server password (fuel + 1) conn =
        some (.ok false, ⟨none, (server.connect conn.server).2, conn.connects + 1⟩))
  | opened (h : conn.context = none) (hpassword : password = [])
      (hconnect : (server.connect conn.server).1 = .connected)
      (heq : connectRedis server password (fuel + 1) conn = some (.ok true, accepted server conn))
  | authed (h : conn.context = none) (hpassword : password ≠ [])
      (hrejects : server.rejects password conn.server = none)
      (hconnect : (server.connect conn.server).1 = .connected)
      (hauth : (answered server (auth password) (accepted server conn)).isSuccess = true)
      (heq : connectRedis server password (fuel + 1) conn =
        some (.ok true, sent server (auth password) (accepted server conn)))
  | again (h : conn.context = none) (hpassword : password ≠ [])
      (hrejects : server.rejects password conn.server =
        some (rejected server password conn).server)
      (heq : connectRedis server password (fuel + 1) conn = retried server password
        (connectRedis server password fuel (rejected server password conn)))

theorem round (server : Server σ) (password : Bytes) (fuel : ℕ) (conn : RedisConn σ) :
    Round server password fuel conn := by
  by_cases h : conn.context = none
  · obtain ⟨hconnect, hrejects⟩ | ⟨hconnect, hauth, hrejects⟩ | ⟨hconnect, hauth, hrejects⟩ :=
      connect_cases server password conn
    · exact .refused h hrejects hconnect (connectRedis_refused h hconnect)
    · by_cases hpassword : password = []
      · subst hpassword
        exact .opened h rfl hconnect (connectRedis_open h hconnect)
      · exact .authed h hpassword hrejects hconnect hauth
          (connectRedis_accepted h hpassword hconnect hauth)
    · by_cases hpassword : password = []
      · subst hpassword
        exact .opened h rfl hconnect (connectRedis_open h hconnect)
      · exact .again h hpassword hrejects (connectRedis_rejected h hpassword hconnect hauth
          fun t ht => context_of_connectRedis ht)
  · exact .connected h (connectRedis_some h)

theorem connectRedis_succ {r : Except ConnFault Bool × RedisConn σ}
    (h : connectRedis server password fuel conn = some r) :
    connectRedis server password (fuel + 1) conn = some r := by
  induction fuel generalizing conn r with
  | zero => cases h
  | succ fuel ih =>
      cases round server password fuel conn with
      | connected hcontext heq => rwa [connectRedis_some hcontext, ← heq]
      | refused hcontext _ hconnect heq => rwa [connectRedis_refused hcontext hconnect, ← heq]
      | opened hcontext hpassword hconnect heq =>
          subst hpassword
          rwa [connectRedis_open hcontext hconnect, ← heq]
      | authed hcontext hpassword _ hconnect hauth heq =>
          rwa [connectRedis_accepted hcontext hpassword hconnect hauth, ← heq]
      | again hcontext hpassword hrejects heq =>
          cases hx : connectRedis server password fuel (rejected server password conn) with
          | none =>
              rw [heq, hx] at h
              cases h
          | some x =>
              have hnext := ih hx
              cases round server password (fuel + 1) conn with
              | connected hcontext' => exact absurd hcontext hcontext'
              | refused _ hrejects' => rw [hrejects] at hrejects'; cases hrejects'
              | opened _ hpassword' => exact absurd hpassword' hpassword
              | authed _ _ hrejects' => rw [hrejects] at hrejects'; cases hrejects'
              | again _ _ _ heq' => rwa [heq', hnext, ← hx, ← heq]

theorem grows_reConnectRedis : Fueled.Grows (reConnectRedis server password) :=
  Fueled.grows_of_succ fun _ _ _ h => connectRedis_succ h

/-- It is out of fuel if AUTH is rejected so many times in a row. -/
theorem connectRedis_eq_none_iff (hcontext : conn.context = none) (hpassword : password ≠ []) :
    connectRedis server password fuel conn = none ↔ server.Rejects password fuel conn.server := by
  induction fuel generalizing conn with
  | zero => exact ⟨fun _ => trivial, fun _ => rfl⟩
  | succ fuel ih =>
      rw [Server.Rejects]
      cases round server password fuel conn with
      | connected hcontext' => exact absurd hcontext hcontext'
      | refused _ hrejects _ heq => simp [heq, hrejects]
      | opened _ hpassword' => exact absurd hpassword' hpassword
      | authed _ _ hrejects _ _ heq => simp [heq, hrejects]
      | again _ _ hrejects heq =>
          have hnone : retried server password (connectRedis server password fuel
              (rejected server password conn)) = none ↔
              connectRedis server password fuel (rejected server password conn) = none := by
            obtain _ | ⟨fault | _ | _, t⟩ :=
              connectRedis server password fuel (rejected server password conn)
            · exact Iff.rfl
            · simp [retried]
            · simp [retried]
            · simp only [retried]
              split <;> simp
          rw [heq, hnone, ih rfl, hrejects]
          simp

/-- Each round tries one connection. -/
theorem connects_le {r : Except ConnFault Bool} {t : RedisConn σ}
    (h : connectRedis server password fuel conn = some (r, t)) :
    t.connects ≤ conn.connects + fuel := by
  induction fuel generalizing conn r t with
  | zero => cases h
  | succ fuel ih =>
      cases round server password fuel conn with
      | connected _ heq =>
          obtain ⟨-, rfl⟩ := Prod.mk.inj (Option.some.inj (heq.symm.trans h))
          exact Nat.le_add_right _ _
      | refused _ _ _ heq =>
          obtain ⟨-, rfl⟩ := Prod.mk.inj (Option.some.inj (heq.symm.trans h))
          show conn.connects + 1 ≤ _
          omega
      | opened _ _ _ heq =>
          obtain ⟨-, rfl⟩ := Prod.mk.inj (Option.some.inj (heq.symm.trans h))
          show conn.connects + 1 ≤ _
          omega
      | authed _ _ _ _ _ heq =>
          obtain ⟨-, rfl⟩ := Prod.mk.inj (Option.some.inj (heq.symm.trans h))
          show conn.connects + 1 ≤ _
          omega
      | again _ _ _ heq =>
          obtain ⟨r', u, hu, hconnects, -⟩ := retried_eq_some (heq.symm.trans h)
          have hle := ih hu
          have hone : (rejected server password conn).connects = conn.connects + 1 := rfl
          omega

/-- Each rejection takes a connection. -/
theorem le_connects {n : ℕ} {r : Except ConnFault Bool} {t : RedisConn σ}
    (hcontext : conn.context = none) (hpassword : password ≠ [])
    (hrejects : server.Rejects password n conn.server)
    (h : connectRedis server password fuel conn = some (r, t)) :
    conn.connects + n ≤ t.connects := by
  induction fuel generalizing conn n r t with
  | zero => cases h
  | succ fuel ih =>
      cases round server password fuel conn with
      | connected hcontext' => exact absurd hcontext hcontext'
      | refused _ hnone _ heq =>
          obtain ⟨-, rfl⟩ := Prod.mk.inj (Option.some.inj (heq.symm.trans h))
          cases n with
          | zero => exact Nat.le_succ _
          | succ n => simp [Server.Rejects, hnone] at hrejects
      | opened _ hpassword' => exact absurd hpassword' hpassword
      | authed _ _ hnone _ _ heq =>
          obtain ⟨-, rfl⟩ := Prod.mk.inj (Option.some.inj (heq.symm.trans h))
          cases n with
          | zero => exact Nat.le_succ _
          | succ n => simp [Server.Rejects, hnone] at hrejects
      | again _ _ hsome heq =>
          obtain ⟨r', u, hu, hconnects, -⟩ := retried_eq_some (heq.symm.trans h)
          have hone : (rejected server password conn).connects = conn.connects + 1 := rfl
          cases n with
          | zero =>
              have hle := ih (n := 0) rfl trivial hu
              omega
          | succ n =>
              simp only [Server.Rejects, hsome, Option.mem_def, Option.some.injEq,
                exists_eq_left'] at hrejects
              have hle := ih rfl hrejects hu
              omega

end Connect

/-! ## Calls -/

section Calls

variable {cmd : Command}

theorem quiet_derefContext : Fueled.Quiet RedisConn.connects (derefContext (σ := σ)) := by
  intro conn
  cases h : conn.context with
  | none => exact ⟨_, _, derefContext_null h, rfl⟩
  | some context => exact ⟨_, _, derefContext_apply h, rfl⟩

theorem quiet_redisCommand : Fueled.Quiet RedisConn.connects (redisCommand server cmd) := by
  intro conn
  by_cases h : conn.context = none
  · exact ⟨_, _, redisCommand_null cmd h, rfl⟩
  · exact ⟨_, _, redisCommand_apply cmd h, rfl⟩

theorem quiet_secondAttempt (first : Answer) (c : Bool) :
    Fueled.Quiet RedisConn.connects (secondAttempt server cmd first c) := by
  cases c
  · exact Fueled.quiet_pure _
  · exact quiet_redisCommand.bind fun _ => Fueled.quiet_pure _

theorem quiet_incrAttempt (key : Bytes) (newValue : UInt64) :
    Fueled.Quiet RedisConn.connects (incrAttempt server key newValue) := by
  refine quiet_redisCommand.bind fun answer => ?_
  cases answer.reply with
  | none => exact Fueled.quiet_throw _
  | some reply =>
      refine .ite ?_ (quiet_derefContext.bind fun _ =>
        .ite (Fueled.quiet_pure _) (Fueled.quiet_pure _))
      cases reply <;> exact Fueled.quiet_pure _

theorem calls_connected : Fueled.Calls RedisConn.connects 1 (connected (σ := σ)) :=
  Fueled.quiet_get.bind_calls fun _ =>
    .ite .call (.mono (Fueled.calls_pure true) (Nat.zero_le 1))

theorem calls_connected_bind {k : Run σ Bool → Bool → Run σ α}
    (hk : ∀ c, Fueled.Calls RedisConn.connects 1 fun r => k r c) :
    Fueled.Calls RedisConn.connects 2 fun r => connected r >>= k r := .bind calls_connected hk

theorem calls_attempts : Fueled.Calls RedisConn.connects 1 fun r => attempts server r cmd := by
  refine quiet_redisCommand.bind_calls fun first => ?_
  refine .ite_pure ?_
  exact Fueled.calls_bind_quiet fun c => quiet_secondAttempt first c

theorem calls_twoAttempts :
    Fueled.Calls RedisConn.connects 2 fun r => twoAttempts server r cmd := by
  simp only [twoAttempts_eq]
  exact .bind calls_connected fun _ => .ite_pure calls_attempts

theorem calls_perform (failure : List Answer → α) (onReply : RedisReply → Except Fault α) :
    Fueled.Calls RedisConn.connects 2 fun r => perform server r cmd failure onReply := by
  refine calls_twoAttempts.bind_quiet fun tried => ?_
  cases tried.value with
  | none => exact Fueled.quiet_pure _
  | some reply =>
      cases hreply : onReply reply with
      | error fault => simpa only [hreply] using Fueled.quiet_throw _
      | ok value => simpa only [hreply] using Fueled.quiet_pure _

theorem calls_performed : Fueled.Calls RedisConn.connects 2 fun r => performed server r cmd :=
  calls_perform _ _

theorem calls_incr (key : Bytes) (newValue : UInt64) :
    Fueled.Calls RedisConn.connects 2 fun r => incr server r key newValue := by
  refine calls_connected_bind fun _ => ?_
  refine .ite_pure ?_
  refine (quiet_incrAttempt key newValue).bind_calls fun _ => ?_
  refine .ite_pure ?_
  refine Fueled.calls_bind_quiet fun c => ?_
  refine .ite (Fueled.quiet_pure _) ?_
  exact (quiet_incrAttempt key newValue).bind fun _ => Fueled.quiet_pure _

theorem quiet_smembersRound (keys : List Bytes) (nFailures : ℕ)
    (m : Bytes → Option (List Bytes)) :
    Fueled.Quiet RedisConn.connects (smembersRound server keys nFailures m) := by
  induction keys generalizing nFailures m with
  | nil => exact Fueled.quiet_pure _
  | cons key keys ih =>
      rw [smembersRound]
      refine quiet_redisCommand.bind fun answer => ?_
      cases answer.reply with
      | none => exact ih _ _
      | some reply =>
          exact .ite (ih _ _) (ih _ _)

theorem quiet_publishRound (cmds : List Bytes) (nFailures : ℕ) :
    Fueled.Quiet RedisConn.connects (publishRound server cmds nFailures) := by
  induction cmds generalizing nFailures with
  | nil => exact Fueled.quiet_pure _
  | cons cmd cmds ih => exact quiet_redisCommand.bind fun _ => ih _

theorem calls_smembersBatch (keys : List Bytes) (m : Bytes → Option (List Bytes)) :
    Fueled.Calls RedisConn.connects 2 fun r => smembersBatch server r keys m := by
  refine calls_connected_bind fun _ => ?_
  refine .ite_pure ?_
  refine (quiet_smembersRound keys 0 m).bind_calls fun _ => ?_
  refine .ite_pure ?_
  refine Fueled.calls_bind_quiet fun c => ?_
  refine .ite (Fueled.quiet_pure _) ?_
  exact (quiet_smembersRound keys 0 _).bind fun _ => Fueled.quiet_pure _

theorem calls_publishBatch (cmds : List Bytes) :
    Fueled.Calls RedisConn.connects 2 fun r => publishBatch server r cmds := by
  refine calls_connected_bind fun _ => ?_
  refine .ite_pure ?_
  refine (quiet_publishRound cmds 0).bind_calls fun _ => ?_
  refine .ite_pure ?_
  refine Fueled.calls_bind_quiet fun c => ?_
  refine .ite (Fueled.quiet_pure _) ?_
  exact (quiet_publishRound cmds 0).bind fun _ => Fueled.quiet_pure _

/-- Every command connects again twice at most. -/
theorem calls_run (op : Op) : Fueled.Calls RedisConn.connects 2 fun r => op.run server r := by
  cases op with
  | incr key newValue => exact (calls_incr key newValue).map _
  | hdel key fieldList => exact (Fueled.Calls.ite_pure calls_performed).map _
  | zrem key memberList => exact (Fueled.Calls.ite_pure calls_performed).map _
  | getMemsByScoreWithLimit key min max offset limit mems =>
      exact (Fueled.Calls.ite_pure (calls_perform _ _)).map _
  | hscan key cursor pattern count new_cursor results =>
      simp only [Op.run, Op.flaggedFst, hscan]
      exact (calls_perform _ _).map _
  | redisCmdArgs0 strCmd => exact calls_performed.map _
  | redisCmdArgs1 strCmd key => exact calls_performed.map _
  | redisCmdArgs2 strCmd key value => exact calls_performed.map _
  | redisCmdArgs3 strCmd key field value => exact calls_performed.map _
  | unifiedCall fullCmd => exact calls_performed.map _
  | set key value exptime => exact calls_performed.map _
  | hmset key values => exact calls_performed.map _
  | zadd key mem score => exact calls_performed.map _
  | del key => exact calls_performed.map _
  | _ => exact (calls_perform _ _).map _

end Calls

end RedisConn

/-- A call of a method of `RedisConn` -/
inductive Call where
  | connectRedis
  | reConnectRedis
  | command (op : Op)
  | smembersBatch (setKeys : List Bytes) (mapKeyMembers : Bytes → Option (List Bytes))
  | publishBatch (setCmds : List Bytes)

/-- A call, whatever it returns -/
def Call.run (server : Server σ) (password : Bytes) (fuel : ℕ) : Call → Run σ Unit
  | connectRedis => (fun _ => ()) <$> RedisConn.connectRedis server password fuel
  | reConnectRedis => (fun _ => ()) <$> RedisConn.reConnectRedis server password fuel
  | command op => (fun _ => ()) <$> op.run server (RedisConn.reConnectRedis server password fuel)
  | smembersBatch setKeys mapKeyMembers => (fun _ => ()) <$> RedisConn.smembersBatch server
      (RedisConn.reConnectRedis server password fuel) setKeys mapKeyMembers
  | publishBatch setCmds => (fun _ => ()) <$> RedisConn.publishBatch server
      (RedisConn.reConnectRedis server password fuel) setCmds

/-- The call ends. -/
def Call.Ends (server : Server σ) (password : Bytes) (call : Call) (conn : RedisConn σ) : Prop :=
  ∃ fuel r, call.run server password fuel conn = some r

/-- The call ends after so many connections at most. -/
def Call.EndsWithin (server : Server σ) (password : Bytes) (bound : ℕ) (call : Call)
    (conn : RedisConn σ) : Prop :=
  ∃ fuel r t, call.run server password fuel conn = some (r, t) ∧
    t.connects ≤ conn.connects + bound

namespace RedisConn

/-- Every call but `connectRedis` is made of at most two calls of `reConnectRedis`. -/
theorem run_eq (server : Server σ) (password : Bytes) (call : Call) (h : call ≠ .connectRedis) :
    ∃ x : Run σ Bool → Run σ Unit, Fueled.Calls RedisConn.connects 2 x ∧
      ∀ fuel, call.run server password fuel = x (reConnectRedis server password fuel) := by
  cases call with
  | connectRedis => exact absurd rfl h
  | reConnectRedis =>
      exact ⟨_, (Fueled.Calls.call.mono (Nat.le_succ 1)).map fun _ => (), fun _ => rfl⟩
  | command op => exact ⟨_, (calls_run op).map fun _ => (), fun _ => rfl⟩
  | smembersBatch setKeys mapKeyMembers =>
      exact ⟨_, (calls_smembersBatch setKeys mapKeyMembers).map fun _ => (), fun _ => rfl⟩
  | publishBatch setCmds =>
      exact ⟨_, (calls_publishBatch setCmds).map fun _ => (), fun _ => rfl⟩

theorem map_unit_eq_some {x : Run σ α} {conn t : RedisConn σ} {r : Except ConnFault α}
    (h : x conn = some (r, t)) : ∃ r', ((fun _ => ()) <$> x) conn = some (r', t) := by
  obtain fault | a := r
  · exact ⟨_, Fueled.bind_error h⟩
  · exact ⟨_, Fueled.bind_ok h⟩

theorem exists_of_map_unit {x : Run σ α} {conn t : RedisConn σ} {r : Except ConnFault Unit}
    (h : ((fun _ => ()) <$> x) conn = some (r, t)) : ∃ r', x conn = some (r', t) := by
  obtain ⟨fault, u, hx, heq⟩ | ⟨a, u, hx, hk⟩ := Fueled.bind_eq_some.mp h
  · obtain ⟨-, rfl⟩ := Prod.mk.inj heq
    exact ⟨_, hx⟩
  · obtain ⟨-, rfl⟩ := Prod.mk.inj (Option.some.inj hk)
    exact ⟨_, hx⟩

theorem rejects_antitone {m n : ℕ} (h : m ≤ n) {s : σ} (hn : server.Rejects password n s) :
    server.Rejects password m s := by
  induction m generalizing n s with
  | zero => trivial
  | succ m ih =>
      cases n with
      | zero => exact absurd h (Nat.not_succ_le_zero m)
      | succ n =>
          obtain ⟨t, ht, hrest⟩ := hn
          exact ⟨t, ht, ih (Nat.le_of_succ_le_succ h) hrest⟩

/-- With so much fuel it returns, or with any without a password. -/
theorem connectRedis_returns (conn : RedisConn σ) {n : ℕ}
    (h : password = [] ∨ ¬ server.Rejects password n conn.server) :
    ∃ r t, connectRedis server password (n + 1) conn = some (r, t) := by
  cases hr : connectRedis server password (n + 1) conn with
  | some result => exact ⟨_, _, rfl⟩
  | none =>
      cases round server password n conn with
      | connected _ heq => rw [heq] at hr; cases hr
      | refused _ _ _ heq => rw [heq] at hr; cases hr
      | opened _ _ _ heq => rw [heq] at hr; cases hr
      | authed _ _ _ _ _ heq => rw [heq] at hr; cases hr
      | again hcontext hpassword _ _ =>
          have hrejects := (connectRedis_eq_none_iff hcontext hpassword).mp hr
          exact absurd (rejects_antitone (Nat.le_succ n) hrejects) (h.resolve_left hpassword)

theorem reConnectRedis_returns (conn : RedisConn σ) {n : ℕ}
    (h : password = [] ∨ ¬ server.Rejects password n conn.server) :
    ∃ r t, reConnectRedis server password (n + 1) conn = some (r, t) :=
  connectRedis_returns { conn with context := none } h

/-- A call that ends within a bound ends. -/
theorem ends_of_reConnectRedis {call : Call}
    (h : ∀ s, password = [] ∨ ∃ n, ¬ server.Rejects password n s) (conn : RedisConn σ) :
    call.Ends server password conn := by
  have hreturns : ∀ s, ∃ n, password = [] ∨ ¬ server.Rejects password n s := fun s => by
    obtain hpassword | ⟨n, hn⟩ := h s
    · exact ⟨0, .inl hpassword⟩
    · exact ⟨n, .inr hn⟩
  by_cases hcall : call = .connectRedis
  · subst hcall
    obtain ⟨n, hn⟩ := hreturns conn.server
    obtain ⟨r, t, ht⟩ := connectRedis_returns conn hn
    obtain ⟨r', hr'⟩ := map_unit_eq_some ht
    exact ⟨n + 1, _, hr'⟩
  · obtain ⟨x, hx, hrun⟩ := run_eq server password call hcall
    obtain ⟨n, r, hr⟩ := hx.ends grows_reConnectRedis (fun conn => by
      obtain ⟨n, hn⟩ := hreturns conn.server
      obtain ⟨r, t, ht⟩ := reConnectRedis_returns conn hn
      exact ⟨n + 1, _, ht⟩) conn
    exact ⟨n, r, (congrFun (hrun n) conn).trans hr⟩

theorem endsWithin_of_reConnectRedis {call : Call} {n : ℕ}
    (h : ∀ s, password = [] ∨ ¬ server.Rejects password n s) (conn : RedisConn σ) :
    call.EndsWithin server password (2 * (n + 1)) conn := by
  by_cases hcall : call = .connectRedis
  · subst hcall
    obtain ⟨r, t, ht⟩ := connectRedis_returns conn (h conn.server)
    obtain ⟨r', hr'⟩ := map_unit_eq_some ht
    have hle := connects_le ht
    exact ⟨n + 1, r', t, hr', by omega⟩
  · obtain ⟨x, hx, hrun⟩ := run_eq server password call hcall
    have hwithin : Fueled.Within RedisConn.connects (n + 1)
        (reConnectRedis server password (n + 1)) := fun conn => by
      obtain ⟨r, t, ht⟩ := reConnectRedis_returns conn (h conn.server)
      have hconnect : connectRedis server password (n + 1) { conn with context := none } =
          some (r, t) := ht
      have hle := connects_le hconnect
      exact ⟨r, t, ht, hle⟩
    obtain ⟨r, t, ht, hle⟩ := hx.within hwithin conn
    exact ⟨n + 1, r, t, (congrFun (hrun (n + 1)) conn).trans ht, hle⟩

/-- To connect again is to connect from a state of the server, whichever. -/
theorem reConnectRedis_ends {s : σ} {fuel : ℕ} {r : Except ConnFault Unit} {t : RedisConn σ}
    (hpassword : password ≠ [])
    (h : Call.run server password fuel .reConnectRedis ⟨none, s, 0⟩ = some (r, t)) :
    ¬ server.Rejects password fuel s ∧ ∀ n, server.Rejects password n s → n ≤ t.connects := by
  obtain ⟨r', hr'⟩ := exists_of_map_unit h
  have hconnect : connectRedis server password fuel ⟨none, s, 0⟩ = some (r', t) := hr'
  constructor
  · intro hrejects
    rw [(connectRedis_eq_none_iff rfl hpassword).mpr hrejects] at hconnect
    cases hconnect
  · intro n hrejects
    have hle := le_connects rfl hpassword hrejects hconnect
    omega

end RedisConn

/-- Every call ends, from every state, if and only if there is no password, or no state in which
the server goes on for ever accepting connections and rejecting AUTH; and there is a bound on the
connections of a call if and only if there is one on such rejections. -/
theorem connecting_ends_iff (server : Server σ) (password : Bytes) :
    ((∀ (call : Call) (conn : RedisConn σ), call.Ends server password conn) ↔
      password = [] ∨ ∀ s, ∃ n, ¬ server.Rejects password n s) ∧
    ((∃ bound, ∀ (call : Call) (conn : RedisConn σ), call.EndsWithin server password bound conn) ↔
      password = [] ∨ ∃ n, ∀ s, ¬ server.Rejects password n s) := by
  refine ⟨⟨fun h => ?_, fun h call conn => ?_⟩, ⟨fun ⟨bound, h⟩ => ?_, fun h => ?_⟩⟩
  · by_cases hpassword : password = []
    · exact .inl hpassword
    · refine .inr fun s => ?_
      obtain ⟨fuel, ⟨r, t⟩, ht⟩ := h .reConnectRedis ⟨none, s, 0⟩
      exact ⟨fuel, (RedisConn.reConnectRedis_ends hpassword ht).1⟩
  · refine RedisConn.ends_of_reConnectRedis (fun s => ?_) conn
    exact h.imp_right fun hs => hs s
  · by_cases hpassword : password = []
    · exact .inl hpassword
    · refine .inr ⟨bound + 1, fun s hrejects => ?_⟩
      obtain ⟨fuel, r, t, ht, hle⟩ := h .reConnectRedis ⟨none, s, 0⟩
      have hlt := (RedisConn.reConnectRedis_ends hpassword ht).2 _ hrejects
      have hzero : (RedisConn.mk none s 0).connects = 0 := rfl
      omega
  · obtain hpassword | ⟨n, hn⟩ := h
    · exact ⟨2 * (0 + 1), fun call conn =>
        RedisConn.endsWithin_of_reConnectRedis (fun _ => .inl hpassword) conn⟩
    · exact ⟨2 * (n + 1), fun call conn =>
        RedisConn.endsWithin_of_reConnectRedis (fun s => .inr (hn s)) conn⟩

/-- A server that accepts connections and rejects every command -/
def rejecting : Server Unit where
  connect s := (.connected, s)
  command _ s := (⟨some (.error []), false⟩, s)

theorem rejects_rejecting (password : Bytes) (n : ℕ) : rejecting.Rejects password n () := by
  induction n with
  | zero => trivial
  | succ n ih => exact ⟨(), rfl, ih⟩

theorem not_connecting_ends : ¬ ∀ (σ : Type) (server : Server σ) (password : Bytes) (call : Call)
    (conn : RedisConn σ), ∃ bound, call.EndsWithin server password bound conn := by
  intro h
  obtain ⟨bound, fuel, r, t, ht, -⟩ := h Unit rejecting [1] .reConnectRedis ⟨none, (), 0⟩
  exact (RedisConn.reConnectRedis_ends (by decide) ht).1 (rejects_rejecting [1] fuel)

end BcmServer.Redis
