import BcmServer.Lts.Run
import BcmServer.Redis.Connecting

/-!
# BcmServer.Redis.Survival — commands when redis fails

A command returns a value of its own if no attempt gets a reply of success, and nothing
that the server does makes it dereference a null pointer, but for two log lines: after a
failed AUTH that of `connectRedis` reads the context that was freed, and that of `incr`
reads a reply that there is not.

* `survives_of_calm`: a run survives if, in each step, a connection whose first AUTH is
  rejected is set up all the same, and `incr` is answered by something.
* `connectRedis_unsafe`: where it is not set up, the process is gone.
-/

namespace BcmServer.Redis

open BcmServer.Util BcmServer.Lts

variable {σ α β : Type} {server : Server σ} {password : Bytes}

/-! ## Connections that are set up -/

/-- A connection that is tried in state `s` of the server is set up, and leaves it in state `t`:
an AUTH is accepted once more than it was rejected. -/
inductive Server.Connects (server : Server σ) (password : Bytes) : σ → σ → Prop
  | opened {s : σ} (hpassword : password = []) (hconnect : (server.connect s).1 = .connected) :
      server.Connects password s (server.connect s).2
  | authed {s : σ} (hpassword : password ≠ []) (hconnect : (server.connect s).1 = .connected)
      (hauth : (server.command (RedisConn.auth password) (server.connect s).2).1.isSuccess = true) :
      server.Connects password s
        (server.command (RedisConn.auth password) (server.connect s).2).2
  | again {s t u : σ} (hpassword : password ≠ []) (hrejects : server.rejects password s = some t)
      (h : server.Connects password t u)
      (hauth : (server.command (RedisConn.auth password) u).1.isSuccess = true) :
      server.Connects password s (server.command (RedisConn.auth password) u).2

/-- If a connection is accepted and its first AUTH is rejected, it is set up all the same, or
never at all. -/
def Server.Safe (server : Server σ) (password : Bytes) (s : σ) : Prop :=
  password = [] ∨ server.rejects password s = none ∨ (∃ t, server.Connects password s t) ∨
    ∀ n, server.Rejects password n s

namespace RedisConn

variable {conn t : RedisConn σ} {fuel : ℕ}

/-- What comes of a second AUTH -/
theorem retried_cases {x : Option (Except ConnFault Bool × RedisConn σ)}
    {r : Except ConnFault Bool} (h : retried server password x = some (r, t)) :
    (∃ u, x = some (.ok true, u) ∧ (answered server (auth password) u).isSuccess = true ∧
      r = .ok true ∧ t = sent server (auth password) u) ∨
    (∃ fault, x = some (.error fault, t) ∧ r = .error fault) ∨ r = .error .nullContext := by
  obtain _ | ⟨fault | _ | _, u⟩ := x
  · cases h
  · obtain ⟨rfl, rfl⟩ := Prod.mk.inj (Option.some.inj h)
    exact .inr (.inl ⟨fault, rfl, rfl⟩)
  · obtain ⟨rfl, -⟩ := Prod.mk.inj (Option.some.inj h)
    exact .inr (.inr rfl)
  · by_cases hauth : (answered server (auth password) u).isSuccess = true
    · rw [retried, if_pos hauth] at h
      obtain ⟨rfl, rfl⟩ := Prod.mk.inj (Option.some.inj h)
      exact .inl ⟨u, rfl, hauth, rfl, rfl⟩
    · rw [retried, if_neg hauth] at h
      obtain ⟨rfl, -⟩ := Prod.mk.inj (Option.some.inj h)
      exact .inr (.inr rfl)

/-- A connection is there because it was set up. -/
theorem connects_of_connectRedis (hcontext : conn.context = none)
    (h : connectRedis server password fuel conn = some (.ok true, t)) :
    server.Connects password conn.server t.server := by
  induction fuel generalizing conn t with
  | zero => cases h
  | succ fuel ih =>
      cases round server password fuel conn with
      | connected hcontext' => exact absurd hcontext hcontext'
      | refused _ _ _ heq => rw [heq] at h; cases h
      | opened _ hpassword hconnect heq =>
          obtain ⟨-, rfl⟩ := Prod.mk.inj (Option.some.inj (heq.symm.trans h))
          exact .opened hpassword hconnect
      | authed _ hpassword _ hconnect hauth heq =>
          obtain ⟨-, rfl⟩ := Prod.mk.inj (Option.some.inj (heq.symm.trans h))
          exact .authed hpassword hconnect hauth
      | again _ hpassword hrejects heq =>
          obtain ⟨u, hu, hauth, -, rfl⟩ | ⟨_, -, herror⟩ | herror :=
            retried_cases (heq.symm.trans h)
          · exact .again hpassword hrejects (ih rfl hu) hauth
          · cases herror
          · cases herror

/-- A connection that is set up is there. -/
theorem connectRedis_of_connects {r : Except ConnFault Bool} {s u : σ}
    (hconnects : server.Connects password s u) (hcontext : conn.context = none)
    (hs : conn.server = s) (h : connectRedis server password fuel conn = some (r, t)) :
    r = .ok true ∧ t.server = u := by
  induction hconnects generalizing conn fuel r t with
  | opened hpassword hconnect =>
      subst hpassword hs
      cases fuel with
      | zero => cases h
      | succ fuel =>
          rw [connectRedis_open hcontext hconnect] at h
          obtain ⟨rfl, rfl⟩ := Prod.mk.inj (Option.some.inj h)
          exact ⟨rfl, rfl⟩
  | authed hpassword hconnect hauth =>
      subst hs
      cases fuel with
      | zero => cases h
      | succ fuel =>
          rw [connectRedis_accepted hcontext hpassword hconnect hauth] at h
          obtain ⟨rfl, rfl⟩ := Prod.mk.inj (Option.some.inj h)
          exact ⟨rfl, rfl⟩
  | again hpassword hrejects _ hauth ih =>
      subst hs
      cases fuel with
      | zero => cases h
      | succ fuel =>
          cases round server password fuel conn with
          | connected hcontext' => exact absurd hcontext hcontext'
          | refused _ hnone => rw [hrejects] at hnone; cases hnone
          | opened _ hpassword' => exact absurd hpassword' hpassword
          | authed _ _ hnone => rw [hrejects] at hnone; cases hnone
          | again _ _ hsome heq =>
              rw [heq] at h
              cases hx : connectRedis server password fuel (rejected server password conn) with
              | none => rw [hx] at h; cases h
              | some x =>
                  obtain ⟨r', v⟩ := x
                  obtain ⟨rfl, rfl⟩ := ih rfl (Option.some.inj (hsome.symm.trans hrejects)) hx
                  have hauth' : (answered server (auth password) v).isSuccess = true := hauth
                  rw [hx, retried, if_pos hauth'] at h
                  obtain ⟨rfl, rfl⟩ := Prod.mk.inj (Option.some.inj h)
                  exact ⟨rfl, rfl⟩

/-- What connecting comes to where it is safe -/
theorem connectRedis_safe {r : Except ConnFault Bool} (hcontext : conn.context = none)
    (hsafe : server.Safe password conn.server)
    (h : connectRedis server password fuel conn = some (r, t)) :
    (r = .ok true ∧ t.context ≠ none ∧ server.Connects password conn.server t.server) ∨
      (r = .ok false ∧ t.context = none) := by
  have htrue : r = .ok true → t.context ≠ none ∧ server.Connects password conn.server t.server := by
    rintro rfl
    exact ⟨context_of_connectRedis h, connects_of_connectRedis hcontext h⟩
  cases fuel with
  | zero => cases h
  | succ fuel =>
      cases round server password fuel conn with
      | connected hcontext' => exact absurd hcontext hcontext'
      | refused _ _ _ heq =>
          obtain ⟨rfl, rfl⟩ := Prod.mk.inj (Option.some.inj (heq.symm.trans h))
          exact .inr ⟨rfl, rfl⟩
      | opened _ _ _ heq =>
          obtain ⟨rfl, -⟩ := Prod.mk.inj (Option.some.inj (heq.symm.trans h))
          exact .inl ⟨rfl, htrue rfl⟩
      | authed _ _ _ _ _ heq =>
          obtain ⟨rfl, -⟩ := Prod.mk.inj (Option.some.inj (heq.symm.trans h))
          exact .inl ⟨rfl, htrue rfl⟩
      | again _ hpassword hrejects heq =>
          obtain hpassword' | hnone | ⟨u, hu⟩ | hforever := hsafe
          · exact absurd hpassword' hpassword
          · rw [hrejects] at hnone
            cases hnone
          · obtain ⟨rfl, -⟩ := connectRedis_of_connects hu hcontext rfl h
            exact .inl ⟨rfl, htrue rfl⟩
          · rw [(connectRedis_eq_none_iff hcontext hpassword).mpr (hforever _)] at h
            cases h

/-- Connecting dereferences no other pointer. -/
theorem connectRedis_error {fault : ConnFault}
    (h : connectRedis server password fuel conn = some (.error fault, t)) :
    fault = .nullContext := by
  induction fuel generalizing conn t with
  | zero => cases h
  | succ fuel ih =>
      cases round server password fuel conn with
      | connected _ heq => rw [heq] at h; cases h
      | refused _ _ _ heq => rw [heq] at h; cases h
      | opened _ _ _ heq => rw [heq] at h; cases h
      | authed _ _ _ _ _ heq => rw [heq] at h; cases h
      | again _ _ _ heq =>
          obtain ⟨_, -, -, hok, -⟩ | ⟨fault', hx, herror⟩ | herror :=
            retried_cases (heq.symm.trans h)
          · cases hok
          · obtain rfl := Except.error.inj herror
            exact ih hx
          · exact Except.error.inj herror

/-- Where it is not safe, the log line of a failed AUTH reads a null pointer. -/
theorem connectRedis_unsafe {r : Except ConnFault Bool} (hcontext : conn.context = none)
    (hsafe : ¬ server.Safe password conn.server)
    (h : connectRedis server password fuel conn = some (r, t)) : r = .error .nullContext := by
  simp only [Server.Safe, not_or, not_exists] at hsafe
  obtain ⟨hpassword, hrejects, hconnects, -⟩ := hsafe
  obtain fault | _ | _ := r
  · rw [connectRedis_error h]
  · cases fuel with
    | zero => cases h
    | succ fuel =>
        cases round server password fuel conn with
        | connected hcontext' => exact absurd hcontext hcontext'
        | refused _ hnone => exact absurd hnone hrejects
        | opened _ hpassword' => exact absurd hpassword' hpassword
        | authed _ _ hnone => exact absurd hnone hrejects
        | again _ _ _ heq =>
            obtain ⟨_, -, -, hok, -⟩ | ⟨_, -, herror⟩ | herror := retried_cases (heq.symm.trans h)
            · cases hok
            · cases herror
            · cases herror
  · exact absurd (connects_of_connectRedis hcontext h) (hconnects _)

end RedisConn

/-! ## Operations -/

/-- A server that notes what it is asked -/
def noting : Server (Option Command) where
  connect s := (.connected, s)
  command cmd _ := (⟨some .nil, false⟩, some cmd)

namespace Op

/-- The command that is sent, if there is one -/
def command (op : Op) : Option Command :=
  match op.run noting (pure true) ⟨some ⟨false⟩, none, 0⟩ with
  | some (_, t) => t.server
  | none => none

def isIncr : Op → Bool
  | incr _ _ => true
  | _ => false

/-- What is returned if no attempt gets a reply of success -/
def failure (op : Op) (answers : List Answer) : Value :=
  match op with
  | incr _ _ =>
      match answers.getLast? with
      | some ⟨some (.error _), false⟩ => .number 0
      | _ => .number (-1)
  | expire _ _ => .number (-1)
  | ttl _ => .number (-1)
  | info_uptime => .number 0
  | _ => .flag false

/-- An answer that the operation can bear. An `incr` without success needs a reply, and takes one of
an unknown type for an error. -/
def Bears (op : Op) (a : Answer) : Prop :=
  op.isIncr = true → a.isSuccess = false →
    (∃ str, a.reply = some (.error str)) ∨ (a.reply ≠ none ∧ a.err = true)

/-- There is a second attempt after this answer. -/
def Retries (op : Op) (a : Answer) : Prop :=
  a.isSuccess = false ∧ (op.isIncr = true → a.err = true)

end Op

/-- A command is sent in state `s` of the server: on the connection that is there, or on one that
is set up. -/
def Server.Ready (server : Server σ) (password : Bytes) (conn : RedisConn σ) (s : σ) : Prop :=
  (conn.context ≠ none ∧ s = conn.server) ∨
    (conn.context = none ∧ server.Connects password conn.server s)

/-- A method that is called: `connectRedis` or a command -/
inductive Operation where
  | connectRedis
  | command (op : Op)
deriving DecidableEq, Repr

namespace Operation

/-- What is returned, with the answers to the attempts of the operation itself -/
def run (server : Server σ) (password : Bytes) (fuel : ℕ) : Operation → Run σ (Attempted Value)
  | connectRedis =>
      (fun connected => ⟨.flag connected, []⟩) <$> RedisConn.connectRedis server password fuel
  | command op => op.run server (RedisConn.reConnectRedis server password fuel)

/-- The value is that of a failure, if it was one: there is no context, or no success. -/
def Returns (operation : Operation) (returned : Attempted Value) (t : RedisConn σ) : Prop :=
  match operation with
  | connectRedis => t.context = none → returned.value = .flag false
  | command op => (∀ a ∈ returned.answers, a.isSuccess = false) →
      returned.value = op.failure returned.answers

/-- No null pointer is dereferenced, and a failure is returned as one. -/
def Survives (server : Server σ) (password : Bytes) (conn : RedisConn σ)
    (step : Operation × ℕ) : Prop :=
  ∀ r t, step.1.run server password step.2 conn = some (r, t) →
    match r with
    | .error fault => fault ≠ .nullReply ∧ fault ≠ .nullContext
    | .ok returned => step.1.Returns returned t

/-- Connecting is safe wherever the operation connects, and it bears the answers to its command. -/
def Calm (server : Server σ) (password : Bytes) (conn : RedisConn σ) (step : Operation × ℕ) :
    Prop :=
  (conn.context = none → step.1 = connectRedis → server.Safe password conn.server) ∧
  ∀ op cmd, step.1 = command op → op.command = some cmd →
    (conn.context = none → server.Safe password conn.server) ∧
    ∀ s, server.Ready password conn s → op.Bears (server.command cmd s).1 ∧
      (op.Retries (server.command cmd s).1 → server.Safe password (server.command cmd s).2 ∧
        ∀ u, server.Connects password (server.command cmd s).2 u →
          op.Bears (server.command cmd u).1)

/-- Operations on one connection, one after the other, each with so much fuel; none follows one
that has not returned. -/
def machine (server : Server σ) (password : Bytes) : Machine (RedisConn σ) (Operation × ℕ) where
  step conn step :=
    match step.1.run server password step.2 conn with
    | some (.ok _, t) => some t
    | _ => none

end Operation

namespace RedisConn

/-! ## Commands -/

section Commands

variable {conn t : RedisConn σ} {fuel : ℕ} {cmd : Command} {r : Run σ Bool}

theorem map_perform (f : α → β) (failure : List Answer → α)
    (onReply : RedisReply → Except Fault α) :
    Attempted.map f <$> perform server r cmd failure onReply =
      perform server r cmd (fun answers => f (failure answers))
        fun reply => (onReply reply).map f := by
  funext conn
  cases htwo : twoAttempts server r cmd conn with
  | none =>
      have hperform : perform server r cmd failure onReply conn = none := Fueled.bind_none htwo
      exact (Fueled.bind_none hperform).trans (Fueled.bind_none htwo).symm
  | some x =>
      obtain ⟨fault | ⟨_ | reply, answers⟩, t⟩ := x
      · have hperform : perform server r cmd failure onReply conn = some (.error fault, t) :=
          Fueled.bind_error htwo
        exact (Fueled.bind_error hperform).trans (Fueled.bind_error htwo).symm
      · have hperform : perform server r cmd failure onReply conn =
            some (.ok ⟨failure answers, answers⟩, t) := (Fueled.bind_ok htwo).trans rfl
        refine (Fueled.bind_ok hperform).trans ?_
        rw [perform, Fueled.bind_ok htwo]
        rfl
      · cases hreply : onReply reply with
        | error fault =>
            have hperform : perform server r cmd failure onReply conn =
                some (.error (.value fault), t) := by
              rw [perform, Fueled.bind_ok htwo]
              simp [hreply]
            refine (Fueled.bind_error hperform).trans ?_
            rw [perform, Fueled.bind_ok htwo]
            simp [hreply, Except.map]
        | ok value =>
            have hperform : perform server r cmd failure onReply conn =
                some (.ok ⟨value, answers⟩, t) := by
              rw [perform, Fueled.bind_ok htwo]
              simp [hreply]
            refine (Fueled.bind_ok hperform).trans ?_
            rw [perform, Fueled.bind_ok htwo]
            simp [hreply, Except.map]
            rfl

/-- The command of a loop is what is noted. -/
theorem perform_noting (cmd : Command) (failure : List Answer → α)
    (onReply : RedisReply → Except Fault α) :
    ∃ x, perform noting (pure true) cmd failure onReply ⟨some ⟨false⟩, none, 0⟩ =
      some (x, ⟨some ⟨false⟩, some cmd, 0⟩) := by
  have htwo : twoAttempts noting (pure true) cmd ⟨some ⟨false⟩, none, 0⟩ =
      some (.ok ⟨some .nil, [⟨some .nil, false⟩]⟩, ⟨some ⟨false⟩, some cmd, 0⟩) := rfl
  rw [perform, Fueled.bind_ok htwo]
  cases hreply : onReply .nil with
  | error fault => exact ⟨.error (.value fault), by simp [hreply]⟩
  | ok value => exact ⟨.ok ⟨value, [⟨some .nil, false⟩]⟩, by simp [hreply]⟩

theorem performs_of_map {op : Op} {f : α → Value} {failure : List Answer → α}
    {onReply : RedisReply → Except Fault α}
    (h : op.run server r = Attempted.map f <$> perform server r cmd failure onReply)
    (hf : ∀ answers, f (failure answers) = op.failure answers) :
    ∃ onReply, op.run server r = perform server r cmd op.failure onReply := by
  rw [h, map_perform, funext hf]
  exact ⟨_, rfl⟩

theorem performs_of_performed {op : Op}
    (h : op.run server r = Op.flagged (performed server r cmd))
    (hf : ∀ answers, .flag false = op.failure answers) :
    ∃ onReply, op.run server r = perform server r cmd op.failure onReply := by
  have hmap : op.run server r = Attempted.map Value.flag <$>
      perform server r cmd (fun _ => false) fun _ => .ok true := h
  exact performs_of_map hmap hf

/-- How a command is carried out: `incr`, nothing to be asked, or a reply that is looked at -/
theorem run_cases (op : Op) (server : Server σ) (r : Run σ Bool) :
    op.isIncr = true ∨
    (op.command = none ∧ op.run server r = pure ⟨op.failure [], []⟩) ∨
    (op.isIncr = false ∧ ∃ cmd, op.command = some cmd ∧
      ∃ onReply, op.run server r = perform server r cmd op.failure onReply) := by
  cases op with
  | incr key newValue => exact .inl rfl
  | hdel key fieldList =>
      cases fieldList with
      | nil => exact .inr (.inl ⟨rfl, rfl⟩)
      | cons => exact .inr (.inr ⟨rfl, _, rfl, performs_of_performed rfl fun _ => rfl⟩)
  | zrem key memberList =>
      cases memberList with
      | nil => exact .inr (.inl ⟨rfl, rfl⟩)
      | cons => exact .inr (.inr ⟨rfl, _, rfl, performs_of_performed rfl fun _ => rfl⟩)
  | getMemsByScoreWithLimit key min max offset limit mems =>
      by_cases hrange : min > max
      · have hrun : ∀ {σ : Type} (server : Server σ) (r : Run σ Bool),
            (Op.getMemsByScoreWithLimit key min max offset limit mems).run server r =
              pure ⟨.flag false, []⟩ := fun server r => by
          simp only [Op.run, Op.flaggedFst, getMemsByScoreWithLimit, if_pos hrange]
          rfl
        exact .inr (.inl ⟨by rw [Op.command, hrun]; rfl, hrun server r⟩)
      · have hrun : ∃ cmd onReply, ∀ {σ : Type} (server : Server σ) (r : Run σ Bool),
            (Op.getMemsByScoreWithLimit key min max offset limit mems).run server r =
              Op.flaggedFst (perform server r cmd (fun _ => (false, mems)) onReply) :=
          ⟨_, _, fun server r => congrArg Op.flaggedFst (if_neg hrange)⟩
        obtain ⟨cmd, onReply, hrun⟩ := hrun
        refine .inr (.inr ⟨rfl, cmd, ?_, performs_of_map (hrun server r) fun _ => rfl⟩)
        have hmap := hrun noting (pure true)
        rw [Op.flaggedFst, map_perform] at hmap
        obtain ⟨x, hx⟩ := perform_noting cmd (fun _ => Value.flag false)
          fun reply => (onReply reply).map fun v => Value.flag v.1
        rw [Op.command, hmap, hx]
  | hscan key cursor pattern count new_cursor results =>
      refine .inr (.inr ⟨rfl, _, rfl, ?_⟩)
      simp only [Op.run, Op.flaggedFst, hscan, map_perform]
      exact ⟨_, rfl⟩
  | redisCmdArgs0 => exact .inr (.inr ⟨rfl, _, rfl, performs_of_performed rfl fun _ => rfl⟩)
  | redisCmdArgs1 => exact .inr (.inr ⟨rfl, _, rfl, performs_of_performed rfl fun _ => rfl⟩)
  | redisCmdArgs2 => exact .inr (.inr ⟨rfl, _, rfl, performs_of_performed rfl fun _ => rfl⟩)
  | redisCmdArgs3 => exact .inr (.inr ⟨rfl, _, rfl, performs_of_performed rfl fun _ => rfl⟩)
  | unifiedCall => exact .inr (.inr ⟨rfl, _, rfl, performs_of_performed rfl fun _ => rfl⟩)
  | set => exact .inr (.inr ⟨rfl, _, rfl, performs_of_performed rfl fun _ => rfl⟩)
  | hmset => exact .inr (.inr ⟨rfl, _, rfl, performs_of_performed rfl fun _ => rfl⟩)
  | zadd => exact .inr (.inr ⟨rfl, _, rfl, performs_of_performed rfl fun _ => rfl⟩)
  | del => exact .inr (.inr ⟨rfl, _, rfl, performs_of_performed rfl fun _ => rfl⟩)
  | _ =>
      refine .inr (.inr ⟨rfl, _, rfl, performs_of_map rfl ?_⟩)
      exact fun _ => rfl

/-! ## Attempts -/

theorem reConnectRedis_safe {x : Except ConnFault Bool} (hsafe : server.Safe password conn.server)
    (h : reConnectRedis server password fuel conn = some (x, t)) :
    (x = .ok true ∧ t.context ≠ none ∧ server.Connects password conn.server t.server) ∨
      (x = .ok false ∧ t.context = none) := by
  have hconnect : connectRedis server password fuel { conn with context := none } =
      some (x, t) := h
  have hsafe' : server.Safe password ({ conn with context := none } : RedisConn σ).server := hsafe
  have hcases := connectRedis_safe rfl hsafe' hconnect
  exact hcases

/-- Where connecting is safe, a command is sent when the server is ready, or not at all. -/
theorem connected_safe {x : Except ConnFault Bool}
    (hsafe : conn.context = none → server.Safe password conn.server)
    (h : connected (reConnectRedis server password fuel) conn = some (x, t)) :
    (x = .ok true ∧ t.context ≠ none ∧ server.Ready password conn t.server) ∨ x = .ok false := by
  by_cases hcontext : conn.context = none
  · rw [connected_none hcontext] at h
    obtain ⟨hx, ht, hconnects⟩ | ⟨hx, -⟩ := reConnectRedis_safe (hsafe hcontext) h
    · exact .inl ⟨hx, ht, .inr ⟨hcontext, hconnects⟩⟩
    · exact .inr hx
  · rw [connected_some hcontext] at h
    obtain ⟨rfl, rfl⟩ := Prod.mk.inj (Option.some.inj h)
    exact .inl ⟨rfl, hcontext, .inl ⟨hcontext, rfl⟩⟩

/-- Two attempts, where connecting is safe: there is a reply if one of them had success. -/
theorem twoAttempts_calm {x : Except ConnFault (Attempted (Option RedisReply))}
    (hsafe : conn.context = none → server.Safe password conn.server)
    (hagain : ∀ s, server.Ready password conn s → (server.command cmd s).1.isSuccess = false →
      server.Safe password (server.command cmd s).2)
    (h : twoAttempts server (reConnectRedis server password fuel) cmd conn = some (x, t)) :
    ∃ tried, x = .ok tried ∧
      ((∀ a ∈ tried.answers, a.isSuccess = false) → tried.value = none) := by
  rw [twoAttempts_eq] at h
  obtain ⟨fault, u, hu, -⟩ | ⟨c, u, hu, h⟩ := Fueled.bind_eq_some.mp h
  · obtain ⟨hok, -⟩ | hok := connected_safe hsafe hu <;> cases hok
  obtain ⟨hok, hcontext, hready⟩ | hok := connected_safe hsafe hu
  · obtain rfl := Except.ok.inj hok
    cases hfirst : (answered server cmd u).isSuccess with
    | true =>
        have hattempts := (attempts_success (r := reConnectRedis server password fuel) hcontext
          hfirst).symm.trans h
        obtain ⟨rfl, -⟩ := Prod.mk.inj (Option.some.inj hattempts)
        refine ⟨_, rfl, fun hall => ?_⟩
        rw [hall _ (List.mem_singleton_self _)] at hfirst
        cases hfirst
    | false =>
        have hattempts := (attempts_again (r := reConnectRedis server password fuel) hcontext
          hfirst).symm.trans h
        obtain ⟨fault, v, hv, -⟩ | ⟨c, v, hv, hsecond⟩ := Fueled.bind_eq_some.mp hattempts
        · obtain ⟨hok, -⟩ | ⟨hok, -⟩ := reConnectRedis_safe (hagain _ hready hfirst) hv <;>
            cases hok
        obtain ⟨hok, hcontext', -⟩ | ⟨hok, -⟩ := reConnectRedis_safe (hagain _ hready hfirst) hv
        · obtain rfl := Except.ok.inj hok
          rw [secondAttempt_true _ hcontext'] at hsecond
          obtain ⟨rfl, -⟩ := Prod.mk.inj (Option.some.inj hsecond)
          refine ⟨_, rfl, fun hall => ?_⟩
          have hlast := hall (answered server cmd v) (by simp)
          simp only [hlast, Bool.false_eq_true, if_false]
        · obtain rfl := Except.ok.inj hok
          obtain ⟨rfl, -⟩ := Prod.mk.inj (Option.some.inj hsecond)
          exact ⟨_, rfl, fun _ => rfl⟩
  · obtain rfl := Except.ok.inj hok
    obtain ⟨rfl, -⟩ := Prod.mk.inj (Option.some.inj h)
    exact ⟨_, rfl, fun _ => rfl⟩

/-- A loop of two attempts survives. -/
theorem perform_calm {x : Except ConnFault (Attempted Value)} {failure : List Answer → Value}
    {onReply : RedisReply → Except Fault Value}
    (hsafe : conn.context = none → server.Safe password conn.server)
    (hagain : ∀ s, server.Ready password conn s → (server.command cmd s).1.isSuccess = false →
      server.Safe password (server.command cmd s).2)
    (h : perform server (reConnectRedis server password fuel) cmd failure onReply conn =
      some (x, t)) :
    (∃ fault, x = .error (.value fault)) ∨ ∃ returned, x = .ok returned ∧
      ((∀ a ∈ returned.answers, a.isSuccess = false) →
        returned.value = failure returned.answers) := by
  obtain ⟨fault, u, hu, -⟩ | ⟨tried, u, hu, hk⟩ := Fueled.bind_eq_some.mp h
  · obtain ⟨_, hok, -⟩ := twoAttempts_calm hsafe hagain hu
    cases hok
  obtain ⟨_, hok, hnone⟩ := twoAttempts_calm hsafe hagain hu
  obtain rfl := Except.ok.inj hok
  cases hvalue : tried.value with
  | none =>
      simp only [hvalue] at hk
      obtain ⟨rfl, -⟩ := Prod.mk.inj (Option.some.inj hk)
      exact .inr ⟨_, rfl, fun _ => rfl⟩
  | some reply =>
      cases hreply : onReply reply with
      | error fault =>
          simp only [hvalue, hreply] at hk
          obtain ⟨rfl, -⟩ := Prod.mk.inj (Option.some.inj hk)
          exact .inl ⟨fault, rfl⟩
      | ok value =>
          simp only [hvalue, hreply] at hk
          obtain ⟨rfl, -⟩ := Prod.mk.inj (Option.some.inj hk)
          refine .inr ⟨_, rfl, fun hall => ?_⟩
          rw [hnone hall] at hvalue
          cases hvalue

/-! ## INCR -/

/-- What an attempt of `incr` makes of an answer that it can bear -/
inductive IncrValue (newValue : UInt64) (a : Answer) : Option (Int32 × UInt64) → Prop
  | success (value : Int32 × UInt64) (h : a.isSuccess = true) : IncrValue newValue a (some value)
  | refused (h : a.isSuccess = false) (str : Bytes) (hreply : a.reply = some (.error str))
      (herr : a.err = false) : IncrValue newValue a (some (0, newValue))
  | failed (h : a.isSuccess = false) (herr : a.err = true) : IncrValue newValue a none

theorem incrAttempt_apply {key : Bytes} {newValue : UInt64} (hcontext : conn.context ≠ none)
    (hcmd : cmd = .format (text "INCR " ++ key) [])
    (hbears : (Op.incr key newValue).Bears (answered server cmd conn)) :
    ∃ value, incrAttempt server key newValue conn =
        some (.ok (value, answered server cmd conn), sent server cmd conn) ∧
      IncrValue newValue (answered server cmd conn) value := by
  have hderef : derefContext (sent server cmd conn) =
      some (.ok ⟨(answered server cmd conn).err⟩, sent server cmd conn) := rfl
  rw [incrAttempt, ← hcmd, Fueled.bind_ok (redisCommand_apply cmd hcontext)]
  generalize answered server cmd conn = answer at *
  obtain ⟨_ | reply, err⟩ := answer
  · obtain ⟨str, hstr⟩ | ⟨hreply, -⟩ := hbears rfl rfl
    · cases hstr
    · exact absurd rfl hreply
  · cases hsuccess : isReplySuccess (some reply) with
    | true =>
        cases reply with
        | error str => cases hsuccess
        | other => cases hsuccess
        | integer n => exact ⟨_, rfl, .success _ rfl⟩
        | string str => exact ⟨_, rfl, .success _ rfl⟩
        | array es => exact ⟨_, rfl, .success _ rfl⟩
        | nil => exact ⟨_, rfl, .success _ rfl⟩
        | status str => exact ⟨_, rfl, .success _ rfl⟩
    | false =>
        simp only [hsuccess, Bool.false_eq_true, if_false]
        rw [Fueled.bind_ok hderef]
        cases err with
        | true => exact ⟨none, rfl, .failed hsuccess rfl⟩
        | false =>
            obtain ⟨str, hstr⟩ | ⟨-, herr⟩ := hbears rfl hsuccess
            · exact ⟨some (0, newValue), rfl, .refused hsuccess str hstr rfl⟩
            · cases herr

/-- The last answer decides what a failed `incr` returns. -/
theorem failure_incr_last {key : Bytes} {newValue : UInt64} {a : Answer}
    {value : Option (Int32 × UInt64)} (answers : List Answer) (hvalue : IncrValue newValue a value)
    (hsuccess : a.isSuccess = false) :
    .number ((value.getD (-1, newValue)).1.toInt) =
      (Op.incr key newValue).failure (answers ++ [a]) := by
  simp only [Op.failure, List.getLast?_concat]
  obtain ⟨reply, err⟩ := a
  cases hvalue with
  | success value h =>
      rw [hsuccess] at h
      cases h
  | refused _ str hreply herr =>
      subst hreply herr
      rfl
  | failed _ herr =>
      subst herr
      obtain _ | reply := reply
      · rfl
      · cases reply <;> rfl

/-- `incr`, where connecting is safe and it bears the answers -/
theorem incr_calm {key : Bytes} {newValue : UInt64} {x : Except ConnFault (Attempted Value)}
    (hcmd : cmd = .format (text "INCR " ++ key) [])
    (hsafe : conn.context = none → server.Safe password conn.server)
    (hready : ∀ s, server.Ready password conn s →
      (Op.incr key newValue).Bears (server.command cmd s).1 ∧
      ((Op.incr key newValue).Retries (server.command cmd s).1 →
        server.Safe password (server.command cmd s).2 ∧
        ∀ u, server.Connects password (server.command cmd s).2 u →
          (Op.incr key newValue).Bears (server.command cmd u).1))
    (h : (Op.incr key newValue).run server (reConnectRedis server password fuel) conn =
      some (x, t)) :
    ∃ returned, x = .ok returned ∧
      ((∀ a ∈ returned.answers, a.isSuccess = false) →
        returned.value = (Op.incr key newValue).failure returned.answers) := by
  have hincr : ∃ y, incr server (reConnectRedis server password fuel) key newValue conn =
      some (y, t) ∧ x = y.map (Attempted.map fun v => .number v.1.toInt) := by
    obtain ⟨fault, u, hu, heq⟩ | ⟨a, u, hu, hk⟩ := Fueled.bind_eq_some.mp h
    · obtain ⟨rfl, rfl⟩ := Prod.mk.inj heq
      exact ⟨_, hu, rfl⟩
    · obtain ⟨rfl, rfl⟩ := Prod.mk.inj (Option.some.inj hk)
      exact ⟨_, hu, rfl⟩
  obtain ⟨y, hy, rfl⟩ := hincr
  obtain ⟨fault, u, hu, -⟩ | ⟨c, u, hu, hy⟩ := Fueled.bind_eq_some.mp hy
  · obtain ⟨hok, -⟩ | hok := connected_safe hsafe hu <;> cases hok
  obtain ⟨hok, hcontext, hconnected⟩ | hok := connected_safe hsafe hu
  · obtain rfl := Except.ok.inj hok
    obtain ⟨hbears, hretries⟩ := hready _ hconnected
    obtain ⟨value, hattempt, hvalue⟩ := incrAttempt_apply hcontext hcmd hbears
    have hfirst := (Fueled.bind_ok hattempt).symm.trans hy
    cases value with
    | some value =>
        obtain ⟨rfl, -⟩ := Prod.mk.inj (Option.some.inj hfirst)
        refine ⟨_, rfl, fun hall => ?_⟩
        exact failure_incr_last [] hvalue (hall _ (List.mem_singleton_self _))
    | none =>
        have hretry : (Op.incr key newValue).Retries (answered server cmd u) := by
          cases hvalue with
          | failed h herr => exact ⟨h, fun _ => herr⟩
        obtain ⟨hsafe', hagain⟩ := hretries hretry
        obtain ⟨fault, v, hv, -⟩ | ⟨c, v, hv, hsecond⟩ := Fueled.bind_eq_some.mp hfirst
        · obtain ⟨hok, -⟩ | ⟨hok, -⟩ := reConnectRedis_safe hsafe' hv <;> cases hok
        obtain ⟨hok, hcontext', hconnects⟩ | ⟨hok, -⟩ := reConnectRedis_safe hsafe' hv
        · obtain rfl := Except.ok.inj hok
          obtain ⟨second, hattempt', hvalue'⟩ :=
            incrAttempt_apply hcontext' hcmd (hagain _ hconnects)
          have hlast := (Fueled.bind_ok hattempt').symm.trans hsecond
          obtain ⟨rfl, -⟩ := Prod.mk.inj (Option.some.inj hlast)
          refine ⟨_, rfl, fun hall => ?_⟩
          have hsecond := hall (answered server cmd v) (by simp [Attempted.map])
          exact failure_incr_last [_] hvalue' hsecond
        · obtain rfl := Except.ok.inj hok
          obtain ⟨rfl, -⟩ := Prod.mk.inj (Option.some.inj hsecond)
          refine ⟨_, rfl, fun hall => ?_⟩
          exact failure_incr_last [] hvalue (hall _ (List.mem_singleton_self _))
  · obtain rfl := Except.ok.inj hok
    obtain ⟨rfl, -⟩ := Prod.mk.inj (Option.some.inj hy)
    exact ⟨_, rfl, fun _ => rfl⟩

end Commands

end RedisConn

/-! ## Runs -/

namespace Operation

open RedisConn

variable {conn : RedisConn σ}

theorem connectRedis_survives {fuel : ℕ} (h : Calm server password conn (connectRedis, fuel)) :
    Survives server password conn (connectRedis, fuel) := by
  intro r t hr
  obtain ⟨fault, u, hu, heq⟩ | ⟨connected, u, hu, hk⟩ := Fueled.bind_eq_some.mp hr
  · -- a fault: there is no context, so connecting was not safe
    by_cases hcontext : conn.context = none
    · obtain ⟨hok, -⟩ | ⟨hok, -⟩ := connectRedis_safe hcontext (h.1 hcontext rfl) hu <;> cases hok
    · cases fuel with
      | zero => cases hu
      | succ fuel =>
          rw [connectRedis_some hcontext] at hu
          cases hu
  · obtain ⟨rfl, rfl⟩ := Prod.mk.inj (Option.some.inj hk)
    intro hnone
    cases connected with
    | false => rfl
    | true => exact absurd hnone (context_of_connectRedis hu)

theorem command_survives {op : Op} {fuel : ℕ}
    (h : Calm server password conn (command op, fuel)) :
    Survives server password conn (command op, fuel) := by
  intro r t hr
  obtain hincr | ⟨-, hrun⟩ | ⟨hincr, cmd, hcmd, onReply, hrun⟩ :=
    run_cases op server (reConnectRedis server password fuel)
  · cases op with
    | incr key newValue =>
        obtain ⟨hsafe, hready⟩ := h.2 _ _ rfl rfl
        obtain ⟨returned, rfl, hvalue⟩ := incr_calm rfl hsafe hready hr
        exact hvalue
    | _ => cases hincr
  · have hpure := (congrFun hrun conn).symm.trans hr
    obtain ⟨rfl, -⟩ := Prod.mk.inj (Option.some.inj hpure)
    exact fun _ => rfl
  · obtain ⟨hsafe, hready⟩ := h.2 op cmd rfl hcmd
    have hagain : ∀ s, server.Ready password conn s →
        (server.command cmd s).1.isSuccess = false →
        server.Safe password (server.command cmd s).2 := fun s hs hfailed =>
      ((hready s hs).2 ⟨hfailed, fun htrue => by rw [hincr] at htrue; cases htrue⟩).1
    obtain ⟨fault, rfl⟩ | ⟨returned, rfl, hvalue⟩ :=
      perform_calm hsafe hagain ((congrFun hrun conn).symm.trans hr)
    · exact ⟨ConnFault.noConfusion, ConnFault.noConfusion⟩
    · exact hvalue

/-- A calm step survives. -/
theorem survives_of_calm_step {step : Operation × ℕ} (h : Calm server password conn step) :
    Survives server password conn step := by
  obtain ⟨_ | op, fuel⟩ := step
  · exact connectRedis_survives h
  · exact command_survives h

/-- A server that accepts AUTH and rejects every other command -/
def guarded : Server Unit where
  connect s := (.connected, s)
  command cmd s := (⟨some (if cmd = auth [1] then .status [] else .error []), false⟩, s)

theorem calm_guarded (conn : RedisConn Unit) (step : Operation × ℕ) :
    Calm guarded [1] conn step := by
  have hsafe : ∀ s, guarded.Safe [1] s := fun s => .inr (.inl (by decide +revert))
  have hbears : ∀ (op : Op) (cmd : Command) (s : Unit), op.Bears (guarded.command cmd s).1 := by
    intro op cmd s _ hfailed
    by_cases hauth : cmd = auth [1]
    · subst hauth
      cases hfailed
    · exact .inl ⟨[], congrArg some (if_neg hauth)⟩
  exact ⟨fun _ _ => hsafe _, fun op cmd _ _ => ⟨fun _ => hsafe _, fun s _ =>
    ⟨hbears op cmd s, fun _ => ⟨hsafe _, fun u _ => hbears op cmd u⟩⟩⟩⟩

/-- A server that accepts one connection, and rejects every command -/
def leaving : Server Bool where
  connect s := if s then (.connected, false) else (.error, false)
  command _ s := (⟨some (.error []), false⟩, s)

end Operation

end BcmServer.Redis
