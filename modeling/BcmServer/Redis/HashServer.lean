import BcmServer.Redis.Format
import BcmServer.Redis.Survival

/-!
# BcmServer.Redis.HashServer — redis as far as it holds hashes

A `HashServer` answers HMSET, HGET, HMGET and HSCAN as redis does, once hiredis has made
words of them. Anything may be answered to another command, and to one that is undefined.
It can refuse a connection, which changes no hash, and gives the pages of a hash as it
likes, as long as a scan that goes on from `0` comes to `0` again and has shown every field.

Errors of a command on a key that holds no hash are left out: there are only hashes.

* `perform_answered`: a command that is answered is carried out on the connection there is.
* `connected_server`: a connection that is made changes no hash.
-/

namespace BcmServer.Redis

open BcmServer.Util BcmServer.Lts
open RedisConn (text)

/-! ## Commands -/

/-- The hashes of a database; an empty one is one that is not there. -/
abbrev Hashes := Bytes → Table Bytes Bytes

/-- What HSCAN finds in a hash, with options and a cursor: the new cursor and a page -/
abbrev Scan := Table Bytes Bytes → List Bytes → Bytes → Bytes × List (Bytes × Bytes)

/-- Fields with the values that come after them -/
def pairUp : List Bytes → Option (List (Bytes × Bytes))
  | [] => some []
  | [_] => none
  | field :: value :: rest => (pairUp rest).map ((field, value) :: ·)

/-- What is replied for a value -/
def stored : Option Bytes → RedisReply
  | none => .nil
  | some value => .string value

/-- What is replied for a page -/
def pageReply (page : Bytes × List (Bytes × Bytes)) : RedisReply :=
  .array [.string page.1, .array (page.2.flatMap fun e => [.string e.1, .string e.2])]

def wrongArguments : RedisReply := .error (text "ERR wrong number of arguments")

/-- A text of digits -/
def isNumber (s : Bytes) : Bool := !s.isEmpty && s.all isDigit

/-- Options of a scan without a pattern -/
def scanOptions : List Bytes → Bool
  | [] => true
  | [option, count] =>
      option = text "COUNT" && isNumber count && count ≠ text "0"
  | _ => false

/-- What redis replies to a command on hashes, and the hashes afterwards -/
def execute (scan : Scan) (hashes : Hashes) : List Bytes → Option (RedisReply × Hashes)
  | [] => none
  | name :: args =>
      if name = text "HMSET" then
        match args with
        | [] => some (wrongArguments, hashes)
        | key :: rest =>
            match pairUp rest with
            | some (e :: es) =>
                some (.status (text "OK"),
                  Function.update hashes key ((hashes key).insertAll (e :: es)))
            | _ => some (wrongArguments, hashes)
      else if name = text "HGET" then
        match args with
        | [key, field] => some (stored ((hashes key).lookup field), hashes)
        | _ => some (wrongArguments, hashes)
      else if name = text "HMGET" then
        match args with
        | key :: field :: fields =>
            some (.array ((field :: fields).map fun f => stored ((hashes key).lookup f)), hashes)
        | _ => some (wrongArguments, hashes)
      else if name = text "HSCAN" then
        match args with
        | key :: cursor :: options =>
            if isNumber cursor && scanOptions options then
              some (pageReply (scan (hashes key) options cursor), hashes)
            else none
        | _ => some (wrongArguments, hashes)
      else none

/-- The pages of a scan from a cursor on -/
inductive Pages (next : Bytes → Bytes × List (Bytes × Bytes)) :
    Bytes → List (List (Bytes × Bytes)) → Prop
  | last {cursor : Bytes} (h : (next cursor).1 = text "0") :
      Pages next cursor [(next cursor).2]
  | more {cursor : Bytes} {pages : List (List (Bytes × Bytes))}
      (h : (next cursor).1 ≠ text "0") (hpages : Pages next (next cursor).1 pages) :
      Pages next cursor ((next cursor).2 :: pages)

/-- A scan comes to an end, and shows every field with its value at least once, and nothing
else. -/
def FullScan (scan : Scan) (hash : Table Bytes Bytes) (options : List Bytes) : Prop :=
  ∃ pages, Pages (scan hash options) (text "0") pages ∧
    ∀ e : Bytes × Bytes, e ∈ pages.flatten ↔ hash.lookup e.1 = some e.2

/-- A redis server that holds hashes -/
structure HashServer where
  server : Server Hashes
  scan : Scan
  answers : ∀ cmd hashes argv next, cmd.words = some argv →
    execute scan hashes argv = some next →
    server.command cmd hashes = (⟨some next.1, false⟩, next.2)
  connect_eq : ∀ hashes, (server.connect hashes).2 = hashes
  auth_eq : ∀ password hashes, (server.command (RedisConn.auth password) hashes).2 = hashes
  cursors : ∀ hash options cursor, isNumber (scan hash options cursor).1 = true
  fullScan : ∀ hash options, FullScan scan hash options

/-! ## A server that shows a hash at once -/

/-- All of the hash, for every cursor -/
def scanAll : Scan := fun hash _ _ =>
  (text "0", hash.entries.map fun e => (e.1, e.2))

theorem fullScan_scanAll (hash : Table Bytes Bytes) (options : List Bytes) :
    FullScan scanAll hash options := by
  refine ⟨_, Pages.last rfl, fun e => ?_⟩
  simp only [scanAll, List.flatten_cons, List.flatten_nil, List.append_nil, List.mem_map]
  rw [← Option.mem_def, AList.mem_lookup_iff]
  constructor
  · rintro ⟨x, hx, rfl⟩
    exact hx
  · exact fun he => ⟨_, he, rfl⟩

/-- It accepts every connection, and does not answer what it does not understand. -/
def shown : Server Hashes where
  connect hashes := (.connected, hashes)
  command cmd hashes :=
    match cmd.words.bind (execute scanAll hashes) with
    | some (reply, hashes) => (⟨some reply, false⟩, hashes)
    | none => (⟨none, true⟩, hashes)

def HashServer.simple : HashServer where
  server := shown
  scan := scanAll
  answers cmd hashes argv next hwords hnext := by
    simp only [shown, hwords, Option.bind_some, hnext]
  connect_eq _ := rfl
  auth_eq _ _ := rfl
  cursors _ _ _ := rfl
  fullScan := fullScan_scanAll

namespace HashServer

variable {α : Type} {redis : HashServer} {password : Bytes} {conn t : RedisConn Hashes} {fuel : ℕ}
  {r : Run Hashes Bool} {cmd : Command} {failure : List Answer → α}
  {onReply : RedisReply → Except Fault α}

/-! ## Connections -/

theorem rejects_eq {s u : Hashes} (h : redis.server.rejects password s = some u) : u = s := by
  rw [Server.rejects] at h
  split at h
  · dsimp only at h
    split at h
    · cases h
    · rw [← Option.some.inj h, redis.auth_eq, redis.connect_eq]
  · cases h

theorem connects_eq {s u : Hashes} (h : redis.server.Connects password s u) : u = s := by
  induction h with
  | opened => exact redis.connect_eq _
  | authed => rw [redis.auth_eq, redis.connect_eq]
  | again _ hrejects _ _ ih => rw [redis.auth_eq, ih, rejects_eq hrejects]

/-- A command is sent with the hashes as they were. -/
theorem connected_server
    (h : RedisConn.connected (RedisConn.reConnectRedis redis.server password fuel) conn =
      some (.ok true, t)) : t.context ≠ none ∧ t.server = conn.server := by
  by_cases hcontext : conn.context = none
  · rw [RedisConn.connected_none hcontext] at h
    obtain ⟨freed, hfreed, hserver, hconnect⟩ : ∃ freed : RedisConn Hashes,
        freed.context = none ∧ freed.server = conn.server ∧
          RedisConn.connectRedis redis.server password fuel freed = some (.ok true, t) :=
      ⟨{ conn with context := none }, rfl, rfl, h⟩
    have hconnects := connects_eq (RedisConn.connects_of_connectRedis hfreed hconnect)
    exact ⟨RedisConn.context_of_connectRedis hconnect, hconnects.trans hserver⟩
  · rw [RedisConn.connected_some hcontext] at h
    obtain ⟨-, rfl⟩ := Prod.mk.inj (Option.some.inj h)
    exact ⟨hcontext, rfl⟩

/-! ## Commands that are answered -/

/-- The connection after a command that was answered -/
def after (conn : RedisConn Hashes) (hashes : Hashes) : RedisConn Hashes :=
  ⟨some ⟨false⟩, hashes, conn.connects⟩

variable {argv : List Bytes} {reply : RedisReply} {hashes : Hashes}

theorem sent_answered (hwords : cmd.words = some argv)
    (hexecute : execute redis.scan conn.server argv = some (reply, hashes)) :
    RedisConn.answered redis.server cmd conn = ⟨some reply, false⟩ ∧
      RedisConn.sent redis.server cmd conn = after conn hashes := by
  have hanswer := redis.answers cmd conn.server argv _ hwords hexecute
  rw [RedisConn.answered, RedisConn.sent, hanswer]
  exact ⟨rfl, rfl⟩

/-- It is the first attempt that is answered. -/
theorem perform_answered (hcontext : conn.context ≠ none) (hwords : cmd.words = some argv)
    (hexecute : execute redis.scan conn.server argv = some (reply, hashes))
    (hsuccess : isReplySuccess (some reply) = true) :
    RedisConn.perform redis.server r cmd failure onReply conn =
      some (((onReply reply).mapError .value).map fun value => ⟨value, [⟨some reply, false⟩]⟩,
        after conn hashes) := by
  obtain ⟨hanswered, hsent⟩ := sent_answered hwords hexecute
  have htwo : RedisConn.twoAttempts redis.server r cmd conn =
      some (.ok ⟨some reply, [⟨some reply, false⟩]⟩, after conn hashes) := by
    have hfirst : (RedisConn.answered redis.server cmd conn).isSuccess = true := by
      rw [hanswered]
      exact hsuccess
    rw [RedisConn.twoAttempts_some hcontext, RedisConn.attempts_success hcontext hfirst, hanswered,
      hsent]
  rw [RedisConn.perform, Fueled.bind_ok htwo]
  cases hreply : onReply reply with
  | error fault => simp [hreply, Except.mapError, Except.map]
  | ok value => simp [hreply, Except.mapError, Except.map]

/-- A command that returns was carried out with the hashes as they were, unless there was no
connection. -/
theorem perform_connected {returned : Attempted α}
    (h : RedisConn.perform redis.server (RedisConn.reConnectRedis redis.server password fuel) cmd
      failure onReply conn = some (.ok returned, t)) :
    returned.value = failure [] ∨ ∃ u : RedisConn Hashes, u.context ≠ none ∧
      u.server = conn.server ∧
      RedisConn.perform redis.server (RedisConn.reConnectRedis redis.server password fuel) cmd
        failure onReply u = some (.ok returned, t) := by
  obtain ⟨_, _, _, herror⟩ | ⟨tried, v, htried, hk⟩ := Fueled.bind_eq_some.mp h
  · cases herror
  rw [RedisConn.twoAttempts_eq] at htried
  obtain ⟨_, _, _, herror⟩ | ⟨connected, u, hu, hattempts⟩ := Fueled.bind_eq_some.mp htried
  · cases herror
  cases connected with
  | false =>
      obtain ⟨hok, rfl⟩ := Prod.mk.inj (Option.some.inj hattempts)
      obtain rfl := Except.ok.inj hok
      obtain ⟨hok, -⟩ := Prod.mk.inj (Option.some.inj hk)
      obtain rfl := Except.ok.inj hok
      exact .inl rfl
  | true =>
      obtain ⟨hcontext, hserver⟩ := connected_server hu
      refine .inr ⟨u, hcontext, hserver, ?_⟩
      have htwo := (RedisConn.twoAttempts_some hcontext).trans hattempts
      exact (Fueled.bind_ok htwo).trans hk

end HashServer

/-! ## What a command returns -/

section Returned

variable {α σ : Type} {server : Server σ} {r : Run σ Bool} {conn t : RedisConn σ} {cmd : Command}
  {failure : List Answer → α} {onReply : RedisReply → Except Fault α}

theorem answer_of_redisCommand {answer : Answer}
    (h : RedisConn.redisCommand server cmd conn = some (.ok answer, t)) :
    answer = (server.command cmd conn.server).1 := by
  by_cases hcontext : conn.context = none
  · rw [RedisConn.redisCommand_null cmd hcontext] at h
    cases h
  · rw [RedisConn.redisCommand_apply cmd hcontext] at h
    obtain ⟨hok, -⟩ := Prod.mk.inj (Option.some.inj h)
    exact (Except.ok.inj hok).symm

theorem secondAttempt_failed (hfails : ∀ s, (server.command cmd s).1.isSuccess = false)
    {first : Answer} {connected : Bool} {tried : Attempted (Option RedisReply)}
    (h : RedisConn.secondAttempt server cmd first connected conn = some (.ok tried, t)) :
    tried.value = none := by
  cases connected with
  | false =>
      obtain ⟨hok, -⟩ := Prod.mk.inj (Option.some.inj h)
      rw [← Except.ok.inj hok]
  | true =>
      obtain ⟨_, _, _, herror⟩ | ⟨second, u, hsecond, h⟩ := Fueled.bind_eq_some.mp h
      · cases herror
      rw [answer_of_redisCommand hsecond, hfails] at h
      obtain ⟨hok, -⟩ := Prod.mk.inj (Option.some.inj h)
      rw [← Except.ok.inj hok]
      rfl

theorem twoAttempts_failed (hfails : ∀ s, (server.command cmd s).1.isSuccess = false)
    {tried : Attempted (Option RedisReply)}
    (h : RedisConn.twoAttempts server r cmd conn = some (.ok tried, t)) : tried.value = none := by
  rw [RedisConn.twoAttempts_eq] at h
  obtain ⟨_, _, _, herror⟩ | ⟨connected, u, _, h⟩ := Fueled.bind_eq_some.mp h
  · cases herror
  cases connected with
  | false =>
      obtain ⟨hok, -⟩ := Prod.mk.inj (Option.some.inj h)
      rw [← Except.ok.inj hok]
  | true =>
      obtain ⟨_, _, _, herror⟩ | ⟨first, v, hfirst, h⟩ := Fueled.bind_eq_some.mp h
      · cases herror
      rw [answer_of_redisCommand hfirst, hfails] at h
      obtain ⟨_, _, _, herror⟩ | ⟨again, w, _, h⟩ := Fueled.bind_eq_some.mp h
      · cases herror
      exact secondAttempt_failed hfails h

/-- What is returned if no answer is one of success -/
theorem perform_failed (hfails : ∀ s, (server.command cmd s).1.isSuccess = false)
    {returned : Attempted α}
    (h : RedisConn.perform server r cmd failure onReply conn = some (.ok returned, t)) :
    returned.value = failure returned.answers := by
  obtain ⟨_, _, _, herror⟩ | ⟨tried, u, htried, h⟩ := Fueled.bind_eq_some.mp h
  · cases herror
  rw [twoAttempts_failed hfails htried] at h
  obtain ⟨hok, -⟩ := Prod.mk.inj (Option.some.inj h)
  rw [← Except.ok.inj hok]

/-- What is returned is that of a failure, or made of a reply. -/
theorem perform_value {returned : Attempted α}
    (h : RedisConn.perform server r cmd failure onReply conn = some (.ok returned, t)) :
    (∃ answers, returned.value = failure answers) ∨
      ∃ reply, onReply reply = .ok returned.value := by
  obtain ⟨_, _, _, herror⟩ | ⟨⟨_ | reply, answers⟩, u, -, h⟩ := Fueled.bind_eq_some.mp h
  · cases herror
  · obtain ⟨hok, -⟩ := Prod.mk.inj (Option.some.inj h)
    exact .inl ⟨answers, by rw [← Except.ok.inj hok]⟩
  · cases hreply : onReply reply with
    | error fault =>
        simp only [hreply] at h
        obtain ⟨hok, -⟩ := Prod.mk.inj (Option.some.inj h)
        cases hok
    | ok value =>
        simp only [hreply] at h
        obtain ⟨hok, -⟩ := Prod.mk.inj (Option.some.inj h)
        exact .inr ⟨reply, by rw [← Except.ok.inj hok, hreply]⟩

end Returned

end BcmServer.Redis
