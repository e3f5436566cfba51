import BcmServer.Lts.Fueled
import BcmServer.Redis.HashReply

/-!
# BcmServer.Redis.RedisConn — the synchronous redis client

Every command of `RedisConn` connects if it has to and then makes two attempts, with a
new connection before the second. To connect is to send AUTH, by a command that makes two
attempts itself.

The server, with hiredis, is any pair of functions on states of its own: what comes of a
connection, and what a command is answered. Replies carry what hiredis puts into them; a
string that is not in a reply is a null pointer. The password does not change. Logging is left out but for the lines
that dereference a pointer, and so is the time of the last activity.

To connect again is a parameter of every command, since `connectRedis` calls a command.
-/

namespace BcmServer.Redis

open BcmServer.Util BcmServer.Lts

/-! ## hiredis -/

/-- `redisReply` -/
inductive RedisReply where
  | string (str : Bytes)
  | array (elements : List RedisReply)
  | integer (integer : Int64)
  | nil
  | status (str : Bytes)
  | error (str : Bytes)
  /-- a type that `isReplySuccess` does not know -/
  | other
deriving Repr

namespace RedisReply

/-- The pointer `str` -/
def str : RedisReply → Option Bytes
  | string s => some s
  | status s => some s
  | error s => some s
  | _ => none

/-- `element`, with as many as `elements` says -/
def elements : RedisReply → List RedisReply
  | array es => es
  | _ => []

end RedisReply

/-- An argument of a conversion: `%s`, `%b` or `%d` -/
inductive FormatArg where
  | s (str : Bytes)
  | b (str : Bytes)
  | d (n : ℤ)
deriving DecidableEq, Repr

/-- What is sent with `redisCommand` (or `redisAppendCommand`) and with `redisCommandArgv` -/
inductive Command where
  | format (format : Bytes) (args : List FormatArg)
  | argv (args : List Bytes)
deriving DecidableEq, Repr

/-- What comes of `redisConnectWithTimeout` -/
inductive Connection where
  | null
  | error
  | connected
deriving DecidableEq, Repr

/-- What comes of a command: a reply, if there is one, and whether the context has an error then -/
structure Answer where
  reply : Option RedisReply
  err : Bool
deriving Repr

/-- `RedisConn::isReplySuccess` -/
def isReplySuccess : Option RedisReply → Bool
  | none => false
  | some (.string _) => true
  | some (.array _) => true
  | some (.integer _) => true
  | some (.status _) => true
  | some .nil => true
  | some (.error _) => false
  | some .other => false

def Answer.isSuccess (a : Answer) : Bool := isReplySuccess a.reply

/-- A redis server, as hiredis sees it -/
structure Server (σ : Type) where
  connect : σ → Connection × σ
  command : Command → σ → Answer × σ

/-! ## Connections -/

/-- `redisContext` -/
structure RedisContext where
  err : Bool
deriving DecidableEq, Repr

/-- `RedisConn`, with the state of the server and the number of connections tried so far -/
structure RedisConn (σ : Type) where
  context : Option RedisContext
  server : σ
  connects : ℕ := 0
deriving DecidableEq, Repr

/-- What goes wrong: a null pointer is dereferenced, or a value is not what it has to be. -/
inductive ConnFault where
  | nullReply
  | nullContext
  | value (fault : Fault)
deriving DecidableEq, Repr

/-- A call -/
abbrev Run (σ α : Type) := Fueled ConnFault (RedisConn σ) α

variable {σ α β : Type} (server : Server σ) (reConnect : Run σ Bool)

/-- What a command returns, with the answers to its own attempts -/
structure Attempted (α : Type) where
  value : α
  answers : List Answer

def Attempted.map (f : α → β) (a : Attempted α) : Attempted β := ⟨f a.value, a.answers⟩

namespace RedisConn

/-- `m_pRedisContext->` -/
def derefContext : Run σ RedisContext := do
  let conn ← Fueled.get
  match conn.context with
  | none => Fueled.throw .nullContext
  | some context => return context

def freeConnect : Run σ Unit := Fueled.modify fun conn => { conn with context := none }

/-- `redisConnectWithTimeout`, with what is done about an error -/
def redisConnectWithTimeout : Run σ Bool := do
  let conn ← Fueled.get
  let (connection, s) := server.connect conn.server
  Fueled.modify fun conn => { conn with
    context := if connection = .connected then some ⟨false⟩ else none
    server := s
    connects := conn.connects + 1 }
  return connection = .connected

/-- `redisCommand` and `redisCommandArgv` -/
def redisCommand (cmd : Command) : Run σ Answer := do
  let _ ← derefContext
  let conn ← Fueled.get
  let (answer, s) := server.command cmd conn.server
  Fueled.modify fun conn => { conn with context := some ⟨answer.err⟩, server := s }
  return answer

/-- The beginning of every command -/
def connected : Run σ Bool := do
  let conn ← Fueled.get
  if conn.context.isNone then reConnect else return true

/-- The loop of a command: two attempts -/
def twoAttempts (cmd : Command) : Run σ (Attempted (Option RedisReply)) := do
  if !(← connected reConnect) then return ⟨none, []⟩
  let first ← redisCommand server cmd
  if first.isSuccess then return ⟨first.reply, [first]⟩
  if !(← reConnect) then return ⟨none, [first]⟩
  let second ← redisCommand server cmd
  return ⟨if second.isSuccess then second.reply else none, [first, second]⟩

/-- A command: what it returns if both attempts fail, and what it makes of a reply -/
def perform (cmd : Command) (failure : List Answer → α) (onReply : RedisReply → Except Fault α) :
    Run σ (Attempted α) := do
  let tried ← twoAttempts server reConnect cmd
  match tried.value with
  | none => return ⟨failure tried.answers, tried.answers⟩
  | some reply =>
      match onReply reply with
      | .error fault => Fueled.throw (.value fault)
      | .ok value => return ⟨value, tried.answers⟩

/-- A command whose reply is not looked at -/
def performed (cmd : Command) : Run σ (Attempted Bool) :=
  perform server reConnect cmd (fun _ => false) fun _ => .ok true

/-- A text -/
def text (s : String) : Bytes := ascii s.toList

/-! ## Commands with arguments -/

def redisCmdArgs0 (strCmd : Bytes) : Run σ (Attempted Bool) :=
  performed server reConnect (.format strCmd [])

def redisCmdArgs1 (strCmd key : Bytes) : Run σ (Attempted Bool) :=
  performed server reConnect (.format (text "%s %b") [.s strCmd, .b key])

def redisCmdArgs2 (strCmd key value : Bytes) : Run σ (Attempted Bool) :=
  performed server reConnect (.format (text "%s %b %b") [.s strCmd, .b key, .b value])

def redisCmdArgs3 (strCmd key field value : Bytes) : Run σ (Attempted Bool) :=
  performed server reConnect
    (.format (text "%s %b %b %b") [.s strCmd, .b key, .b field, .b value])

def unifiedCall (fullCmd : Bytes) : Run σ (Attempted Bool) :=
  performed server reConnect (.format fullCmd [])

/-! ## Strings -/

/-- `get`, with the value that is passed in and out -/
def get (strKey strValue : Bytes) : Run σ (Attempted (Bool × Bytes)) :=
  perform server reConnect (.format (text "%s %b") [.s (text "GET"), .b strKey])
    (fun _ => (false, strValue)) fun
      | .string str => .ok (true, str)
      | _ => .ok (true, strValue)

def set (key value : Bytes) (exptime : Int32) : Run σ (Attempted Bool) :=
  performed server reConnect <|
    if exptime ≠ 0 then
      .format (text "SET %b %b EX %d") [.b key, .b value, .d exptime.toInt]
    else .format (text "SET %b %b") [.b key, .b value]

/-- What the element of an array is read as where a null pointer is looked for -/
def elementText (e : RedisReply) : Bytes := (e.str.map cString).getD []

/-- `mget`: the keys come in the order of a set. -/
def mget (setKeys : List Bytes) (mapKeyValues : List (Bytes × Bytes)) :
    Run σ (Attempted (Bool × List (Bytes × Bytes))) :=
  perform server reConnect
    (.format (text "mget " ++ [' '.toUInt8].intercalate setKeys) [])
    (fun _ => (false, mapKeyValues)) fun reply =>
      .ok (true, (setKeys.zip reply.elements).foldl
        (fun m e => mapSet e.1 (elementText e.2) m) mapKeyValues)

/-! ## Hashes -/

def hget (key field value : Bytes) : Run σ (Attempted (Bool × Bytes)) :=
  perform server reConnect (.format (text "HGET %b %b") [.b key, .b field])
    (fun _ => (false, value)) fun
      | .string str => .ok (true, cString str)
      | _ => .ok (true, value)

/-- The loop of `hmget` over the elements: there is a field for each, and a string or nil. -/
def fillFields : List Bytes → List RedisReply → List (Bytes × Bytes) →
    Except Fault (List (Bytes × Bytes))
  | _, [], m => .ok m
  | [], _ :: _, _ => .error .undefined
  | field :: fields, .nil :: es, m => fillFields fields es (mapSet field [] m)
  | field :: fields, e :: es, m =>
      match e.str with
      | none => .error .undefined
      | some str => fillFields fields es (mapSet field (cString str) m)

def hmget (key : Bytes) (fields : List Bytes) (mapFieldValue : List (Bytes × Bytes)) :
    Run σ (Attempted (Bool × List (Bytes × Bytes))) :=
  perform server reConnect
    (.format (text "HMGET " ++ key ++ fields.flatMap fun field => ' '.toUInt8 :: field) [])
    (fun _ => (false, mapFieldValue)) fun
      | .array es => (fillFields fields es mapFieldValue).map fun m => (true, m)
      | _ => .ok (true, mapFieldValue)

def hmset (key : Bytes) (values : List (Bytes × Bytes)) : Run σ (Attempted Bool) :=
  performed server reConnect
    (.argv (text "HMSET" :: key :: values.flatMap fun v => [v.1, v.2]))

/-- `hlen`: the number is set to 0 once there is a connection. -/
def hlen (strKey : Bytes) (num : UInt64) : Run σ (Attempted (Bool × UInt64)) :=
  perform server reConnect (.format (text "HLEN " ++ strKey) [])
    (fun answers => (false, if answers.isEmpty then num else 0)) fun
      | .integer n => .ok (true, n.toUInt64)
      | _ => .ok (true, 0)

/-- The loop of `hscan` over the elements, which are asserted to be strings -/
def scanResults : List RedisReply → List (Bytes × Bytes) → Except Fault (List (Bytes × Bytes))
  | [], m => .ok m
  | [.string _], m => .ok m
  | .string k :: .string v :: es, m => scanResults es (mapSet (cString k) (cString v) m)
  | _, _ => .error .undefined

/-- `hscan`, with `new_cursor` and `results`, which are cleared once there is a connection -/
def hscan (key cursor pattern : Bytes) (count : UInt32) (new_cursor : Bytes)
    (results : List (Bytes × Bytes)) : Run σ (Attempted (Bool × Bytes × List (Bytes × Bytes))) :=
  let cmd := text "HSCAN " ++ key ++ text " " ++ cursor ++
    (if pattern.isEmpty then [] else text " MATCH " ++ pattern) ++
    (if 0 < count then text " COUNT " ++ decimal count.toNat else [])
  perform server reConnect (.format cmd [])
    (fun answers => (false, if answers.isEmpty then (new_cursor, results) else ([], []))) fun
      | .array (.string c :: .array r :: _) =>
          (scanResults r []).map fun m => (true, cString c, m)
      | .array _ => .error .undefined
      | _ => .ok (true, [], [])

/-- `hdel`, which does not send an empty list -/
def hdel (key : Bytes) (fieldList : List Bytes) : Run σ (Attempted Bool) :=
  if fieldList.isEmpty then return ⟨false, []⟩
  else performed server reConnect (.argv (text "HDEL" :: key :: fieldList))

/-! ## Sets -/

def smembers (key : Bytes) (memberList : List Bytes) : Run σ (Attempted (Bool × List Bytes)) :=
  perform server reConnect (.format (text "SMEMBERS %b") [.b key])
    (fun _ => (false, memberList)) fun reply =>
      .ok (true, memberList ++ reply.elements.map elementText)

/-- An entry of a map of lists gets more elements; none does not make it. -/
def pushAll (m : Bytes → Option (List Bytes)) (key : Bytes) (members : List Bytes) :
    Bytes → Option (List Bytes) :=
  if members.isEmpty then m
  else fun k => if k = key then some ((m key).getD [] ++ members) else m k

/-- The commands of `smembersBatch`, sent together, and their replies: failures are counted. -/
def smembersRound : List Bytes → ℕ → (Bytes → Option (List Bytes)) →
    Run σ (ℕ × (Bytes → Option (List Bytes)))
  | [], nFailures, m => return (nFailures, m)
  | key :: keys, nFailures, m => do
      let answer ← redisCommand server (.format (text "SMEMBERS %b") [.b key])
      match answer.reply with
      | none => smembersRound keys (nFailures + 1) m
      | some reply =>
          if isReplySuccess (some reply) then
            smembersRound keys nFailures (pushAll m key (reply.elements.map elementText))
          else smembersRound keys (nFailures + 1) m

def smembersBatch (setKeys : List Bytes) (mapKeyMembers : Bytes → Option (List Bytes)) :
    Run σ (Bool × (Bytes → Option (List Bytes))) := do
  if !(← connected reConnect) then return (false, mapKeyMembers)
  let (nFailures, m) ← smembersRound server setKeys 0 mapKeyMembers
  if nFailures ≠ setKeys.length then return (true, m)
  if !(← reConnect) then return (true, m)
  -- the second round is the last one, whatever fails in it
  let (_, m) ← smembersRound server setKeys 0 m
  return (true, m)

def zadd (key mem : Bytes) (score : Int64) : Run σ (Attempted Bool) :=
  performed server reConnect
    (.format (text "ZADD %b " ++ intDecimal score.toInt ++ text " %b") [.b key, .b mem])

/-- `zrem`, which does not send an empty list -/
def zrem (key : Bytes) (memberList : List Bytes) : Run σ (Attempted Bool) :=
  if memberList.isEmpty then return ⟨false, []⟩
  else performed server reConnect (.argv (text "ZREM" :: key :: memberList))

def REDIS_NEGATIVE_INFINITY : Int64 := 0

def REDIS_POSITIVE_INFINITY : Int64 := -1

/-- The loop of `getMemsByScoreWithLimit` over the elements -/
def memberScores : List RedisReply → Except Fault (List (Bytes × Int64))
  | m :: s :: es => do
      let member ← m.str.elim (.error .undefined) .ok
      let score ← s.str.elim (.error .undefined) .ok
      let score ← number (stoll (cString score))
      return (cString member, score) :: (← memberScores es)
  | _ => return []

/-- `getMemsByScoreWithLimit`: an empty range is not asked for. -/
def getMemsByScoreWithLimit (key : Bytes) (min max : Int64) (offset limit : UInt32)
    (mems : List (Bytes × Int64)) : Run σ (Attempted (Bool × List (Bytes × Int64))) :=
  if min > max then return ⟨(false, mems), []⟩
  else
    let minStr := if min = REDIS_NEGATIVE_INFINITY then text "-inf" else intDecimal min.toInt
    let maxStr := if max = REDIS_POSITIVE_INFINITY then text "+inf" else intDecimal max.toInt
    perform server reConnect
      (.format (text "ZRANGEBYSCORE " ++ key ++ text " " ++ minStr ++ text " " ++ maxStr ++
        text " WITHSCORES LIMIT " ++ decimal offset.toNat ++ text " " ++ decimal limit.toNat) [])
      (fun _ => (false, mems)) fun
        | .array es => (memberScores es).map fun more => (true, mems ++ more)
        | _ => .ok (true, mems)

/-! ## Publishing -/

def pubsub (strTopic : Bytes) (setTopics : List Bytes) : Run σ (Attempted (Bool × List Bytes)) :=
  perform server reConnect (.format (text "pubsub channels %b") [.b strTopic])
    (fun _ => (false, setTopics)) fun reply => do
      let topics ← reply.elements.mapM fun e => e.str.elim (.error .undefined) .ok
      return (true, (setTopics ++ topics.map cString).dedup)

def publishRes (channel message : Bytes) : Run σ (Attempted Bool) :=
  perform server reConnect (.format (text "PUBLISH %b %b") [.b channel, .b message])
    (fun _ => false) fun
      | .integer n => .ok (0 < n.toInt32)
      | _ => .ok false

/-- The commands of `publishBatch`, sent together, and how many of them failed -/
def publishRound : List Bytes → ℕ → Run σ ℕ
  | [], nFailures => return nFailures
  | cmd :: cmds, nFailures => do
      let answer ← redisCommand server (.format (text "%s") [.s cmd])
      publishRound cmds (if answer.isSuccess then nFailures else nFailures + 1)

def publishBatch (setCmds : List Bytes) : Run σ Bool := do
  if !(← connected reConnect) then return false
  let nFailures ← publishRound server setCmds 0
  if nFailures ≠ setCmds.length then return true
  if !(← reConnect) then return true
  let _ ← publishRound server setCmds 0
  return true

/-! ## Numbers -/

/-- `info_uptime`: the 40th word of the text -/
def info_uptime : Run σ (Attempted UInt32) :=
  perform server reConnect (.format (text "info") []) (fun _ => 0) fun reply => do
    let info ← reply.str.elim (.error .undefined) .ok
    let words := (cString info).splitOnP fun c => c ∈ text ":\r\n"
    if words.length < 40 || words.getD 38 [] ≠ text "uptime_in_seconds" then return 0
    else
      let seconds ← number (stoi (words.getD 39 []))
      return .ofInt seconds

/-- An attempt of `incr`: what is returned, if there is not to be another one -/
def incrAttempt (key : Bytes) (newValue : UInt64) : Run σ (Option (Int32 × UInt64) × Answer) := do
  let answer ← redisCommand server (.format (text "INCR " ++ key) [])
  match answer.reply with
  -- the log line of a failure reads the type of the reply
  | none => Fueled.throw .nullReply
  | some reply =>
      if isReplySuccess (some reply) then
        match reply with
        | .integer n => return (some (1, n.toUInt64), answer)
        | _ => return (some (0, newValue), answer)
      let context ← derefContext
      if context.err then return (none, answer)
      return (some (0, newValue), answer)

/-- `incr`: 0 if the key has no number, -1 if nobody can be asked -/
def incr (key : Bytes) (newValue : UInt64) : Run σ (Attempted (Int32 × UInt64)) := do
  if !(← connected reConnect) then return ⟨(-1, newValue), []⟩
  let (value, first) ← incrAttempt server key newValue
  if value.isSome then return ⟨value.getD (-1, newValue), [first]⟩
  if !(← reConnect) then return ⟨(-1, newValue), [first]⟩
  let (value, second) ← incrAttempt server key newValue
  return ⟨value.getD (-1, newValue), [first, second]⟩

def expire (key : Bytes) (timeout : UInt32) : Run σ (Attempted Int32) :=
  perform server reConnect
    (.format (text "EXPIRE " ++ key ++ text " " ++ decimal timeout.toNat) []) (fun _ => -1) fun
      | .integer n => .ok n.toInt32
      | _ => .ok (-1)

def ttl (key : Bytes) : Run σ (Attempted Int64) :=
  perform server reConnect (.format (text "TTL " ++ key) []) (fun _ => -1) fun
    | .integer n => .ok (if n = -2 ∨ n = -1 then 0 else n)
    | _ => .ok (-1)

def del (key : Bytes) : Run σ (Attempted Bool) :=
  performed server reConnect (.format (text "DEL " ++ key) [])

/-! ## Connecting -/

/-- `AUTH` -/
def auth (password : Bytes) : Command := .format (text "%s %b") [.s (text "AUTH"), .b password]

variable (password : Bytes)

/-- AUTH, if it is required -/
def authenticate (auth : Run σ (Attempted Bool)) : Run σ Bool := do
  if password.isEmpty then return true
  let authed ← auth
  if authed.value then return true
  freeConnect
  -- the log line reads the error of the context
  let _ ← derefContext
  return false

/-- `connectRedis`, calling itself by way of AUTH -/
def connectRedis : ℕ → Run σ Bool
  | 0 => Fueled.exhausted
  | fuel + 1 => do
      let conn ← Fueled.get
      if conn.context.isSome then return true
      if !(← redisConnectWithTimeout server) then return false
      let reConnect := do
        freeConnect
        connectRedis fuel
      let auth := redisCmdArgs1 server reConnect (text "AUTH") password
      if !(← authenticate password auth) then return false
      -- `redisEnableKeepAlive`
      let _ ← derefContext
      return true

def reConnectRedis (fuel : ℕ) : Run σ Bool := do
  freeConnect
  connectRedis server password fuel

end RedisConn

/-! ## Calls -/

/-- What a command returns, besides what it puts into its arguments -/
inductive Value where
  | flag (b : Bool)
  | number (n : ℤ)
deriving DecidableEq, Repr

/-- A command of `RedisConn` that makes two attempts, with its arguments -/
inductive Op where
  | redisCmdArgs0 (strCmd : Bytes)
  | redisCmdArgs1 (strCmd key : Bytes)
  | redisCmdArgs2 (strCmd key value : Bytes)
  | redisCmdArgs3 (strCmd key field value : Bytes)
  | unifiedCall (fullCmd : Bytes)
  | get (strKey strValue : Bytes)
  | set (key value : Bytes) (exptime : Int32)
  | mget (setKeys : List Bytes) (mapKeyValues : List (Bytes × Bytes))
  | hget (key field value : Bytes)
  | hmget (key : Bytes) (fields : List Bytes) (mapFieldValue : List (Bytes × Bytes))
  | hmset (key : Bytes) (values : List (Bytes × Bytes))
  | hlen (strKey : Bytes) (num : UInt64)
  | hscan (key cursor pattern : Bytes) (count : UInt32) (new_cursor : Bytes)
      (results : List (Bytes × Bytes))
  | hdel (key : Bytes) (fieldList : List Bytes)
  | smembers (key : Bytes) (memberList : List Bytes)
  | zadd (key mem : Bytes) (score : Int64)
  | zrem (key : Bytes) (memberList : List Bytes)
  | getMemsByScoreWithLimit (key : Bytes) (min max : Int64) (offset limit : UInt32)
      (mems : List (Bytes × Int64))
  | pubsub (strTopic : Bytes) (setTopics : List Bytes)
  | publishRes (channel message : Bytes)
  | info_uptime
  | incr (key : Bytes) (newValue : UInt64)
  | expire (key : Bytes) (timeout : UInt32)
  | ttl (key : Bytes)
  | del (key : Bytes)
deriving DecidableEq, Repr

namespace Op

open RedisConn

/-- The flag that a command returns -/
def flagged (x : Run σ (Attempted Bool)) : Run σ (Attempted Value) := Attempted.map .flag <$> x

/-- The flag that a command returns, besides an argument -/
def flaggedFst (x : Run σ (Attempted (Bool × α))) : Run σ (Attempted Value) :=
  Attempted.map (fun v => .flag v.1) <$> x

/-- A command -/
def run : Op → Run σ (Attempted Value)
  | redisCmdArgs0 strCmd => flagged (RedisConn.redisCmdArgs0 server reConnect strCmd)
  | redisCmdArgs1 strCmd key => flagged (RedisConn.redisCmdArgs1 server reConnect strCmd key)
  | redisCmdArgs2 strCmd key value =>
      flagged (RedisConn.redisCmdArgs2 server reConnect strCmd key value)
  | redisCmdArgs3 strCmd key field value =>
      flagged (RedisConn.redisCmdArgs3 server reConnect strCmd key field value)
  | unifiedCall fullCmd => flagged (RedisConn.unifiedCall server reConnect fullCmd)
  | get strKey strValue => flaggedFst (RedisConn.get server reConnect strKey strValue)
  | set key value exptime => flagged (RedisConn.set server reConnect key value exptime)
  | mget setKeys mapKeyValues => flaggedFst (RedisConn.mget server reConnect setKeys mapKeyValues)
  | hget key field value => flaggedFst (RedisConn.hget server reConnect key field value)
  | hmget key fields mapFieldValue =>
      flaggedFst (RedisConn.hmget server reConnect key fields mapFieldValue)
  | hmset key values => flagged (RedisConn.hmset server reConnect key values)
  | hlen strKey num => flaggedFst (RedisConn.hlen server reConnect strKey num)
  | hscan key cursor pattern count new_cursor results =>
      flaggedFst (RedisConn.hscan server reConnect key cursor pattern count new_cursor results)
  | hdel key fieldList => flagged (RedisConn.hdel server reConnect key fieldList)
  | smembers key memberList => flaggedFst (RedisConn.smembers server reConnect key memberList)
  | zadd key mem score => flagged (RedisConn.zadd server reConnect key mem score)
  | zrem key memberList => flagged (RedisConn.zrem server reConnect key memberList)
  | getMemsByScoreWithLimit key min max offset limit mems =>
      flaggedFst (RedisConn.getMemsByScoreWithLimit server reConnect key min max offset limit mems)
  | pubsub strTopic setTopics => flaggedFst (RedisConn.pubsub server reConnect strTopic setTopics)
  | publishRes channel message => flagged (RedisConn.publishRes server reConnect channel message)
  | info_uptime =>
      Attempted.map (fun n => .number n.toNat) <$> RedisConn.info_uptime server reConnect
  | incr key newValue =>
      Attempted.map (fun v => .number v.1.toInt) <$> RedisConn.incr server reConnect key newValue
  | expire key timeout =>
      Attempted.map (fun n => .number n.toInt) <$> RedisConn.expire server reConnect key timeout
  | ttl key => Attempted.map (fun n => .number n.toInt) <$> RedisConn.ttl server reConnect key
  | del key => flagged (RedisConn.del server reConnect key)

end Op

end BcmServer.Redis
