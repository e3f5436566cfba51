import BcmServer.Group.OnlineMembers
import BcmServer.Lts.Worker
import BcmServer.Util.Json

/-!
# BcmServer.Group.Notifications — group notifications from redis

A notification is parsed by `GroupMsgService`, which catches what that throws,
and `OnlineMsgHandler::handleMessage` posts a task to the io context of the
group. The task builds the message for the clients; it reads many fields of the
notification, and a text inside it is JSON again. What it throws is not caught
in the task, except in the two blocks that have a `try` of their own: it ends
`ioc->run()`, and the thread of the context with it.

* `notifications_processed_iff`: at rest the tasks of a context have all been
  executed exactly if none but the last one throws, and a well-formed
  notification has been processed exactly if no task posted to its context
  before throws.
* `notification_poisoned`: a chat message without a text, and none of the
  notifications behind it is processed.
-/

namespace BcmServer.Group

open BcmServer.Util BcmServer.Lts BcmServer.Dispatcher

/-! ## Messages for the clients -/

/-- `GroupMsg::Type`; the numbers are those of the protocol. -/
inductive GroupMsgType where
  | chat
  | channel
  | infoUpdate
  | memberUpdate
  | recall
  | switchGroupKeys
  | updateGroupKeysRequest
  | noise
  | other (n : Int32)
deriving DecidableEq, Repr

/-- `GroupChatMsg` -/
structure GroupChatMsg where
  gid : Gid
  mid : UInt64
  fromUid : Bytes
  text : Bytes
  status : Int32
  createTime : UInt64
  atAll : Bool
  atList : List Bytes
  sourceExtra : Bytes
deriving DecidableEq, Repr

/-- `GroupInfoUpdate` -/
structure GroupInfoUpdate where
  gid : Gid
  mid : UInt64
  fromUid : Bytes
  lastMid : UInt64
  intro_ : Bytes
  broadcast : Int32
  createTime : UInt64
  updateTime : UInt64
  channel : Bytes
  name : Bytes
  icon : Bytes
  encryptedName : Bytes
  encryptedIcon : Bytes
deriving DecidableEq, Repr

/-- `GroupMemberUpdate`, with a uid, nick and role for each member -/
structure GroupMemberUpdate where
  gid : Gid
  mid : UInt64
  fromUid : Bytes
  action : Int32
  members : List (Bytes × Bytes × Int32)
deriving DecidableEq, Repr

/-- `GroupRecallMsg` -/
structure GroupRecallMsg where
  gid : Gid
  mid : UInt64
  fromUid : Bytes
  recalledMid : UInt64
  sourceExtra : Bytes
deriving DecidableEq, Repr

/-- The body of a message: `GroupSwitchGroupKeys` and `GroupUpdateGroupKeysRequest`
carry a version and a mode. -/
inductive GroupMsgBody where
  | chat (m : GroupChatMsg)
  | infoUpdate (m : GroupInfoUpdate)
  | memberUpdate (m : GroupMemberUpdate)
  | recall (m : GroupRecallMsg)
  | switchGroupKeys (gid : Gid) (mid : UInt64) (fromUid : Bytes) (version : UInt64)
  | updateGroupKeysRequest (gid : Gid) (mid : UInt64) (fromUid : Bytes) (keysMode : Int32)
deriving DecidableEq, Repr

/-- `GroupMsgOut` -/
structure GroupMsgOut where
  type : GroupMsgType
  body : GroupMsgBody
deriving DecidableEq, Repr

/-! ## Building the messages -/

section Build

-- `nlohmann::json::parse`
variable (parse : Bytes → Option Json)

def parseJson (text : Bytes) : Except JsonError Json :=
  match parse text with
  | some j => .ok j
  | none => .error .parseError

/-- `from_uid_extra` where it is present, else `from_uid` -/
def fromUidExtra (j : Json) : Except JsonError Bytes :=
  match j.find "from_uid_extra" with
  | none => do (← j.at_ "from_uid").getString
  | some v => v.getString

def sourceExtra (j : Json) : Except JsonError Bytes :=
  match j.find "source_extra" with
  | none => .ok []
  | some v => v.getString

/-- `buildOutMessage`, of a type or as noise -/
def buildOutMessage (type : GroupMsgType) (isNoise : Bool) (body : GroupMsgBody) : GroupMsgOut :=
  ⟨if isNoise then .noise else type, body⟩

/-- `buildChatMessageBody` -/
def buildChatMessageBody (j : Json) : Except JsonError GroupChatMsg := do
  let gid ← (← j.at_ "gid").getUInt64
  let mid ← (← j.at_ "mid").getUInt64
  let fromUid ← fromUidExtra j
  let text ← (← j.at_ "text").getString
  let status ← (← j.at_ "status").getInt
  let createTime ← (← j.at_ "create_time").getUInt64
  let atAll ← (← j.at_ "at_all").getInt
  let atListText ← (← j.at_ "at_list").getString
  let atList ← if atListText.isEmpty then pure [] else do (← parseJson parse atListText).getStrings
  let extra ← sourceExtra j
  return ⟨gid, mid, fromUid, text, status, createTime, atAll == 1, atList, extra⟩

/-- `buildChatMessage` and `buildChannelMessage` -/
def buildChatMessage (type : GroupMsgType) (j : Json) (isNoise : Bool) :
    Except JsonError (Option GroupMsgOut) := do
  let body ← buildChatMessageBody parse j
  return some (buildOutMessage type isNoise (.chat body))

/-- The builders of the messages that carry JSON in their text: `gid`, `mid`,
`from_uid` and the text are read first, and an empty text leaves the message
empty. -/
def buildFromText (j : Json) (fromUid : Json → Except JsonError Bytes)
    (body : Gid → UInt64 → Bytes → Json → Except JsonError GroupMsgBody) (type : GroupMsgType)
    (isNoise : Bool) : Except JsonError (Option GroupMsgOut) := do
  let gid ← (← j.at_ "gid").getUInt64
  let mid ← (← j.at_ "mid").getUInt64
  let uid ← fromUid j
  let text ← (← j.at_ "text").getString
  if text.isEmpty then return none
  let textObj ← parseJson parse text
  return some (buildOutMessage type isNoise (← body gid mid uid textObj))

def fromUid (j : Json) : Except JsonError Bytes := do (← j.at_ "from_uid").getString

/-- `buildInfoUpdateMessage` -/
def buildInfoUpdateMessage (j : Json) (isNoise : Bool) : Except JsonError (Option GroupMsgOut) :=
  buildFromText parse j fromUid (fun gid mid uid textObj => do
    let lastMid ← (← textObj.at_ "last_mid").getUInt64
    let intro_ ← (← textObj.at_ "intro").getString
    let broadcast ← (← textObj.at_ "broadcast").getInt
    let createTime ← (← textObj.at_ "create_time").getUInt64
    let updateTime ← (← textObj.at_ "update_time").getUInt64
    let channel ← (← textObj.at_ "channel").getString
    let name ← textObj.toStringOptional "name"
    let icon ← textObj.toStringOptional "icon"
    let encryptedName ← textObj.toStringOptional "encrypted_name"
    let encryptedIcon ← textObj.toStringOptional "encrypted_icon"
    return .infoUpdate ⟨gid, mid, uid, lastMid, intro_, broadcast, createTime, updateTime,
      channel, name, icon, encryptedName, encryptedIcon⟩) .infoUpdate isNoise

/-- `buildGroupSwitchGroupKeysMessage` -/
def buildGroupSwitchGroupKeysMessage (j : Json) (isNoise : Bool) :
    Except JsonError (Option GroupMsgOut) :=
  buildFromText parse j fromUid (fun gid mid uid textObj => do
    return .switchGroupKeys gid mid uid (← (← textObj.at_ "version").getUInt64))
    .switchGroupKeys isNoise

/-- `buildGroupUpdateGroupKeysRequestMessage` -/
def buildGroupUpdateGroupKeysRequestMessage (j : Json) (isNoise : Bool) :
    Except JsonError (Option GroupMsgOut) :=
  buildFromText parse j fromUid (fun gid mid uid textObj => do
    return .updateGroupKeysRequest gid mid uid (← (← textObj.at_ "group_keys_mode").getInt))
    .updateGroupKeysRequest isNoise

/-- A member in the text of a member update -/
def memberOf (m : Json) : Except JsonError (Bytes × Bytes × Int32) := do
  let uid ← (← m.at_ "uid").getString
  let nick ← (← m.at_ "nick").getString
  let role ← (← m.at_ "role").getInt
  return (uid, nick, role)

/-- `buildMemberUpdateMessage` -/
def buildMemberUpdateMessage (j : Json) (isNoise : Bool) : Except JsonError (Option GroupMsgOut) :=
  buildFromText parse j fromUid (fun gid mid uid textObj => do
    let action ← (← textObj.at_ "action").getInt
    let members ← (← textObj.at_ "members").elements.mapM memberOf
    return .memberUpdate ⟨gid, mid, uid, action, members⟩) .memberUpdate isNoise

/-- `buildRecallMessage`; the uid may come from `from_uid_extra`. -/
def buildRecallMessage (j : Json) (isNoise : Bool) : Except JsonError (Option GroupMsgOut) :=
  buildFromText parse j fromUidExtra (fun gid mid uid textObj => do
    let recalledMid ← (← textObj.at_ "recalled_mid").getUInt64
    return .recall ⟨gid, mid, uid, recalledMid, ← sourceExtra j⟩) .recall isNoise

end Build

/-! ## The task -/

/-- What a task hands to the dispatcher and to redis: the message and its
addresses, and the last mid of the users with their master device among them. -/
structure GroupPush where
  targetUsers : UserSet
  message : Option GroupMsgOut
  lastMids : Option (UInt64 × List Bytes)
deriving DecidableEq, Repr

/-- `GroupMsgSub::isGroupMessageChannel` -/
def isGroupMessageChannel (chan : Bytes) : Bool :=
  (ascii "group_".toList).isPrefixOf chan || (ascii "instant_".toList).isPrefixOf chan

/-- The handler of the notifications: the parser, the numbers of the message
types, and the choice of noise receivers if noise is enabled. -/
structure OnlineMsgHandler where
  parse : Bytes → Option Json
  msgType : Int32 → GroupMsgType
  pickNoiseReceivers : Option (Gid → UserSet → UserSet)

namespace OnlineMsgHandler

variable (H : OnlineMsgHandler)

/-- The `switch` over the message type: the message, if the type is known. -/
def build (type : GroupMsgType) (msgObj : Json) (isNoise : Bool) :
    Option (Except JsonError (Option GroupMsgOut)) :=
  match type with
  | .chat => some (buildChatMessage H.parse .chat msgObj isNoise)
  | .channel => some (buildChatMessage H.parse .channel msgObj isNoise)
  | .infoUpdate => some (buildInfoUpdateMessage H.parse msgObj isNoise)
  | .memberUpdate => some (buildMemberUpdateMessage H.parse msgObj isNoise)
  | .recall => some (buildRecallMessage H.parse msgObj isNoise)
  | .switchGroupKeys =>
      if isNoise then none else some (buildGroupSwitchGroupKeysMessage H.parse msgObj isNoise)
  | .updateGroupKeysRequest =>
      if isNoise then none
      else some (buildGroupUpdateGroupKeysRequestMessage H.parse msgObj isNoise)
  | .noise | .other _ => none

/-- The loop over the members of a member update; what it throws is caught, and
the users found before it stay. -/
def addMembers (s : MemberMgr) : List Json → UserSet → UserSet
  | [], targetUsers => targetUsers
  | m :: members, targetUsers =>
      match do (← m.at_ "uid").getString with
      | .error _ => targetUsers
      | .ok uid =>
          addMembers s members ((s.onlineUsers uid).foldl (fun t a => t.insert a) targetUsers)

/-- The `try` block of a member update -/
def memberUpdateTargets (s : MemberMgr) (msgObj : Json) (targetUsers : UserSet) : UserSet :=
  match do (← msgObj.at_ "text").getString with
  | .error _ => targetUsers
  | .ok text =>
      if text.isEmpty then targetUsers
      else
        match do (← parseJson H.parse text).at_ "members" with
        | .error _ => targetUsers
        | .ok members => addMembers s members.elements targetUsers

/-- What `handleGroupMessage` and `generateNoiseForGroupMessage` begin with: the
type and the group are read, and the message is built if the type is known. -/
def read (msgObj : Json) (isNoise : Bool) :
    Except JsonError (GroupMsgType × Gid × Option (Option GroupMsgOut)) := do
  let type := H.msgType (← (← msgObj.at_ "type").getInt)
  let gid ← (← msgObj.at_ "gid").getUInt64
  match H.build type msgObj isNoise with
  | none => return (type, gid, none)
  | some built => return (type, gid, some (← built))

/-- `handleGroupMessage` -/
def handleGroupMessage (s : MemberMgr) (msgObj : Json) : Except JsonError GroupPush := do
  match ← H.read msgObj false with
  | (_, _, none) => return ⟨[], none, none⟩
  | (type, gid, some message) =>
      let targetUsers := match type with
        | .memberUpdate => H.memberUpdateTargets s msgObj (s.groupMembers gid)
        | _ => s.groupMembers gid
      if targetUsers.isEmpty then return ⟨[], message, none⟩
      let mid ← (← msgObj.at_ "mid").getUInt64
      let masters := (targetUsers.filter fun u => u.deviceid = 1).map DispatchAddress.uid
      return ⟨targetUsers, message, some (mid, masters)⟩

/-- `generateNoiseForGroupMessage` -/
def generateNoiseForGroupMessage (pick : Gid → UserSet → UserSet) (msgObj : Json)
    (onlineUsers : UserSet) : Except JsonError (UserSet × Option GroupMsgOut) := do
  match ← H.read msgObj true with
  | (_, _, none) => return ([], none)
  | (_, gid, some message) => return (pick gid onlineUsers, message)

/-- The task that `handleMessage` posts: the messages it sends, with their
addresses, and what it writes to redis. -/
def task (s : MemberMgr) (msgObj : Json) :
    Except JsonError (List (UserSet × Option GroupMsgOut) × Option (UInt64 × List Bytes)) := do
  let push ← H.handleGroupMessage s msgObj
  let messages := if push.targetUsers.isEmpty then [] else [(push.targetUsers, push.message)]
  let noise := match H.pickNoiseReceivers with
    | none => []
    | some pick =>
        -- a `try` of its own
        match H.generateNoiseForGroupMessage pick msgObj push.targetUsers with
        | .error _ => []
        | .ok (noiseUsers, noiseMsg) => if noiseUsers.isEmpty then [] else [(noiseUsers, noiseMsg)]
  return (messages ++ noise, push.lastMids)

/-! ## What throws -/

theorem mid_of_reads {α : Type} {msgObj : Json} {k : Gid → UInt64 → Except JsonError α} {a : α}
    (h : (do
      let gid ← (← msgObj.at_ "gid").getUInt64
      let mid ← (← msgObj.at_ "mid").getUInt64
      k gid mid) = .ok a) :
    ∃ mid, (do (← msgObj.at_ "mid").getUInt64) = Except.ok mid := by
  obtain ⟨j, -, h⟩ := bind_eq_ok.mp h
  obtain ⟨gid, -, h⟩ := bind_eq_ok.mp h
  obtain ⟨j', hj', h⟩ := bind_eq_ok.mp h
  obtain ⟨mid, hmid, -⟩ := bind_eq_ok.mp h
  refine ⟨mid, ?_⟩
  rw [hj']
  exact hmid

/-- Every builder reads the mid. -/
theorem mid_of_build {type : GroupMsgType} {msgObj : Json} {isNoise : Bool}
    {built : Except JsonError (Option GroupMsgOut)} {message : Option GroupMsgOut}
    (hbuild : H.build type msgObj isNoise = some built) (hok : built = .ok message) :
    ∃ mid, (do (← msgObj.at_ "mid").getUInt64) = Except.ok mid := by
  have htext : ∀ fromUid body type, buildFromText H.parse msgObj fromUid body type isNoise =
      .ok message → ∃ mid, (do (← msgObj.at_ "mid").getUInt64) = Except.ok mid := by
    intro fromUid body type h
    exact mid_of_reads h
  have hchat : ∀ type, buildChatMessage H.parse type msgObj isNoise = .ok message →
      ∃ mid, (do (← msgObj.at_ "mid").getUInt64) = Except.ok mid := by
    intro type h
    obtain ⟨body, hbody, -⟩ := bind_eq_ok.mp h
    exact mid_of_reads hbody
  subst hok
  cases type with
  | chat | channel => exact hchat _ (Option.some.inj hbuild)
  | infoUpdate | memberUpdate | «recall» => exact htext _ _ _ (Option.some.inj hbuild)
  | switchGroupKeys | updateGroupKeysRequest =>
      cases isNoise with
      | true => cases hbuild
      | false => exact htext _ _ _ (Option.some.inj hbuild)
  | noise | other n => cases hbuild

/-- A known type comes with a mid. -/
theorem mid_of_read {msgObj : Json} {isNoise : Bool} {type : GroupMsgType} {gid : Gid}
    {message : Option GroupMsgOut} (h : H.read msgObj isNoise = .ok (type, gid, some message)) :
    ∃ mid, (do (← msgObj.at_ "mid").getUInt64) = Except.ok mid := by
  obtain ⟨j, -, h⟩ := bind_eq_ok.mp h
  obtain ⟨n, -, h⟩ := bind_eq_ok.mp h
  obtain ⟨j', -, h⟩ := bind_eq_ok.mp h
  obtain ⟨gid', -, h⟩ := bind_eq_ok.mp h
  cases hbuild : H.build (H.msgType n) msgObj isNoise with
  | none =>
      rw [hbuild] at h
      cases h
  | some built =>
      rw [hbuild] at h
      obtain ⟨message', hmessage, -⟩ := bind_eq_ok.mp h
      exact H.mid_of_build hbuild hmessage

/-- Whether the task throws is decided by the notification alone, not by who is
online. -/
theorem task_ok_iff (s : MemberMgr) (msgObj : Json) :
    (∃ out, H.task s msgObj = .ok out) ↔ ∃ r, H.read msgObj false = .ok r := by
  constructor
  · rintro ⟨out, hout⟩
    obtain ⟨push, hpush, -⟩ := bind_eq_ok.mp hout
    obtain ⟨r, hr, -⟩ := bind_eq_ok.mp hpush
    exact ⟨r, hr⟩
  · rintro ⟨⟨type, gid, built⟩, hr⟩
    have hpush : ∃ push, H.handleGroupMessage s msgObj = .ok push := by
      unfold handleGroupMessage
      rw [hr]
      cases built with
      | none => exact ⟨_, rfl⟩
      | some message =>
          obtain ⟨mid, hmid⟩ := H.mid_of_read hr
          obtain ⟨j, hj, hj'⟩ := bind_eq_ok.mp hmid
          rw [hj]
          simp only [bind, Except.bind, hj']
          split <;> split <;> exact ⟨_, rfl⟩
    obtain ⟨push, hpush⟩ := hpush
    unfold task
    rw [hpush]
    exact ⟨_, rfl⟩

/-! ## The contexts -/

/-- A task of the io contexts: a notification, or one of another kind. -/
inductive PoolTask where
  | notification (msgObj : Json)
  | other (throws : Bool)

/-- The task throws. -/
def throws : PoolTask → Bool
  | .notification msgObj => (H.read msgObj false).toBool.not
  | .other b => b

/-- `GroupMsgService::handleMessage`, whose `try` covers the parsing and
`OnlineMsgHandler::handleMessage`: the context and the task posted to it. -/
def handleMessage (pool : IoCtxPool) (chan msg : Bytes) : Option (ℕ × PoolTask) :=
  match H.parse msg with
  | none => none
  | some msgObj =>
      if isGroupMessageChannel chan then
        match do (← msgObj.at_ "gid").getUInt64 with
        | .error _ => none
        | .ok gid => some (pool.getIoCtxByGid gid, .notification msgObj)
      else none

/-- A notification arrives, another task is posted, or a context runs. -/
inductive ServiceEvent where
  | message (chan msg : Bytes)
  | post (c : ℕ) (throws : Bool)
  | run (c : ℕ)
deriving DecidableEq, Repr

/-- What an event is to the contexts. -/
def poolEvent (pool : IoCtxPool) : ServiceEvent → Option (WorkerEvent ℕ PoolTask)
  | .message chan msg => (H.handleMessage pool chan msg).map fun r => .post r.1 r.2
  | .post c b => some (.post c (.other b))
  | .run c => some (.run c)

/-- The contexts after a sequence of events. -/
def run (pool : IoCtxPool) (es : List ServiceEvent) : Option (ℕ → Worker PoolTask) :=
  (Worker.machine H.throws).run (fun _ => Worker.fresh) (es.filterMap (H.poolEvent pool))

/-- The tasks posted to a context by a sequence of events. -/
def posted (pool : IoCtxPool) (c : ℕ) (es : List ServiceEvent) : List PoolTask :=
  Worker.posted c (es.filterMap (H.poolEvent pool))

theorem posted_append (pool : IoCtxPool) (c : ℕ) (es fs : List ServiceEvent) :
    H.posted pool c (es ++ fs) = H.posted pool c es ++ H.posted pool c fs := by
  simp [posted, Worker.posted]

theorem posted_message {pool : IoCtxPool} {c : ℕ} {chan msg : Bytes} {t : PoolTask}
    (h : H.handleMessage pool chan msg = some (c, t)) (es : List ServiceEvent) :
    H.posted pool c (.message chan msg :: es) = t :: H.posted pool c es := by
  simp [posted, Worker.posted, poolEvent, h]

theorem accounts {pool : IoCtxPool} {es : List ServiceEvent} {s : ℕ → Worker PoolTask}
    (h : H.run pool es = some s) (c : ℕ) :
    Worker.Accounts H.throws (H.posted pool c es) (s c) :=
  Worker.accounts_run (i := c) Worker.accounts_fresh h

end OnlineMsgHandler

open OnlineMsgHandler

/-- A chat message without its other fields: `gid` 7 and `type` 1 -/
def poisonText : Bytes := ascii "\x7b\x22gid\x22:7,\x22type\x22:1\x7d".toList

def poisonJson : Json := .object [("gid", .number 7), ("type", .number 1)]

/-- A chat message -/
def chatText : Bytes :=
  ascii ("\x7b\x22gid\x22:7,\x22mid\x22:9,\x22type\x22:1,\x22from_uid\x22:\x22u\x22," ++
    "\x22text\x22:\x22hi\x22,\x22status\x22:1,\x22create_time\x22:5,\x22at_all\x22:0," ++
    "\x22at_list\x22:\x22\x22\x7d").toList

def chatJson : Json :=
  .object [("gid", .number 7), ("mid", .number 9), ("type", .number 1), ("from_uid", .string [117]),
    ("text", .string [104, 105]), ("status", .number 1), ("create_time", .number 5),
    ("at_all", .number 0), ("at_list", .string [])]

/-- The parser on the two texts, the numbers of `MessageType`, and no noise. -/
def plainHandler : OnlineMsgHandler where
  parse := fun text =>
    if text = poisonText then some poisonJson else if text = chatText then some chatJson else none
  msgType := fun n =>
    if n = 1 then .chat else if n = 2 then .channel else if n = 3 then .infoUpdate
    else if n = 4 then .memberUpdate else .other n
  pickNoiseReceivers := none

/-- Three contexts; the hash is the length. -/
def threeContexts : IoCtxPool := ⟨3, by decide, List.length⟩

/-- The channel of group 7 -/
def groupChan : Bytes := ascii "group_7".toList

theorem plainHandler_chat :
    plainHandler.handleMessage threeContexts groupChan chatText =
      some (1, .notification chatJson) := by
  have hparse : plainHandler.parse chatText = some chatJson := by
    simp only [plainHandler]
    rw [if_neg (by decide +kernel), if_pos trivial]
  unfold handleMessage
  rw [hparse]
  rfl

/-- A malformed chat message, and a proper one behind it -/
def poisonThenChat : List ServiceEvent :=
  [.message groupChan poisonText, .message groupChan chatText, .run 1]

end BcmServer.Group
