import BcmServer.Auth.AccountHelper
import BcmServer.Crypto.Base64
import BcmServer.Group.Notifications
import BcmServer.Lts.Pool
import BcmServer.Store.AccountsDao
import BcmServer.Util.JsonText

/-!
# BcmServer.Group.MsgController — sending and recalling group messages

A message to a group is stored, and then published in redis to every server that has
members of the group online. Its text, the list of those it is for and where it comes from
are strings in the JSON value that is published. A message is recalled by the one who sent
it, within a day.

The requests are handled at the same time: each reads the group and the role of the
sender, or the message to recall, then stores, then publishes. What the offline servers
are told is in `Offline.GroupStoreFormat`.
-/

namespace BcmServer.Group

open BcmServer.Util BcmServer.Lts
open BcmServer.Store (WriteResult)

/-! ## Messages and requests -/

/-- `GroupMsg` -/
structure GroupMsg where
  gid : Gid
  mid : UInt64 := 0
  fromUid : Bytes
  text : Bytes
  updateTime : UInt64 := 0
  type : GroupMsgType
  status : Int32
  atAll : Int32
  atList : Bytes
  createTime : UInt64
  sourceExtra : Bytes
  verifySig : Bytes := []
deriving DecidableEq, Repr

/-- The account that sends, whose uid is text -/
structure Sender where
  uid : Bytes
  publickey : Bytes
  utf8 : Utf8 uid

/-- `GMsgRequest`, whose strings came in a JSON text -/
structure GMsgRequest where
  gid : Gid
  text : Bytes
  atList : List Bytes
  atAll : Bool
  pubKey : Bytes
  sig : Bytes
  utf8 : Utf8 text ∧ (∀ uid ∈ atList, Utf8 uid) ∧ Utf8 pubKey

/-- `GRecallRequest` -/
structure GRecallRequest where
  gid : Gid
  mid : UInt64
  iv : Bytes
  pubKey : Bytes
  utf8 : Utf8 pubKey

/-- The code and the text of a `GroupResponse` without a result -/
structure Refusal where
  errorCode : Int32
  errorMsg : String
deriving DecidableEq, Repr

/-- What `SenderUtils::encryptSender` gives -/
structure EncryptedSender where
  version : UInt32
  iv : Bytes
  ephemeralPubkey : Bytes
  encrypted : Bytes
deriving DecidableEq, Repr

/-- The controller: keys and digests, the JSON printer, the numbers of the protocol, and the
configuration -/
structure GroupMsgController (F K : Type) where
  lib : Auth.AccountHelper F K
  base64Encode : Bytes → Bytes
  dump : Json → Bytes
  /-- `SenderUtils::encryptSender` of a uid for a key, with what is drawn -/
  encryptSender : Bytes → Bytes → ℕ → Option EncryptedSender
  /-- `GroupMsg::Type`, `GroupMsg::STATUS_NORMAL` and `GroupMsg::STATUS_RECALLED` -/
  number : GroupMsgType → Int32
  statusNormal : Int32
  statusRecalled : Int32
  plainUidSupport : Bool := true
  messageSize : ℕ := 200 * 1024 * 1024

/-! ## The store -/

/-- `dao::GroupMsgs`: the number of a message that is stored, or of what says that one is recalled,
and the messages afterwards -/
structure GroupMsgs where
  insert : GroupMsg → List GroupMsg → UInt64 × List GroupMsg
  «recall» : Bytes → Bytes → Gid → UInt64 → List GroupMsg → UInt64 × List GroupMsg

/-- A message that is recalled keeps where it is and whom it is from. -/
structure GroupMsg.Alike (m m' : GroupMsg) : Prop where
  gid : m.gid = m'.gid
  mid : m.mid = m'.mid
  fromUid : m.fromUid = m'.fromUid
  type : m.type = m'.type
  createTime : m.createTime = m'.createTime
  verifySig : m.verifySig = m'.verifySig

/-- What is relied on: a message is stored under its number, and recalling one adds no message of
another type. -/
structure GroupMsgs.Lawful (dao : GroupMsgs) : Prop where
  insert : ∀ msg stored, ∀ m ∈ (dao.insert msg stored).2,
    m ∈ stored ∨ m = { msg with mid := (dao.insert msg stored).1 }
  «recall» : ∀ extra uid gid mid stored, ∀ m ∈ (dao.recall extra uid gid mid stored).2,
    (∃ m' ∈ stored, m.Alike m') ∨ m.type = .recall

/-- `GroupMsgs::get` -/
def GroupMsgs.get (gid : Gid) (mid : UInt64) (stored : List GroupMsg) : Option GroupMsg :=
  stored.find? fun m => m.gid = gid && m.mid = mid

/-! ## The handlers -/

namespace GroupMsgController

variable {F K : Type} (c : GroupMsgController F K)

/-- `Base64::encode` and `Base64::decode` -/
def encode (s : Bytes) : Bytes := Crypto.Base64.encode c.base64Encode s false
def decode (s : Bytes) : Bytes := Auth.Base64.decode c.lib.ext s false

/-- The value that tells who sent a message, for the one who has the key -/
def sourceJson (publicKey : Bytes) (e : EncryptedSender) : Json :=
  .object [("version", .number e.version.toNat), ("groupMsgPubkey", .string publicKey),
    ("ephemeralPubkey", .string (c.encode e.ephemeralPubkey)), ("iv", .string (c.encode e.iv)),
    ("source", .string (c.encode e.encrypted))]

/-- `GroupMsgController::getSourceExtra`, with what is drawn -/
def getSourceExtra (uid publicKey : Bytes) (seed : ℕ) : Option Bytes :=
  (c.encryptSender uid publicKey seed).map fun e =>
    c.encode (c.dump (c.sourceJson publicKey e).mapOrder)

/-- Where a message comes from; a request without a key is answered by plain uids only. -/
def sourceExtra (account : Sender) (pubKey : Bytes) (seed : ℕ) : Except Refusal Bytes :=
  if !pubKey.isEmpty then
    match c.getSourceExtra account.uid pubKey seed with
    | some extra => .ok extra
    | none => .error { errorCode := 500, errorMsg := "internal server error" }
  else if c.plainUidSupport then .ok []
  else .error { errorCode := 500, errorMsg := "internal server error" }

/-- `sendMsg` up to the group -/
def sendMsg (req : GMsgRequest) : Except Refusal Unit :=
  if req.text.length > c.messageSize then
    .error { errorCode := 400, errorMsg := "message too long" }
  else .ok ()

/-- The type of the messages of a group, by the `broadcast` that was read -/
def sendMsgType (broadcast : Option Int32) : Except Refusal GroupMsgType :=
  match broadcast with
  | none => .error { errorCode := 1, errorMsg := "query database error" }
  | some broadcast =>
      if broadcast = 0 then .ok .chat
      else if broadcast > 0 then .ok .channel
      else .error { errorCode := 100402, errorMsg := "invalid broadcast value -1" }

/-- Whether the sender may send, by the role that was read -/
def sendMsgRole (role : Option Role) : Except Refusal Unit :=
  match role with
  | none => .error { errorCode := 1, errorMsg := "query database error" }
  | some .undefine => .error { errorCode := 1, errorMsg := "member not exist" }
  | some .subscriber =>
      .error { errorCode := 100401, errorMsg := "subscriber cannot send group message" }
  | some _ => .ok ()

/-- The uid of the sender where it may be seen -/
def shownUid (account : Sender) : Bytes := if c.plainUidSupport then account.uid else []

/-- The message that is stored -/
def sentMsg (account : Sender) (req : GMsgRequest) (type : GroupMsgType) (createTime : UInt64)
    (sourceExtra : Bytes) : GroupMsg where
  gid := req.gid
  fromUid := c.shownUid account
  text := req.text
  updateTime := createTime
  type := type
  status := c.statusNormal
  atAll := if req.atAll then 1 else 0
  atList := c.dump (.array (req.atList.map .string))
  createTime := createTime
  sourceExtra := sourceExtra
  verifySig := req.sig

/-- 24 hours -/
def kRecallTime : UInt64 := 24 * 60 * 60 * 1000

/-- Whether the account has sent the message: by the uid of the message, or else by the signature
of what the request has drawn then -/
def senderVerified (account : Sender) (req : GRecallRequest) (msg : GroupMsg) : Bool :=
  if !msg.fromUid.isEmpty then msg.fromUid = account.uid
  else c.lib.verifySignature account.publickey (c.decode req.iv) msg.verifySig

/-- `recallMsg`, by the message that was read -/
def recallMsg (account : Sender) (req : GRecallRequest) (msg : Option GroupMsg) (now : UInt64) :
    Except Refusal GroupMsg :=
  match msg with
  | none => .error { errorCode := 1101004, errorMsg := "query message error" }
  | some msg =>
      if !c.senderVerified account req msg then
        .error { errorCode := 1101002, errorMsg := "cannot recall other's message" }
      else if msg.type ≠ .chat && msg.type ≠ .channel then
        .error { errorCode := 1101002, errorMsg := "should recall a chat message" }
      else if msg.status = c.statusRecalled then
        .error { errorCode := 1101002, errorMsg := "message is recalled" }
      -- a day before
      else if now - msg.createTime > kRecallTime then
        .error { errorCode := 1101003, errorMsg := "this message is weathered :-)" }
      else .ok msg

/-- The message that says that one is recalled -/
def recallNotice (account : Sender) (req : GRecallRequest) (gid : Gid) (newMid now : UInt64)
    (sourceExtra : Bytes) : GroupMsg where
  gid := gid
  mid := newMid
  fromUid := account.uid
  text := c.dump (.object [("recalled_mid", .number req.mid.toNat)])
  type := .recall
  status := c.statusNormal
  atAll := 0
  atList := ascii ['[', ']']
  createTime := now
  sourceExtra := sourceExtra

/-- The value that is published. `from_uid` is to keep the message from its sender; what is shown
is `from_uid_extra`. -/
def notification (msg : GroupMsg) : Json :=
  .object [("type", .number (c.number msg.type).toInt), ("gid", .number msg.gid.toNat),
    ("mid", .number msg.mid.toNat), ("status", .number msg.status.toInt),
    ("text", .string msg.text), ("from_uid", .string msg.fromUid),
    ("create_time", .number msg.createTime.toNat), ("at_list", .string msg.atList),
    ("at_all", .number msg.atAll.toInt), ("source_extra", .string msg.sourceExtra),
    ("from_uid_extra", .string (if c.plainUidSupport then msg.fromUid else []))]

/-- `sendGroupChatMsg`: the channel and the text -/
def sendGroupChatMsg (msg : GroupMsg) : Bytes × Bytes :=
  (ascii "group_".toList ++ decimal msg.gid.toNat, c.dump (c.notification msg).mapOrder)

end GroupMsgController

/-! ## The system -/

/-- What a request has stored, and will publish: a message as it was stored, or the notice for the
message that was read and is recalled -/
inductive PostedMsg where
  | sent (account : Sender) (req : GMsgRequest) (msg : GroupMsg)
  | recalled (account : Sender) (req : GRecallRequest) (target notice : GroupMsg)

/-- What is published for it; the uid is that of the account. -/
def PostedMsg.published : PostedMsg → GroupMsg
  | .sent account _ msg => { msg with fromUid := account.uid }
  | .recalled _ _ _ notice => notice

/-- What is stored, and what was published in redis. `posted` is what the requests have stored. -/
structure GroupMsgState where
  msgs : List GroupMsg := []
  published : List (Bytes × Bytes) := []
  posted : List PostedMsg := []

/-- A request that is going on: to send, the group, then the role is read and the message is
stored; to recall, the message is read, then it is recalled; then something is published. -/
inductive GroupMsgCall where
  | getGroup (account : Sender) (req : GMsgRequest)
  | getMemberRole (account : Sender) (req : GMsgRequest) (type : GroupMsgType)
  | insert (account : Sender) (req : GMsgRequest) (msg : GroupMsg)
  | getMsg (account : Sender) (req : GRecallRequest)
  | recall (account : Sender) (req : GRecallRequest) (target : GroupMsg) (now : UInt64)
      (sourceExtra : Bytes)
  | publish (posted : PostedMsg)

/-- How a step ends, what it reads of the group and the sender, when it takes place, and what is
drawn. -/
structure GroupMsgEffect where
  result : WriteResult := .done
  broadcast : Option Int32 := none
  role : Option Role := none
  now : UInt64 := 0
  seed : ℕ := 0

/-- A request comes in, or something else stores a message for the group, not one of its members.
-/
inductive GroupMsgEvent where
  | sendMsg (account : Sender) (req : GMsgRequest)
  | recallMsg (account : Sender) (req : GRecallRequest)
  | store (msg : GroupMsg) (h : msg.type ≠ .chat ∧ msg.type ≠ .channel)

namespace GroupMsgController

variable {F K : Type} (c : GroupMsgController F K) (dao : GroupMsgs)

/-- The next step of a request -/
def next (s : GroupMsgState) (e : GroupMsgEffect) :
    GroupMsgCall → GroupMsgState × List GroupMsgCall
  | .getGroup account req =>
      (s, match sendMsgType e.broadcast with
        | .error _ => []
        | .ok type => [.getMemberRole account req type])
  | .getMemberRole account req type =>
      (s, match sendMsgRole e.role, c.sourceExtra account req.pubKey e.seed with
        | .ok (), .ok extra => [.insert account req (c.sentMsg account req type e.now extra)]
        | _, _ => [])
  | .insert account req msg =>
      let inserted := dao.insert msg s.msgs
      let posted := .sent account req { msg with mid := inserted.1 }
      match e.result with
      | .failed => (s, [])
      | .lost => ({ s with msgs := inserted.2, posted := posted :: s.posted }, [])
      | .done => ({ s with msgs := inserted.2, posted := posted :: s.posted }, [.publish posted])
  | .getMsg account req =>
      let lookup := if e.result = .done then GroupMsgs.get req.gid req.mid s.msgs else none
      (s, match c.recallMsg account req lookup e.now, c.sourceExtra account req.pubKey e.seed with
        | .ok target, .ok extra => [.recall account req target e.now extra]
        | _, _ => [])
  | .recall account req target now extra =>
      let recalled := dao.recall extra (c.shownUid account) req.gid req.mid s.msgs
      let notice := c.recallNotice account req target.gid recalled.1 now extra
      let posted := .recalled account req target notice
      match e.result with
      | .failed => (s, [])
      | .lost => ({ s with msgs := recalled.2, posted := posted :: s.posted }, [])
      | .done => ({ s with msgs := recalled.2, posted := posted :: s.posted }, [.publish posted])
  | .publish posted =>
      (if e.result = .failed then s
        else { s with published := c.sendGroupChatMsg posted.published :: s.published }, [])

/-- A request comes in. -/
def receive (s : GroupMsgState) : GroupMsgEvent → GroupMsgState × List GroupMsgCall
  | .sendMsg account req =>
      (s, match c.sendMsg req with
        | .error _ => []
        | .ok () => [.getGroup account req])
  | .recallMsg account req => (s, [.getMsg account req])
  | .store msg _ => ({ s with msgs := (dao.insert msg s.msgs).2 }, [])

/-- All requests, their steps in any order -/
def system : CallSystem GroupMsgState GroupMsgCall GroupMsgEffect GroupMsgEvent where
  next s call e := some (c.next dao s e call)
  env p event := some (c.receive dao p.shared event)

/-- Nothing is stored yet. -/
def start : Pool GroupMsgState GroupMsgCall := ⟨{}, []⟩

end GroupMsgController

end BcmServer.Group
