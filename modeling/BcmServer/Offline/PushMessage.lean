import BcmServer.Offline.MemberCache
import BcmServer.Offline.PushNotification
import BcmServer.Util.Ordered

/-!
# BcmServer.Offline.PushMessage — pushing the messages of a group

For a message an offline server takes the users of the group to whom no later
message has been pushed, looks up how to push to those of whom it does not know
it, pushes to all of them, itself or through another offline server, and writes
their records. A user without an account or without a device to push to is flagged
in the record.

What is done is given as a list of actions; the rest of the world answers through
`PushAnswers`.
-/

namespace BcmServer.Offline

open BcmServer.Util BcmServer.Redis
open BcmServer.Group (Gid)

/-- `OfflineServerConfig`, what pushing depends on -/
structure OfflineServerConfig where
  isPush : Bool
  pushType : List Bytes
deriving DecidableEq, Repr

def OfflineServerConfig.checkPushType (c : OfflineServerConfig) (checkingType : Bytes) : Bool :=
  c.pushType.any fun it => it = checkingType

/-- What others answer while a message is processed. -/
structure PushAnswers where
  /-- the accounts of some users, if the database answers -/
  accounts : List Bytes → Option (List Account)
  /-- the clock when the device of a user is looked at -/
  now : Bytes → Int64
  /-- `getRandomOfflineServerByType` -/
  offlineServer : Bytes → Bytes
  /-- HMSET succeeds in a database. -/
  hmset : UInt32 → Bool

/-- What is done for a message. A notification is made for a user, and goes to the
device in it. -/
inductive PushAction where
  | sendNotification (uid pushType : Bytes) (notification : Notification)
  | postGroupMessage (offlineSvrAddr : Bytes) (gid : Gid) (mid : UInt64)
      (destinations : List (Bytes × Json))
  | hdel (redisId : Int32) (gid : Gid) (uids : List Bytes)
  | hmset (redisId : UInt32) (gid : Gid) (values : List (Bytes × Json)) (res : Bool)

namespace PushAction

/-- A notification is sent to the user, or another server is asked to send one. The
push service has no empty type. -/
def pushes (uid : Bytes) : PushAction → Prop
  | sendNotification uid' pushType _ => uid' = uid ∧ pushType ≠ []
  | postGroupMessage _ _ _ destinations => ∃ value, (uid, value) ∈ destinations
  | hdel _ _ _ => False
  | hmset _ _ _ _ => False

/-- The record of the user is written. -/
def writes (uid : Bytes) (value : Json) : PushAction → Prop
  | sendNotification _ _ _ => False
  | postGroupMessage _ _ _ _ => False
  | hdel _ _ _ => False
  | hmset _ _ values res => res = true ∧ (uid, value) ∈ values

end PushAction

/-- `AccountsManager::get`: the accounts of some users, and the users without one -/
def PushAnswers.getAccounts (ans : PushAnswers) (uids : List Bytes) :
    Option (List Account × List Bytes) :=
  (ans.accounts uids).map fun accounts =>
    (accounts, inOrder (uids.toFinset \ (accounts.map Account.uid).toFinset))

namespace GroupUserMessageIdInfo

/-- It is to be looked up how to push to the user. -/
def pushUnknown (gu : GroupUserMessageIdInfo) : Bool :=
  (gu.gcmId.isEmpty && gu.umengId.isEmpty && gu.apnId.isEmpty) ||
    (!gu.apnId.isEmpty && gu.osVersion.isEmpty)

end GroupUserMessageIdInfo

/-- `groupUserMsgId[uid].cfgFlag = NO_CONFIG` -/
def setNoConfig (groupUserMsgId : GroupUserMsgs) (uid : Bytes) : GroupUserMsgs :=
  groupUserMsgId.insert uid ((groupUserMsgId.lookup uid).getD .initial).flag

/-- An offline server -/
structure PushServer where
  numbers : ProtoNumbers
  config : OfflineServerConfig

namespace PushServer

variable (srv : PushServer) (ans : PushAnswers)

/-- The loop over the accounts -/
def mergeAccount (groupUserMsgId : GroupUserMsgs) (a : Account) : GroupUserMsgs :=
  match a.getDevice srv.numbers.masterId with
  | none => groupUserMsgId
  | some dev =>
      if !dev.isDevicePushable (ans.now a.uid) then setNoConfig groupUserMsgId a.uid
      else
        match groupUserMsgId.lookup a.uid with
        | none => groupUserMsgId
        | some gu => groupUserMsgId.insert a.uid (gu.withDevice a.uid dev)

/-- `dbGetAccountsPushType`: the map and the missed users, unless the database
fails. -/
def dbGetAccountsPushType (uids : List Bytes) (groupUserMsgId : GroupUserMsgs)
    (missedUids : List Bytes) : Option (GroupUserMsgs × List Bytes) :=
  (ans.getAccounts uids).map fun (accountList, missed) =>
    (accountList.foldl (srv.mergeAccount ans) (missed.foldl setNoConfig groupUserMsgId),
      missedUids ++ missed)

/-- The loop of `dbBatchGetAccountsPushType`, with `partUids` -/
def batchLoop : List Bytes → List Bytes → GroupUserMsgs → List Bytes →
    Option (GroupUserMsgs × List Bytes)
  | [], partUids, groupUserMsgId, missedUids =>
      if partUids.isEmpty then some (groupUserMsgId, missedUids)
      else srv.dbGetAccountsPushType ans partUids groupUserMsgId missedUids
  | uid :: uids, partUids, groupUserMsgId, missedUids =>
      if 20 ≤ (partUids ++ [uid]).length then
        match srv.dbGetAccountsPushType ans (partUids ++ [uid]) groupUserMsgId missedUids with
        | none => none
        | some (groupUserMsgId, missedUids) => batchLoop uids [] groupUserMsgId missedUids
      else batchLoop uids (partUids ++ [uid]) groupUserMsgId missedUids

def dbBatchGetAccountsPushType (uids : List Bytes) (groupUserMsgId : GroupUserMsgs)
    (missedUids : List Bytes) : Option (GroupUserMsgs × List Bytes) :=
  srv.batchLoop ans uids [] groupUserMsgId missedUids

end PushServer

/-- The loop of `getOfflineAccountAndPushType` over the members: `offlineUids` and
`noPushTypeUids` -/
def selectUser (gm : GroupMessageIdInfo) (groupUserMsgId : GroupUserMsgs)
    (s : GroupUserMsgs × List Bytes) (uid : Bytes) : GroupUserMsgs × List Bytes :=
  match groupUserMsgId.lookup uid with
  | some gu =>
      if gm.lastMid ≤ gu.lastMid then s
      else if gu.flagged then s
      else (s.1.insert uid gu, if gu.pushUnknown then s.2 ++ [uid] else s.2)
  | none => (s.1.insert uid { GroupUserMessageIdInfo.initial with lastMid := gm.lastMid },
      s.2 ++ [uid])

def selectUsers (gm : GroupMessageIdInfo) (groupUserMsgId : GroupUserMsgs)
    (groupMembers : UidSet) : GroupUserMsgs × List Bytes :=
  (inOrder groupMembers).foldl (selectUser gm groupUserMsgId) (∅, [])

/-- What `getOfflineAccountAndPushType` gives where it returns true. -/
structure OfflineUsers where
  offlineUids : GroupUserMsgs
  groupUserMsgId : GroupUserMsgs
  actions : List PushAction

/-- The loop that updates the cache -/
def updateCache (offlineUids groupUserMsgId : GroupUserMsgs) (noPushTypeUids : List Bytes) :
    GroupUserMsgs :=
  noPushTypeUids.foldl (fun m uid =>
    match offlineUids.lookup uid with
    | some gu => m.insert uid gu
    | none => m) groupUserMsgId

namespace PushServer

variable (srv : PushServer) (ans : PushAnswers)

def getOfflineAccountAndPushType (groupMembers : UidSet) (gid : Gid) (gm : GroupMessageIdInfo)
    (groupUserMsgId : GroupUserMsgs) : Option OfflineUsers :=
  let selected := selectUsers gm groupUserMsgId groupMembers
  if selected.1.keys.isEmpty then none
  else
    match srv.dbBatchGetAccountsPushType ans selected.2 selected.1 [] with
    | none => none
    | some (offlineUids, missedUids) =>
        some {
          offlineUids := offlineUids
          groupUserMsgId := updateCache offlineUids groupUserMsgId selected.2
          actions := if missedUids.isEmpty then [] else [.hdel gm.redisId gid missedUids] }

/-! ## Pushing -/

/-- A notification this server sends -/
def pushSelf (gid : Gid) (e : Bytes × GroupUserMessageIdInfo) : List PushAction :=
  let pushType := (e.2.notification gid).getPushType srv.numbers
  if srv.config.checkPushType pushType && srv.config.isPush then
    [.sendNotification e.1 pushType (e.2.notification gid)]
  else []

/-- `mPushOther` -/
def pushOther (gid : Gid) (rows : List (Bytes × GroupUserMessageIdInfo)) :
    List (Bytes × List (Bytes × Json)) :=
  let others := rows.filterMap fun e =>
    let pushType := (e.2.notification gid).getPushType srv.numbers
    if srv.config.checkPushType pushType || pushType.isEmpty then none
    else some (pushType, e.1, e.2.toJson)
  (inOrder (others.map Prod.fst).toFinset).map fun pushType =>
    (pushType, (others.filter fun e => e.1 = pushType).map Prod.snd)

/-- The loop over `mPushOther` -/
def postOther (gid : Gid) (mid : UInt64) (e : Bytes × List (Bytes × Json)) : List PushAction :=
  let offSvrAddr := ans.offlineServer e.1
  if !offSvrAddr.isEmpty && srv.config.isPush then [.postGroupMessage offSvrAddr gid mid e.2]
  else []

end PushServer

/-- The loop over the databases, until one takes the records -/
def hmsetOne (ans : PushAnswers) (gid : Gid) (vecHashDb : List (Bytes × Json)) :
    List UInt32 → List PushAction
  | [] => []
  | redis :: vecDbList =>
      .hmset redis gid vecHashDb (ans.hmset redis) ::
        if ans.hmset redis then [] else hmsetOne ans gid vecHashDb vecDbList

/-- The users in the loop of `doPushMessage`, with `last_mid` set -/
def pushRows (gm : GroupMessageIdInfo) (offlineUids : GroupUserMsgs) :
    List (Bytes × GroupUserMessageIdInfo) :=
  offlineUids.rowsInOrder.map fun e => (e.1, { e.2 with lastMid := gm.lastMid })

namespace PushServer

variable (srv : PushServer) (ans : PushAnswers)

def doPushMessage (vecDbList : List UInt32) (gid : Gid) (gm : GroupMessageIdInfo)
    (offlineUids : GroupUserMsgs) : List PushAction :=
  let rows := pushRows gm offlineUids
  rows.flatMap (srv.pushSelf gid) ++
    (srv.pushOther gid rows).flatMap (srv.postOther ans gid gm.lastMid) ++
    hmsetOne ans gid (rows.map fun e => (e.1, e.2.toJson)) vecDbList

def handleMemberUpdateMessage (vecDbList : List UInt32) (gid : Gid) (gm : GroupMessageIdInfo)
    (groupUserMsgId : GroupUserMsgs) : GroupUserMsgs × List PushAction :=
  match srv.getOfflineAccountAndPushType ans gm.gmm.members gid gm groupUserMsgId with
  | none => (groupUserMsgId, [])
  | some r =>
      let offlineUids := r.offlineUids.erase gm.gmm.fromUid
      if offlineUids.keys.isEmpty then (r.groupUserMsgId, r.actions)
      else (r.groupUserMsgId, r.actions ++ srv.doPushMessage ans vecDbList gid gm offlineUids)

def handleGroupMessagePush (vecDbList : List UInt32) (gid : Gid) (gm : GroupMessageIdInfo)
    (memberUids : UidSet) (groupUserMsgId : GroupUserMsgs) : GroupUserMsgs × List PushAction :=
  match srv.getOfflineAccountAndPushType ans memberUids gid gm groupUserMsgId with
  | none => (groupUserMsgId, [])
  | some r =>
      (r.groupUserMsgId, r.actions ++ srv.doPushMessage ans vecDbList gid gm r.offlineUids)

/-- The body of the loop of `handleOfflineGroupMessage` -/
def handleMessage (vecDbList : List UInt32) (gid : Gid) (memberUids : UidSet)
    (gm : GroupMessageIdInfo) (groupUserMsgId : GroupUserMsgs) :
    GroupUserMsgs × List PushAction :=
  if gm.type = PushPeopleType.toDesignatedPerson.value then
    srv.handleMemberUpdateMessage ans vecDbList gid gm groupUserMsgId
  else if gm.type = PushPeopleType.toAll.value then
    srv.handleGroupMessagePush ans vecDbList gid gm memberUids groupUserMsgId
  else (groupUserMsgId, [])

/-- The loop of `handleOfflineGroupMessage` over `gms`, from the message with a
number on -/
def handleMessages (answers : ℕ → PushAnswers) (vecDbList : List UInt32) (gid : Gid)
    (memberUids : UidSet) : ℕ → List GroupMessageIdInfo → GroupUserMsgs →
    GroupUserMsgs × List PushAction
  | _, [], groupUserMsgId => (groupUserMsgId, [])
  | i, gm :: gms, groupUserMsgId =>
      let r := srv.handleMessage (answers i) vecDbList gid memberUids gm groupUserMsgId
      let rest := handleMessages answers vecDbList gid memberUids (i + 1) gms r.1
      (rest.1, r.2 ++ rest.2)

/-- What is deleted after the messages: users with a record who have no role in
the group. `roles` are the users with a role, if the database answers. -/
def cleanMembers (vecDbList : List UInt32) (gid : Gid) (memberUids : UidSet)
    (roles : Option (Finset Bytes)) (groupUserMsgId : GroupUserMsgs) : List PushAction :=
  let groupMissMap := groupUserMsgId.keys.toFinset \ memberUids
  match roles with
  | none => []
  | some roles =>
      if groupMissMap = ∅ then []
      else vecDbList.map fun redis => .hdel redis.toInt32 gid (inOrder (groupMissMap \ roles))

/-- `handleOfflineGroupMessage`, with the members it has loaded, if it could, and
the records it has read -/
def handleOfflineGroupMessage (answers : ℕ → PushAnswers) (vecDbList : List UInt32) (gid : Gid)
    (members : Option UidSet) (groupUserMsgId : GroupUserMsgs) (roles : Option (Finset Bytes))
    (gmt : GroupMessageInfoTask) : List PushAction :=
  match members with
  | none => []
  | some memberUids =>
      if memberUids = ∅ then []
      else
        let r := srv.handleMessages answers vecDbList gid memberUids 0 gmt.gms groupUserMsgId
        r.2 ++ cleanMembers vecDbList gid memberUids roles r.1

end PushServer

end BcmServer.Offline
