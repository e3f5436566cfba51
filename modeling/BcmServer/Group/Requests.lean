import BcmServer.Group.Store
import BcmServer.Util.Json

/-!
# BcmServer.Group.Requests — the requests of the group manager and their checks

The bodies of the requests with their `check` functions, and the signatures that
the handlers verify. A check gives the message of the first rule that is
violated, none if the request is accepted; the checks that only log give a
boolean.

`Env` holds what comes from outside of the group manager: the signature scheme,
the encodings, the contact filters, the numbers of a generated enumeration and
the configuration.
-/

namespace BcmServer.Group

open BcmServer.Util BcmServer.Lts

structure Env where
  /-- `AccountHelper::verifySignature`, of the public key, the data and the signature -/
  verifySignature : Bytes → Bytes → Bytes → Bool
  /-- `Base64::decode` -/
  decode : Bytes → Bytes
  /-- `nlohmann::json::parse`, none where it throws -/
  parse : Bytes → Option Json
  /-- `BloomFilters::contains`, of the algorithm, the decoded content and the uid -/
  filterContains : Int32 → Bytes → Bytes → Bool
  /-- `Group::BROADCAST_OFF` -/
  broadcastOff : Int32
  /-- `Group::BroadcastStatus_IsValid` -/
  broadcastIsValid : Int32 → Bool
  groupConfig : GroupConfig

/-- What a request comes with: the authenticated account, whether its device has
to be upgraded first, what the limiters answer, the time, and the number the
database is going to give to a new group. -/
structure Context where
  account : Account
  needUpgrade : Bool := false
  creationLimited : Bool := false
  joinLimited : Bytes → Bool := fun _ => false
  nowInMilli : ℤ
  newGid : Gid := 0

def Context.uid (ctx : Context) : Bytes := ctx.account.uid

/-- The status of a response; `exception` is an exception that leaves the
handler. -/
inductive HttpStatus where
  | ok
  | noContent
  | badRequest
  | forbidden
  | notFound
  | limiterRejected
  | upgradeRequired
  | internalServerError
  | exception
deriving DecidableEq, Repr

def HttpStatus.isError : HttpStatus → Bool
  | ok | noContent => false
  | _ => true

/-- The entity of a response. -/
inductive ResponseEntity where
  | empty
  | success
  | created (gid : Gid)
  | joined (ownerConfirm : Bool) (encryptedGroupInfoSecret : Bytes)
  | invited (successMembers failedMembers : List Bytes)
deriving DecidableEq, Repr

/-- A response, and the number of members the handler has passed to
`sendGroupKeysUpdateRequestWhenMemberChanges`. -/
structure Reply where
  status : HttpStatus
  entity : ResponseEntity := .empty
  keysCount : Option UInt32 := none
deriving DecidableEq, Repr

/-- A response without an entity. -/
def Reply.of (status : HttpStatus) : Reply := { status }

/-- `group::GroupVersion::GroupV3` -/
def groupV3 : Int32 := 3

/-- `kQrCodeGroupUserTtl` -/
def kQrCodeGroupUserTtl : ℕ := 60

/-- `"bcm_backend_manager"` -/
def backendManager : Bytes := ascii "bcm_backend_manager".toList

/-- `getMemberJoinLimiterId` -/
def getMemberJoinLimiterId (gid : Gid) (uid : Bytes) : Bytes :=
  decimal gid.toNat ++ ascii ['_'] ++ uid

/-! ## The limits -/

def kMaxGroupNameLength : ℕ := 512
def kMaxGroupIconLength : ℕ := 512
def kMaxGroupIntroLength : ℕ := 2048
def kMaxGroupNoticeLength : ℕ := 4096
def kMaxGroupKeyLength : ℕ := 1024
def kMaxGroupProofLength : ℕ := 512
def kMaxGroupCreateMemberCount : ℕ := 128
def kMaxGroupUidLength : ℕ := 65
def kMaxGroupPlainChannelKeyLength : ℕ := 256
def kMaxGroupInfoSecretLength : ℕ := 1024
def kMaxQrCodeSettingLength : ℕ := 1024
def kMaxShareSignatureLength : ℕ := 512
def kMaxShareAndOwnerConfirmSignatureLength : ℕ := 512
def kMaxPendingGroupUserSignatureLength : ℕ := 2048
def kMaxAccountUidLength : ℕ := 64
def kMaxPendingGroupUserCommentLength : ℕ := 2048

/-- The message of the first rule that is violated. -/
def firstViolation (rules : List (Bool × String)) : Option String :=
  (rules.find? Prod.fst).map Prod.snd

/-- The rule that a text is at most so long. -/
def atMost (max : ℕ) (text : Bytes) (msg : String) : Bool × String :=
  (max < text.length, msg ++ toString max)

/-- A uid that cannot be one of a member. -/
def invalidMember (uid : Bytes) : Bool := uid.isEmpty || kMaxGroupUidLength < uid.length

/-! ## Signatures -/

/-- `std::to_string` of an `int` -/
def intText (n : Int32) : Bytes := intDecimal n.toInt

/-- `verifyGroupSetting` -/
def verifyGroupSetting (env : Env) (qrCodeSetting shareSignature : Bytes) (ownerConfirm : Int32)
    (shareAndOwnerConfirmSignature ownerPublicKey : Bytes) : Bool :=
  let decoded := if shareSignature.isEmpty then [] else env.decode qrCodeSetting
  (shareSignature.isEmpty || env.verifySignature ownerPublicKey decoded shareSignature) &&
    (shareAndOwnerConfirmSignature.isEmpty ||
      env.verifySignature ownerPublicKey (decoded ++ intText ownerConfirm)
        shareAndOwnerConfirmSignature)

/-- `verifyGroupSetting` of the stored settings -/
def GroupRecord.verifies (env : Env) (group : GroupRecord) (ownerPublicKey : Bytes) : Bool :=
  verifyGroupSetting env group.shareQrCodeSetting group.shareSignature group.ownerConfirm
    group.shareAndOwnerConfirmSignature ownerPublicKey

/-- One of the settings is missing. -/
def GroupRecord.settingEmpty (group : GroupRecord) : Bool :=
  group.shareQrCodeSetting.isEmpty || group.shareSignature.isEmpty ||
    group.shareAndOwnerConfirmSignature.isEmpty

/-- The signature of the user who joins, under the QR code and its token. -/
def verifyJoin (env : Env) (account : Account) (qrCode qrCodeToken signature : Bytes) : Bool :=
  env.verifySignature account.publicKey (env.decode qrCode ++ env.decode qrCodeToken) signature

/-- The signature of the user who invites; the text may not be JSON. -/
def verifyInvitation (env : Env) (account : Account) (info : Bytes) :
    Except JsonError Bool := do
  let some j := env.parse (env.decode info) | throw .parseError
  let data ← (← j.at_ "data").getString
  let sig ← (← j.at_ "sig").getString
  return env.verifySignature account.publicKey (env.decode data) sig

/-- The signatures of an invitation, up to the first that is wrong or throws. -/
def verifyInvitations (env : Env) (account : Account) : List Bytes → Option HttpStatus
  | [] => none
  | info :: infos =>
      match verifyInvitation env account info with
      | .error _ => some .exception
      | .ok false => some .badRequest
      | .ok true => verifyInvitations env account infos

/-! ## Kick and leave -/

structure KickGroupMemberBody where
  gid : Gid
  members : List Bytes

def KickGroupMemberBody.check (body : KickGroupMemberBody) (uid : Bytes) : Option String :=
  if kMaxGroupCreateMemberCount < body.members.length then
    some ("max members count: " ++ toString kMaxGroupCreateMemberCount)
  else if body.members.isEmpty then some "members is empty"
  else body.members.findSome? fun m =>
    if invalidMember m then some "invalid member" else if m = uid then some "kick self" else none

structure LeaveGroupBody where
  gid : Gid
  nextOwner : Bytes

def LeaveGroupBody.check (body : LeaveGroupBody) : Option String :=
  firstViolation [(body.gid = 0, "gid is not set"),
    atMost kMaxGroupUidLength body.nextOwner "max next_owner length: "]

/-! ## Create -/

structure CreateGroupBodyV3 where
  name : Bytes := []
  icon : Bytes := []
  intro : Bytes := []
  broadcast : Int32 := 0
  ownerSecretKey : Bytes
  members : List Bytes
  membersGroupInfoSecrets : List Bytes
  ownerNickname : Bytes := []
  ownerProfileKeys : Bytes := []
  qrCodeSetting : Bytes
  ownerConfirm : Int32
  shareSignature : Bytes
  shareAndOwnerConfirmSignature : Bytes
  encryptedGroupInfoSecret : Bytes := []
  memberProofs : List Bytes
  ownerProof : Bytes
  groupKeysMode : GroupKeysMode

def CreateGroupBodyV3.check (env : Env) (body : CreateGroupBodyV3) : Option String :=
  firstViolation [
    atMost kMaxGroupNameLength body.name "max name length: ",
    atMost kMaxGroupIconLength body.icon "max icon length: ",
    atMost kMaxGroupIntroLength body.intro "max intro length: ",
    (body.broadcast ≠ env.broadcastOff, "broadcast should be off"),
    (kMaxGroupCreateMemberCount < body.members.length,
      "max members count: " ++ toString kMaxGroupCreateMemberCount),
    (body.members.isEmpty, "members is empty"),
    (body.members.any invalidMember, "invalid member"),
    (body.ownerSecretKey.isEmpty || body.ownerProof.isEmpty,
      "owner_group_info_secret and owner_proof can not be empty"),
    (body.members.length ≠ body.memberProofs.length ∨
        body.members.length ≠ body.membersGroupInfoSecrets.length,
      "secrets or proofs count is not equal to members count"),
    (body.memberProofs.any (kMaxGroupProofLength < ·.length),
      "max memberProof length: " ++ toString kMaxGroupProofLength),
    (body.membersGroupInfoSecrets.any (kMaxGroupInfoSecretLength < ·.length),
      "the length of group info secret beyond " ++ toString kMaxGroupInfoSecretLength),
    (body.groupKeysMode ≠ .oneForEach, "group keys mode only support 0 currently!")]

/-- The group a request to create one asks for. -/
def CreateGroupBodyV3.group (body : CreateGroupBodyV3) : GroupRecord where
  version := groupV3
  encryptStatus := .on
  shareQrCodeSetting := body.qrCodeSetting
  shareSignature := body.shareSignature
  ownerConfirm := body.ownerConfirm
  shareAndOwnerConfirmSignature := body.shareAndOwnerConfirmSignature
  encryptedGroupInfoSecret := body.encryptedGroupInfoSecret

/-! ## Join -/

/-- `GroupJoinRequest` and `GroupJoinRequestV3` -/
structure GroupJoinRequest where
  gid : Gid
  qrCode : Bytes
  qrCodeToken : Bytes
  signature : Bytes
  comment : Bytes := []

/-- The check of either version. -/
def GroupJoinRequest.check (req : GroupJoinRequest) : Option String :=
  firstViolation [
    atMost kMaxShareSignatureLength req.qrCode "the length of qr code is beyond ",
    atMost kMaxShareSignatureLength req.qrCodeToken "the length of qr code token is beyond ",
    atMost kMaxPendingGroupUserSignatureLength req.signature "the length of signature is beyond ",
    atMost kMaxPendingGroupUserCommentLength req.comment "the length of comment is beyond "]

structure AddMeRequestV3 where
  gid : Gid
  groupInfoSecret : Bytes
  proof : Bytes

def AddMeRequestV3.check (req : AddMeRequestV3) : Bool :=
  req.groupInfoSecret.length ≤ kMaxGroupInfoSecretLength &&
    req.proof.length ≤ kMaxShareSignatureLength

/-! ## Invite -/

structure InviteGroupMemberRequestV3 where
  gid : Gid
  members : List Bytes
  memberGroupInfoSecrets : List Bytes := []
  memberProofs : List Bytes := []
  signatureInfos : List Bytes := []

def InviteGroupMemberRequestV3.check (req : InviteGroupMemberRequestV3) : Bool :=
  !req.members.isEmpty && req.members.length ≤ kMaxGroupCreateMemberCount &&
    !req.members.any invalidMember && decide req.members.Nodup &&
    req.memberProofs.all (·.length ≤ kMaxShareSignatureLength) &&
    req.memberGroupInfoSecrets.all (·.length ≤ kMaxGroupInfoSecretLength) &&
    req.signatureInfos.all (·.length ≤ kMaxPendingGroupUserSignatureLength)

structure InviteGroupMemberBodyV2 where
  gid : Gid
  members : List Bytes
  memberGroupInfoSecrets : List Bytes := []
  memberKeys : List Bytes := []
  signatureInfos : List Bytes := []

def InviteGroupMemberBodyV2.check (body : InviteGroupMemberBodyV2) : Option String :=
  firstViolation [
    (kMaxGroupCreateMemberCount < body.members.length,
      "max members count: " ++ toString kMaxGroupCreateMemberCount),
    (body.members.isEmpty, "members is empty: "),
    (body.members.any invalidMember, "invalid member"),
    (body.members.length ≠ body.memberKeys.length ∨
        body.members.length ≠ body.memberGroupInfoSecrets.length,
      "secrets count is not equal to members count"),
    (body.memberKeys.any (kMaxGroupKeyLength < ·.length),
      "max memberKey length: " ++ toString kMaxGroupKeyLength),
    (body.memberGroupInfoSecrets.any (kMaxGroupInfoSecretLength < ·.length),
      "the length of group info secret beyond " ++ toString kMaxGroupInfoSecretLength),
    (body.signatureInfos.any (kMaxPendingGroupUserSignatureLength < ·.length),
      "the length of signature beyond " ++ toString kMaxPendingGroupUserSignatureLength)]

/-! ## Review -/

structure ReviewJoinResultV3 where
  uid : Bytes
  accepted : Bool
  groupInfoSecret : Bytes := []
  inviter : Bytes := []
  proof : Bytes := []

structure ReviewJoinResultRequestV3 where
  gid : Gid
  list : List ReviewJoinResultV3

def ReviewJoinResultRequestV3.check (req : ReviewJoinResultRequestV3) : Bool :=
  req.list.all fun item =>
    item.uid.length ≤ kMaxAccountUidLength && item.proof.length ≤ kMaxShareSignatureLength &&
      item.groupInfoSecret.length ≤ kMaxGroupInfoSecretLength &&
      item.inviter.length ≤ kMaxAccountUidLength

structure ReviewJoinResult where
  uid : Bytes
  accepted : Bool
  groupSecret : Bytes := []
  groupInfoSecret : Bytes := []
  inviter : Bytes := []

structure ReviewJoinResultList where
  gid : Gid
  list : List ReviewJoinResult

def ReviewJoinResultList.check (req : ReviewJoinResultList) : Bool :=
  req.list.all fun item =>
    item.uid.length ≤ kMaxAccountUidLength && item.groupSecret.length ≤ kMaxGroupKeyLength &&
      item.groupInfoSecret.length ≤ kMaxGroupInfoSecretLength &&
      item.inviter.length ≤ kMaxAccountUidLength

/-! ## Update -/

structure UpdateGroupInfoBodyV2 where
  gid : Gid
  name : Bytes := []
  icon : Bytes := []
  intro : Bytes := []
  broadcast : Int32 := -1
  plainChannelKey : Bytes := []
  nameExisted : Bool := false
  iconExisted : Bool := false
  qrCodeSetting : Bytes := []
  ownerConfirm : Int32 := -1
  shareSignature : Bytes := []
  shareAndOwnerConfirmSignature : Bytes := []
  encryptedNameExisted : Bool := false
  encryptedIconExisted : Bool := false
  encryptedNoticeExisted : Bool := false
  encryptedName : Bytes := []
  encryptedIcon : Bytes := []
  encryptedNotice : Bytes := []

structure UpdateGroupInfoBodyV3 extends UpdateGroupInfoBodyV2 where
  encryptedGroupInfoSecretExisted : Bool := false
  encryptedEphemeralKeyExisted : Bool := false
  encryptedGroupInfoSecret : Bytes := []
  encryptedEphemeralKey : Bytes := []

/-- The rules on the plain fields and the settings. -/
def UpdateGroupInfoBodyV2.settingRules (env : Env) (body : UpdateGroupInfoBodyV2) :
    List (Bool × String) := [
  atMost kMaxGroupNameLength body.name "max name length: ",
  atMost kMaxGroupIconLength body.icon "max icon length: ",
  atMost kMaxGroupIntroLength body.intro "max intro length: ",
  (body.broadcast ≠ -1 ∧ !env.broadcastIsValid body.broadcast, "invalid broadcast setting"),
  (body.broadcast = env.broadcastOff, "broadcast can not be turn off"),
  atMost kMaxGroupPlainChannelKeyLength body.plainChannelKey "max plain_channel_key length: ",
  atMost kMaxShareSignatureLength body.shareSignature "the length of shareSignature beyond",
  atMost kMaxShareAndOwnerConfirmSignatureLength body.shareAndOwnerConfirmSignature
    "the length of shareAndConfirmSignature beyond",
  atMost kMaxQrCodeSettingLength body.qrCodeSetting "the length of qrCodeSetting beyond"]

/-- The rule that a text is at most so long; its message has the length. -/
def lengthAtMost (max : ℕ) (text : Bytes) (msg : String) : Bool × String :=
  (max < text.length, msg ++ toString text.length)

/-- The rules on the encrypted fields. -/
def UpdateGroupInfoBodyV2.encryptedRules (body : UpdateGroupInfoBodyV2) :
    List (Bool × String) := [
  lengthAtMost kMaxGroupNameLength body.encryptedName "invalid encrypted_name length: ",
  lengthAtMost kMaxGroupIconLength body.encryptedIcon "invalid encrypted_icon length: ",
  lengthAtMost kMaxGroupNoticeLength body.encryptedNotice "invalid encrypted_notice length: ",
  ((body.encryptedNameExisted || body.encryptedIconExisted || body.encryptedNoticeExisted) &&
    (body.nameExisted || body.iconExisted), "please set encrypted only")]

def UpdateGroupInfoBodyV2.check (env : Env) (body : UpdateGroupInfoBodyV2) : Option String :=
  firstViolation (body.settingRules env ++ body.encryptedRules)

def UpdateGroupInfoBodyV3.check (env : Env) (body : UpdateGroupInfoBodyV3) : Option String :=
  firstViolation (body.settingRules env ++ [
    lengthAtMost kMaxGroupInfoSecretLength body.encryptedGroupInfoSecret
      "invalid encrypted_group_info_secret length: ",
    lengthAtMost kMaxGroupKeyLength body.encryptedEphemeralKey
      "invalid encrypted_ephemeral_key length: "] ++ body.encryptedRules)

/-- A text that is sent only if it is not empty. -/
def nonEmpty (text : Bytes) : Option Bytes := if text.isEmpty then none else some text

/-- The settings of the update, as `to_json` writes them. -/
def UpdateGroupInfoBodyV2.upData (body : UpdateGroupInfoBodyV2) : GroupUpdate where
  shareQrCodeSetting := nonEmpty body.qrCodeSetting
  ownerConfirm := if body.ownerConfirm ≠ -1 then some body.ownerConfirm else none
  shareSignature := nonEmpty body.shareSignature
  shareAndOwnerConfirmSignature := nonEmpty body.shareAndOwnerConfirmSignature
  encryptedGroupInfoSecret := none

def UpdateGroupInfoBodyV3.upData (body : UpdateGroupInfoBodyV3) : GroupUpdate :=
  { body.toUpdateGroupInfoBodyV2.upData with
    encryptedGroupInfoSecret :=
      if body.encryptedGroupInfoSecretExisted then some body.encryptedGroupInfoSecret else none }

end BcmServer.Group
