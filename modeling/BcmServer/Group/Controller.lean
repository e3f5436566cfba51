import BcmServer.Group.Requests

/-!
# BcmServer.Group.Controller — the handlers of `GroupManagerController`, third version

Create, leave, kick, invite, join, add-me, review and update, as programs of DAO
calls. A handler reads, checks and writes in the order of the source and returns
at the first failure. What it publishes on redis is left out; the system messages
it stores are calls like the others.

`sendGroupKeysUpdateRequestWhenMemberChanges` ends the handlers that change the
members of a group: it reads the latest mode where the number of members does
not decide, and asks for new keys.
-/

namespace BcmServer.Group

open BcmServer.Util BcmServer.Lts

namespace GroupManagerController

/-! ## Messages and keys -/

/-- `pubGroupSystemMessage` -/
def pubGroupSystemMessage (uid : Bytes) (gid : Gid) (type : SystemMessage) : Dao Bool := do
  match ← Dao.write (.groupMessageInsert gid uid type) with
  | .ok _ => return true
  | .error _ => return false

/-- The message is tried so often. -/
def pubWithRetry (uid : Bytes) (gid : Gid) (type : SystemMessage) : ℕ → Dao Bool
  | 0 => return false
  | n + 1 => do
      if ← pubGroupSystemMessage uid gid type then return true
      pubWithRetry uid gid type n

/-- `sendGroupKeysUpdateRequestWithRetry` -/
def sendGroupKeysUpdateRequestWithRetry (uid : Bytes) (gid : Gid) (mode : GroupKeysMode) :
    Dao Unit := do
  if ← pubWithRetry uid gid .updateGroupKeysRequest 3 then
    if mode = .oneForEach then
      -- the keys go into the cache
      let _ ← Dao.read (.getKeysByGid gid)

/-- The number of members does not decide the mode of the keys alone. -/
def readsLatestMode (cfg : GroupConfig) (count : UInt32) : Bool :=
  !(count ≤ cfg.powerGroupMin) &&
    !(cfg.powerGroupMax < count && count ≤ cfg.normalGroupRefreshKeysMax)

/-- `getLatestMode`, where it is read -/
def latestMode (cfg : GroupConfig) (gid : Gid) (count : UInt32) : Dao (Option GroupKeysMode) := do
  if readsLatestMode cfg count then
    match ← Dao.read (.getLatestMode gid) with
    | .ok mode => return some mode
    | .error _ => return none
  else return none

/-- `sendGroupKeysUpdateRequestWhenMemberChanges` -/
def updateGroupKeys (env : Env) (uid : Bytes) (gid : Gid) (count : UInt32) : Dao Unit := do
  let latest ← latestMode env.groupConfig gid count
  match sendGroupKeysUpdateRequestWhenMemberChanges env.groupConfig count latest with
  | .send mode => sendGroupKeysUpdateRequestWithRetry uid gid mode
  | .keep | .shouldNotReach => return ()

/-! ## The owner, the members and their contacts -/

/-- `getGroupOwner` -/
def getGroupOwner (gid : Gid) : Dao (Option Account) := do
  match ← Dao.read (.getGroupOwner gid) with
  | .error _ => return none
  | .ok ownerUid =>
      match ← Dao.read (.accountsGet ownerUid) with
      | .error _ => return none
      | .ok owner => return some owner

/-- The roles of users, `ROLE_UNDEFINE` for those without a row; none if they
cannot be read -/
def memberRoles (gid : Gid) (uids : List Bytes) : Dao (Option (Bytes → Role)) := do
  match ← Dao.read (.getMemberRoles gid uids) with
  | .ok roles => return some roles
  | .error .noSuchData => return some fun _ => .undefine
  | .error _ => return none

/-- The account has no filter, or the user is in it. -/
def isFriend (env : Env) (account : Account) (uid : Bytes) : Bool :=
  match account.contactsFilters with
  | none => true
  | some filters => env.filterContains filters.algo (env.decode filters.content) uid

/-- Whether the account is a friend of the members, in their own filters. The
status with which the request ends, if it does. -/
def checkMembersFilters (env : Env) (account : Account) : List Bytes → Dao (Option HttpStatus)
  | [] => return none
  | m :: members => do
      match ← Dao.read (.accountsGet m) with
      | .error _ => return some .internalServerError
      | .ok memberAccount =>
          -- "200 ok" hides the truth from attackers
          if !isFriend env memberAccount account.uid then return some .ok
          checkMembersFilters env account members

/-- `checkBidirectionalRelationship` -/
def checkBidirectionalRelationship (env : Env) (account : Account) (members : List Bytes) :
    Dao (Option HttpStatus) := do
  if members.any fun m => !isFriend env account m then return some .ok
  checkMembersFilters env account members

/-- `checkBidirectionalRelationshipBypassSubscribers` -/
def checkBidirectionalRelationshipBypassSubscribers (env : Env) (account : Account) (gid : Gid)
    (members : List Bytes) : Dao (Option HttpStatus) := do
  match ← memberRoles gid members with
  | none => return some .internalServerError
  | some roles =>
      let others := members.filter fun m => roles m ≠ .subscriber
      if others.any fun m => !isFriend env account m then return some .ok
      checkMembersFilters env account others

/-- The checks of the one who invites; the backend manager need not be a member. -/
def checkInviter (env : Env) (ctx : Context) (gid : Gid) (members : List Bytes) :
    Dao (Option HttpStatus) := do
  if ctx.uid = backendManager then return none
  match ← Dao.read (.getMemberRole gid ctx.uid) with
  | .error .noSuchData => return some .notFound
  | .error _ => return some .internalServerError
  | .ok role =>
      if role ≠ .owner ∧ role ≠ .member ∧ role ≠ .administror then return some .forbidden
      checkBidirectionalRelationshipBypassSubscribers env ctx.account gid members

/-! ## Kick and leave -/

/-- `onKickGroupMemberV3` -/
def onKickGroupMemberV3 (env : Env) (ctx : Context) (body : KickGroupMemberBody) : Dao Reply := do
  if (body.check ctx.uid).isSome then return .of .badRequest
  let .ok group ← Dao.read (.groupsGet body.gid) | return .of .internalServerError
  if group.version ≠ groupV3 then return .of .badRequest
  let .ok memberCnt ← Dao.read (.queryGroupMemberInfoByGid body.gid)
    | return .of .internalServerError
  let .ok role ← Dao.read (.getMemberRole body.gid ctx.uid) | return .of .internalServerError
  if role ≠ .owner then return .of .badRequest
  let .ok users ← Dao.read (.getMemberBatch body.gid body.members)
    | return .of .internalServerError
  let toKickMember := body.members.filter fun m => users.any fun u => u.1 = m
  let .ok _ ← Dao.write (.delMemberBatch body.gid toKickMember)
    | return .of .internalServerError
  let _ ← pubGroupSystemMessage ctx.uid body.gid .memberUpdate
  -- the size of the list of the request, not of `toKickMember`
  let groupMembersAfterLeave :=
    if body.members.length ≤ memberCnt.toNat then memberCnt - UInt32.ofNat body.members.length
    else 0
  updateGroupKeys env ctx.uid body.gid groupMembersAfterLeave
  return { status := .noContent, keysCount := some groupMembersAfterLeave }

/-- The last part of `onLeaveGroupV3`: the row is deleted. -/
def deleteLeaver (env : Env) (ctx : Context) (gid : Gid) (memberCnt : UInt32) (promoted : Bool) :
    Dao Reply := do
  let .ok _ ← Dao.write (.delMember gid ctx.uid) | return .of .internalServerError
  if promoted then
    let _ ← pubGroupSystemMessage ctx.uid gid .memberUpdate
  let _ ← pubGroupSystemMessage ctx.uid gid .memberUpdate
  let groupMembersAfterLeave := if 1 ≤ memberCnt then memberCnt - 1 else 0
  updateGroupKeys env ctx.uid gid groupMembersAfterLeave
  return { status := .noContent, keysCount := some groupMembersAfterLeave }

/-- `onLeaveGroupV3` -/
def onLeaveGroupV3 (env : Env) (ctx : Context) (body : LeaveGroupBody) : Dao Reply := do
  if body.check.isSome then return .of .badRequest
  let .ok group ← Dao.read (.groupsGet body.gid) | return .of .internalServerError
  if group.version ≠ groupV3 then return .of .badRequest
  let .ok (memberCnt, role, nextOwnerRole) ←
      Dao.read (.queryGroupMemberInfoWithRoles body.gid ctx.uid body.nextOwner)
    | return .of .internalServerError
  if role ≠ .owner ∧ role ≠ .member then return .of .badRequest
  if memberCnt = 0 then return .of .badRequest
  let needNextOwner : Bool := role = .owner ∧ 1 < memberCnt
  if needNextOwner then
    if body.nextOwner.isEmpty ∨ body.nextOwner = ctx.uid ∨
        (nextOwnerRole ≠ .owner ∧ nextOwnerRole ≠ .member) then
      return .of .badRequest
    let .ok _ ← Dao.write (.updateRole body.gid body.nextOwner .owner)
      | return .of .internalServerError
    -- from here on a failure leaves two owners
    deleteLeaver env ctx body.gid memberCnt true
  else deleteLeaver env ctx body.gid memberCnt false

/-! ## Create -/

/-- The rows of a new group: the members, and the owner last -/
def newRows (ctx : Context) (body : CreateGroupBodyV3) : List (Bytes × GroupUser) :=
  (body.members.zip (body.membersGroupInfoSecrets.zip body.memberProofs)).map
    (fun (m, secret, proof) =>
      (m, { GroupUser.newMember m 0 ctx.nowInMilli with groupInfoSecret := secret, proof })) ++
  [(ctx.uid, { GroupUser.newMember ctx.uid 0 ctx.nowInMilli with
    role := .owner, nickname := body.ownerNickname, profileKeys := body.ownerProfileKeys,
    groupInfoSecret := body.ownerSecretKey, proof := body.ownerProof })]

/-- `onCreateGroupV3` -/
def onCreateGroupV3 (env : Env) (ctx : Context) (body : CreateGroupBodyV3) : Dao Reply := do
  if ctx.needUpgrade then return .of .upgradeRequired
  if ctx.creationLimited then return .of .limiterRejected
  if (body.check env).isSome then return .of .badRequest
  if let some status ← checkBidirectionalRelationship env ctx.account body.members then
    return .of status
  if body.group.settingEmpty then return .of .badRequest
  if !body.group.verifies env ctx.account.publicKey then return .of .badRequest
  let .ok _ ← Dao.write (.groupsCreate ctx.newGid body.group) | return .of .internalServerError
  let .ok _ ← Dao.write (.groupKeysInsert ctx.newGid body.groupKeysMode)
    | do
      -- what was written before is taken back, and the answer is not looked at
      let _ ← Dao.write (.groupsDel ctx.newGid)
      return .of .internalServerError
  let .ok _ ← Dao.write (.insertBatch ctx.newGid (newRows ctx body))
    | do
      let _ ← Dao.write (.groupsDel ctx.newGid)
      let _ ← Dao.write (.groupKeysClear ctx.newGid)
      return .of .internalServerError
  let _ ← pubGroupSystemMessage ctx.uid ctx.newGid .memberUpdate
  let _ ← pubWithRetry ctx.uid ctx.newGid .switchGroupKeys 3
  return { status := .ok, entity := .created ctx.newGid }

/-! ## Join and add-me -/

/-- The last part of `onGroupJoinRequstV3`: the request is recorded. -/
def recordJoin (ctx : Context) (req : GroupJoinRequest) (group : GroupRecord) : Dao Reply := do
  if group.ownerConfirm = 0 then
    let .ok _ ← Dao.write (.qrCodeGroupUsersSet req.gid ctx.uid kQrCodeGroupUserTtl)
      | return .of .internalServerError
    return { status := .ok, entity := .joined false group.encryptedGroupInfoSecret }
  else
    let .ok _ ← Dao.write (.pendingSet req.gid
        { uid := ctx.uid, inviter := [], signature := req.signature, comment := req.comment })
      | return .of .internalServerError
    return .of .ok

/-- `onGroupJoinRequstV3` -/
def onGroupJoinRequstV3 (env : Env) (ctx : Context) (req : GroupJoinRequest) : Dao Reply := do
  if req.check.isSome then return .of .badRequest
  if ctx.joinLimited (getMemberJoinLimiterId req.gid ctx.uid) then return .of .limiterRejected
  match ← Dao.read (.groupsGet req.gid) with
  | .error .noSuchData => return .of .badRequest
  | .error _ => return .of .internalServerError
  | .ok group =>
      if group.version ≠ groupV3 then return .of .badRequest
      match ← Dao.read (.getMember req.gid ctx.uid) with
      | .ok _ =>
          return { status := .ok,
                   entity := .joined (group.ownerConfirm ≠ 0) group.encryptedGroupInfoSecret }
      | .error _ =>
          -- a row that cannot be read counts as none
          let some owner ← getGroupOwner req.gid | return .of .internalServerError
          if group.settingEmpty then return .of .badRequest
          if !group.verifies env owner.publicKey then return .of .badRequest
          if req.qrCodeToken ≠ group.shareSignature then return .of .badRequest
          if !verifyJoin env ctx.account req.qrCode req.qrCodeToken req.signature then
            return .of .badRequest
          recordJoin ctx req group

/-- The last part of `onAddMeRequstV3`: the record is looked up and the row
inserted. -/
def insertMe (env : Env) (ctx : Context) (req : AddMeRequestV3) (group : GroupRecord) :
    Dao Reply := do
  let .ok _ ← Dao.read (.qrCodeGroupUsersGet req.gid ctx.uid) | return .of .badRequest
  let .ok memberCnt ← Dao.read (.queryGroupMemberInfoByGid req.gid)
    | return .of .internalServerError
  let user := { GroupUser.newMember ctx.uid group.lastMid ctx.nowInMilli with
    groupInfoSecret := req.groupInfoSecret, proof := req.proof }
  let .ok _ ← Dao.write (.insert req.gid ctx.uid user) | return .of .internalServerError
  let _ ← pubGroupSystemMessage ctx.uid req.gid .memberUpdate
  updateGroupKeys env ctx.uid req.gid (memberCnt + 1)
  return { status := .ok, keysCount := some (memberCnt + 1) }

/-- `onAddMeRequstV3` -/
def onAddMeRequstV3 (env : Env) (ctx : Context) (req : AddMeRequestV3) : Dao Reply := do
  if !req.check then return .of .badRequest
  if ctx.joinLimited (getMemberJoinLimiterId req.gid ctx.uid) then return .of .limiterRejected
  let .ok group ← Dao.read (.groupsGet req.gid) | return .of .badRequest
  if group.version ≠ groupV3 then return .of .badRequest
  match ← Dao.read (.getMember req.gid ctx.uid) with
  | .ok _ => return .of .ok
  -- a row that cannot be read counts as none
  | .error _ => insertMe env ctx req group

/-! ## Invite -/

/-- The user is in the group already, in the test of the invite handlers. -/
def alreadyInGroup (role : Role) : Bool :=
  role ≠ .undefine ∧ role.number ≤ Role.member.number

/-- Records are stored for review one after the other, up to the first failure. -/
def setPendingUsers (gid : Gid) : List PendingGroupUser → Dao Bool
  | [] => return true
  | user :: users => do
      match ← Dao.write (.pendingSet gid user) with
      | .ok _ => setPendingUsers gid users
      | .error _ => return false

/-- The records an invitation leaves for the owner's review. -/
def pendingUsers (inviter : Bytes) (roles : Bytes → Role) (members signatureInfos : List Bytes) :
    List PendingGroupUser :=
  ((members.zip signatureInfos).filter fun (m, _) => roles m = .undefine).map
    fun (m, signature) => { uid := m, inviter, signature, comment := [] }

/-- An invitation that waits for the owner's review. -/
def inviteForReview (env : Env) (ctx : Context) (gid : Gid) (members signatureInfos : List Bytes) :
    Dao Reply := do
  if members.length ≠ signatureInfos.length then return .of .badRequest
  if let some status := verifyInvitations env ctx.account signatureInfos then return .of status
  let some roles ← memberRoles gid members | return .of .internalServerError
  let pending := pendingUsers ctx.uid roles members signatureInfos
  if ← setPendingUsers gid pending then
    return { status := .ok, entity := .invited (pending.map (·.uid)) [] }
  return .of .internalServerError

/-- The rows an invitation adds. -/
def invitedRows (ctx : Context) (group : GroupRecord) (roles : Bytes → Role)
    (req : InviteGroupMemberRequestV3) : List (Bytes × GroupUser) :=
  ((req.members.zip (req.memberGroupInfoSecrets.zip req.memberProofs)).filter
      fun (m, _) => !alreadyInGroup (roles m)).map
    fun (m, secret, proof) =>
      (m, { GroupUser.newMember m group.lastMid ctx.nowInMilli with
        groupInfoSecret := secret, proof })

/-- An invitation that takes effect at once. -/
def inviteDirectly (env : Env) (ctx : Context) (req : InviteGroupMemberRequestV3)
    (group : GroupRecord) : Dao Reply := do
  if req.members.length ≠ req.memberProofs.length ∨
      req.members.length ≠ req.memberGroupInfoSecrets.length then
    return .of .badRequest
  let some roles ← memberRoles req.gid req.members | return .of .internalServerError
  let users := invitedRows ctx group roles req
  -- those who are in the group already
  let failed := req.members.filter fun m => alreadyInGroup (roles m)
  if users.isEmpty then return { status := .ok, entity := .invited [] failed }
  let .ok memberCnt ← Dao.read (.queryGroupMemberInfoByGid req.gid)
    | return .of .internalServerError
  let .ok _ ← Dao.write (.insertBatch req.gid users) | return .of .internalServerError
  let _ ← pubGroupSystemMessage ctx.uid req.gid .memberUpdate
  let count := memberCnt + UInt32.ofNat users.length
  updateGroupKeys env ctx.uid req.gid count
  return { status := .ok, entity := .invited (users.map Prod.fst) failed, keysCount := some count }

/-- `onInviteGroupMemberV3` -/
def onInviteGroupMemberV3 (env : Env) (ctx : Context) (req : InviteGroupMemberRequestV3) :
    Dao Reply := do
  if ctx.needUpgrade then return .of .upgradeRequired
  if !req.check then return .of .badRequest
  if req.members.any fun m => ctx.joinLimited (getMemberJoinLimiterId req.gid m) then
    return .of .limiterRejected
  if let some status ← checkInviter env ctx req.gid req.members then return .of status
  match ← Dao.read (.groupsGet req.gid) with
  | .error .noSuchData => return .of .notFound
  | .error _ => return .of .internalServerError
  | .ok group =>
      if group.version ≠ groupV3 then return .of .badRequest
      let .ok ownerUid ← Dao.read (.getGroupOwner req.gid) | return .of .internalServerError
      if group.ownerConfirm ≠ 0 ∧ ownerUid ≠ ctx.uid then
        inviteForReview env ctx req.gid req.members req.signatureInfos
      else inviteDirectly env ctx req group

/-! ## Review -/

/-- The users that are in the group already; none if they cannot be read -/
def existedUsers (gid : Gid) (uids : List Bytes) : Dao (Option (List (Bytes × GroupUser))) := do
  if uids.isEmpty then return some []
  match ← Dao.read (.getMemberBatch gid uids) with
  | .ok users => return some users
  | .error .noSuchData => return some []
  | .error _ => return none

/-- The accepted users that are not in the group -/
def acceptedNew (req : ReviewJoinResultRequestV3) (existed : List (Bytes × GroupUser)) :
    List ReviewJoinResultV3 :=
  req.list.filter fun item => item.accepted && !existed.any fun u => u.1 = item.uid

/-- The rows a review adds. -/
def reviewedRows (ctx : Context) (group : GroupRecord) (items : List ReviewJoinResultV3) :
    List (Bytes × GroupUser) :=
  items.map fun item =>
    (item.uid, { GroupUser.newMember item.uid group.lastMid ctx.nowInMilli with
      proof := item.proof, groupInfoSecret := item.groupInfoSecret })

/-- One message for each of the users who invited. -/
def pubForEach (gid : Gid) : List Bytes → Dao Unit
  | [] => return ()
  | inviter :: inviters => do
      let _ ← pubGroupSystemMessage inviter gid .memberUpdate
      pubForEach gid inviters

/-- The accepted users get their rows. A status ends the request. -/
def insertReviewed (env : Env) (ctx : Context) (gid : Gid) (group : GroupRecord)
    (items : List ReviewJoinResultV3) : Dao (Except HttpStatus (Option UInt32)) := do
  if items.isEmpty then return .ok none
  let .ok memberCnt ← Dao.read (.queryGroupMemberInfoByGid gid)
    | return .error .internalServerError
  let .ok _ ← Dao.write (.insertBatch gid (reviewedRows ctx group items))
    | return .error .internalServerError
  pubForEach gid (items.map ReviewJoinResultV3.inviter).dedup
  -- a uid that is listed twice is counted twice
  let count := memberCnt + UInt32.ofNat items.length
  updateGroupKeys env ctx.uid gid count
  return .ok (some count)

/-- The last part of `onReviewJoinRequestV3`: the requests are complete. -/
def finishReview (req : ReviewJoinResultRequestV3) (keysCount : Option UInt32) : Dao Reply := do
  if !req.list.isEmpty then
    -- a failure is only logged
    let _ ← Dao.write (.pendingDel req.gid (req.list.map ReviewJoinResultV3.uid))
  return { status := .ok, keysCount }

/-- `onReviewJoinRequestV3` -/
def onReviewJoinRequestV3 (env : Env) (ctx : Context) (req : ReviewJoinResultRequestV3) :
    Dao Reply := do
  if !req.check then return .of .badRequest
  let .ok ownerUid ← Dao.read (.getGroupOwner req.gid) | return .of .internalServerError
  if ownerUid ≠ ctx.uid then return .of .badRequest
  let .ok group ← Dao.read (.groupsGet req.gid) | return .of .internalServerError
  if group.version ≠ groupV3 then return .of .badRequest
  if !group.verifies env ctx.account.publicKey then return .of .internalServerError
  let accepted := (req.list.filter ReviewJoinResultV3.accepted).map ReviewJoinResultV3.uid
  let some existed ← existedUsers req.gid accepted | return .of .internalServerError
  match ← insertReviewed env ctx req.gid group (acceptedNew req existed) with
  | .error status => return .of status
  | .ok keysCount => finishReview req keysCount

/-! ## Update -/

/-- The settings are verified if the code or the confirmation changes. The status
with which the request ends, if it does. -/
def checkSettings (env : Env) (ctx : Context) (body : UpdateGroupInfoBodyV2)
    (upData : GroupUpdate) : Dao (Option HttpStatus) := do
  -- a signature alone is not looked at
  if body.qrCodeSetting.isEmpty ∧ body.ownerConfirm = -1 then return none
  match ← Dao.read (.groupsGet body.gid) with
  | .error _ => return some .internalServerError
  | .ok g =>
      if (g.update upData).verifies env ctx.account.publicKey then return none
      return some .badRequest

/-- The last part of the update: the group as it is now is published. -/
def publishUpdate (ctx : Context) (gid : Gid) : Dao Reply := do
  if let .ok _ ← Dao.read (.groupsGet gid) then
    let _ ← pubGroupSystemMessage ctx.uid gid .infoUpdate
  return { status := .ok, entity := .success }

/-- The update of a group, for either version of the request. -/
def onUpdateGroupInfo (env : Env) (ctx : Context) (body : UpdateGroupInfoBodyV2)
    (violation : Option String) (upData : GroupUpdate) : Dao Reply := do
  if violation.isSome then return .of .badRequest
  match ← Dao.read (.getMemberRole body.gid ctx.uid) with
  | .error .noSuchData => return .of .notFound
  | .error _ => return .of .internalServerError
  | .ok role =>
      if role ≠ .owner then return .of .forbidden
      if let some status ← checkSettings env ctx body upData then return .of status
      let .ok _ ← Dao.write (.groupsUpdate body.gid upData) | return .of .forbidden
      if !body.qrCodeSetting.isEmpty then
        -- a failure is only logged
        let _ ← Dao.write (.pendingClear body.gid)
      publishUpdate ctx body.gid

/-- `onUpdateGroupInfoV2` -/
def onUpdateGroupInfoV2 (env : Env) (ctx : Context) (body : UpdateGroupInfoBodyV2) : Dao Reply :=
  onUpdateGroupInfo env ctx body (body.check env) body.upData

/-- `onUpdateGroupInfoV3` -/
def onUpdateGroupInfoV3 (env : Env) (ctx : Context) (body : UpdateGroupInfoBodyV3) : Dao Reply :=
  onUpdateGroupInfo env ctx body.toUpdateGroupInfoBodyV2 (body.check env) body.upData

end GroupManagerController

end BcmServer.Group
