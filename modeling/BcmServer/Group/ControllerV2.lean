import BcmServer.Group.Controller

/-!
# BcmServer.Group.ControllerV2 — the earlier handlers that admit members

Join, review, upload of passwords and invite, in the version before the third.
They keep the requests that wait in the same table; a user who joins a group
without the owner's confirmation gets a row at once and waits for the keys.
-/

namespace BcmServer.Group

open BcmServer.Util BcmServer.Lts

namespace GroupManagerController

/-! ## Join -/

/-- The last part of `onGroupJoinRequst`: the request is left for review, or for
the distribution of keys. -/
def leavePending (ctx : Context) (req : GroupJoinRequest) (group : GroupRecord) : Dao Reply := do
  let .ok _ ← Dao.write (.pendingSet req.gid
      { uid := ctx.uid, inviter := [], signature := req.signature, comment := req.comment })
    | return .of .internalServerError
  if group.ownerConfirm = 0 then
    let _ ← pubGroupSystemMessage [] req.gid .memberUpdate
  return { status := .ok, entity := .success }

/-- `onGroupJoinRequst` -/
def onGroupJoinRequst (env : Env) (ctx : Context) (req : GroupJoinRequest) : Dao Reply := do
  if req.check.isSome then return .of .badRequest
  match ← Dao.read (.groupsGet req.gid) with
  | .error .noSuchData => return .of .badRequest
  | .error _ => return .of .internalServerError
  | .ok group =>
      if group.version = groupV3 then return .of .upgradeRequired
      let some owner ← getGroupOwner req.gid | return .of .internalServerError
      if group.settingEmpty then return .of .badRequest
      if !group.verifies env owner.publicKey then return .of .badRequest
      if req.qrCodeToken ≠ group.shareSignature then return .of .badRequest
      if !verifyJoin env ctx.account req.qrCode req.qrCodeToken req.signature then
        return .of .badRequest
      match ← Dao.read (.getMember req.gid ctx.uid) with
      | .ok _ => return { status := .ok, entity := .success }
      | .error _ =>
          -- without a confirmation the user is in at once, and waits for the keys only
          if group.ownerConfirm = 0 then
            let user := GroupUser.newMember ctx.uid group.lastMid ctx.nowInMilli
            let .ok _ ← Dao.write (.insert req.gid ctx.uid user)
              | return .of .internalServerError
            leavePending ctx req group
          else leavePending ctx req group

/-! ## Review and upload of passwords -/

/-- The keys that a member lacks, if any. -/
def missingKeys (encrypted : Bool) (now : ℤ) (user : GroupUser) (item : ReviewJoinResult) :
    Option KeysUpdate :=
  if user.encryptedKey.isEmpty || (encrypted && user.groupInfoSecret.isEmpty) then
    some { encryptedKey := if user.encryptedKey.isEmpty then some item.groupSecret else none
           groupInfoSecret :=
             if encrypted && user.groupInfoSecret.isEmpty then some item.groupInfoSecret else none
           updateTime := now }
  else none

/-- Members that lack keys get them, one after the other, up to the first
failure. -/
def updateKeys (gid : Gid) (encrypted : Bool) (now : ℤ) :
    List (ReviewJoinResult × GroupUser) → Dao Bool
  | [] => return true
  | (item, user) :: rest => do
      match missingKeys encrypted now user item with
      | none => updateKeys gid encrypted now rest
      | some data =>
          match ← Dao.write (.updateIfEmpty gid item.uid data) with
          | .ok _ | .error .alreadyExisted => updateKeys gid encrypted now rest
          | .error _ => return false

/-- The rows `distributeKeys` adds. -/
def distributedRows (ctx : Context) (group : GroupRecord) (items : List ReviewJoinResult) :
    List (Bytes × GroupUser) :=
  items.map fun item =>
    (item.uid, { GroupUser.newMember item.uid group.lastMid ctx.nowInMilli with
      encryptedKey := if group.encryptStatus = .on then item.groupSecret else []
      groupInfoSecret := item.groupInfoSecret })

/-- The accepted users that are not in the group get rows; false on failure -/
def insertDistributed (gid : Gid) (rows : List (Bytes × GroupUser)) (inviters : List Bytes) :
    Dao Bool := do
  if rows.isEmpty then return true
  let .ok _ ← Dao.write (.insertBatch gid rows) | return false
  pubForEach gid inviters
  return true

/-- The row of an accepted user who is in the group already. -/
def existedRow (existed : List (Bytes × GroupUser)) (item : ReviewJoinResult) :
    Option (ReviewJoinResult × GroupUser) :=
  (existed.find? fun u => u.1 = item.uid).map fun u => (item, u.2)

/-- `distributeKeys` -/
def distributeKeys (ctx : Context) (req : ReviewJoinResultList) (group : GroupRecord) :
    Dao Reply := do
  let accepted := req.list.filter ReviewJoinResult.accepted
  let some existed ← existedUsers req.gid (accepted.map ReviewJoinResult.uid)
    | return .of .internalServerError
  -- `owner_confirm` plays no part
  let new := accepted.filter fun item => (existedRow existed item).isNone
  if ← updateKeys req.gid (group.encryptStatus = .on) ctx.nowInMilli
      (accepted.filterMap (existedRow existed)) then
    if ← insertDistributed req.gid (distributedRows ctx group new)
        (new.map ReviewJoinResult.inviter).dedup then
      if req.list.isEmpty then return { status := .ok, entity := .success }
      let .ok _ ← Dao.write (.pendingDel req.gid (req.list.map ReviewJoinResult.uid))
        | return .of .internalServerError
      return { status := .ok, entity := .success }
    return .of .internalServerError
  return .of .internalServerError

/-- `onReviewJoinRequest` -/
def onReviewJoinRequest (env : Env) (ctx : Context) (req : ReviewJoinResultList) : Dao Reply := do
  if !req.check then return .of .badRequest
  let .ok ownerUid ← Dao.read (.getGroupOwner req.gid) | return .of .internalServerError
  if ownerUid ≠ ctx.uid then return .of .badRequest
  let .ok group ← Dao.read (.groupsGet req.gid) | return .of .internalServerError
  if !group.verifies env ctx.account.publicKey then return .of .internalServerError
  distributeKeys ctx req group

/-- `onUploadPassword` -/
def onUploadPassword (env : Env) (ctx : Context) (req : ReviewJoinResultList) : Dao Reply := do
  if !req.check then return .of .badRequest
  let .ok role ← Dao.read (.getMemberRole req.gid ctx.uid) | return .of .internalServerError
  -- any member may do this
  if role ≠ .owner ∧ role ≠ .administror ∧ role ≠ .member then return .of .badRequest
  let .ok group ← Dao.read (.groupsGet req.gid) | return .of .internalServerError
  let some owner ← getGroupOwner req.gid | return .of .internalServerError
  if group.settingEmpty then return .of .badRequest
  if !group.verifies env owner.publicKey then return .of .internalServerError
  distributeKeys ctx req group

/-! ## Invite -/

/-- The rows an invitation adds. -/
def invitedRowsV2 (ctx : Context) (group : GroupRecord) (roles : Bytes → Role)
    (body : InviteGroupMemberBodyV2) : List (Bytes × GroupUser) :=
  ((body.members.zip (body.memberGroupInfoSecrets.zip body.memberKeys)).filter
      fun (m, _) => !alreadyInGroup (roles m)).map
    fun (m, secret, key) =>
      (m, { GroupUser.newMember m group.lastMid ctx.nowInMilli with
        encryptedKey := if group.encryptStatus = .on then key else []
        groupInfoSecret := secret })

/-- An owner's invitation makes members of subscribers: their old rows are
deleted first. False on failure. -/
def deleteSubscribers (gid : Gid) (subscribers : List Bytes) : Dao Bool := do
  if subscribers.isEmpty then return true
  match ← Dao.write (.delMemberBatch gid subscribers) with
  | .ok _ | .error .noSuchData => return true
  | .error _ => return false

/-- The rows of an invitation that takes effect at once. -/
def insertInvited (ctx : Context) (gid : Gid) (users : List (Bytes × GroupUser))
    (failed : List Bytes) : Dao Reply := do
  if users.isEmpty then return { status := .ok, entity := .invited [] failed }
  let .ok _ ← Dao.write (.insertBatch gid users) | return .of .internalServerError
  let _ ← pubGroupSystemMessage ctx.uid gid .memberUpdate
  return { status := .ok, entity := .invited (users.map Prod.fst) failed }

/-- An invitation that takes effect at once. -/
def inviteDirectlyV2 (ctx : Context) (body : InviteGroupMemberBodyV2) (group : GroupRecord)
    (ownerUid : Bytes) : Dao Reply := do
  if group.encryptStatus = .on ∧ (body.members.length ≠ body.memberKeys.length ∨
      body.members.length ≠ body.memberGroupInfoSecrets.length) then
    return .of .badRequest
  let some roles ← memberRoles body.gid body.members | return .of .internalServerError
  let subscribers :=
    if ownerUid = ctx.uid then body.members.dedup.filter fun m => roles m = .subscriber else []
  if ← deleteSubscribers body.gid subscribers then
    insertInvited ctx body.gid (invitedRowsV2 ctx group roles body)
      (body.members.filter fun m => alreadyInGroup (roles m))
  else return .of .internalServerError

/-- `onInviteGroupMemberV2` -/
def onInviteGroupMemberV2 (env : Env) (ctx : Context) (body : InviteGroupMemberBodyV2) :
    Dao Reply := do
  if ctx.needUpgrade then return .of .upgradeRequired
  if body.check.isSome then return .of .badRequest
  if let some status ← checkInviter env ctx body.gid body.members then return .of status
  match ← Dao.read (.groupsGet body.gid) with
  | .error .noSuchData => return .of .notFound
  | .error _ => return .of .internalServerError
  | .ok group =>
      let .ok ownerUid ← Dao.read (.getGroupOwner body.gid) | return .of .internalServerError
      if group.ownerConfirm ≠ 0 ∧ ownerUid ≠ ctx.uid then
        inviteForReview env ctx body.gid body.members body.signatureInfos
      else inviteDirectlyV2 ctx body group ownerUid

end GroupManagerController

end BcmServer.Group
