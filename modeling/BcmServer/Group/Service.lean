import BcmServer.Group.ControllerV2
import BcmServer.Lts.Run

/-!
# BcmServer.Group.Service — runs of the group manager

Requests are handled one after the other. A request comes with its context and
with a plan of the DAO calls that are going to fail; between requests time
passes.
-/

namespace BcmServer.Group

open BcmServer.Util BcmServer.Lts GroupManagerController

/-- The requests that concern the members and the settings of a group. -/
inductive GroupRequest where
  | createV3 (body : CreateGroupBodyV3)
  | leaveV3 (body : LeaveGroupBody)
  | kickV3 (body : KickGroupMemberBody)
  | inviteV3 (req : InviteGroupMemberRequestV3)
  | joinV3 (req : GroupJoinRequest)
  | addMeV3 (req : AddMeRequestV3)
  | reviewV3 (req : ReviewJoinResultRequestV3)
  | updateV3 (body : UpdateGroupInfoBodyV3)
  | join (req : GroupJoinRequest)
  | review (req : ReviewJoinResultList)
  | uploadPassword (req : ReviewJoinResultList)
  | inviteV2 (body : InviteGroupMemberBodyV2)
  | updateV2 (body : UpdateGroupInfoBodyV2)

namespace GroupRequest

/-- The request is one of the third version. -/
def isV3 : GroupRequest → Bool
  | join _ | review _ | uploadPassword _ | inviteV2 _ | updateV2 _ => false
  | _ => true

/-- The group a request is about; a new group gets the number the context names. -/
def gid (ctx : Context) : GroupRequest → Gid
  | createV3 _ => ctx.newGid
  | leaveV3 body => body.gid
  | kickV3 body => body.gid
  | inviteV3 req => req.gid
  | joinV3 req => req.gid
  | addMeV3 req => req.gid
  | reviewV3 req => req.gid
  | updateV3 body => body.gid
  | join req => req.gid
  | review req => req.gid
  | uploadPassword req => req.gid
  | inviteV2 body => body.gid
  | updateV2 body => body.gid

/-- The handler of a request. -/
def handle (env : Env) (ctx : Context) : GroupRequest → Dao Reply
  | createV3 body => onCreateGroupV3 env ctx body
  | leaveV3 body => onLeaveGroupV3 env ctx body
  | kickV3 body => onKickGroupMemberV3 env ctx body
  | inviteV3 req => onInviteGroupMemberV3 env ctx req
  | joinV3 req => onGroupJoinRequstV3 env ctx req
  | addMeV3 req => onAddMeRequstV3 env ctx req
  | reviewV3 req => onReviewJoinRequestV3 env ctx req
  | updateV3 body => onUpdateGroupInfoV3 env ctx body
  | join req => onGroupJoinRequst env ctx req
  | review req => onReviewJoinRequest env ctx req
  | uploadPassword req => onUploadPassword env ctx req
  | inviteV2 body => onInviteGroupMemberV2 env ctx body
  | updateV2 body => onUpdateGroupInfoV2 env ctx body

end GroupRequest

/-- A request with the calls that fail, or seconds that pass. -/
inductive RequestEvent where
  | request (ctx : Context) (req : GroupRequest) (plan : Plan ℕ)
  | tick (seconds : ℕ)

def RequestEvent.isV3 : RequestEvent → Bool
  | request _ req _ => req.isV3
  | tick _ => true

/-- The store after an event. -/
def RequestEvent.apply (env : Env) (s : Store) : RequestEvent → Store
  | request ctx req plan => ((req.handle env ctx).run plan s).2
  | tick seconds => { s with clock := s.clock + seconds }

/-- The group manager. -/
def groupMachine (env : Env) : Machine Store RequestEvent := ⟨fun s e => some (e.apply env s)⟩

/-- A store without any group. -/
def emptyStore (accounts : Bytes → Option Account) : Store where
  groups := fun _ => none
  users := fun _ => ∅
  pending := fun _ _ => none
  qrCodeUsers := fun _ _ => none
  keysMode := fun _ => none
  accounts := accounts
  clock := 0

/-! ## A small group -/

/-- A signature is the text that is signed, with the key before it. -/
def plainEnv : Env where
  verifySignature := fun key text signature => signature = key ++ text
  decode := id
  parse := fun _ => none
  filterContains := fun _ _ _ => true
  broadcastOff := 1
  broadcastIsValid := fun n => n = 0 ∨ n = 1
  groupConfig := ⟨3, 7, 20⟩

/-- The account of a user, whose key is the uid. -/
def plainAccount (uid : Bytes) : Account := { uid, publicKey := uid }

def plainContext (uid : Bytes) : Context := { account := plainAccount uid, nowInMilli := 0 }

/-- A group with a setting that its owner has signed. -/
def signedGroup (owner : Bytes) (ownerConfirm : Int32) : GroupRecord where
  version := groupV3
  encryptStatus := .on
  shareQrCodeSetting := [1]
  shareSignature := owner ++ [1]
  ownerConfirm := ownerConfirm
  shareAndOwnerConfirmSignature := owner ++ [1] ++ intText ownerConfirm

/-- The row of an owner. -/
def ownerRow (uid : Bytes) : GroupUser := { GroupUser.newMember uid 0 0 with role := .owner }

/-- Group 7 of the owner `[1]` with the members `[2]` and `[3]` -/
def threeMembers (ownerConfirm : Int32) : Store :=
  { emptyStore (fun uid => some (plainAccount uid)) with
    groups := Function.update (fun _ => none) 7 (some (signedGroup [1] ownerConfirm))
    users := Function.update (fun _ => ∅) 7 (Table.insertAll ∅ [([1], ownerRow [1]),
      ([2], GroupUser.newMember [2] 0 0), ([3], GroupUser.newMember [3] 0 0)]) }

/-- A request for a group with the members `[2]` and `[3]`, signed by `[1]` -/
def createBody (ownerConfirm : Int32) : CreateGroupBodyV3 where
  broadcast := 1
  ownerSecretKey := [9]
  members := [[2], [3]]
  membersGroupInfoSecrets := [[], []]
  qrCodeSetting := [1]
  ownerConfirm := ownerConfirm
  shareSignature := [1, 1]
  shareAndOwnerConfirmSignature := [1, 1] ++ intText ownerConfirm
  memberProofs := [[], []]
  ownerProof := [9]
  groupKeysMode := .oneForEach

/-- `[1]` creates group 7. -/
def createSeven (ownerConfirm : Int32) : RequestEvent :=
  .request { plainContext [1] with newGid := 7 } (.createV3 (createBody ownerConfirm)) .clean

/-- An update of group 7 that turns the confirmation on -/
def turnOn : UpdateGroupInfoBodyV3 where
  gid := 7
  ownerConfirm := 1
  shareAndOwnerConfirmSignature := [1, 1] ++ intText 1

/-- A request to join group 7, signed by `[4]` -/
def joinRequest : GroupJoinRequest where
  gid := 7
  qrCode := [1]
  qrCodeToken := [1, 1]
  signature := [4, 1, 1, 1]

/-- `[4]` asks to join group 7. -/
def joinSeven : RequestEvent := .request (plainContext [4]) (.joinV3 joinRequest) .clean

/-- The tables after some events, from the beginning -/
def plainStore (events : List RequestEvent) : Store :=
  events.foldl (fun s e => e.apply plainEnv s) (emptyStore fun uid => some (plainAccount uid))

end BcmServer.Group
