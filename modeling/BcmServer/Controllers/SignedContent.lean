import BcmServer.Controllers.DeviceController
import BcmServer.Group.Service
import BcmServer.Util.Base64

/-!
# BcmServer.Controllers.SignedContent — what the signatures of requests are about

Some requests are signed by the account that sends them, or by the owner of the group.
What is signed is a text that the handler joins from the fields of the request, without
separators and without lengths.

`signedContent_ne`: requests of one format with different fields have different texts if
the lengths of all fields but one are the same. Otherwise no format determines its
fields: there are requests that are accepted with the same signature
(`no_format_determined`).

The settings of a group are signed decoded, and only if there is a signature for them.
-/

namespace BcmServer.Controllers

open Util

/-! ## Requests to friends -/

/-- `FriendRequestParams` -/
structure FriendRequestParams where
  target : Bytes
  timestamp : UInt64
  payload : Bytes
  signature : Bytes
deriving DecidableEq, Repr

/-- `FriendReplyParams` -/
structure FriendReplyParams where
  approved : Bool
  proposer : Bytes
  timestamp : UInt64
  payload : Bytes
  requestSignature : Bytes
  signature : Bytes
deriving DecidableEq, Repr

/-- `DeleteFriendParams` -/
structure DeleteFriendParams where
  target : Bytes
  timestamp : UInt64
  signature : Bytes
deriving DecidableEq, Repr

/-- The settings of a group, with their signatures -/
structure GroupSetting where
  qrCodeSetting : Bytes
  shareSignature : Bytes
  ownerConfirm : Int32
  shareAndOwnerConfirmSignature : Bytes
deriving DecidableEq, Repr

def kMaxDeltaMillis : UInt64 := 30 * 1000
def kMaxPayloadSize : ℕ := 2048

def requestPath : Bytes := ascii "/v2/contacts/friends/request".toList
def replyPath : Bytes := ascii "/v2/contacts/friends/reply".toList
def friendsPath : Bytes := ascii "/v2/contacts/friends".toList

/-- `"true"` or `"false"` -/
def approvedText (approved : Bool) : Bytes :=
  if approved then ascii "true".toList else ascii "false".toList

def FriendRequestParams.toVerify (uid : Bytes) (params : FriendRequestParams) : Bytes :=
  uid ++ params.target ++ decimal params.timestamp.toNat ++ params.payload ++ requestPath

def FriendReplyParams.toVerify (uid : Bytes) (params : FriendReplyParams) : Bytes :=
  uid ++ approvedText params.approved ++ params.proposer ++ decimal params.timestamp.toNat ++
    params.payload ++ params.requestSignature ++ replyPath

def DeleteFriendParams.toVerify (uid : Bytes) (params : DeleteFriendParams) : Bytes :=
  uid ++ params.target ++ decimal params.timestamp.toNat ++ friendsPath

/-- What is signed of the settings themselves -/
def GroupSetting.decoded (env : Group.Env) (setting : GroupSetting) : Bytes :=
  if setting.shareSignature.isEmpty then [] else env.decode setting.qrCodeSetting

/-! ## Handlers -/

/-- What a signed request meets: the account that signs, as it is stored, its uid and key, the
accounts there are, the clock, and what is outside -/
structure Receiver where
  env : Group.Env
  masterId : UInt32 := 1
  uid : Bytes
  publickey : Bytes
  account : Store.Account := {}
  /-- `getValidAccount` finds one -/
  validAccount : Bytes → Bool := fun _ => true
  currentMillis : UInt64 := 0

/-- A request that is signed -/
inductive SignedRequest where
  | authorizeDevice (reqInfo : DeviceLoginReqInfo) (authInfo : DeviceAuthInfo)
  | manageDevice (action : DeviceManageAction)
  | friendRequest (params : FriendRequestParams)
  | friendReply (params : FriendReplyParams)
  | deleteFriend (params : DeleteFriendParams)
  | groupSetting (setting : GroupSetting)

namespace Receiver

variable (rx : Receiver)

def deviceController : DeviceController where
  masterId := rx.masterId
  verifySignature := rx.env.verifySignature
  publickey := rx.publickey
  update := Store.AccountField.apply

/-- The time of a request differs from the clock by at most half a minute. -/
def inTime (timestamp : UInt64) : Bool :=
  let deltaMillis :=
    if rx.currentMillis > timestamp then rx.currentMillis - timestamp
    else timestamp - rx.currentMillis
  deltaMillis ≤ kMaxDeltaMillis

/-- `ContactController::friendRequest` up to the account of the target -/
def friendRequest (params : FriendRequestParams) : Bool :=
  rx.inTime params.timestamp && params.payload.length ≤ kMaxPayloadSize &&
    rx.env.verifySignature rx.publickey (params.toVerify rx.uid) params.signature &&
    rx.uid != params.target && rx.validAccount params.target

/-- `ContactController::friendReply` up to the account of the proposer -/
def friendReply (params : FriendReplyParams) : Bool :=
  params.payload.length ≤ kMaxPayloadSize &&
    rx.env.verifySignature rx.publickey (params.toVerify rx.uid) params.signature &&
    rx.validAccount params.proposer

/-- `ContactController::deleteFriend` up to the account of the target -/
def deleteFriend (params : DeleteFriendParams) : Bool :=
  rx.inTime params.timestamp &&
    rx.env.verifySignature rx.publickey (params.toVerify rx.uid) params.signature &&
    rx.validAccount params.target

/-- The settings are verified, those of the owner's confirmation among them. -/
def groupSetting (setting : GroupSetting) : Bool :=
  !setting.shareAndOwnerConfirmSignature.isEmpty &&
    Group.verifyGroupSetting rx.env setting.qrCodeSetting setting.shareSignature
      setting.ownerConfirm setting.shareAndOwnerConfirmSignature rx.publickey

/-- The handler of the request does not refuse it. -/
def accepts : SignedRequest → Bool
  | .authorizeDevice reqInfo authInfo =>
      (rx.deviceController.authorizeDevice rx.account reqInfo authInfo).isSome
  | .manageDevice action => (rx.deviceController.manageDevice rx.account action).isSome
  | .friendRequest params => rx.friendRequest params
  | .friendReply params => rx.friendReply params
  | .deleteFriend params => rx.deleteFriend params
  | .groupSetting setting => rx.groupSetting setting

/-- The text that is verified -/
def signedContent : SignedRequest → Bytes
  | .authorizeDevice reqInfo authInfo => authInfo.signedContent reqInfo
  | .manageDevice action => action.signedContent
  | .friendRequest params => params.toVerify rx.uid
  | .friendReply params => params.toVerify rx.uid
  | .deleteFriend params => params.toVerify rx.uid
  | .groupSetting setting => setting.decoded rx.env ++ Group.intText setting.ownerConfirm

end Receiver

/-- The signature of a request -/
def SignedRequest.signature : SignedRequest → Bytes
  | authorizeDevice _ authInfo => authInfo.accountsignature
  | manageDevice action => action.signature
  | friendRequest params => params.signature
  | friendReply params => params.signature
  | deleteFriend params => params.signature
  | groupSetting setting => setting.shareAndOwnerConfirmSignature

/-- What is accepted is signed. -/
theorem Receiver.verified_of_accepts (rx : Receiver) {r : SignedRequest} (h : rx.accepts r = true) :
    rx.env.verifySignature rx.publickey (rx.signedContent r) r.signature = true := by
  cases r with
  | authorizeDevice reqInfo authInfo =>
      simp only [accepts, DeviceController.authorizeDevice] at h
      split_ifs at h with _ hverify
      · simp at h
      · simp at h
      · rw [Bool.not_eq_true, Bool.not_eq_false'] at hverify
        exact hverify
  | manageDevice action =>
      simp only [accepts, DeviceController.manageDevice] at h
      split_ifs at h with _ _ _ hverify
      · simp at h
      · simp at h
      · simp at h
      · simp at h
      · rw [Bool.not_eq_true, Bool.not_eq_false'] at hverify
        exact hverify
  | friendRequest params =>
      simp only [accepts, friendRequest, Bool.and_eq_true] at h
      exact h.1.1.2
  | friendReply params =>
      simp only [accepts, friendReply, Bool.and_eq_true] at h
      exact h.1.2
  | deleteFriend params =>
      simp only [accepts, deleteFriend, Bool.and_eq_true] at h
      exact h.1.2
  | groupSetting setting =>
      simp only [accepts, groupSetting, Group.verifyGroupSetting, Bool.and_eq_true,
        Bool.not_eq_true', Bool.or_eq_true] at h
      obtain ⟨hsome, -, hempty | hverify⟩ := h
      · rw [hsome] at hempty
        cases hempty
      · exact hverify

/-! ## Formats -/

/-- The formats of what is signed -/
inductive SignedFormat where
  | authorizeDevice | manageDevice | friendRequest | friendReply | deleteFriend | groupSetting
deriving DecidableEq, Repr

/-- The fields that are signed -/
inductive SignedFields where
  | authorizeDevice (publickey : Bytes) (deviceid : UInt32)
  | manageDevice (action : Int32) (deviceId : UInt32) (timestamp nounce : Int64)
  | friendRequest (uid target : Bytes) (timestamp : UInt64) (payload : Bytes)
  | friendReply (uid : Bytes) (approved : Bool) (proposer : Bytes) (timestamp : UInt64)
      (payload requestSignature : Bytes)
  | deleteFriend (uid target : Bytes) (timestamp : UInt64)
  | groupSetting (decoded : Bytes) (ownerConfirm : Int32)
deriving DecidableEq, Repr

namespace SignedFields

def format : SignedFields → SignedFormat
  | authorizeDevice .. => .authorizeDevice
  | manageDevice .. => .manageDevice
  | friendRequest .. => .friendRequest
  | friendReply .. => .friendReply
  | deleteFriend .. => .deleteFriend
  | groupSetting .. => .groupSetting

/-- The texts that are joined -/
def parts : SignedFields → List Bytes
  | authorizeDevice publickey deviceid => [publickey, decimal deviceid.toNat]
  | manageDevice action deviceId timestamp nounce =>
      [intDecimal action.toInt, decimal deviceId.toNat, intDecimal timestamp.toInt,
        intDecimal nounce.toInt]
  | friendRequest uid target timestamp payload =>
      [uid, target, decimal timestamp.toNat, payload, requestPath]
  | friendReply uid approved proposer timestamp payload requestSignature =>
      [uid, approvedText approved, proposer, decimal timestamp.toNat, payload, requestSignature,
        replyPath]
  | deleteFriend uid target timestamp => [uid, target, decimal timestamp.toNat, friendsPath]
  | groupSetting decoded ownerConfirm => [decoded, intDecimal ownerConfirm.toInt]

/-- The lengths of the parts -/
def lengths (f : SignedFields) : List ℕ := f.parts.map List.length

theorem approvedText_injective : Function.Injective approvedText := by decide

theorem toNat_of_decimal {m n : UInt64} (h : decimal m.toNat = decimal n.toNat) : m = n :=
  UInt64.toNat_inj.mp (decimal_injective h)

theorem deviceId_of_decimal {m n : UInt32} (h : decimal m.toNat = decimal n.toNat) : m = n :=
  UInt32.toNat_inj.mp (decimal_injective h)

theorem time_of_intDecimal {m n : Int64} (h : intDecimal m.toInt = intDecimal n.toInt) : m = n :=
  Int64.toInt_inj.mp (intDecimal_injective h)

theorem int_of_intDecimal {m n : Int32} (h : intDecimal m.toInt = intDecimal n.toInt) : m = n :=
  Int32.toInt_inj.mp (intDecimal_injective h)

/-- The parts determine the fields. -/
theorem eq_of_parts_eq {f g : SignedFields} (hformat : f.format = g.format)
    (h : f.parts = g.parts) : f = g := by
  cases f <;> cases g <;> cases hformat
  all_goals simp only [parts, List.cons.injEq, and_true] at h
  case authorizeDevice publickey deviceid _ _ =>
    obtain ⟨rfl, hid⟩ := h
    rw [deviceId_of_decimal hid]
  case manageDevice action deviceId timestamp nounce _ _ _ _ =>
    obtain ⟨haction, hid, htime, hnounce⟩ := h
    rw [int_of_intDecimal haction, deviceId_of_decimal hid, time_of_intDecimal htime,
      time_of_intDecimal hnounce]
  case friendRequest uid target timestamp payload _ _ _ _ =>
    obtain ⟨rfl, rfl, htime, rfl⟩ := h
    rw [toNat_of_decimal htime]
  case friendReply uid approved proposer timestamp payload requestSignature _ _ _ _ _ _ =>
    obtain ⟨rfl, happroved, rfl, htime, rfl, rfl⟩ := h
    rw [approvedText_injective happroved, toNat_of_decimal htime]
  case deleteFriend uid target timestamp _ _ _ =>
    obtain ⟨rfl, rfl, htime⟩ := h
    rw [toNat_of_decimal htime]
  case groupSetting decoded ownerConfirm _ _ =>
    obtain ⟨rfl, hconfirm⟩ := h
    rw [int_of_intDecimal hconfirm]

end SignedFields

namespace Receiver

/-- The fields that are signed by a request -/
def fields (rx : Receiver) : SignedRequest → SignedFields
  | .authorizeDevice reqInfo authInfo => .authorizeDevice reqInfo.publickey authInfo.deviceid
  | .manageDevice action =>
      .manageDevice action.action action.deviceId action.timestamp action.nounce
  | .friendRequest params =>
      .friendRequest rx.uid params.target params.timestamp params.payload
  | .friendReply params =>
      .friendReply rx.uid params.approved params.proposer params.timestamp params.payload
        params.requestSignature
  | .deleteFriend params => .deleteFriend rx.uid params.target params.timestamp
  | .groupSetting setting => .groupSetting (setting.decoded rx.env) setting.ownerConfirm

/-- The text that is verified is made of the fields that are signed. -/
theorem signedContent_eq (rx : Receiver) (r : SignedRequest) :
    rx.signedContent r = (rx.fields r).parts.flatten := by
  cases r <;>
    simp [signedContent, fields, SignedFields.parts, DeviceAuthInfo.signedContent,
      DeviceManageAction.signedContent, FriendRequestParams.toVerify, FriendReplyParams.toVerify,
      DeleteFriendParams.toVerify, Group.intText]

/-- Requests of one format with different fields have different signed texts, if the lengths of
their fields are the same but for one. -/
theorem signedContent_ne (rx rx' : Receiver) {r r' : SignedRequest}
    (hformat : (rx.fields r).format = (rx'.fields r').format)
    (hlengths : AgreeButOne (rx.fields r).lengths (rx'.fields r').lengths)
    (hne : rx.fields r ≠ rx'.fields r') : rx.signedContent r ≠ rx'.signedContent r' := by
  intro h
  rw [signedContent_eq, signedContent_eq] at h
  exact hne (SignedFields.eq_of_parts_eq hformat (eq_of_flatten_eq hlengths h))

/-! ## Where one field ends and the next one begins -/

/-- A signature is the text that is signed, with the key before it. -/
private def plain : Receiver where
  env := { Group.plainEnv with decode := Util.Base64.decode }
  uid := [85]
  publickey := [80]

private def authorizing (publickey : Bytes) (deviceid : UInt32) : SignedRequest :=
  .authorizeDevice { publickey := publickey } ⟨deviceid, plain.publickey ++ ascii ['K', '1', '2']⟩

theorem signedContent_ne_keys :
    plain.signedContent (authorizing [75] 12) ≠ plain.signedContent (authorizing [76] 2) :=
  signedContent_ne plain plain rfl ⟨rfl, 1, rfl⟩ (by decide)

/-- The signed texts of a format determine the fields of the requests that are accepted, whenever
they are handled. -/
def Determined (f : SignedFormat) : Prop :=
  ∀ rx rx' : Receiver, rx.env = rx'.env → rx.uid = rx'.uid → rx.publickey = rx'.publickey →
    ∀ r r' : SignedRequest, (rx.fields r).format = f → (rx'.fields r').format = f →
      rx.accepts r = true → rx'.accepts r' = true → rx.signedContent r = rx'.signedContent r' →
        rx.fields r = rx'.fields r'

/-- An account with a slave device -/
private def withDevice (id : UInt32) : Store.Account :=
  { devices := [Store.Device.fresh id] }

/-- An account for which there have been some slave devices -/
private def withSlaves (slavedevicenum : UInt32) : Store.Account :=
  { values := Function.update Store.Account.Field.default .slaveDeviceNum slavedevicenum }

private def managing (deviceId : UInt32) (timestamp nounce : Int64) : SignedRequest :=
  .manageDevice
    { action := 1
      deviceId := deviceId
      timestamp := timestamp
      nounce := nounce
      signature := plain.publickey ++ ascii ['1', '2', '1', '1', '1'] }

private def requesting (timestamp : UInt64) (payload : Bytes) : SignedRequest :=
  let params : FriendRequestParams :=
    { target := [84]
      timestamp := timestamp
      payload := payload
      signature := [] }
  .friendRequest { params with signature := plain.publickey ++ params.toVerify plain.uid }

private def replying (payload requestSignature : Bytes) : SignedRequest :=
  let params : FriendReplyParams :=
    { approved := true
      proposer := [84]
      timestamp := 1700000000000
      payload := payload
      requestSignature := requestSignature
      signature := [] }
  .friendReply { params with signature := plain.publickey ++ params.toVerify plain.uid }

private def deleting (target : Bytes) (timestamp : UInt64) : SignedRequest :=
  let params : DeleteFriendParams :=
    { target := target
      timestamp := timestamp
      signature := [] }
  .deleteFriend { params with signature := plain.publickey ++ params.toVerify plain.uid }

private def confirming (decoded : Bytes) (ownerConfirm : Int32) : SignedRequest :=
  .groupSetting
    { qrCodeSetting := Util.Base64.encode decoded
      shareSignature := plain.publickey ++ decoded
      ownerConfirm := ownerConfirm
      shareAndOwnerConfirmSignature := plain.publickey ++ decoded ++ Group.intText ownerConfirm }

/-- In every format there are requests with different fields that are accepted, and for which the
same text is verified. -/
theorem no_format_determined : ¬ ∃ f, Determined f := by
  rintro ⟨f, h⟩
  cases f with
  | authorizeDevice =>
      exact absurd (h { plain with account := withSlaves 10 } plain rfl rfl rfl
        (authorizing [75] 12) (authorizing [75, 49] 2) rfl rfl (by decide +kernel)
        (by decide +kernel) (by decide +kernel)) (by decide)
  | manageDevice =>
      exact absurd (h { plain with account := withDevice 2 } { plain with account := withDevice 21 }
        rfl rfl rfl (managing 2 1 11) (managing 21 1 1) rfl rfl (by decide +kernel)
        (by decide +kernel) (by decide +kernel)) (by decide)
  | friendRequest =>
      exact absurd (h { plain with currentMillis := 1700000000000 }
        { plain with currentMillis := 17000000000000 } rfl rfl rfl (requesting 1700000000000 [48])
        (requesting 17000000000000 []) rfl rfl (by decide +kernel) (by decide +kernel)
        (by decide +kernel)) (by decide)
  | friendReply =>
      exact absurd (h plain plain rfl rfl rfl (replying [97, 98] [99]) (replying [97] [98, 99])
        rfl rfl (by decide +kernel) (by decide +kernel) (by decide +kernel)) (by decide)
  | deleteFriend =>
      exact absurd (h { plain with currentMillis := 1700000000000 }
        { plain with currentMillis := 11700000000000 } rfl rfl rfl
        (deleting [84, 49] 1700000000000) (deleting [84] 11700000000000) rfl rfl
        (by decide +kernel) (by decide +kernel) (by decide +kernel)) (by decide)
  | groupSetting =>
      exact absurd (h plain plain rfl rfl rfl (confirming [97] 12) (confirming [97, 49] 2) rfl rfl
        (by decide +kernel) (by decide +kernel) (by decide +kernel)) (by decide)

end Receiver

end BcmServer.Controllers
