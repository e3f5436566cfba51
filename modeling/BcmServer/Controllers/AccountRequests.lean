import BcmServer.Auth.AccountHelper
import BcmServer.Controllers.ContactController
import BcmServer.Controllers.DeviceController
import BcmServer.Controllers.KeysController
import BcmServer.Crypto.Base64

/-!
# BcmServer.Controllers.AccountRequests — every request that writes an account

The requests that change an account are spread over the controllers for accounts, devices,
keys, profiles and contacts. Each edits a copy of the account, which was read before, and
hands what it changed to the store. Here each handler is the function from the copy and the
request to what is written, or to the status it refuses with.

What the handlers publish to other devices is left out, and so is the push data of groups,
which two of them reset.
-/

namespace BcmServer.Controllers

open Util Store Auth

/-! ## Requests -/

/-- The statuses that the handlers answer with; `exception` leaves a handler. -/
inductive RequestStatus where
  | ok
  | noContent
  | badRequest
  | unauthorized
  | forbidden
  | notFound
  | notAcceptable
  | conflict
  | gone
  | preconditionFailed
  | internalServerError
  | exception
deriving DecidableEq, Repr

/-- `nowInMilli()` and `todayInMilli()`, as everything reads them within a request -/
structure Clock where
  nowInMilli : Int64
  todayInMilli : Int64
deriving DecidableEq, Repr

/-- `AccountAttributes` -/
structure AccountAttributes where
  signalingKey : Bytes := []
  publicKey : Bytes := []
  name : Bytes := []
  nickname : Bytes := []
  fetchesMessages : Bool := false
  registrationId : Int32 := 0
  deviceName : Bytes := []
  voice : Bool := false
  video : Bool := false
deriving DecidableEq, Repr

/-- `AccountAttributesSigned` -/
structure AccountAttributesSigned where
  sign : Bytes
  nonce : UInt32 := 0
  attributes : AccountAttributes := {}
deriving DecidableEq, Repr

/-- A request to sign up or in, with the headers that are read and the number that is drawn -/
structure SignRequest where
  auth : Option AuthorizationHeader
  attr : AccountAttributesSigned
  agent : Bytes := []
  client : Option ClientVersion := none
  clock : Clock
  randNum : UInt32 := 0
deriving DecidableEq, Repr

/-- `ApnRegistration` -/
structure ApnRegistration where
  apnRegistrationId : Bytes
  voipRegistrationId : Bytes := []
  type : Bytes := []
deriving DecidableEq, Repr

/-- `GcmRegistration` -/
structure GcmRegistration where
  gcmRegistrationId : Bytes := []
  umengRegistrationId : Bytes := []
  webSocketChannel : Bool := false
deriving DecidableEq, Repr

/-- `AvatarBundle` -/
structure AvatarBundle where
  ldAvatar : Bytes
  hdAvatar : Bytes
deriving DecidableEq, Repr

/-- `ContactsFiltersPutReq` -/
structure ContactsFiltersPutReq where
  algo : UInt32
  content : Bytes
deriving DecidableEq, Repr

/-- The account of a uid: the public key, which no request changes, and what requests change -/
structure Registered where
  publickey : Bytes
  account : Store.Account

/-- `Account::state` -/
def Registered.state (r : Registered) : AccountState := r.account.values .state

/-- `Device::state` of a device as it is stored -/
def stateOf (d : Store.Device) : Auth.DeviceState := d.values .state

/-- What `AccountsManager::get` gives -/
inductive AccountLookup where
  | found (r : Registered)
  | noSuchData
  | failed

/-- What a handler hands to the store: an edited account, for `updateDevice` with the number of the
device, and the status that is answered when the store succeeds -/
structure AccountWrite where
  edited : ModifyAccount
  device : Option UInt32 := none
  status : RequestStatus := .ok

/-- What a handler does: it answers at once, or it writes -/
abbrev Handled := Except RequestStatus AccountWrite

/-- `ModifyAccount` after a list of operations is written by `updateAccount`. -/
def AccountWrite.updateAccount (edited : ModifyAccount) (status : RequestStatus) : Handled :=
  .ok { edited := edited, status := status }

def AccountWrite.updateDevice (edited : ModifyAccount) (device : UInt32)
    (status : RequestStatus) : Handled :=
  .ok { edited := edited, device := some device, status := status }

/-- `AccountsManager::updateAccount` or `updateDevice`: whether it succeeds, and the stored account
afterwards -/
def AccountWrite.perform (dao : AccountsDao) (w : AccountWrite) (stored : Store.Account)
    (result : WriteResult) : Bool × Store.Account :=
  match w.device with
  | none => w.edited.updateAccount dao.updateAccount stored result
  | some deviceId =>
      match Keyed.find DeviceField.id deviceId w.edited.field.devices with
      | none => (false, stored)
      | some device =>
          match result with
          | .done => (true, dao.updateDevice device w.edited.account stored)
          | .lost => (false, dao.updateDevice device w.edited.account stored)
          | .failed => (false, stored)

/-- The code that the handlers share: keys and digests, the stores, and the configuration -/
structure AccountServer (F K : Type) where
  lib : AccountHelper F K
  /-- `boost::beast::detail::base64_encode` -/
  base64Encode : Bytes → Bytes
  dao : AccountsDao
  keysDao : OnetimeKeys
  /-- `ChallengeConfig` -/
  difficulty : UInt32 := 15
  expiration : UInt64 := 600000
  /-- `SizeCheckConfig::onetimeKeySize` -/
  onetimeKeySize : ℕ := 100

namespace AccountServer

open ModifyAccount

variable {F K : Type} (server : AccountServer F K)

/-- `Device::MASTER_ID` -/
def masterId : UInt32 := server.lib.ext.masterId

/-- A copy of an account after operations -/
def edit (r : Registered) (ops : List Op) : ModifyAccount := after server.masterId r.account ops

/-! ## Signing in and out -/

/-- What a device says of itself when it signs in, and its credential -/
def signedInFields (id : UInt32) (req : SignRequest) (token : Bytes) : List Op :=
  let attributes := req.attr.attributes
  let cert := Authenticator.getCredential server.lib.ext req.randNum token
  [Op.setCreatetime id req.clock.nowInMilli.toUInt64, Op.setDeviceName id attributes.deviceName,
    Op.setSignalingkey id attributes.signalingKey,
    Op.setFetchesmessages id attributes.fetchesMessages,
    Op.setRegistrationid id attributes.registrationId.toUInt32,
    Op.setSupportvoice id attributes.voice, Op.setSupportvideo id attributes.video,
    Op.setLastseentime id req.clock.todayInMilli.toUInt64, Op.setUseragent id req.agent,
    Op.setDeviceState id .normal] ++
  (req.client.toList.map fun client => Op.mutableClientversion id client) ++
  [Op.setAuthtoken id cert.token, Op.setSalt id cert.salt]

/-- `AccountsController::signin` -/
def signin (lookup : AccountLookup) (req : SignRequest) : Handled :=
  match req.auth with
  | none => .error .unauthorized
  | some auth =>
      match lookup with
      | .noSuchData => .error .notFound
      | .failed => .error .internalServerError
      | .found r =>
          if r.state = .deleted then .error .gone
          else if !server.lib.verifySignature r.publickey auth.token req.attr.sign then
            .error .notAcceptable
          else
            let id := UInt32.ofInt auth.deviceId
            let ops := .createMutableDevice id :: server.signedInFields id req auth.token
            AccountWrite.updateDevice (server.edit r ops) id .ok

/-- `DeviceController::signin` -/
def signinDevice (lookup : AccountLookup) (req : SignRequest) : Handled :=
  match req.auth with
  | none => .error .unauthorized
  | some auth =>
      match lookup with
      | .noSuchData => .error .notFound
      | .failed => .error .internalServerError
      | .found r =>
          if r.state = .deleted then .error .gone
          else
            let id := UInt32.ofInt auth.deviceId
            match r.account.getDevice id with
            | none => .error .gone
            | some device =>
                if stateOf device ≠ .confirmed then .error .forbidden
                else if !server.lib.verifySignature (device.values .publicKey) auth.token
                    req.attr.sign then .error .notAcceptable
                else
                  AccountWrite.updateDevice
                    (server.edit r (server.signedInFields id req auth.token)) id .noContent

/-- What is cleared of a device when the account is destroyed -/
def clearedFields (id : UInt32) : List Op :=
  [Op.setGcmid id [], Op.setUmengid id [], Op.setApnid id [], Op.setVoipapnid id [],
    Op.setFetchesmessages id false, Op.setAuthtoken id [], Op.setSalt id []]

/-- `AccountsController::destroy` -/
def destroy (lookup : AccountLookup) (uid sign : Bytes) : Handled :=
  match lookup with
  | .noSuchData => .error .notFound
  | .failed => .error .internalServerError
  | .found r =>
      if r.state = .deleted then .error .ok
      else if !server.lib.verifySignature r.publickey uid sign then .error .notAcceptable
      else
        let ops := .setState .deleted ::
          (r.account.devices.map Store.Device.id).flatMap clearedFields
        AccountWrite.updateAccount (server.edit r ops) .ok

/-! ## Requests of devices that are let in -/

/-- `kMinFeaturesLength`, `kMaxFeaturesLength` -/
def kMinFeaturesLength : ℕ := 8
def kMaxFeaturesLength : ℕ := 64

/-- `AccountsController::setFeatures` -/
def setFeatures (r : Registered) (deviceId : UInt32) (features : Bytes) : Handled :=
  match Crypto.HexEncoder.decode features false with
  | .error _ => .error .exception
  | .ok realContent =>
      if realContent.length < kMinFeaturesLength || realContent.length > kMaxFeaturesLength then
        .error .badRequest
      else
        AccountWrite.updateAccount (server.edit r [Op.setFeatures deviceId features]) .ok

/-- `AccountsController::setAttributes` -/
def setAttributes (r : Registered) (deviceId : UInt32) (attr : AccountAttributes) (agent : Bytes)
    (clock : Clock) : Handled :=
  AccountWrite.updateAccount
    (server.edit r [Op.setSignalingkey deviceId attr.signalingKey,
      Op.setRegistrationid deviceId attr.registrationId.toUInt32,
      Op.setDeviceName deviceId attr.deviceName,
      Op.setFetchesmessages deviceId attr.fetchesMessages, Op.setSupportvoice deviceId attr.voice,
      Op.setSupportvideo deviceId attr.video,
      Op.setLastseentime deviceId clock.todayInMilli.toUInt64, Op.setUseragent deviceId agent]) .ok

/-- `AccountsController::registerApn` -/
def registerApn (r : Registered) (deviceId : UInt32) (registration : ApnRegistration) : Handled :=
  AccountWrite.updateAccount
    (server.edit r [Op.setApnid deviceId registration.apnRegistrationId,
      Op.setVoipapnid deviceId registration.voipRegistrationId,
      Op.setApntype deviceId registration.type, Op.setGcmid deviceId [], Op.setUmengid deviceId [],
      Op.setFetchesmessages deviceId true]) .ok

/-- `AccountsController::registerGcm` -/
def registerGcm (r : Registered) (deviceId : UInt32) (registration : GcmRegistration) : Handled :=
  AccountWrite.updateAccount
    (server.edit r [Op.setApnid deviceId [], Op.setVoipapnid deviceId [], Op.setApntype deviceId [],
      Op.setGcmid deviceId registration.gcmRegistrationId,
      Op.setUmengid deviceId registration.umengRegistrationId,
      Op.setFetchesmessages deviceId registration.webSocketChannel]) .ok

/-- The part of `KeysController::setKeys` that is about the account; without a value where the
signed key stays as it is, and nothing is written -/
def setKeys (r : Registered) (deviceId : UInt32) (keyState : PreKeyState) : Option Handled :=
  if keyState.preKeys.length > server.onetimeKeySize then some (.error .badRequest)
  else
    match r.account.getDevice deviceId with
    | none => none
    | some device =>
        let signedprekey : Option SignedPreKey := device.values .signedPreKey
        if keyState.signedPreKey ≠ signedprekey.getD {} then
          some (AccountWrite.updateAccount
            (server.edit r [Op.mutableSignedprekey deviceId keyState.signedPreKey]) .ok)
        else none

/-- `KeysController::setSignedKey` -/
def setSignedKey (r : Registered) (deviceId : UInt32) (signedPreKey : SignedPreKey) : Handled :=
  AccountWrite.updateDevice (server.edit r [Op.mutableSignedprekey deviceId signedPreKey]) deviceId
    .noContent

/-- `ProfileController::setName` -/
def setName (r : Registered) (name : Bytes) : Handled :=
  if name.isEmpty then .error .badRequest
  else AccountWrite.updateAccount (server.edit r [Op.setName name]) .noContent

/-- `ProfileController::setPrivacy` -/
def setPrivacy (r : Registered) (privacy : Privacy) : Handled :=
  AccountWrite.updateAccount (server.edit r [Op.mutablePrivacy privacy]) .noContent

/-- `ProfileController::setVersion` -/
def setVersion (r : Registered) (deviceId : UInt32) (version : Bytes) : Handled :=
  match stoi version with
  | none => .error .exception
  | some version =>
      AccountWrite.updateDevice (server.edit r [Op.setVersion deviceId (UInt32.ofInt version)])
        deviceId .noContent

/-- `Base64::check` -/
def checkBase64 (target : Bytes) (urlSafe : Bool) : Bool :=
  target.isEmpty || !(Auth.Base64.decode server.lib.ext target urlSafe).isEmpty

/-- `ProfileController::setNickname` -/
def setNickname (r : Registered) (nickname : Bytes) : Handled :=
  if nickname.isEmpty || nickname.length > 128 || !server.checkBase64 nickname true then
    .error .badRequest
  else AccountWrite.updateAccount (server.edit r [Op.setNickname nickname]) .noContent

/-- `ProfileController::setAvatar2` -/
def setAvatar2 (r : Registered) (bundle : AvatarBundle) : Handled :=
  if bundle.ldAvatar.length > 2048 || bundle.hdAvatar.length > 2048 then .error .badRequest
  else if !server.checkBase64 bundle.ldAvatar true || !server.checkBase64 bundle.hdAvatar true then
    .error .badRequest
  else
    AccountWrite.updateAccount
      (server.edit r [Op.setLdavatar bundle.ldAvatar, Op.setHdavatar bundle.hdAvatar]) .noContent

/-- `ProfileController::setKeys`, with the text of the JSON value -/
def setProfileKeys (r : Registered) (keysString : Bytes) : Handled :=
  if keysString.length > 4096 then .error .badRequest
  else
    AccountWrite.updateAccount (server.edit r
      [Op.setProfilekeys (Crypto.Base64.encode server.base64Encode keysString false)]) .noContent

/-- The controllers that share the store -/
def contactController : ContactController F where
  ext := server.lib.ext
  base64Encode := server.base64Encode
  update := server.dao.updateAccount

def deviceController (r : Registered) : DeviceController where
  masterId := server.masterId
  verifySignature := server.lib.verifySignature
  publickey := r.publickey
  update := server.dao.updateAccount

/-- `kMinFiltersLength`, `kMaxFiltersLength` -/
def kMinFiltersLength : ℕ := 128
def kMaxFiltersLength : ℕ := 8 * 1024 * 1024

/-- `ContactController::putContactsFilters` -/
def putContactsFilters (r : Registered) (filtersReq : ContactsFiltersPutReq) (clock : Clock) :
    Handled :=
  let ctl := server.contactController
  let realContent := ctl.decode filtersReq.content
  if realContent.isEmpty then .error .badRequest
  else if realContent.length < kMinFiltersLength || realContent.length > kMaxFiltersLength then
    .error .badRequest
  else if filtersReq.algo ≠ 0 then .error .badRequest
  else
    let version := ctl.versionOf filtersReq.content filtersReq.algo clock.nowInMilli
    AccountWrite.updateAccount
      (server.edit r [.clearContactsfilters, .getMutableContactsFilters,
        Op.setAlgo filtersReq.algo, Op.setContent filtersReq.content,
        Op.setFiltersVersion version]) .ok

/-- `ContactController::patchContactsFilters` -/
def patchContactsFilters (r : Registered) (filtersPatch : ContactsFiltersPatchReq) (clock : Clock) :
    Handled :=
  match server.contactController.patchContactsFilters r.account filtersPatch clock.nowInMilli with
  | none => .error .conflict
  | some w => AccountWrite.updateAccount w.edited .ok

/-- `ContactController::deleteContactsFilters` -/
def deleteContactsFilters (r : Registered) : Handled :=
  AccountWrite.updateAccount (server.edit r [.clearContactsfilters]) .noContent

/-- The status with which a request about devices is refused -/
def deviceRefusal (r : Registered) : DeviceRequest → RequestStatus
  | .authorizeDevice _ authInfo =>
      let slavedevicenum : UInt32 := r.account.values .slaveDeviceNum
      if authInfo.deviceid ≠ slavedevicenum + 2 then .badRequest else .notAcceptable
  | .manageDevice action =>
      if action.action ≠ 1 || action.deviceId = server.masterId then .badRequest
      else if (r.account.getDevice action.deviceId).isNone then .notFound
      else .notAcceptable
  | _ => .forbidden

/-- The status that a request about devices is answered with when it is written -/
def deviceStatus : DeviceRequest → RequestStatus
  | .unregisterApn _ | .unregisterGcm _ => .ok
  | _ => .noContent

/-- A request about devices, as `DeviceController.handle` has it -/
def handleDevice (r : Registered) (req : DeviceRequest) : Handled :=
  match (server.deviceController r).handle r.account req with
  | none => .error (server.deviceRefusal r req)
  | some w => AccountWrite.updateAccount w.edited (deviceStatus req)

end AccountServer

/-- A request of a device that is let in -/
inductive AuthedRequest where
  | setFeatures (features : Bytes)
  | setAttributes (attr : AccountAttributes) (agent : Bytes)
  | registerApn (registration : ApnRegistration)
  | unregisterApn
  | registerGcm (registration : GcmRegistration)
  | unregisterGcm
  | manageDevice (action : DeviceManageAction)
  | logout
  | authorizeDevice (reqInfo : DeviceLoginReqInfo) (authInfo : DeviceAuthInfo)
  | setKeys (keyState : PreKeyState)
  | setSignedKey (signedPreKey : SignedPreKey)
  | setName (name : Bytes)
  | setPrivacy (privacy : Privacy)
  | setVersion (version : Bytes)
  | setNickname (nickname : Bytes)
  | setAvatar2 (bundle : AvatarBundle)
  | setProfileKeys (keysString : Bytes)
  | putContactsFilters (filtersReq : ContactsFiltersPutReq)
  | patchContactsFilters (filtersPatch : ContactsFiltersPatchReq)
  | deleteContactsFilters

/-- The devices that the route of a request is open to, as `addRoutes` has it -/
def AuthedRequest.authType : AuthedRequest → AuthType
  | setFeatures _ | setKeys _ | setSignedKey _ | setVersion _ => .allowAll
  | logout => .allowSlave
  | _ => .allowMaster

/-- The one-time keys that a request has with it -/
def AuthedRequest.upload (deviceId : UInt32) : AuthedRequest → Option KeyUpload
  | setKeys keyState => keyState.upload deviceId
  | _ => none

namespace AccountServer

variable {F K : Type} (server : AccountServer F K)

/-- The handler of a request, for the account as it was read and the device that is let in.
Without a value where nothing is written and the handler goes on. -/
def handle (r : Registered) (deviceId : UInt32) (clock : Clock) : AuthedRequest → Option Handled
  | .setFeatures features => some (server.setFeatures r deviceId features)
  | .setAttributes attr agent => some (server.setAttributes r deviceId attr agent clock)
  | .registerApn registration => some (server.registerApn r deviceId registration)
  | .unregisterApn => some (server.handleDevice r (.unregisterApn deviceId))
  | .registerGcm registration => some (server.registerGcm r deviceId registration)
  | .unregisterGcm => some (server.handleDevice r (.unregisterGcm deviceId))
  | .manageDevice action => some (server.handleDevice r (.manageDevice action))
  | .logout => some (server.handleDevice r (.logout deviceId))
  | .authorizeDevice reqInfo authInfo =>
      some (server.handleDevice r (.authorizeDevice reqInfo authInfo))
  | .setKeys keyState => server.setKeys r deviceId keyState
  | .setSignedKey signedPreKey => some (server.setSignedKey r deviceId signedPreKey)
  | .setName name => some (server.setName r name)
  | .setPrivacy privacy => some (server.setPrivacy r privacy)
  | .setVersion version => some (server.setVersion r deviceId version)
  | .setNickname nickname => some (server.setNickname r nickname)
  | .setAvatar2 bundle => some (server.setAvatar2 r bundle)
  | .setProfileKeys keysString => some (server.setProfileKeys r keysString)
  | .putContactsFilters filtersReq => some (server.putContactsFilters r filtersReq clock)
  | .patchContactsFilters filtersPatch => some (server.patchContactsFilters r filtersPatch clock)
  | .deleteContactsFilters => some (server.deleteContactsFilters r)

end AccountServer

end BcmServer.Controllers
