import BcmServer.Auth.AuthorizationHeader
import BcmServer.Crypto.UrlEncoder

/-!
# BcmServer.Auth.Authenticator — who is let in

`Authenticator::auth` looks the account up, checks that the account and the
device may be used and that the token is the one of the device, and notes when
the device was last seen. A route may be open to everybody, to all devices, to
the master device only or to slave devices only (`AuthType`).

* `auth_success`: when a device is let in.
* `auth_uid`: the account is the one the header names.
-/

namespace BcmServer.Auth

open Util Http Crypto

/-! ## Accounts -/

/-- `ClientVersion::OSType` -/
inductive OsType where
  | unknown | ios | android
deriving DecidableEq, Repr

/-- `ClientVersion`, the fields that are compared -/
structure ClientVersion where
  ostype : OsType := .unknown
  osversion : Bytes := []
  phonemodel : Bytes := []
  bcmversion : Bytes := []
  bcmbuildcode : UInt64 := 0
  areacode : UInt32 := 0
  langcode : Bytes := []
deriving DecidableEq, Repr

/-- `Device::State` -/
inductive DeviceState where
  | normal | confirmed | logout
deriving DecidableEq, Repr

/-- `Device`, the fields that authentication reads -/
structure Device where
  id : UInt32
  state : DeviceState
  authtoken : Bytes
  salt : Bytes
  lastseentime : UInt64 := 0
  clientversion : ClientVersion := {}
deriving DecidableEq, Repr

/-- `Account::State` -/
inductive AccountState where
  | normal | deleted
deriving DecidableEq, Repr

/-- `Account`, the fields that authentication reads -/
structure Account where
  uid : Bytes := []
  state : AccountState := .normal
  devices : List Device := []
  authdeviceid : UInt32 := 0
deriving DecidableEq, Repr

namespace Account

/-- `AccountsManager::getDevice` -/
def getDevice (account : Account) (deviceId : UInt32) : Option Device :=
  account.devices.find? fun d => d.id == deviceId

/-- `AccountsManager::getAuthDevice` -/
def getAuthDevice (account : Account) : Option Device := account.getDevice account.authdeviceid

/-- The first device with the number is replaced (`ModifyAccount::getMutableDevice`). -/
def setDevice (account : Account) (d : Device) : Account :=
  let i := account.devices.findIdx fun e => e.id == d.id
  { account with devices := account.devices.set i d }

end Account

/-- A part of a client version such as `Build/100` -/
def readPart (v : ClientVersion) (part : Bytes) : ClientVersion :=
  match part.splitOn '/'.toUInt8 with
  | key :: value :: _ =>
      let named (name : String) : Bool := iequals key (ascii name.toList)
      if named "Android" then { v with ostype := .android, osversion := value }
      else if named "iOS" then { v with ostype := .ios, osversion := value }
      else if named "Model" then { v with phonemodel := value }
      else if named "Version" then { v with bcmversion := value }
      else if named "Build" then { v with bcmbuildcode := (stoull value).getD 0 }
      else if named "Area" then { v with areacode := ((stoull value).getD 0).toUInt32 }
      else if named "Lang" then { v with langcode := value }
      else v
  | _ => v

/-- `AccountHelper::parseClientVersion` -/
def parseClientVersion (header : Bytes) : Option ClientVersion :=
  match header.splitOn ' '.toUInt8 with
  | brand :: parts => if brand = ascii "BCM".toList then some (parts.foldl readPart {}) else none
  | [] => none

/-! ## The authenticator -/

/-- `Authenticator::AuthResult` -/
inductive AuthResult where
  | success
  | accountNotFound
  | accountDeleted
  | deviceNotFound
  | tokenVerifyFailed
  | deviceAbnormal
  | authHeaderError
  | requestIdNotFound
  | deviceNotAllowed
  | unknownError
deriving DecidableEq, Repr

/-- `Authenticator::AuthType` -/
inductive AuthType where
  | noAuth | allowAll | allowMaster | allowSlave
deriving DecidableEq, Repr

/-- What `AccountsManager::get` gives -/
inductive Lookup where
  | found (account : Account)
  | noSuchData
  | failed
deriving DecidableEq, Repr

/-- `AccountsManager` at the time of a request. The account under a uid is the
one with that uid. -/
structure AccountsManager where
  get : Bytes → Lookup
  updateDevice : Account → UInt32 → Bool
  uid_get : ∀ {uid account}, get uid = .found account → account.uid = uid

/-- No accounts -/
def AccountsManager.none : AccountsManager where
  get := fun _ => .noSuchData
  updateDevice := fun _ _ => true
  uid_get := fun h => nomatch h

/-- `todayInMilli` is the day in milliseconds, as everything reads it within a
request. -/
structure Authenticator where
  accounts : AccountsManager
  todayInMilli : ℤ

namespace AuthType

/-- The devices that a route is open to -/
def admits (type : AuthType) (masterId deviceId : UInt32) : Bool :=
  match type with
  | noAuth | allowAll => true
  | allowMaster => deviceId == masterId
  | allowSlave => deviceId != masterId

end AuthType

namespace Authenticator

variable {F : Type} (ext : External F)

/-- `Authenticator::verify` -/
def verify (authtoken salt userToken : Bytes) : Bool :=
  HexEncoder.encode (ext.sha1 (salt ++ userToken)) true [] == authtoken

/-- What `checkAndUpdateDevice` changes, if it changes anything. -/
def seen (m : Authenticator) (device : Device) (client : Option ClientVersion) : Option Device :=
  let today := UInt64.ofInt m.todayInMilli
  let late := device.lastseentime != today
  let other := client.any fun c => c != device.clientversion
  if late || other then
    some { device with lastseentime := today, clientversion := client.getD device.clientversion }
  else none

/-- `Authenticator::checkAndUpdateDevice`, with the account it leaves -/
def checkAndUpdateDevice (m : Authenticator) (account : Account) (client : Option ClientVersion) :
    Bool × Account :=
  match account.getAuthDevice with
  | none => (true, account)
  | some device =>
      match m.seen device client with
      | none => (true, account)
      | some d =>
          let changed := account.setDevice d
          (m.accounts.updateDevice changed account.authdeviceid, changed)

/-- `Authenticator::auth`, with the account it leaves -/
def auth (m : Authenticator) (header : AuthorizationHeader) (client : Option ClientVersion)
    (type : AuthType) : AuthResult × Account :=
  let deviceId := UInt32.ofInt header.deviceId
  if type = .noAuth then (.success, {})
  else if !type.admits ext.masterId deviceId then (.deviceNotAllowed, {})
  else
    match m.accounts.get header.uid with
    | .noSuchData => (.accountNotFound, {})
    | .failed => (.unknownError, {})
    | .found account =>
        if account.state = .deleted then (.accountDeleted, account)
        else
          match account.getDevice deviceId with
          | none => (.deviceNotFound, account)
          | some device =>
              if device.state ≠ .normal then (.deviceAbnormal, account)
              else
                let account := { account with authdeviceid := deviceId }
                if verify ext device.authtoken device.salt header.token then
                  let r := m.checkAndUpdateDevice account client
                  (if r.1 then .success else .unknownError, r.2)
                else (.tokenVerifyFailed, account)

/-! ## Who is let in -/

/-- The device with the number and the token may use the account now. -/
def Usable (m : Authenticator) (uid token : Bytes) (deviceId : UInt32)
    (client : Option ClientVersion) : Prop :=
  ∃ account device, m.accounts.get uid = .found account ∧ account.state ≠ .deleted ∧
    account.getDevice deviceId = some device ∧ device.state = .normal ∧
    verify ext device.authtoken device.salt token = true ∧
    (m.checkAndUpdateDevice { account with authdeviceid := deviceId } client).1 = true

theorem auth_success (m : Authenticator) (header : AuthorizationHeader)
    (client : Option ClientVersion) (type : AuthType) :
    (m.auth ext header client type).1 = .success ↔
      type = .noAuth ∨ type.admits ext.masterId (UInt32.ofInt header.deviceId) = true ∧
        m.Usable ext header.uid header.token (UInt32.ofInt header.deviceId) client := by
  unfold auth Usable
  by_cases hno : type = .noAuth
  · simp [hno]
  by_cases hkind : type.admits ext.masterId (UInt32.ofInt header.deviceId) = true
  swap
  · simp [hno, hkind]
  cases hget : m.accounts.get header.uid with
  | noSuchData => simp [hno, hkind]
  | failed => simp [hno, hkind]
  | found account =>
      by_cases hdel : account.state = .deleted
      · simp [hno, hkind, hdel]
      cases hdev : account.getDevice (UInt32.ofInt header.deviceId) with
      | none => simp [hno, hkind, hdel, hdev]
      | some device =>
          by_cases hstate : device.state = .normal
          swap
          · simp [hno, hkind, hdel, hdev, hstate]
          by_cases hverify : verify ext device.authtoken device.salt header.token = true
          swap
          · simp [hno, hkind, hdel, hdev, hstate, hverify]
          simp [hno, hkind, hdel, hdev, hstate, hverify]

theorem checkAndUpdateDevice_uid (m : Authenticator) (account : Account)
    (client : Option ClientVersion) :
    (m.checkAndUpdateDevice account client).2.uid = account.uid := by
  unfold checkAndUpdateDevice
  split
  · rfl
  · split
    · rfl
    · rfl

/-- The account that is let in is the one the header names. -/
theorem auth_uid {m : Authenticator} {header : AuthorizationHeader} {client : Option ClientVersion}
    {type : AuthType} (htype : type ≠ .noAuth)
    (h : (m.auth ext header client type).1 = .success) :
    (m.auth ext header client type).2.uid = header.uid := by
  obtain hno | ⟨hkind, account, device, hget, hdel, hdev, hstate, hverify, -⟩ :=
    (auth_success ext m header client type).mp h
  · exact absurd hno htype
  have hacc : (m.auth ext header client type).2 =
      (m.checkAndUpdateDevice { account with authdeviceid := UInt32.ofInt header.deviceId }
        client).2 := by
    simp [auth, htype, hkind, hget, hdel, hdev, hstate, hverify]
  have huid : account.uid = header.uid := m.accounts.uid_get hget
  rw [hacc, checkAndUpdateDevice_uid]
  exact huid

end Authenticator

end BcmServer.Auth
