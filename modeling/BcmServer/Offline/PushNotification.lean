import BcmServer.Dispatcher.Address
import BcmServer.Offline.GroupMsgList
import BcmServer.Offline.GroupUserMsg

/-!
# BcmServer.Offline.PushNotification — how a user can be pushed to

What an account says about its devices, the record of a user that is made from
it, and the notification that is made from the record. By the push type of a
notification an offline server knows whether it can send it itself.

The notification is given by what it is made of; its JSON content is left out.
-/

namespace BcmServer.Offline

open BcmServer.Util BcmServer.Redis
open BcmServer.Dispatcher (DispatchAddress)
open BcmServer.Group (Gid)

/-- Numbers that the protobuf classes have names for -/
structure ProtoNumbers where
  /-- `Device::MASTER_ID` -/
  masterId : UInt32
  /-- `ClientVersion::OSTYPE_IOS` -/
  ostypeIos : UInt32
  /-- `ClientVersion::OSTYPE_ANDROID` -/
  ostypeAndroid : UInt32

/-! ## Accounts -/

/-- The fields of `ClientVersion` that are copied into records and notifications -/
structure ClientVersion where
  ostype : UInt32
  osversion : Bytes
  bcmbuildcode : UInt64
  phonemodel : Bytes
deriving DecidableEq, Repr

/-- The fields of `Device` that say how it is pushed to -/
structure Device where
  id : UInt32
  apnid : Bytes
  apntype : Bytes
  voipapnid : Bytes
  gcmid : Bytes
  umengid : Bytes
  lastseentime : UInt64
  clientversion : ClientVersion
deriving DecidableEq, Repr

/-- `Account` -/
structure Account where
  uid : Bytes
  devices : List Device
deriving DecidableEq, Repr

/-- `AccountsManager::getDevice` -/
def Account.getDevice (a : Account) (deviceId : UInt32) : Option Device :=
  a.devices.find? fun d => d.id = deviceId

/-- 30 days -/
def kDeviceExpiredTimeInMilli : Int64 := 30 * 24 * 60 * 60 * 1000

/-- `AccountsManager::isDevicePushable` -/
def Device.isDevicePushable (device : Device) (nowInMilli : Int64) : Bool :=
  let hasPushChannel := !device.apnid.isEmpty || !device.umengid.isEmpty || !device.gcmid.isEmpty
  hasPushChannel && device.lastseentime.toInt64 > nowInMilli - kDeviceExpiredTimeInMilli

namespace GroupUserMessageIdInfo

/-- The user has no push configuration. -/
def flagged (gu : GroupUserMessageIdInfo) : Bool :=
  gu.cfgFlag = GroupUserConfigPushType.noConfig.value

def flag (gu : GroupUserMessageIdInfo) : GroupUserMessageIdInfo :=
  { gu with cfgFlag := GroupUserConfigPushType.noConfig.value }

theorem flagged_flag (gu : GroupUserMessageIdInfo) : gu.flag.flagged = true := by
  simp [flag, flagged]

/-- What `dbGetAccountsPushType` copies from a device -/
def withDevice (gu : GroupUserMessageIdInfo) (uid : Bytes) (dev : Device) :
    GroupUserMessageIdInfo :=
  { gu with
    cfgFlag := GroupUserConfigPushType.normal.value
    gcmId := dev.gcmid
    umengId := dev.umengid
    osType := dev.clientversion.ostype
    osVersion := dev.clientversion.osversion
    bcmBuildCode := dev.clientversion.bcmbuildcode
    phoneModel := dev.clientversion.phonemodel
    targetAddress := (DispatchAddress.mk uid dev.id).getSerialized
    apnId := dev.apnid
    apnType := dev.apntype
    voipApnId := dev.voipapnid }

/-- `GroupUserMessageIdInfo::to_string`, before `dump` -/
def toJson (gu : GroupUserMessageIdInfo) : Json :=
  .object [("last_mid", .number gu.lastMid.toNat), ("cfgFlag", .number gu.cfgFlag.toInt),
    ("gcmId", .string gu.gcmId), ("umengId", .string gu.umengId),
    ("osType", .number gu.osType.toNat), ("osVersion", .string gu.osVersion),
    ("bcmBuildCode", .number gu.bcmBuildCode.toNat), ("phoneModel", .string gu.phoneModel),
    ("apnId", .string gu.apnId), ("apnType", .string gu.apnType),
    ("voipApnId", .string gu.voipApnId), ("targetAddress", .string gu.targetAddress)]

/-- A record is read back as it was written, with its flag. -/
theorem ofJson_toJson (gu : GroupUserMessageIdInfo) : ofJson gu.toJson = .ok gu := by
  simp [ofJson, toJson, textIfFound, Json.toNumberOptional, Json.toStringOptional, Json.toNumber,
    Json.toString, Json.find, Json.at_, List.lookup_cons, Json.getUInt64, Json.getUInt32, Json.getInt,
    Json.integer, Json.getString, bind, Except.bind, Functor.map, Except.map, ofInt_toNat_uInt64,
    ofInt_toNat_uInt32]

end GroupUserMessageIdInfo

/-! ## Notifications -/

/-- `push::Notification` of a group message -/
structure Notification where
  gid : Bytes
  mid : Bytes
  apnsType : Bytes
  apnsId : Bytes
  voipApnsId : Bytes
  fcmId : Bytes
  umengId : Bytes
  clientVersion : ClientVersion
  targetAddress : Option DispatchAddress
deriving DecidableEq, Repr

def TYPE_SYSTEM_PUSH_APNS : Bytes := ascii ['a', 'p', 'n', 's']
def TYPE_SYSTEM_PUSH_UMENG : Bytes := ascii ['u', 'm', 'e', 'n', 'g']
def TYPE_SYSTEM_PUSH_FCM : Bytes := ascii ['f', 'c', 'm']

/-- `useUmengFirst`: a phone of one of two makes -/
def useUmengFirst (p : ProtoNumbers) (cv : ClientVersion) : Bool :=
  if cv.ostype ≠ p.ostypeAndroid then false
  else [ascii ['x', 'i', 'a', 'o', 'm', 'i'], ascii ['h', 'u', 'a', 'w', 'e', 'i']].any
    fun model => model <:+: cv.phonemodel.map toLower

/-- `Notification::getPushType` -/
def Notification.getPushType (p : ProtoNumbers) (n : Notification) : Bytes :=
  if n.clientVersion.ostype = p.ostypeAndroid then
    if useUmengFirst p n.clientVersion && !n.umengId.isEmpty then TYPE_SYSTEM_PUSH_UMENG
    else if !n.fcmId.isEmpty then TYPE_SYSTEM_PUSH_FCM
    else if !n.umengId.isEmpty then TYPE_SYSTEM_PUSH_UMENG
    else []
  else if n.clientVersion.ostype = p.ostypeIos then TYPE_SYSTEM_PUSH_APNS
  else []

namespace GroupUserMessageIdInfo

/-- The notification that `doPushMessage` makes for a user -/
def notification (gu : GroupUserMessageIdInfo) (gid : Gid) : Notification where
  gid := decimal gid.toNat
  mid := decimal gu.lastMid.toNat
  apnsType := gu.apnType
  apnsId := gu.apnId
  voipApnsId := gu.voipApnId
  fcmId := gu.gcmId
  umengId := gu.umengId
  clientVersion := ⟨gu.osType, gu.osVersion, gu.bcmBuildCode, gu.phoneModel⟩
  targetAddress := DispatchAddress.deserialize gu.targetAddress

/-- The push type of this notification -/
def pushType (p : ProtoNumbers) (gu : GroupUserMessageIdInfo) : Bytes :=
  (gu.notification 0).getPushType p

theorem getPushType_notification (p : ProtoNumbers) (gu : GroupUserMessageIdInfo) (gid : Gid) :
    (gu.notification gid).getPushType p = gu.pushType p := rfl

@[simp] theorem pushType_flag (p : ProtoNumbers) (gu : GroupUserMessageIdInfo) :
    gu.flag.pushType p = gu.pushType p := rfl

/-- The notification is for the device that the record was made from, if there is no
colon in the uid. -/
theorem targetAddress_withDevice (gu : GroupUserMessageIdInfo) {uid : Bytes} (h : colon ∉ uid)
    (dev : Device) (gid : Gid) :
    ((gu.withDevice uid dev).notification gid).targetAddress = some ⟨uid, dev.id⟩ :=
  Dispatcher.deserialize_getSerialized h

end GroupUserMessageIdInfo

end BcmServer.Offline
