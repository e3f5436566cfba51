import BcmServer.Offline.PushNotification
import BcmServer.Util.JsonText

/-!
# BcmServer.Offline.WireNotification — notifications that servers send each other

A server that has stored a message for a device, or a friend request for a user, makes a
notification of it. It is sent to an offline server as JSON, and is read there.

`sendable_ofStored`, `sendable_friendNotifications`: what is made can be sent, and
`ofJson_toJson`: what can be sent is read as it was.
-/

namespace BcmServer.Util.Json

/-- The fields of an object after an assignment to a key -/
def assignField (key : String) (value : Json) : List (String × Json) → List (String × Json)
  | [] => [(key, value)]
  | f :: fields =>
      if key < f.1 then (key, value) :: f :: fields
      else if key = f.1 then (key, value) :: fields
      else f :: assignField key value fields

/-- `j[key] = value`: null becomes an object. -/
def assign (j : Json) (key : String) (value : Json) : Except JsonError Json :=
  match j with
  | null => .ok (object [(key, value)])
  | object fields => .ok (object (assignField key value fields))
  | _ => .error .typeError

/-- `clear` -/
def clear : Json → Json
  | null => null
  | boolean _ => boolean false
  | number _ => number 0
  | float _ => float 0
  | string _ => string []
  | array _ => array []
  | object _ => object []

variable {key : String} {value : Json} {fields : List (String × Json)}

/-- A key that comes before the others is put in front. -/
theorem assignField_of_lt {k : String} {v : Json} (h : key < k) :
    assignField key value ((k, v) :: fields) = (key, value) :: (k, v) :: fields := by
  rw [assignField, if_pos h]

theorem mem_assignField {f : String × Json} (h : f ∈ assignField key value fields) :
    f = (key, value) ∨ f ∈ fields := by
  induction fields with
  | nil => exact Or.inl (List.mem_singleton.mp h)
  | cons g fields ih =>
      rw [assignField] at h
      split_ifs at h
      · exact List.mem_cons.mp h
      · rcases List.mem_cons.mp h with rfl | h
        · exact Or.inl rfl
        · exact Or.inr (List.mem_cons_of_mem _ h)
      · rcases List.mem_cons.mp h with rfl | h
        · exact Or.inr List.mem_cons_self
        · exact (ih h).imp_right (List.mem_cons_of_mem _)

theorem pairwise_assignField (h : fields.Pairwise fun f g => f.1 < g.1) :
    (assignField key value fields).Pairwise fun f g => f.1 < g.1 := by
  induction fields with
  | nil => exact List.pairwise_singleton _ _
  | cons g fields ih =>
      rw [List.pairwise_cons] at h
      rw [assignField]
      split_ifs with hlt heq
      · rw [List.pairwise_cons, List.pairwise_cons]
        refine ⟨?_, h⟩
        intro f hf
        rcases List.mem_cons.mp hf with rfl | hf
        · exact hlt
        · exact String.lt_trans hlt (h.1 f hf)
      · rw [List.pairwise_cons]
        exact ⟨fun f hf => heq ▸ h.1 f hf, h.2⟩
      · rw [List.pairwise_cons]
        refine ⟨?_, ih h.2⟩
        intro f hf
        rcases mem_assignField hf with rfl | hf
        · exact Std.lt_of_le_of_ne (Std.not_lt.mp hlt) (Ne.symm heq)
        · exact h.1 f hf

/-- An assignment keeps an object storable. -/
theorem Storable.assign {j j' : Json} (hj : j.Storable) (hvalue : value.Storable)
    (h : j.assign key value = .ok j') : j'.Storable := by
  cases hj with
  | null =>
      cases h
      refine .object (List.pairwise_singleton _ _) ?_
      intro f hf
      rw [List.mem_singleton.mp hf]
      exact hvalue
  | object hkeys hfields =>
      cases h
      refine .object (pairwise_assignField hkeys) ?_
      intro f hf
      rcases mem_assignField hf with rfl | hf
      · exact hvalue
      · exact hfields f hf
  | _ => cases h

end BcmServer.Util.Json

namespace BcmServer.Offline

open Util
open BcmServer.Dispatcher (DispatchAddress)

/-- `FNV::hash` -/
def fnvHash (key : Bytes) : UInt32 :=
  key.foldl (fun h c => (h ^^^ c.toUInt32) * 16777619) 0x811C9DC5

/-- `push::Notification`, with what its JSON has -/
structure WireNotification where
  content : Json := .null
  badge : Int32 := -1
  targetAddress : DispatchAddress := ⟨[], 0⟩
  apnsType : Bytes := []
  apnsId : Bytes := []
  voipApnsId : Bytes := []
  fcmId : Bytes := []
  umengId : Bytes := []
  clientVersion : ClientVersion := ⟨0, [], 0, []⟩
  bcmversion : Bytes := []
  pushClass : Int32 := 0

namespace WireNotification

/-- `chat` -/
def chat (n : WireNotification) (senderUid : Bytes) : Except JsonError WireNotification := do
  let content ← n.content.clear.assign "notifytype" (.string (ascii ['1']))
  let chat ← Json.null.assign "uid" (.string senderUid)
  return { n with content := ← content.assign "contactchat" chat }

/-- `friendReq` -/
def friendReq (n : WireNotification) (senderUid payload : Bytes) (type : Int32) :
    Except JsonError WireNotification := do
  let content ← n.content.clear.assign "notifytype" (.string (ascii ['4']))
  let req ← Json.null.assign "uid" (.string senderUid)
  let req ← req.assign "type" (.number type.toInt)
  let req ← req.assign "payload" (.string payload)
  return { n with content := ← content.assign "friendreq" req }

/-- `setTargetAddress` -/
def setTargetAddress (n : WireNotification) (address : DispatchAddress) :
    Except JsonError WireNotification := do
  let content ←
    if !address.uid.isEmpty then
      n.content.assign "targetid" (.number (fnvHash address.uid).toNat)
    else .ok n.content
  return { n with content := content, targetAddress := address }

/-- `setDeviceInfo`, with the version that only notifications have -/
def setDeviceInfo (n : WireNotification) (device : Device) (bcmversion : Bytes) :
    WireNotification :=
  { n with
    apnsType := device.apntype
    apnsId := device.apnid
    voipApnsId := device.voipapnid
    fcmId := device.gcmid
    umengId := device.umengid
    clientVersion := device.clientversion
    bcmversion := bcmversion }

/-- `getPushType`, which does not read the content -/
def getPushType (p : ProtoNumbers) (n : WireNotification) : Bytes :=
  Notification.getPushType p
    { gid := [], mid := [], apnsType := n.apnsType, apnsId := n.apnsId, voipApnsId := n.voipApnsId
      fcmId := n.fcmId, umengId := n.umengId, clientVersion := n.clientVersion
      targetAddress := some n.targetAddress }

/-! ## Where notifications are made -/

/-- The notification of a message that has been stored, as `MessageController::sendLocalMessage`
and `DispatchChannel::sendP2pMessage` make it -/
def ofStored (sourceInPushService : Bytes) (storedMessagesCount : UInt32) (address : DispatchAddress)
    (device : Device) (bcmversion : Bytes) (push : Int32) : Except JsonError WireNotification := do
  let n ← ({} : WireNotification).chat sourceInPushService
  let n ← { n with badge := storedMessagesCount.toInt32 }.setTargetAddress address
  return { n.setDeviceInfo device bcmversion with pushClass := push }

/-- The loop of `ContactController::friendRequest` over the devices of the target: the
notification goes on from one device to the next. -/
def friendNotifications (targetUid : Bytes) (nowInMilli : Int64) :
    List (Device × Bytes) → WireNotification → Except JsonError (List WireNotification)
  | [], _ => .ok []
  | (device, bcmversion) :: devices, n =>
      if !device.isDevicePushable nowInMilli then friendNotifications targetUid nowInMilli devices n
      else do
        let n ← n.setTargetAddress ⟨targetUid, device.id⟩
        let n := n.setDeviceInfo device bcmversion
        return n :: (← friendNotifications targetUid nowInMilli devices n)

/-! ## JSON -/

/-- `to_json` -/
def toJson (n : WireNotification) : Json :=
  .object [("content", n.content), ("badge", .number n.badge.toInt),
    ("target", .string n.targetAddress.getSerialized), ("apnsType", .string n.apnsType),
    ("apnsId", .string n.apnsId), ("apnsVoipId", .string n.voipApnsId), ("fcmId", .string n.fcmId),
    ("umengId", .string n.umengId), ("clientOsType", .number n.clientVersion.ostype.toInt32.toInt),
    ("clientOsVersion", .string n.clientVersion.osversion),
    ("clientPhoneModel", .string n.clientVersion.phonemodel),
    ("clientBcmVersion", .string n.bcmversion),
    ("clientBcmBuildCode", .number n.clientVersion.bcmbuildcode.toNat),
    ("pushClass", .number n.pushClass.toInt)]

/-- `from_json` -/
def ofJson (j : Json) : Except JsonError WireNotification := do
  let content ← j.at_ "content"
  let badge ← j.toNumber Json.getInt lexicalInt32 "badge"
  let serializedTarget ← j.toString "target"
  let targetAddress ← (DispatchAddress.deserialize serializedTarget).elim (.error .typeError) .ok
  let apnsType ← j.toString "apnsType"
  let apnsId ← j.toString "apnsId"
  let voipApnsId ← j.toString "apnsVoipId"
  let fcmId ← j.toString "fcmId"
  let umengId ← j.toString "umengId"
  let osType ← j.toNumber Json.getInt lexicalInt32 "clientOsType"
  let osversion ← j.toString "clientOsVersion"
  let phonemodel ← j.toString "clientPhoneModel"
  let bcmversion ← j.toString "clientBcmVersion"
  let buildCode ← j.toNumber Json.getUInt64 lexicalUInt64 "clientBcmBuildCode"
  let pushClass ← j.toNumber Json.getInt lexicalInt32 "pushClass"
  .ok {
    content := content
    badge := badge
    targetAddress := targetAddress
    apnsType := apnsType
    apnsId := apnsId
    voipApnsId := voipApnsId
    fcmId := fcmId
    umengId := umengId
    clientVersion := ⟨osType.toUInt32, osversion, buildCode, phonemodel⟩
    bcmversion := bcmversion
    pushClass := pushClass }

/-- A notification whose text is read back -/
structure Sendable (n : WireNotification) : Prop where
  content : n.content.Storable
  noColon : colon ∉ n.targetAddress.uid
  targetUid : Utf8 n.targetAddress.uid
  apnsType : Utf8 n.apnsType
  apnsId : Utf8 n.apnsId
  voipApnsId : Utf8 n.voipApnsId
  fcmId : Utf8 n.fcmId
  umengId : Utf8 n.umengId
  osversion : Utf8 n.clientVersion.osversion
  phonemodel : Utf8 n.clientVersion.phonemodel
  bcmversion : Utf8 n.bcmversion

variable {n : WireNotification}

theorem mapOrder_toJson (n : WireNotification) : n.toJson.mapOrder =
    .object [("apnsId", .string n.apnsId), ("apnsType", .string n.apnsType),
      ("apnsVoipId", .string n.voipApnsId), ("badge", .number n.badge.toInt),
      ("clientBcmBuildCode", .number n.clientVersion.bcmbuildcode.toNat),
      ("clientBcmVersion", .string n.bcmversion),
      ("clientOsType", .number n.clientVersion.ostype.toInt32.toInt),
      ("clientOsVersion", .string n.clientVersion.osversion),
      ("clientPhoneModel", .string n.clientVersion.phonemodel), ("content", n.content),
      ("fcmId", .string n.fcmId), ("pushClass", .number n.pushClass.toInt),
      ("target", .string n.targetAddress.getSerialized), ("umengId", .string n.umengId)] := by
  simp [Json.mapOrder, toJson, List.insertionSort, List.orderedInsert]

theorem ofJson_mapOrder (h : colon ∉ n.targetAddress.uid) : ofJson n.toJson.mapOrder = .ok n := by
  rw [mapOrder_toJson]
  simp [ofJson, Json.toNumber, Json.toString, Json.at_, List.lookup_cons, Json.getUInt64,
    Json.getInt, Json.integer, Json.getString, bind, Except.bind, Functor.map, Except.map,
    ofInt_toNat_uInt64, Dispatcher.deserialize_getSerialized h]

theorem storable_toJson (h : n.Sendable) : n.toJson.mapOrder.Storable := by
  have hi32 : ∀ i : Int32, (Json.number i.toInt).Storable := by
    intro i
    have hle := i.le_toInt
    have hlt := i.toInt_lt
    exact .number (by omega)
  have hcode : (Json.number n.clientVersion.bcmbuildcode.toNat).Storable := by
    have hlt : n.clientVersion.bcmbuildcode.toNat < 2 ^ 64 := n.clientVersion.bcmbuildcode.toNat_lt
    exact .number (by omega)
  have htarget : Utf8 n.targetAddress.getSerialized := by
    have hcolon : Utf8 [colon] := utf8_singleton (by decide)
    have hdevice : Utf8 (decimal n.targetAddress.deviceid.toNat) :=
      JsonText.utf8_intDecimal (n.targetAddress.deviceid.toNat : ℤ)
    exact h.targetUid.append (hcolon.append hdevice)
  have hkeys : ["apnsId", "apnsType", "apnsVoipId", "badge", "clientBcmBuildCode",
      "clientBcmVersion", "clientOsType", "clientOsVersion", "clientPhoneModel", "content", "fcmId",
      "pushClass", "target", "umengId"].Pairwise (· < ·) := by decide
  rw [mapOrder_toJson]
  refine .of_keys hkeys ?_
  simp only [List.forall_mem_cons, List.not_mem_nil, false_imp_iff, implies_true, and_true]
  exact ⟨.string h.apnsId, .string h.apnsType, .string h.voipApnsId, hi32 _, hcode,
    .string h.bcmversion, hi32 _, .string h.osversion, .string h.phonemodel, h.content,
    .string h.fcmId, hi32 _, .string htarget, .string h.umengId⟩

/-! ## What is made can be sent -/

/-- The strings of a device are UTF-8. -/
structure DeviceUtf8 (device : Device) : Prop where
  apntype : Utf8 device.apntype
  apnid : Utf8 device.apnid
  voipapnid : Utf8 device.voipapnid
  gcmid : Utf8 device.gcmid
  umengid : Utf8 device.umengid
  osversion : Utf8 device.clientversion.osversion
  phonemodel : Utf8 device.clientversion.phonemodel

/-- The content is an object that can be sent. -/
def Filled (n : WireNotification) : Prop :=
  ∃ fields, n.content = .object fields ∧ (Json.object fields).Storable

theorem filled_chat {senderUid : Bytes} (h : Utf8 senderUid) :
    ∃ n, ({} : WireNotification).chat senderUid = .ok n ∧ n.Filled := by
  have hkeys : ["contactchat", "notifytype"].Pairwise (· < ·) := by decide
  have hchat : (Json.object [("uid", .string senderUid)]).Storable := by
    refine .of_keys (List.pairwise_singleton _ _) ?_
    intro f hf
    rw [List.mem_singleton.mp hf]
    exact .string h
  have hfields : (Json.object [("contactchat", .object [("uid", .string senderUid)]),
      ("notifytype", .string (ascii ['1']))]).Storable := by
    refine .of_keys hkeys ?_
    rw [List.forall_mem_cons, List.forall_mem_singleton]
    exact ⟨hchat, .string (utf8_of_all (by decide))⟩
  refine ⟨{ content := .object _ }, ?_, _, rfl, hfields⟩
  rfl

theorem filled_friendReq {senderUid payload : Bytes} (hsender : Utf8 senderUid)
    (hpayload : Utf8 payload) (type : Int32) :
    ∃ n, ({} : WireNotification).friendReq senderUid payload type = .ok n ∧ n.Filled := by
  have hkeys : ["friendreq", "notifytype"].Pairwise (· < ·) := by decide
  have hreqKeys : ["payload", "type", "uid"].Pairwise (· < ·) := by decide
  have htype : (Json.number type.toInt).Storable := by
    have hle := type.le_toInt
    have hlt := type.toInt_lt
    exact .number (by omega)
  have hreq : (Json.object [("payload", .string payload), ("type", .number type.toInt),
      ("uid", .string senderUid)]).Storable := by
    refine .of_keys hreqKeys ?_
    simp only [List.forall_mem_cons, List.not_mem_nil, false_imp_iff, implies_true, and_true]
    exact ⟨.string hpayload, htype, .string hsender⟩
  have hfields : (Json.object [("friendreq", .object [("payload", .string payload),
      ("type", .number type.toInt), ("uid", .string senderUid)]),
      ("notifytype", .string (ascii ['4']))]).Storable := by
    refine .of_keys hkeys ?_
    rw [List.forall_mem_cons, List.forall_mem_singleton]
    exact ⟨hreq, .string (utf8_of_all (by decide))⟩
  refine ⟨{ content := .object _ }, ?_, _, rfl, hfields⟩
  -- every key is put in front of those before it
  have huid : "type" < "uid" := by decide
  have hpayloadKey : "payload" < "type" := by decide
  have hfriendreq : "friendreq" < "notifytype" := by decide
  simp only [friendReq, Json.clear, Json.assign, bind, Except.bind, pure, Except.pure]
  rw [Json.assignField_of_lt hfriendreq, Json.assignField_of_lt huid,
    Json.assignField_of_lt hpayloadKey]

/-- Only the target is changed, and the content stays one that can be sent. -/
theorem filled_setTargetAddress (h : n.Filled) (address : DispatchAddress) :
    ∃ n', n.setTargetAddress address = .ok n' ∧ n'.Filled ∧ n'.targetAddress = address ∧
      n'.badge = n.badge := by
  rcases h with ⟨fields, hcontent, hstorable⟩
  cases hempty : address.uid.isEmpty with
  | true =>
      refine ⟨{ n with targetAddress := address }, ?_, ⟨fields, hcontent, hstorable⟩, rfl, rfl⟩
      simp [setTargetAddress, hempty, bind, Except.bind, pure, Except.pure]
  | false =>
      have hhash : (Json.number (fnvHash address.uid).toNat).Storable := by
        have hlt : (fnvHash address.uid).toNat < 2 ^ 32 := (fnvHash address.uid).toNat_lt
        exact .number (by omega)
      have hassign : n.content.assign "targetid" (.number (fnvHash address.uid).toNat) =
          .ok (.object (Json.assignField "targetid" (.number (fnvHash address.uid).toNat) fields)) := by
        rw [hcontent]
        rfl
      rw [hcontent] at hassign
      refine ⟨{ n with
        content := .object (Json.assignField "targetid" (.number (fnvHash address.uid).toNat) fields)
        targetAddress := address }, ?_, ⟨_, rfl, hstorable.assign hhash hassign⟩, rfl, rfl⟩
      simp [setTargetAddress, hempty, hcontent, hassign, bind, Except.bind, pure, Except.pure]

theorem sendable_setDeviceInfo (hn : n.Filled) (hcolon : colon ∉ n.targetAddress.uid)
    (hutf8 : Utf8 n.targetAddress.uid) {device : Device} (hdevice : DeviceUtf8 device)
    {bcmversion : Bytes} (hversion : Utf8 bcmversion) :
    (n.setDeviceInfo device bcmversion).Sendable := by
  rcases hn with ⟨fields, hcontent, hstorable⟩
  exact ⟨hcontent ▸ hstorable, hcolon, hutf8, hdevice.apntype, hdevice.apnid, hdevice.voipapnid,
    hdevice.gcmid, hdevice.umengid, hdevice.osversion, hdevice.phonemodel, hversion⟩

theorem sendable_ofStored {source : Bytes} (hsource : Utf8 source) (count : UInt32)
    {address : DispatchAddress} (hcolon : colon ∉ address.uid) (hutf8 : Utf8 address.uid)
    {device : Device} (hdevice : DeviceUtf8 device) {bcmversion : Bytes} (hversion : Utf8 bcmversion)
    (push : Int32) :
    ∃ n, ofStored source count address device bcmversion push = .ok n ∧ n.Sendable := by
  rcases filled_chat hsource with ⟨n, hchat, hn⟩
  have hbadged : Filled { n with badge := count.toInt32 } := hn
  rcases filled_setTargetAddress hbadged address with ⟨n', htarget, hn', haddress, -⟩
  rw [← haddress] at hcolon hutf8
  have hsendable := sendable_setDeviceInfo hn' hcolon hutf8 hdevice hversion
  refine ⟨{ n'.setDeviceInfo device bcmversion with pushClass := push }, ?_, { hsendable with }⟩
  simp [ofStored, hchat, htarget, bind, Except.bind, pure, Except.pure]

theorem sendable_friendNotifications {uid : Bytes} (hcolon : colon ∉ uid) (hutf8 : Utf8 uid)
    (now : Int64) {devices : List (Device × Bytes)}
    (hdevices : ∀ d ∈ devices, DeviceUtf8 d.1 ∧ Utf8 d.2) (hn : n.Filled) :
    ∃ ns, friendNotifications uid now devices n = .ok ns ∧ ∀ n' ∈ ns, n'.Sendable := by
  induction devices generalizing n with
  | nil => exact ⟨[], rfl, by simp⟩
  | cons d devices ih =>
      rw [List.forall_mem_cons] at hdevices
      rcases d with ⟨device, bcmversion⟩
      rw [friendNotifications]
      split_ifs
      · exact ih hdevices.2 hn
      · rcases filled_setTargetAddress hn ⟨uid, device.id⟩ with ⟨n', htarget, hn', haddress, -⟩
        have hfilled : (n'.setDeviceInfo device bcmversion).Filled := hn'
        rcases ih hdevices.2 hfilled with ⟨ns, hns, hall⟩
        have huid : n'.targetAddress.uid = uid := by rw [haddress]
        refine ⟨n'.setDeviceInfo device bcmversion :: ns, ?_, ?_⟩
        · simp [htarget, hns, bind, Except.bind, pure, Except.pure]
        · rw [List.forall_mem_cons]
          refine ⟨?_, hall⟩
          exact sendable_setDeviceInfo hn' (huid ▸ hcolon) (huid ▸ hutf8) hdevices.1.1 hdevices.1.2

end WireNotification

end BcmServer.Offline
