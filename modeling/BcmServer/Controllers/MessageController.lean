import BcmServer.Auth.Authenticator
import BcmServer.Bloom.Membership
import BcmServer.Dispatcher.MessagesManager

/-!
# BcmServer.Controllers.MessageController — which devices a list of messages goes to

A sender encrypts a message for every device of the destination, and the request lists one
message for each. `validateCompleteDeviceList` compares the list with the active devices of
the destination: a device that is missing or one too many is a conflict, and the sender has
to try again. A list of a single noise message is the exception: it goes to the device of
the sender himself.

The ids of the list are put in a set first, so it is not noticed if a device is named
twice: it gets all messages that name it.

`validated_deliver`: every active device is named in a list that is validated, the devices of
the list are all found, and each gets the messages that name it.
-/

namespace BcmServer.Controllers

open Util Bloom Dispatcher

/-- `MessageController`, what its configuration says and what it calls. `encryptSender` is
without a value where the encryption fails. -/
structure MessageController where
  messageSize : ℕ
  needUpgrade : Bool
  plainUidSupport : Bool
  masterId : UInt32
  decode : Bytes → Bytes
  hasMultiDevice : Bytes → Bool
  encryptSender : Bytes → Bytes → Option Bytes

namespace MessageController

/-! ## Accounts -/

/-- `Device`, the fields that are read -/
structure Device where
  id : UInt32
  registrationid : UInt32 := 0
  fetchesmessages : Bool := false
  apnid : Bytes := []
  umengid : Bytes := []
  gcmid : Bytes := []
  hasSignedprekey : Bool := false
  lastseentime : UInt64 := 0
  publickey : Bytes := []
  features : Bytes := []
  ostype : OsType := .unknown
deriving DecidableEq, Repr

/-- `ContactsFilters` -/
structure ContactsFilters where
  algo : UInt32
  content : Bytes
deriving DecidableEq, Repr

/-- `Account`, the fields that are read -/
structure Account where
  uid : Bytes
  publickey : Bytes := []
  state : Auth.AccountState := .normal
  acceptstrangermsg : Option Bool := none
  contactsfilters : Option ContactsFilters := none
  devices : List Device
  authdeviceid : UInt32 := 0
deriving DecidableEq, Repr

/-- `AccountsManager::getDevice` -/
def Account.getDevice (account : Account) (deviceId : UInt32) : Option Device :=
  account.devices.find? fun d => d.id = deviceId

/-- `AccountsManager::getAuthDevice` -/
def Account.getAuthDevice (account : Account) : Option Device :=
  account.getDevice account.authdeviceid

/-- 30 days -/
def kDeviceExpiredTimeInMilli : Int64 := 30 * 24 * 60 * 60 * 1000

/-- 365 days -/
def kAccountExpiredTimeInMilli : Int64 := 365 * 24 * 60 * 60 * 1000

variable (ctl : MessageController) (nowInMilli : Int64)

/-- `AccountsManager::isDeviceActive` -/
def isDeviceActive (device : Device) : Bool :=
  let hasChannel := device.fetchesmessages || !device.apnid.isEmpty || !device.umengid.isEmpty ||
    !device.gcmid.isEmpty
  device.id == ctl.masterId && hasChannel && device.hasSignedprekey ||
    device.id != ctl.masterId && hasChannel && device.hasSignedprekey &&
      device.lastseentime.toInt64 > nowInMilli - kDeviceExpiredTimeInMilli

/-- `AccountsManager::getAccountLastSeen` -/
def Account.getAccountLastSeen (account : Account) : Int64 :=
  (account.devices.foldl (fun lastSeen (d : Device) =>
    if d.lastseentime > lastSeen then d.lastseentime else lastSeen) 0).toInt64

/-- `AccountsManager::isAccountActive` -/
def isAccountActive (account : Account) : Bool :=
  match account.getDevice ctl.masterId with
  | none => false
  | some masterDevice => account.state = .normal && ctl.isDeviceActive nowInMilli masterDevice &&
      account.getAccountLastSeen > nowInMilli - kAccountExpiredTimeInMilli

/-! ## Messages -/

/-- `IncomingMessage`, the fields that are read. The type is the one after the cast. -/
structure IncomingMessage where
  type : EnvelopeType
  destinationDeviceId : UInt32
  destinationRegistrationId : Int32 := 0
  body : Bytes := []
  content : Bytes := []
  push : Int32 := 0
deriving DecidableEq, Repr

/-- `IncomingMessageList` -/
structure IncomingMessageList where
  messages : List IncomingMessage
  relay : Bytes := []
  timestamp : UInt64
deriving DecidableEq, Repr

/-- `MismatchedDevices` -/
structure MismatchedDevices where
  missingDevices : List UInt32 := []
  extraDevices : List UInt32 := []
deriving DecidableEq, Repr

/-- A `std::set<uint32_t>`, in its order -/
def deviceSet (ids : List UInt32) : List UInt32 := ids.dedup.mergeSort fun a b => a ≤ b

/-- The devices that a list has to name: the active ones, but on a sync message not the
sender's own -/
def accountDevices (destination : Account) (isSyncMessage : Bool) : List Device :=
  destination.devices.filter fun device =>
    ctl.isDeviceActive nowInMilli device &&
      !(isSyncMessage && device.id == destination.authdeviceid)

/-- The two passes that compare the set of the list with that of the account -/
def compareDevices (destination : Account) (messages : List IncomingMessage)
    (isSyncMessage : Bool) : MismatchedDevices :=
  let messageDeviceIds := deviceSet (messages.map IncomingMessage.destinationDeviceId)
  let accountDeviceIds := (ctl.accountDevices nowInMilli destination isSyncMessage).map Device.id
  { missingDevices := accountDeviceIds.filter fun id => id ∉ messageDeviceIds
    extraDevices := messageDeviceIds.filter fun id => id ∉ accountDeviceIds }

def validateCompleteDeviceList (destination : Account) (messages : List IncomingMessage)
    (isSyncMessage : Bool) : Bool × MismatchedDevices :=
  let mismatchedDevices := ctl.compareDevices nowInMilli destination messages isSyncMessage
  let compared := (mismatchedDevices.missingDevices.isEmpty &&
    mismatchedDevices.extraDevices.isEmpty, mismatchedDevices)
  match messages with
  | [msg] =>
      -- for noise message, the target should be the sender himself
      if msg.type = .noise then
        (isSyncMessage && msg.destinationDeviceId == destination.authdeviceid, {})
      else compared
  | _ => compared

/-- `validateRegistrationIds`, with the stale devices -/
def validateRegistrationIds (destination : Account) (messages : List IncomingMessage) :
    Bool × List UInt32 :=
  let staleDevices := messages.filterMap fun (message : IncomingMessage) =>
    match destination.getDevice message.destinationDeviceId with
    | none => none
    | some device =>
        if message.destinationRegistrationId > 0 &&
            message.destinationRegistrationId.toUInt32 != device.registrationid then
          some device.id
        else none
  (staleDevices.isEmpty, staleDevices)

/-! ## Sending -/

/-- Why no message is sent. `noDevice` is a look-up without a device that is dereferenced. -/
inductive SendRefusal where
  | badRequest
  | notFound
  | internalServerError
  | filtered
  | upgradeRequired
  | conflict (mismatchedDevices : MismatchedDevices)
  | gone (staleDevices : List UInt32)
  | noDevice
deriving DecidableEq, Repr

/-- What `sendLocalMessage` publishes or stores -/
structure LocalMessage where
  destination : DispatchAddress
  registrationid : UInt32
  envelope : Envelope
deriving DecidableEq, Repr

/-- `generateSourceExtra`; without a value for the empty text -/
def generateSourceExtra (source : Bytes) (destination : Account) (device : Device) :
    Option Bytes :=
  if device.publickey.isEmpty then
    if device.id = ctl.masterId then ctl.encryptSender source destination.publickey else none
  else ctl.encryptSender source device.publickey

/-- A device is looked up and dereferenced. -/
def deref (device : Option Device) : Except SendRefusal Device :=
  match device with
  | none => .error .noDevice
  | some device => .ok device

def createEnvelope (source : Account) (timestamp : UInt64) (message : IncomingMessage)
    (sourceExtra : Bytes) : Except SendRefusal Envelope := do
  let authDevice ← deref source.getAuthDevice
  return {
    type := message.type
    timestamp := if timestamp = 0 then nowInMilli.toUInt64 else timestamp
    source := if ctl.plainUidSupport then source.uid else []
    sourcedevice := source.authdeviceid
    sourceregistration := authDevice.registrationid
    sourceextra := sourceExtra
    relay := []
    content := ctl.decode message.content
    legacymessage := ctl.decode message.body
    push := message.push.toUInt32 }

/-- The loop that fills `sourceExtraMap` -/
def sourceExtras (source destination : Account) :
    List IncomingMessage → Table UInt32 Bytes → Except SendRefusal (Table UInt32 Bytes)
  | [], sourceExtraMap => return sourceExtraMap
  | message :: messages, sourceExtraMap => do
      let device ← deref (destination.getDevice message.destinationDeviceId)
      match ctl.generateSourceExtra source.uid destination device with
      | none => throw .internalServerError
      | some sourceExtra =>
          sourceExtras source destination messages (sourceExtraMap.insert device.id sourceExtra)

/-- The loop that sends -/
def sendLocalMessages (source destination : Account) (timestamp : UInt64)
    (sourceExtraMap : Table UInt32 Bytes) :
    List IncomingMessage → Except SendRefusal (List LocalMessage)
  | [] => return []
  | message :: messages => do
      let device ← deref (destination.getDevice message.destinationDeviceId)
      let envelope ← ctl.createEnvelope nowInMilli source timestamp message
        ((sourceExtraMap.lookup device.id).getD [])
      let rest ← sendLocalMessages source destination timestamp sourceExtraMap messages
      return ⟨⟨destination.uid, device.id⟩, device.registrationid, envelope⟩ :: rest

/-- What `sendMessage` does with a list that has been validated -/
def deliver (source destination : Account) (messageList : IncomingMessageList) :
    Except SendRefusal (List LocalMessage) := do
  let sourceExtraMap ← ctl.sourceExtras source destination messageList.messages ∅
  ctl.sendLocalMessages nowInMilli source destination messageList.timestamp sourceExtraMap
    messageList.messages

/-- `getDestination`; the accounts are without a value where the read fails, and hold nothing
where there is no such user. -/
def getDestination (accounts : Bytes → Option (Option Account)) (destinationUid : Bytes) :
    Except SendRefusal Account :=
  match accounts destinationUid with
  | some none => .error .notFound
  | none => .error .internalServerError
  | some (some destination) =>
      if destination.state = .deleted then .error .notFound
      else if !ctl.isAccountActive nowInMilli destination then .error .notFound
      else .ok destination

/-- The destination does not take messages from the sender. -/
def blocks (source destination : Account) : Bool :=
  match destination.acceptstrangermsg, destination.contactsfilters with
  | some false, some filters =>
      (HashedFilters.ofContent filters.algo (ctl.decode filters.content)).contains source.uid !=
        some true
  | _, _ => false

/-- The answer to a list that does not go with the devices -/
def refuseList (source : Account) (mismatchedDevices : MismatchedDevices) : SendRefusal :=
  if ctl.needUpgrade then
    match source.getAuthDevice with
    | none => .noDevice
    | some authDevice =>
        if authDevice.ostype ≠ .unknown ∧ !ctl.hasMultiDevice authDevice.features then
          .upgradeRequired
        else .conflict mismatchedDevices
  else .conflict mismatchedDevices

/-- `sendMessage` once the destination is there: whether the sender's other devices have to be
told, and what is sent -/
def sendTo (source destination : Account) (messageList : IncomingMessageList)
    (bSyncMessage : Bool) : Except SendRefusal (Bool × List LocalMessage) :=
  if !bSyncMessage && ctl.blocks source destination then .error .filtered
  else
    let (complete, mismatchedDevices) :=
      ctl.validateCompleteDeviceList nowInMilli destination messageList.messages bSyncMessage
    if !complete then .error (ctl.refuseList source mismatchedDevices)
    else
      let (current, staleDevices) := validateRegistrationIds destination messageList.messages
      if !current then .error (.gone staleDevices)
      else do
        let sent ← ctl.deliver nowInMilli source destination messageList
        return (!bSyncMessage && source.devices.length > 1, sent)

def sendMessage (accounts : Bytes → Option (Option Account)) (source : Account)
    (destinationUid : Bytes) (messageList : IncomingMessageList) :
    Except SendRefusal (Bool × List LocalMessage) :=
  let bSyncMessage := source.uid == destinationUid
  if !messageList.relay.isEmpty then .error .badRequest
  else if messageList.messages.any fun msg => msg.content.length > ctl.messageSize then
    .error .badRequest
  else if bSyncMessage then ctl.sendTo nowInMilli source source messageList bSyncMessage
  else
    match ctl.getDestination nowInMilli accounts destinationUid with
    | .error refusal => .error refusal
    | .ok destination => ctl.sendTo nowInMilli source destination messageList bSyncMessage

/-! ## Lists that are validated -/

/-- The list goes with the devices of the destination. -/
def Validated (destination : Account) (messages : List IncomingMessage) (isSyncMessage : Bool) :
    Prop :=
  (ctl.validateCompleteDeviceList nowInMilli destination messages isSyncMessage).1 = true ∧
    (validateRegistrationIds destination messages).1 = true

/-- A single noise message for the sender's own device -/
def ToOwnDevice (destination : Account) (messages : List IncomingMessage) (isSyncMessage : Bool) :
    Prop :=
  isSyncMessage = true ∧ ∃ msg, messages = [msg] ∧ msg.type = .noise ∧
    msg.destinationDeviceId = destination.authdeviceid

/-- The messages of a list that name a device -/
def messagesFor (id : UInt32) (messages : List IncomingMessage) : List IncomingMessage :=
  messages.filter fun message => message.destinationDeviceId = id

/-- The list names the active devices, and no others. -/
structure Complete (destination : Account) (messages : List IncomingMessage)
    (isSyncMessage : Bool) : Prop where
  named : ∀ device ∈ ctl.accountDevices nowInMilli destination isSyncMessage,
    messagesFor device.id messages ≠ []
  known : ∀ message ∈ messages, ∃ device ∈ ctl.accountDevices nowInMilli destination isSyncMessage,
    device.id = message.destinationDeviceId

/-- What is sent for a message of the list -/
def Carries (source destination : Account) (timestamp : UInt64) (message : IncomingMessage)
    (sent : LocalMessage) : Prop :=
  sent.destination = ⟨destination.uid, message.destinationDeviceId⟩ ∧
    ∃ sourceExtra, ctl.createEnvelope nowInMilli source timestamp message sourceExtra =
      .ok sent.envelope

section Validation

variable {ctl nowInMilli} {source destination : Account} {messages : List IncomingMessage}
  {isSyncMessage : Bool}

theorem mem_deviceSet {ids : List UInt32} {id : UInt32} : id ∈ deviceSet ids ↔ id ∈ ids := by
  rw [deviceSet, List.mem_mergeSort, List.mem_dedup]

theorem messagesFor_ne_nil {id : UInt32} : messagesFor id messages ≠ [] ↔
    id ∈ messages.map IncomingMessage.destinationDeviceId := by
  rw [messagesFor, ne_eq, List.filter_eq_nil_iff, List.mem_map]
  simp

theorem complete_iff : ctl.Complete nowInMilli destination messages isSyncMessage ↔
    (ctl.compareDevices nowInMilli destination messages isSyncMessage).missingDevices = [] ∧
      (ctl.compareDevices nowInMilli destination messages isSyncMessage).extraDevices = [] := by
  have hmissing : (ctl.compareDevices nowInMilli destination messages isSyncMessage).missingDevices
      = [] ↔ ∀ device ∈ ctl.accountDevices nowInMilli destination isSyncMessage,
        messagesFor device.id messages ≠ [] := by
    rw [compareDevices, List.filter_eq_nil_iff, List.forall_mem_map]
    refine forall_congr' fun device => imp_congr_right fun _ => ?_
    rw [decide_eq_true_iff, not_not, mem_deviceSet, messagesFor_ne_nil]
  have hextra : (ctl.compareDevices nowInMilli destination messages isSyncMessage).extraDevices
      = [] ↔ ∀ message ∈ messages,
        ∃ device ∈ ctl.accountDevices nowInMilli destination isSyncMessage,
          device.id = message.destinationDeviceId := by
    rw [compareDevices, List.filter_eq_nil_iff]
    constructor
    · intro h message hmessage
      have hid := h _ (mem_deviceSet.mpr (List.mem_map_of_mem hmessage))
      rw [decide_eq_true_iff, not_not] at hid
      exact List.mem_map.mp hid
    · intro h id hid
      obtain ⟨message, hmessage, rfl⟩ := List.mem_map.mp (mem_deviceSet.mp hid)
      rw [decide_eq_true_iff, not_not]
      exact List.mem_map.mpr (h message hmessage)
  rw [hmissing, hextra]
  exact ⟨fun h => ⟨h.named, h.known⟩, fun h => ⟨h.1, h.2⟩⟩

/-- But for a single noise message, the lists that are validated are the complete ones. -/
theorem validate_iff_complete (hnoise : ∀ msg, messages = [msg] → msg.type ≠ .noise) :
    (ctl.validateCompleteDeviceList nowInMilli destination messages isSyncMessage).1 = true ↔
      ctl.Complete nowInMilli destination messages isSyncMessage := by
  have hcompared :
      let mismatched := ctl.compareDevices nowInMilli destination messages isSyncMessage
      (ctl.validateCompleteDeviceList nowInMilli destination messages isSyncMessage).1 =
        (mismatched.missingDevices.isEmpty && mismatched.extraDevices.isEmpty) := by
    unfold validateCompleteDeviceList
    split
    · exact congrArg Prod.fst (if_neg (hnoise _ rfl))
    · rfl
  rw [hcompared, Bool.and_eq_true, List.isEmpty_iff, List.isEmpty_iff, complete_iff]

/-- A list that is validated names the active devices, or is the exception. -/
theorem complete_of_validate
    (h : (ctl.validateCompleteDeviceList nowInMilli destination messages isSyncMessage).1 = true) :
    ToOwnDevice destination messages isSyncMessage ∨
      ctl.Complete nowInMilli destination messages isSyncMessage := by
  by_cases hnoise : ∃ msg, messages = [msg] ∧ msg.type = .noise
  · obtain ⟨msg, rfl, htype⟩ := hnoise
    simp only [validateCompleteDeviceList, if_pos htype, Bool.and_eq_true, beq_iff_eq] at h
    exact Or.inl ⟨h.1, msg, rfl, htype, h.2⟩
  · refine Or.inr ((validate_iff_complete fun msg hmsg htype => ?_).mp h)
    exact hnoise ⟨msg, hmsg, htype⟩

theorem getDevice_isSome {id : UInt32} :
    (destination.getDevice id).isSome ↔ ∃ device ∈ destination.devices, device.id = id := by
  rw [Account.getDevice, List.find?_isSome]
  simp

theorem id_of_getDevice {id : UInt32} {device : Device}
    (h : destination.getDevice id = some device) : device.id = id := by
  simpa using List.find?_some h

/-- Every device that a validated list names is found. -/
theorem found_of_complete (h : ctl.Complete nowInMilli destination messages isSyncMessage) :
    ∀ message ∈ messages, (destination.getDevice message.destinationDeviceId).isSome := by
  intro message hmessage
  obtain ⟨device, hdevice, hid⟩ := h.known message hmessage
  exact getDevice_isSome.mpr ⟨device, List.mem_of_mem_filter hdevice, hid⟩

theorem found_of_toOwnDevice (h : ToOwnDevice destination messages isSyncMessage)
    (hauth : destination.getAuthDevice.isSome) :
    ∀ message ∈ messages, (destination.getDevice message.destinationDeviceId).isSome := by
  obtain ⟨-, msg, rfl, -, hid⟩ := h
  intro message hmessage
  rw [List.mem_singleton.mp hmessage, hid]
  exact hauth

/-- Every look-up of a device that a validated list names finds one. The sender is one of the
devices of the account. -/
theorem found_of_validated (hauth : source.getAuthDevice.isSome)
    (hsync : isSyncMessage = true → destination = source)
    (h : ctl.Validated nowInMilli destination messages isSyncMessage) :
    ∀ message ∈ messages, (destination.getDevice message.destinationDeviceId).isSome := by
  rcases complete_of_validate h.1 with hown | hcomplete
  · have hdestination := hsync hown.1
    subst hdestination
    exact found_of_toOwnDevice hown hauth
  · exact found_of_complete hcomplete

/-- Where no device is named twice, at most one message names it. -/
theorem messagesFor_length_le
    (h : (messages.map IncomingMessage.destinationDeviceId).Nodup) (id : UInt32) :
    (messagesFor id messages).length ≤ 1 := by
  have hcount : (messagesFor id messages).length =
      (messages.map IncomingMessage.destinationDeviceId).count id := by
    rw [messagesFor, ← List.countP_eq_length_filter, List.count, List.countP_map]
    rfl
  rw [hcount]
  exact List.nodup_iff_count_le_one.mp h id

end Validation

/-! ## What is sent -/

section Deliver

variable {source destination : Account} {messages : List IncomingMessage}

/-- The first loop looks up the devices of the list. -/
theorem sourceExtras_ne_noDevice
    (h : ∀ message ∈ messages, (destination.getDevice message.destinationDeviceId).isSome)
    (extras : Table UInt32 Bytes) :
    ctl.sourceExtras source destination messages extras ≠ .error .noDevice := by
  induction messages generalizing extras with
  | nil => exact nofun
  | cons message messages ih =>
      obtain ⟨device, hdevice⟩ := Option.isSome_iff_exists.mp (h message List.mem_cons_self)
      rw [sourceExtras, hdevice]
      show (match ctl.generateSourceExtra source.uid destination device with
        | none => _
        | some _ => _) ≠ _
      split
      · simp [throw, throwThe, MonadExceptOf.throw]
      · exact ih (fun m hm => h m (List.mem_cons_of_mem _ hm)) _

/-- The second loop sends every message of the list to the device that it names. -/
theorem sendLocalMessages_spec
    (h : ∀ message ∈ messages, (destination.getDevice message.destinationDeviceId).isSome)
    (hauth : source.getAuthDevice.isSome) (timestamp : UInt64) (extras : Table UInt32 Bytes) :
    ∃ sent, ctl.sendLocalMessages nowInMilli source destination timestamp extras messages =
        .ok sent ∧
      List.Forall₂ (ctl.Carries nowInMilli source destination timestamp) messages sent := by
  induction messages with
  | nil => exact ⟨[], rfl, .nil⟩
  | cons message messages ih =>
      obtain ⟨device, hdevice⟩ := Option.isSome_iff_exists.mp (h message List.mem_cons_self)
      obtain ⟨authDevice, hauthDevice⟩ := Option.isSome_iff_exists.mp hauth
      obtain ⟨rest, hrest, hcarries⟩ := ih fun m hm => h m (List.mem_cons_of_mem _ hm)
      have henvelope : ∃ envelope, ctl.createEnvelope nowInMilli source timestamp message
          ((extras.lookup device.id).getD []) = .ok envelope := by
        rw [createEnvelope, hauthDevice]
        exact ⟨_, rfl⟩
      obtain ⟨envelope, henvelope⟩ := henvelope
      refine ⟨⟨⟨destination.uid, device.id⟩, device.registrationid, envelope⟩ :: rest, ?_,
        .cons ⟨?_, _, henvelope⟩ hcarries⟩
      · rw [sendLocalMessages, hdevice, hrest]
        show (ctl.createEnvelope nowInMilli source timestamp message
          ((extras.lookup device.id).getD []) >>= _) = _
        rw [henvelope]
        rfl
      · rw [id_of_getDevice hdevice]

theorem deliver_spec {messageList : IncomingMessageList}
    (h : ∀ message ∈ messageList.messages,
      (destination.getDevice message.destinationDeviceId).isSome)
    (hauth : source.getAuthDevice.isSome) :
    ctl.deliver nowInMilli source destination messageList ≠ .error .noDevice ∧
    ∀ sent, ctl.deliver nowInMilli source destination messageList = .ok sent →
      List.Forall₂ (ctl.Carries nowInMilli source destination messageList.timestamp)
        messageList.messages sent := by
  unfold deliver
  cases hextras : ctl.sourceExtras source destination messageList.messages ∅ with
  | error e =>
      refine ⟨fun hdeliver => ?_, nofun⟩
      cases hdeliver
      exact sourceExtras_ne_noDevice ctl h ∅ hextras
  | ok extras =>
      obtain ⟨sent, hsent, hcarries⟩ :=
        sendLocalMessages_spec ctl nowInMilli h hauth messageList.timestamp extras
      show ctl.sendLocalMessages nowInMilli source destination messageList.timestamp extras
        messageList.messages ≠ _ ∧ ∀ sent, ctl.sendLocalMessages nowInMilli source destination
        messageList.timestamp extras messageList.messages = _ → _
      rw [hsent]
      refine ⟨nofun, fun other hother => ?_⟩
      cases hother
      exact hcarries

end Deliver

/-- A validated list and what is sent for it -/
theorem validated_deliver (ctl : MessageController) (nowInMilli : Int64)
    {source destination : Account} {messageList : IncomingMessageList} {isSyncMessage : Bool}
    (hauth : source.getAuthDevice.isSome) (hsync : isSyncMessage = true → destination = source)
    (hvalid : ctl.Validated nowInMilli destination messageList.messages isSyncMessage) :
    (∀ message ∈ messageList.messages,
      (destination.getDevice message.destinationDeviceId).isSome) ∧
    (ToOwnDevice destination messageList.messages isSyncMessage ∨
      (∀ device ∈ ctl.accountDevices nowInMilli destination isSyncMessage,
        messagesFor device.id messageList.messages ≠ [] ∧
          ((messageList.messages.map IncomingMessage.destinationDeviceId).Nodup →
            ∃ message, messagesFor device.id messageList.messages = [message])) ∧
      ∀ message ∈ messageList.messages,
        ∃ device ∈ ctl.accountDevices nowInMilli destination isSyncMessage,
          device.id = message.destinationDeviceId) ∧
    ctl.deliver nowInMilli source destination messageList ≠ .error .noDevice ∧
    ∀ sent, ctl.deliver nowInMilli source destination messageList = .ok sent →
      List.Forall₂ (ctl.Carries nowInMilli source destination messageList.timestamp)
        messageList.messages sent := by
  have hfound := found_of_validated hauth hsync hvalid
  refine ⟨hfound, (complete_of_validate hvalid.1).imp id fun hcomplete =>
    ⟨fun device hdevice => ?_, hcomplete.known⟩, deliver_spec ctl nowInMilli hfound hauth⟩
  refine ⟨hcomplete.named device hdevice, fun hnodup => ?_⟩
  rw [← List.length_eq_one_iff]
  have hle := messagesFor_length_le hnodup device.id
  have hpos := List.length_pos_iff.mpr (hcomplete.named device hdevice)
  omega

/-- A controller that encrypts nothing -/
def plainMessages : MessageController where
  messageSize := 100
  needUpgrade := false
  plainUidSupport := true
  masterId := 1
  decode := id
  hasMultiDevice := fun _ => true
  encryptSender := fun _ _ => some [0]

/-- An account with the active devices 1 and 2, of which 1 is the one that asks -/
def twoDevices : Account where
  uid := [7]
  devices := [{ id := 1, fetchesmessages := true, hasSignedprekey := true },
    { id := 2, fetchesmessages := true, hasSignedprekey := true }]
  authdeviceid := 1

/-- A message with each of the numbers -/
def messagesTo (type : EnvelopeType) (ids : List UInt32) : List IncomingMessage :=
  ids.map fun id => { type, destinationDeviceId := id }

theorem messagesTo_ne_noise {ids : List UInt32} {msg : IncomingMessage}
    (h : messagesTo (.other 1) ids = [msg]) : msg.type ≠ .noise := by
  have hmsg : msg ∈ messagesTo (.other 1) ids := by
    rw [h]
    exact List.mem_singleton_self msg
  obtain ⟨id, -, rfl⟩ := List.mem_map.mp hmsg
  nofun

/-- Both devices are named. -/
theorem validated_deliver_two :
    (∀ message ∈ messagesTo (.other 1) [1, 2],
      (twoDevices.getDevice message.destinationDeviceId).isSome) ∧
    plainMessages.deliver 0 twoDevices twoDevices ⟨messagesTo (.other 1) [1, 2], [], 5⟩ ≠
      .error .noDevice :=
  have h := @validated_deliver plainMessages 0 twoDevices twoDevices
    ⟨messagesTo (.other 1) [1, 2], [], 5⟩ false (by decide) nofun
    ⟨(validate_iff_complete fun _ => messagesTo_ne_noise).mpr ⟨by decide, by decide⟩, by decide⟩
  ⟨h.1, h.2.2.1⟩

/-- A noise message passes the other device over, and a device that is named twice gets both
messages. -/
theorem not_exactly_one :
    (plainMessages.Validated 0 twoDevices (messagesTo .noise [1]) true ∧
      ∃ device ∈ plainMessages.accountDevices 0 twoDevices true,
        messagesFor device.id (messagesTo .noise [1]) = []) ∧
    plainMessages.Validated 0 twoDevices (messagesTo (.other 1) [1, 1, 2]) false ∧
      ∃ device ∈ plainMessages.accountDevices 0 twoDevices false,
        (messagesFor device.id (messagesTo (.other 1) [1, 1, 2])).length = 2 := by
  refine ⟨⟨⟨by decide, by decide⟩, by decide⟩, ⟨?_, by decide⟩, by decide⟩
  exact (validate_iff_complete fun _ => messagesTo_ne_noise).mpr ⟨by decide, by decide⟩

/-- A message whose recipient was offline is read as it was sent if it has no body and is pushed
normally. -/
theorem carries_read_back {ctl : MessageController} {nowInMilli : Int64}
    {source destination : Account} {timestamp : UInt64} {message : IncomingMessage}
    {sent : LocalMessage} (h : ctl.Carries nowInMilli source destination timestamp message sent)
    (id : UInt64) :
    convert (storedMessage id sent.destination sent.registrationid sent.envelope) =
      sent.envelope ↔ ctl.decode message.body = [] ∧ message.push = 0 := by
  obtain ⟨-, sourceExtra, henvelope⟩ := h
  have hfields : sent.envelope.legacymessage = ctl.decode message.body ∧
      sent.envelope.push = message.push.toUInt32 := by
    unfold createEnvelope at henvelope
    cases hdevice : source.getAuthDevice with
    | none =>
        rw [hdevice] at henvelope
        cases henvelope
    | some authDevice =>
        rw [hdevice] at henvelope
        rw [← Except.ok.inj henvelope]
        exact ⟨rfl, rfl⟩
  have hzero : message.push.toUInt32 = 0 ↔ message.push = 0 :=
    ⟨fun hpush => congrArg UInt32.toInt32 hpush, fun hpush => congrArg Int32.toUInt32 hpush⟩
  have hrow := convert_row_eq_iff ⟨id, sent.destination, sent.registrationid, sent.envelope⟩
  rw [hfields.1, hfields.2, hzero] at hrow
  exact hrow

/-! ## A request -/

section Request

variable {ctl : MessageController} {nowInMilli : Int64} {source : Account}
  {accounts : Bytes → Option (Option Account)} {destinationUid : Bytes}
  {messageList : IncomingMessageList}

theorem getDestination_ne_noDevice :
    ctl.getDestination nowInMilli accounts destinationUid ≠ .error .noDevice := by
  unfold getDestination
  split
  · nofun
  · nofun
  · split
    · nofun
    · split <;> nofun

theorem refuseList_ne_noDevice (hauth : source.getAuthDevice.isSome) (m : MismatchedDevices) :
    ctl.refuseList source m ≠ .noDevice := by
  obtain ⟨authDevice, hdevice⟩ := Option.isSome_iff_exists.mp hauth
  unfold refuseList
  rw [hdevice]
  split
  · show (if _ then _ else _) ≠ _
    split <;> nofun
  · nofun

/-- A request is refused before the list has been validated, or it is delivered. -/
theorem sendTo_cases (hauth : source.getAuthDevice.isSome) (destination : Account)
    (bSyncMessage : Bool) :
    (∃ e, e ≠ .noDevice ∧
      ctl.sendTo nowInMilli source destination messageList bSyncMessage = .error e) ∨
    ctl.Validated nowInMilli destination messageList.messages bSyncMessage ∧
      ctl.sendTo nowInMilli source destination messageList bSyncMessage =
        (ctl.deliver nowInMilli source destination messageList).map fun sent =>
          (!bSyncMessage && source.devices.length > 1, sent) := by
  unfold sendTo
  by_cases hblocks : (!bSyncMessage && ctl.blocks source destination) = true
  · exact Or.inl ⟨.filtered, nofun, if_pos hblocks⟩
  rw [if_neg hblocks]
  by_cases hcomplete : (!(ctl.validateCompleteDeviceList nowInMilli destination
      messageList.messages bSyncMessage).1) = true
  · exact Or.inl ⟨_, refuseList_ne_noDevice hauth _, if_pos hcomplete⟩
  by_cases hcurrent : (!(validateRegistrationIds destination messageList.messages).1) = true
  · exact Or.inl ⟨.gone (validateRegistrationIds destination messageList.messages).2, nofun,
      (if_neg hcomplete).trans (if_pos hcurrent)⟩
  · rw [Bool.not_eq_true, Bool.not_eq_false'] at hcomplete hcurrent
    refine Or.inr ⟨⟨hcomplete, hcurrent⟩, ?_⟩
    simp only [hcomplete, hcurrent]
    cases ctl.deliver nowInMilli source destination messageList with
    | error e => rfl
    | ok sent => rfl

theorem sendTo_sends (hauth : source.getAuthDevice.isSome) {destination : Account}
    {bSyncMessage : Bool} (hsync : bSyncMessage = true → destination = source) :
    ctl.sendTo nowInMilli source destination messageList bSyncMessage ≠ .error .noDevice ∧
    ∀ needsSync sent, ctl.sendTo nowInMilli source destination messageList bSyncMessage =
        .ok (needsSync, sent) →
      ctl.Validated nowInMilli destination messageList.messages bSyncMessage ∧
        List.Forall₂ (ctl.Carries nowInMilli source destination messageList.timestamp)
          messageList.messages sent := by
  rcases sendTo_cases hauth destination bSyncMessage with ⟨e, he, herror⟩ | ⟨hvalid, hdeliver⟩
  · rw [herror]
    exact ⟨fun h => he (Except.error.inj h), nofun⟩
  · have hspec := deliver_spec ctl nowInMilli (found_of_validated hauth hsync hvalid) hauth
    rw [hdeliver]
    cases hresult : ctl.deliver nowInMilli source destination messageList with
    | error e =>
        refine ⟨fun h => hspec.1 ?_, nofun⟩
        rw [hresult, Except.error.inj h]
    | ok sent =>
        refine ⟨nofun, fun needsSync sent' h => ?_⟩
        cases h
        exact ⟨hvalid, hspec.2 sent hresult⟩

/-- No look-up of a request comes to nothing, and a request that is answered has sent the
messages of a list that was validated. -/
theorem sendMessage_sends (hauth : source.getAuthDevice.isSome) :
    ctl.sendMessage nowInMilli accounts source destinationUid messageList ≠ .error .noDevice ∧
    ∀ needsSync sent,
      ctl.sendMessage nowInMilli accounts source destinationUid messageList =
        .ok (needsSync, sent) →
      ∃ destination, ctl.Validated nowInMilli destination messageList.messages
          (source.uid == destinationUid) ∧
        List.Forall₂ (ctl.Carries nowInMilli source destination messageList.timestamp)
          messageList.messages sent := by
  unfold sendMessage
  by_cases hrelay : (!messageList.relay.isEmpty) = true
  · simp only [if_pos hrelay]
    exact ⟨nofun, nofun⟩
  by_cases hsize : (messageList.messages.any fun msg => msg.content.length > ctl.messageSize) = true
  · simp only [if_neg hrelay, if_pos hsize]
    exact ⟨nofun, nofun⟩
  simp only [if_neg hrelay, if_neg hsize]
  by_cases hsync : (source.uid == destinationUid) = true
  · rw [if_pos hsync]
    have hsame : (source.uid == destinationUid) = true → source = source := fun _ => rfl
    have hsends := @sendTo_sends ctl nowInMilli source messageList hauth source _ hsame
    exact ⟨hsends.1, fun needsSync sent h => ⟨source, hsends.2 needsSync sent h⟩⟩
  · rw [if_neg hsync]
    cases hget : ctl.getDestination nowInMilli accounts destinationUid with
    | error e =>
        have hne : e ≠ .noDevice := fun he => getDestination_ne_noDevice (he ▸ hget)
        exact ⟨fun h => hne (Except.error.inj h), nofun⟩
    | ok destination =>
        have hother : (source.uid == destinationUid) = true → destination = source :=
          fun h => absurd h hsync
        have hsends := @sendTo_sends ctl nowInMilli source messageList hauth destination _ hother
        exact ⟨hsends.1, fun needsSync sent h => ⟨destination, hsends.2 needsSync sent h⟩⟩

end Request

end MessageController

end BcmServer.Controllers
