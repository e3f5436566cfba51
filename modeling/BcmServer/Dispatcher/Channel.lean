import BcmServer.Dispatcher.Address

/-!
# BcmServer.Dispatcher.Channel — what a `DispatchChannel` decides

The data a channel works on (envelopes, stored messages, the device behind the
websocket) and its pure decisions: whether a stored message is stale, whether
the client takes batches, whether a request can be prepared, and what happens
to a P2P message once the client has answered.

The websocket session is asked for the authorised device anew at every step
(`getAuthenticated`, `AccountsManager::getAuthDevice`), so each decision takes
the answer of that moment as an `Option Device`.
-/

namespace BcmServer.Dispatcher

open BcmServer.Util

/-! ## Data -/

/-- `Envelope::Type`: the two types the channel treats differently, and the
others. -/
inductive EnvelopeType where
  | receipt
  | noise
  | other (n : ℕ)
deriving DecidableEq, Repr

/-- An `Envelope`. -/
structure Envelope where
  type : EnvelopeType
  timestamp : UInt64
  source : Bytes
  sourcedevice : UInt32
  sourceregistration : UInt32
  sourceextra : Bytes
  relay : Bytes
  content : Bytes
  legacymessage : Bytes
  push : UInt32
deriving DecidableEq, Repr

/-- A `StoredMessage`; the database sets the id. -/
structure StoredMessage where
  id : UInt64
  msgtype : EnvelopeType
  destination : Bytes
  destinationdeviceid : UInt32
  destinationregistrationid : UInt32
  source : Bytes
  sourcedeviceid : UInt32
  sourceregistrationid : UInt32
  sourceextra : Bytes
  relay : Bytes
  timestamp : UInt64
  content : Bytes
deriving DecidableEq, Repr

/-- The row `MessagesManager::store` writes. -/
def storedMessage (id : UInt64) (destination : DispatchAddress) (registrationid : UInt32)
    (e : Envelope) : StoredMessage where
  id := id
  msgtype := e.type
  destination := destination.uid
  destinationdeviceid := destination.deviceid
  destinationregistrationid := registrationid
  source := e.source
  sourcedeviceid := e.sourcedevice
  sourceregistrationid := e.sourceregistration
  sourceextra := e.sourceextra
  relay := e.relay
  timestamp := e.timestamp
  content := e.content

/-- `MessagesManager::convert`. -/
def convert (m : StoredMessage) : Envelope where
  type := m.msgtype
  timestamp := m.timestamp
  source := m.source
  sourcedevice := m.sourcedeviceid
  sourceregistration := m.sourceregistrationid
  sourceextra := m.sourceextra
  relay := m.relay
  content := m.content
  legacymessage := []
  push := 0

/-- `ClientVersion::ostype`. -/
inductive OsType where
  | ios
  | android
  | unknown
deriving DecidableEq, Repr

structure ClientVersion where
  ostype : OsType
  bcmbuildcode : UInt64
deriving DecidableEq, Repr

/-- The fields of a `Device` that the channel reads. `signalingkey` is the key
after `Base64::decode`, which gives the empty string for a malformed one. -/
structure Device where
  id : UInt32
  registrationid : UInt32
  signalingkey : Bytes
  clientversion : ClientVersion
deriving DecidableEq, Repr

/-- The versions of `EncryptSenderConfig`. -/
structure EncryptSenderConfig where
  iosVersion : UInt64
  androidVersion : UInt64
deriving DecidableEq, Repr

/-! ## Decisions about a device -/

/-- Whether `DispatchChannel::encrypt` succeeds: the key must hold the 32 bytes
of the cipher key and the 20 bytes of the MAC key. The digest is never short of
the 10 bytes it is cut to. -/
def Device.encrypts (d : Device) : Bool := 32 + 20 ≤ d.signalingkey.length

/-- `DispatchChannel::isSupportDispatchBatch`. -/
def isSupportDispatchBatch (auth : Option Device) : Bool :=
  match auth with
  | none => false
  | some d =>
      match d.clientversion.ostype with
      | .ios => d.clientversion.bcmbuildcode ≥ 1235
      | .android => d.clientversion.bcmbuildcode ≥ 1105
      | .unknown => false

/-- `SenderUtils::isClientVersionSupportEncryptSender`. -/
def isClientVersionSupportEncryptSender (d : Device) (cfg : EncryptSenderConfig) : Bool :=
  match d.clientversion.ostype with
  | .ios => ¬ d.clientversion.bcmbuildcode < cfg.iosVersion
  | .android => ¬ d.clientversion.bcmbuildcode < cfg.androidVersion
  | .unknown => false

/-- `DispatchChannel::isMessageStaleAndClientObsolete`. -/
def isMessageStaleAndClientObsolete (auth : Option Device) (cfg : EncryptSenderConfig)
    (m : StoredMessage) : Bool :=
  match auth with
  | none => false
  | some d =>
      m.destinationregistrationid ≠ 0 && m.destinationregistrationid ≠ d.registrationid &&
      m.source ≠ [] && !isClientVersionSupportEncryptSender d cfg

/-! ## Decisions about a response -/

/-- `http::status_class::successful`. -/
def successful (status : UInt32) : Bool := status / 100 = 2

/-- `http::status::connection_closed_without_response`, the status of the dummy
response a closed session answers with. -/
def connectionClosedWithoutResponse : UInt32 := 444

/-- `prepareRequest` of `sendP2pMessage`: whether there is a request. -/
def prepareP2p (auth : Option Device) : Bool :=
  match auth with
  | none => false
  | some d => d.encrypts

/-- What `handleResponse` of `sendP2pMessage` goes on to do. -/
inductive P2pOutcome where
  /-- nothing -/
  | stop
  /-- delete the stored message, then read on if the message was the last of a page -/
  | acked (del : Option UInt64) (more : Bool)
  /-- publish the envelope again, and store it if nobody receives it -/
  | republish (d : Device)
  /-- store the envelope -/
  | restore (d : Device)
deriving DecidableEq, Repr

/-- `handleResponse` of `sendP2pMessage`. -/
def handleP2p (auth : Option Device) (status : UInt32) (type : EnvelopeType)
    (storageId : Option UInt64) (remain : Bool) : P2pOutcome :=
  match auth with
  | none => .stop
  | some d =>
      if successful status then .acked storageId remain
      else if type = .noise then .stop
      else if storageId.isSome then .stop
      else if status = connectionClosedWithoutResponse then .republish d
      else .restore d

end BcmServer.Dispatcher
