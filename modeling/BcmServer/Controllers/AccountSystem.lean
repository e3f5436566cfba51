import BcmServer.Controllers.AccountRequests

/-!
# BcmServer.Controllers.AccountSystem — the life of an account

An account comes into being when somebody signs up with a key whose hash is the uid, after
having solved a challenge. From then on devices are let in by `Authenticator::auth`, and
their requests, and those to sign in and to destroy the account, are handled at the same
time: each reads the account, and writes what it changed later, in any order.

A request that needs a device to be let in goes on with the account that was read for that,
after it was noted in the store when the device was last seen. The one-time keys that it
uploads are stored last; those of a device that signs in are cleared. Anybody can ask for
the keys of the devices, which takes one-time keys out of the store.
-/

namespace BcmServer.Controllers

open Util Lts Store Auth

/-! ## Signing up -/

/-- `SignUpChallenge` -/
structure SignUpChallenge where
  difficulty : UInt32
  nonce : UInt32
  timestamp : UInt64
deriving DecidableEq, Repr

/-- What `SignUpChallenges::get` gives -/
inductive ChallengeLookup where
  | found (challenge : SignUpChallenge)
  | missing
  | internalError
deriving DecidableEq, Repr

/-- A device as `Authenticator` sees it -/
def deviceSeen (d : Store.Device) : Auth.Device :=
  let clientVersion : Option ClientVersion := d.values .clientVersion
  { id := d.id
    state := stateOf d
    authtoken := d.values .authToken
    salt := d.values .salt
    lastseentime := d.values .lastSeenTime
    clientversion := clientVersion.getD {} }

/-- An account as `Authenticator` sees it -/
def Registered.seen (r : Registered) (uid : Bytes) : Auth.Account :=
  { uid := uid
    state := r.state
    devices := r.account.devices.map deviceSeen }

namespace AccountServer

variable {F K : Type} (server : AccountServer F K)

/-- `AccountsController::challenge`; without a value where it refuses -/
def challenge (uid : Bytes) (nonce : UInt32) (clock : Clock) : Option SignUpChallenge :=
  if server.lib.validUid uid then
    some
      { difficulty := server.difficulty
        nonce := nonce
        timestamp := clock.nowInMilli.toUInt64 }
  else none

/-- `AccountsController::signup` up to the challenge -/
def signup (req : SignRequest) : Except RequestStatus AuthorizationHeader :=
  if req.attr.attributes.publicKey.isEmpty then .error .badRequest
  else
    match req.auth with
    | none => .error .unauthorized
    | some auth =>
        if server.lib.checkUid auth.uid req.attr.attributes.publicKey true then .ok auth
        else .error .unauthorized

/-- The challenge is looked at. -/
def signupChallenge (req : SignRequest) (auth : AuthorizationHeader) (lookup : ChallengeLookup)
    (clock : Clock) : Except RequestStatus Unit :=
  match lookup with
  | .internalError => .error .internalServerError
  | .missing => .error .forbidden
  | .found challenge =>
      -- the signed time is converted
      if clock.nowInMilli.toUInt64 - challenge.timestamp > server.expiration then
        .error .preconditionFailed
      else if verifyChallenge server.lib.getDoubleHash auth.uid challenge.difficulty
          challenge.nonce req.attr.nonce then .ok ()
      else .error .preconditionFailed

/-- The device that signs up -/
def signupDevice (req : SignRequest) (auth : AuthorizationHeader) : Store.Device :=
  let attributes := req.attr.attributes
  let cert := Authenticator.getCredential server.lib.ext req.randNum auth.token
  let device := (Store.Device.fresh (UInt32.ofInt auth.deviceId))
    |>.set .createTime req.clock.nowInMilli.toUInt64
    |>.set .name attributes.deviceName
    |>.set .signalingKey attributes.signalingKey
    |>.set .fetchesMessages attributes.fetchesMessages
    |>.set .registrationId attributes.registrationId.toUInt32
    |>.set .supportVoice attributes.voice
    |>.set .supportVideo attributes.video
    |>.set .lastSeenTime req.clock.todayInMilli.toUInt64
    |>.set .userAgent req.agent
    |>.set .state Auth.DeviceState.normal
  let device :=
    match req.client with
    | none => device
    | some client => device.set .clientVersion (some client)
  device |>.set .authToken cert.token |>.set .salt cert.salt

/-- The account that is created -/
def signupAccount (req : SignRequest) (auth : AuthorizationHeader) : Registered :=
  let attributes := req.attr.attributes
  let account : Store.Account := {}
  { publickey := attributes.publicKey
    account :=
      { (account
          |>.set .identityKey attributes.publicKey
          |>.set .name attributes.name
          |>.set .nickname attributes.nickname
          |>.set .state AccountState.normal
          |>.set .privacy (some { acceptstrangermsg := true })) with
        devices := [server.signupDevice req auth] } }

/-- The account is created if there is none and the token is signed. -/
def signupCreate (req : SignRequest) (auth : AuthorizationHeader) (lookup : AccountLookup) :
    Except RequestStatus Registered :=
  match lookup with
  | .failed => .error .internalServerError
  | .found _ => .error .conflict
  | .noSuchData =>
      if server.lib.verifySignature req.attr.attributes.publicKey auth.token req.attr.sign then
        .ok (server.signupAccount req auth)
      else .error .notAcceptable

/-! ## Letting a device in -/

/-- The authenticator when the account of the uid is read, for a store that takes what is noted -/
def authenticator (uid : Bytes) (lookup : AccountLookup) (clock : Clock) : Authenticator where
  accounts :=
    { get := fun their =>
        if their = uid then
          match lookup with
          | .found r => .found (r.seen their)
          | .noSuchData => .noSuchData
          | .failed => .failed
        else .noSuchData
      updateDevice := fun _ _ => true
      uid_get := by
        intro their account h
        split at h
        · cases lookup with
          | found r =>
              cases h
              rfl
          | noSuchData => cases h
          | failed => cases h
        · cases h }
  todayInMilli := clock.todayInMilli.toInt

/-- What `Authenticator::checkAndUpdateDevice` changes -/
def checkAndUpdateDevice (r : Registered) (deviceId : UInt32) (client : Option ClientVersion)
    (clock : Clock) : List ModifyAccount.Op :=
  match r.account.getDevice deviceId with
  | none => []
  | some device =>
      let lastseentime : UInt64 := device.values .lastSeenTime
      (if lastseentime.toInt64 ≠ clock.todayInMilli then
        [ModifyAccount.Op.setLastseentime deviceId clock.todayInMilli.toUInt64]
      else []) ++
      (match client with
      | none => []
      | some client =>
          if client ≠ (deviceSeen device).clientversion then
            [ModifyAccount.Op.mutableClientversion deviceId client]
          else [])

end AccountServer

/-! ## The system -/

/-- How a step of a request ends, and when it takes place -/
structure Effect where
  result : WriteResult := .done
  clock : Clock := { nowInMilli := 0, todayInMilli := 0 }
deriving DecidableEq, Repr

/-- A request comes in. Where the account is read at once, `reads` tells whether the store
answers. -/
inductive AccountEvent where
  | challenge (nonce : UInt32) (clock : Clock) (result : WriteResult)
  | signup (req : SignRequest)
  | signin (req : SignRequest) (reads : Bool)
  | signinDevice (req : SignRequest) (reads : Bool)
  | destroy (sign : Bytes) (reads : Bool)
  | request (header : AuthorizationHeader) (client : Option ClientVersion) (req : AuthedRequest)
      (clock : Clock) (reads : Bool)
  | getDeviceKeys (targetDeviceIdSelector : Bytes) (clock : Clock) (reads : Bool)

/-- The account of a uid, its challenge and its one-time keys, as they are stored. The rest is what
happened: the challenges that were given, the requests that came in, the requests to sign up for
which a challenge was read, with the time, the requests of devices that were let in, and the keys
that were given away. -/
structure AccountStore where
  row : Option Registered := none
  challenge : Option SignUpChallenge := none
  keys : List OnetimeKey := []
  issued : List SignUpChallenge := []
  received : List AccountEvent := []
  challenged : List (SignRequest × SignUpChallenge × Clock) := []
  admitted : List (UInt32 × AuthedRequest) := []
  responses : List PreKeyResponse := []

/-- A request that is going on -/
inductive AccountCall where
  /-- to sign up: the challenge is read next, or deleted, or the account is read or created -/
  | getChallenge (req : SignRequest) (auth : AuthorizationHeader)
  | delChallenge (req : SignRequest) (auth : AuthorizationHeader)
  | getAccount (req : SignRequest) (auth : AuthorizationHeader)
  | create (r : Registered)
  /-- a device is let in: it is noted when it was seen, then its request is handled -/
  | seen (r : Registered) (w : AccountWrite) (deviceId : UInt32) (req : AuthedRequest)
      (clock : Clock)
  /-- a device signs in: its one-time keys are cleared, then it is written -/
  | clearKeys (deviceId : UInt32) (w : AccountWrite)
  /-- what a handler changed is written, then one-time keys are stored -/
  | write (w : AccountWrite) (upload : Option KeyUpload)
  | setKeys (upload : KeyUpload)
  /-- one-time keys are taken for somebody who asks for the keys of the devices -/
  | takeKeys (target : Registered) (deviceId : Option UInt32)

namespace AccountStore

/-- The account is read. -/
def lookup (s : AccountStore) (reads : Bool) : AccountLookup :=
  if reads then
    match s.row with
    | some r => .found r
    | none => .noSuchData
  else .failed

/-- The challenge is read. -/
def lookupChallenge (s : AccountStore) (result : WriteResult) : ChallengeLookup :=
  match result with
  | .done =>
      match s.challenge with
      | some challenge => .found challenge
      | none => .missing
  | _ => .internalError

/-- It is noted that a challenge was read. -/
def noteChallenged (s : AccountStore) (req : SignRequest) (lookup : ChallengeLookup)
    (clock : Clock) : AccountStore :=
  match lookup with
  | .found challenge => { s with challenged := (req, challenge, clock) :: s.challenged }
  | _ => s

/-- A write of the account that is stored -/
def write (dao : AccountsDao) (s : AccountStore) (w : AccountWrite) (result : WriteResult) :
    Bool × AccountStore :=
  match s.row with
  | none => (false, s)
  | some r =>
      let performed := w.perform dao r.account result
      (performed.1, { s with row := some { r with account := performed.2 } })

end AccountStore

/-- The calls for what a handler does -/
def Handled.calls (h : Handled) (next : AccountWrite → AccountCall) : List AccountCall :=
  match h with
  | .ok w => [next w]
  | .error _ => []

/-- The call for keys that are to be stored, if there are any -/
def uploadCalls (upload : Option KeyUpload) : List AccountCall :=
  match upload with
  | none => []
  | some upload => [.setKeys upload]

namespace AccountServer

variable {F K : Type} (server : AccountServer F K)
  (create : Registered → Option Registered → Option Registered) (uid : Bytes)

/-- The handler of a request goes on. -/
def proceed (r : Registered) (deviceId : UInt32) (req : AuthedRequest) (clock : Clock) :
    List AccountCall :=
  let upload := req.upload deviceId
  match server.handle r deviceId clock req with
  | none => uploadCalls upload
  | some h => h.calls fun w => .write w upload

/-- The handler of a request to sign in clears the keys of the device. -/
def proceedSignin (req : SignRequest) (h : Handled) : List AccountCall :=
  match req.auth with
  | some auth => if auth.uid = uid then h.calls (.clearKeys (UInt32.ofInt auth.deviceId)) else []
  | none => []

/-- A device that is let in is noted, if there is something to note, and its request is handled. -/
def authedCalls (r : Registered) (deviceId : UInt32) (client : Option ClientVersion)
    (req : AuthedRequest) (clock : Clock) : List AccountCall :=
  let ops := checkAndUpdateDevice r deviceId client clock
  if ops.isEmpty then server.proceed r deviceId req clock
  else
    let edited := server.edit r ops
    [.seen { r with account := edited.account } { edited := edited, device := some deviceId }
      deviceId req clock]

/-- The next step of a request -/
def next (s : AccountStore) (e : Effect) : AccountCall → AccountStore × List AccountCall
  | .getChallenge req auth =>
      let lookup := s.lookupChallenge e.result
      (s.noteChallenged req lookup e.clock,
        match server.signupChallenge req auth lookup e.clock with
        | .error _ => []
        | .ok () => [.delChallenge req auth])
  | .delChallenge req auth =>
      -- whether it is deleted does not matter
      (if e.result = .failed then s else { s with challenge := none }, [.getAccount req auth])
  | .getAccount req auth =>
      match server.signupCreate req auth (s.lookup (e.result = .done)) with
      | .error _ => (s, [])
      | .ok r => (s, [.create r])
  | .create r => (if e.result = .failed then s else { s with row := create r s.row }, [])
  | .seen r w deviceId req clock =>
      let written := s.write server.dao w e.result
      (written.2, if written.1 then server.proceed r deviceId req clock else [])
  | .clearKeys deviceId w =>
      -- whether they are cleared does not matter
      (if e.result = .failed then s
        else { s with keys := server.keysDao.clear deviceId s.keys }, [.write w none])
  | .write w upload =>
      let written := s.write server.dao w e.result
      (written.2, if written.1 then uploadCalls upload else [])
  | .setKeys upload =>
      (if e.result = .failed then s
        else { s with keys := server.keysDao.set upload.deviceId upload.keys s.keys }, [])
  | .takeKeys target deviceId =>
      let taken := server.keysDao.get deviceId s.keys
      (match e.result with
      | .failed => s
      | .lost => { s with keys := taken.2 }
      | .done =>
          let response :=
            getDeviceKeys server.masterId e.clock.nowInMilli target.account deviceId taken.1
          { s with
            keys := taken.2
            responses := response.toList ++ s.responses }, [])

/-- What is done at once when a request comes in -/
def respond (s : AccountStore) : AccountEvent → AccountStore × List AccountCall
  | .challenge nonce clock result =>
      match server.challenge uid nonce clock with
      | none => (s, [])
      | some challenge =>
          if result = .failed then (s, [])
          else ({ s with challenge := some challenge, issued := challenge :: s.issued }, [])
  | .signup req =>
      match server.signup req with
      | .error _ => (s, [])
      | .ok auth => (s, if auth.uid = uid then [.getChallenge req auth] else [])
  | .signin req reads =>
      (s, proceedSignin uid req (server.signin (s.lookup reads) req))
  | .signinDevice req reads =>
      (s, proceedSignin uid req (server.signinDevice (s.lookup reads) req))
  | .destroy sign reads =>
      (s, (server.destroy (s.lookup reads) uid sign).calls fun w => .write w none)
  | .request header client req clock reads =>
      let lookup := s.lookup reads
      let m := authenticator uid lookup clock
      let deviceId := UInt32.ofInt header.deviceId
      if (m.auth server.lib.ext header client req.authType).1 = .success then
        match lookup with
        | .found r =>
            ({ s with admitted := (deviceId, req) :: s.admitted },
              server.authedCalls r deviceId client req clock)
        | _ => (s, [])
      else (s, [])
  | .getDeviceKeys targetDeviceIdSelector clock reads =>
      match s.lookup reads with
      | .found target =>
          (s,
            match getAccount server.masterId clock.nowInMilli target.account
                targetDeviceIdSelector with
            | some deviceId => [.takeKeys target deviceId]
            | none => [])
      | _ => (s, [])

/-- A request comes in. -/
def receive (s : AccountStore) (event : AccountEvent) : AccountStore × List AccountCall :=
  server.respond uid { s with received := event :: s.received } event

/-- All requests about the account of a uid, their steps in any order. `create` is what
`dao::Accounts::create` makes of what is stored. -/
def system : CallSystem AccountStore AccountCall Effect AccountEvent where
  next s call e := some (server.next create s e call)
  env p event := some (server.receive uid p.shared event)

/-- There is no account and no request yet. -/
def start : Pool AccountStore AccountCall := ⟨{}, []⟩

end AccountServer

end BcmServer.Controllers
