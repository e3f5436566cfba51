import BcmServer.Http.Session
import BcmServer.Websocket.Session

/-!
# BcmServer.Websocket.Request — requests inside a websocket

A client sends requests over its websocket as messages with a verb, a path,
headers and a body. `handleRequestMessage` makes an HTTP request of the message,
takes it through validator and router as `HttpSession` does, and sends the
response back with the id of the request. The caller is the one the session was
opened by: an account, or a device that is about to log in and has a request id
only.

What is thrown on the way leaves `dispatchMessage` without an answer, up to the
handler, whose `std::exception`s `invokeHandler` catches.

* `Connection.reaches_of_arrive`: what a message has passed whose handler is
  invoked.
-/

namespace BcmServer.Websocket

open Util Http Auth Limiters Crypto

/-! ## Messages -/

/-- `WebsocketRequestMessage` -/
structure RequestMessage where
  verb : Bytes := []
  path : Bytes := []
  headers : List Bytes := []
  body : Bytes := []
  id : UInt64 := 0
deriving DecidableEq, Repr

/-- `WebsocketResponseMessage` -/
structure ResponseMessage where
  id : UInt64 := 0
  status : UInt32 := 0
  message : Bytes := []
  headers : List Bytes := []
  body : Bytes := []
deriving DecidableEq, Repr

/-- `WebsocketMessage::Type` -/
inductive MessageType where
  | unknown | request | response
deriving DecidableEq, Repr

/-- `WebsocketMessage` -/
structure Message where
  type : MessageType
  request : Option RequestMessage := none
  response : Option ResponseMessage := none
deriving DecidableEq, Repr

/-- A `WebsocketSession`: its service, who has opened it, what it will write, and
its promises. -/
structure Connection (F E : Type) where
  service : Service F E
  authenticated : Authenticated
  writeQueue : List Message := []
  promises : Session := Session.initial

variable {F E : Type} (ext : External F)

/-! ## The request -/

/-- The verb of a message -/
def RequestMessage.method (req : RequestMessage) : Verb := Verb.ofBytes (req.verb.map toUpper)

/-- The name and the value of a header with one colon -/
def headerPair (header : Bytes) : Option (Bytes × Bytes) :=
  match header.splitOn colon with
  | [name, value] =>
      if !(trim name).isEmpty && !(trim value).isEmpty then some (trim name, trim value) else none
  | _ => none

/-- The loop over the headers -/
def setHeaders : List Bytes → F → Except Thrown F
  | [], fields => return fields
  | header :: headers, fields =>
      match headerPair header with
      | none => setHeaders headers fields
      | some (name, value) => do
          let fields ← ext.set fields name value
          setHeaders headers fields

namespace Connection

/-- The caller of a route: the account of the session, whose device must be there.
The cast throws if the session has no account. -/
def authorize (conn : Connection F E) (route : HttpRoute F E) (ctx : HttpContext F E) :
    Except Thrown (Next F E) :=
  if route.authType = .noAuth then return .invoke route ctx
  else
    match conn.authenticated with
    | .requestId _ =>
        .error (.exception (ascii "boost::bad_any_cast: failed conversion".toList))
    | .account a =>
        if a.getAuthDevice.isSome then
          return .invoke route { ctx with authResult := some (.account a) }
        else return .answer { ctx.response with result := 403 }

/-- The route of a request is looked up. -/
def route (conn : Connection F E) (svc : Service F E) (calls : List (Bytes × LimitLevel))
    (ctx : HttpContext F E) : Except Thrown (Arrival F E) := do
  match ← svc.router.matchRequest ctx.request with
  | .filtered status reason =>
      let response ← ext.result ctx.response status
      return ⟨svc, calls, .answer { response with reason := reason }⟩
  | .mismatched => return ⟨svc, calls, .answer { ctx.response with result := 404 }⟩
  | .matched route pathParams queryParams =>
      let ctx := { ctx with pathParams := pathParams, queryParams := queryParams }
      let next ← conn.authorize route ctx
      return ⟨svc, calls, next⟩

/-- The validator is asked, and then the route is looked up. -/
def screen (conn : Connection F E) (ctx : HttpContext F E) (around : Surroundings) :
    Except Thrown (Arrival F E) :=
  match conn.service.check ext ctx.request around with
  | .noEndpoint => return ⟨conn.service, [], .answer { ctx.response with result := 400 }⟩
  | .rejected svc calls => do
      let response ← ext.result ctx.response limiterRejected
      return ⟨svc, calls, .answer { response with reason := obsoleteReason ext limiterRejected }⟩
  | .passed svc calls => conn.route ext svc calls ctx

/-- `WebsocketSession::handleRequestMessage` up to the handler -/
def arrive (conn : Connection F E) (req : RequestMessage) (around : Surroundings) :
    Except Thrown (Arrival F E) :=
  if req.method = .unknown ∨ req.path = [] then
    return ⟨conn.service, [], .answer { result := 400, fields := ext.noFields }⟩
  else do
    let fields ← setHeaders ext req.headers ext.noFields
    conn.screen ext
      { request := ⟨req.method, req.path, fields, req.body⟩
        response := { result := 0, fields := ext.noFields } } around

/-- The response is written into the message. What the client has put there stays
where nothing is written. -/
def convert (old : ResponseMessage) (id : UInt64) (response : Http.Response F) :
    ResponseMessage where
  id := id
  status := UInt32.ofNat response.result
  message :=
    if response.reason.isEmpty then ext.obsoleteReason response.result else response.reason
  headers := old.headers ++ (ext.entries response.fields).map fun p => p.1 ++ colon :: p.2
  body := if response.body.isEmpty then old.body else response.body

/-- The handler, if there is one to invoke, gives the response. -/
def respond : Next F E → Except Thrown (Http.Response F)
  | .answer response => return response
  | .invoke route ctx => do
      let ctx ← route.invokeHandler ext ctx
      return ctx.response

/-- `WebsocketSession::handleRequestMessage` -/
def handleRequestMessage (conn : Connection F E) (req : RequestMessage) (old : ResponseMessage)
    (around : Surroundings) : Except Thrown (Connection F E × ResponseMessage) := do
  let arrival ← conn.arrive ext req around
  let response ← respond ext arrival.next
  return ({ conn with service := arrival.service }, convert ext old req.id response)

/-- `WebsocketSession::write` -/
def write (conn : Connection F E) (message : Message) : Connection F E :=
  { conn with writeQueue := conn.writeQueue ++ [message] }

/-- `WebsocketSession::dispatchMessage`, for a payload that `ParseFromString` has
made a message of, if it could -/
def dispatchMessage (conn : Connection F E) (payload : Option Message) (around : Surroundings) :
    Except Thrown (Connection F E) :=
  match payload with
  | none => return conn
  | some message =>
      match message.type with
      | .request => do
          let (conn, response) ← conn.handleRequestMessage ext (message.request.getD {})
            (message.response.getD {}) around
          return conn.write { type := .response, response := some response }
      | .response =>
          let r := message.response.getD {}
          return { conn with promises := conn.promises.handleResponseMessage ⟨r.id, r.status⟩ }
      | .unknown => return conn

end Connection

/-! ## The way of a request to its handler -/

/-- The fields that the headers make -/
def RequestMessage.fields (req : RequestMessage) : F :=
  (req.headers.filterMap headerPair).foldl (fun fields p => ext.put fields p.1 p.2) ext.noFields

/-- The HTTP request of a message -/
def RequestMessage.http (req : RequestMessage) : Request F :=
  ⟨req.method, req.path, req.fields ext, req.body⟩

/-- The header fields are of a length that `set` takes. -/
def RequestMessage.HeadersFit (req : RequestMessage) : Prop :=
  ∀ p ∈ req.headers.filterMap headerPair, ext.accepts p.1 p.2 = true

theorem setHeaders_ok_iff (headers : List Bytes) (fields fields' : F) :
    setHeaders ext headers fields = .ok fields' ↔
      (∀ p ∈ headers.filterMap headerPair, ext.accepts p.1 p.2 = true) ∧
        fields' = (headers.filterMap headerPair).foldl (fun f p => ext.put f p.1 p.2) fields := by
  induction headers generalizing fields with
  | nil =>
      constructor
      · intro h
        cases h
        exact ⟨by simp, rfl⟩
      · rintro ⟨-, rfl⟩
        rfl
  | cons header headers ih =>
      rw [setHeaders]
      cases hpair : headerPair header with
      | none =>
          rw [List.filterMap_cons_none hpair]
          exact ih fields
      | some p =>
          rw [List.filterMap_cons_some hpair, List.forall_mem_cons, List.foldl_cons, and_assoc,
            ← ih, bind_eq_ok]
          by_cases hfit : ext.accepts p.1 p.2 = true
          · simp [External.set, hfit]
          · simp [External.set, hfit]

/-- The context that a request starts with -/
def contextOf (request : Request F) : HttpContext F E where
  request := request
  response := { result := 0, fields := ext.noFields }

/-- The message gets to a route: the verb is known, the headers are taken, the
validator passes the request and the router finds the route. -/
structure Reaches (conn : Connection F E) (req : RequestMessage) (around : Surroundings)
    (svc : Service F E) (calls : List (Bytes × LimitLevel)) (route : HttpRoute F E)
    (pathParams queryParams : Params) : Prop where
  verb : req.method ≠ .unknown
  path : req.path ≠ []
  headers : req.HeadersFit ext
  passed : conn.service.check ext (req.http ext) around = .passed svc calls
  found : conn.service.router.matchRequest (req.http ext) =
    .ok (.matched route pathParams queryParams)

/-- The context in which a route is found -/
def routeContext (request : Request F) (pathParams queryParams : Params) : HttpContext F E :=
  { contextOf ext request with pathParams := pathParams, queryParams := queryParams }

namespace Connection

/-- A message that gets to a route is invoked if the session may. -/
theorem arrive_of_reaches {conn : Connection F E} {req : RequestMessage} {around : Surroundings}
    {svc : Service F E} {calls : List (Bytes × LimitLevel)} {route : HttpRoute F E}
    {pathParams queryParams : Params}
    (h : Reaches ext conn req around svc calls route pathParams queryParams) :
    conn.arrive ext req around =
      (conn.authorize route (routeContext ext (req.http ext) pathParams queryParams) >>=
        fun next => pure ⟨svc, calls, next⟩) := by
  have hgood : ¬ (req.method = .unknown ∨ req.path = []) := not_or.mpr ⟨h.verb, h.path⟩
  have hfields : setHeaders ext req.headers ext.noFields = .ok (req.fields ext) :=
    (setHeaders_ok_iff ext _ _ _).mpr ⟨h.headers, rfl⟩
  have hpassed : conn.service.check ext
      ⟨req.method, req.path, req.fields ext, req.body⟩ around = .passed svc calls := h.passed
  have hrouter : svc.router = conn.service.router := Service.check_router ext h.passed
  have hfound : svc.router.matchRequest ⟨req.method, req.path, req.fields ext, req.body⟩ =
      .ok (.matched route pathParams queryParams) := hrouter ▸ h.found
  rw [arrive, if_neg hgood, hfields]
  show conn.screen ext _ around = _
  rw [screen, hpassed]
  show conn.route ext svc calls _ = _
  rw [Connection.route, hfound]
  rfl

theorem route_of_authorize {conn : Connection F E} {r route : HttpRoute F E}
    {ctx ctx' : HttpContext F E} (h : conn.authorize r ctx = .ok (.invoke route ctx')) :
    r = route := by
  unfold authorize at h
  split at h
  · cases h
    rfl
  · split at h
    · cases h
    · split at h
      · cases h
        rfl
      · cases h

/-- A handler is invoked for no other messages. -/
theorem reaches_of_arrive {conn : Connection F E} {req : RequestMessage} {around : Surroundings}
    {svc : Service F E} {calls : List (Bytes × LimitLevel)} {route : HttpRoute F E}
    {ctx : HttpContext F E} (h : conn.arrive ext req around = .ok ⟨svc, calls, .invoke route ctx⟩) :
    ∃ pathParams queryParams, Reaches ext conn req around svc calls route pathParams queryParams ∧
      conn.authorize route (routeContext ext (req.http ext) pathParams queryParams) =
        .ok (.invoke route ctx) := by
  unfold arrive at h
  split at h
  · cases h
  · rename_i hgood
    obtain ⟨hverb, hpath⟩ := not_or.mp hgood
    obtain ⟨fields, hfields, hscreen⟩ := bind_eq_ok.mp h
    obtain ⟨hfit, rfl⟩ := (setHeaders_ok_iff ext _ _ _).mp hfields
    unfold screen at hscreen
    split at hscreen
    · cases hscreen
    · obtain ⟨response, -, hlast⟩ := bind_eq_ok.mp hscreen
      cases hlast
    · rename_i svc' calls' hpassed
      have hrouter : svc'.router = conn.service.router := Service.check_router ext hpassed
      obtain ⟨result, hresult, hrest⟩ := bind_eq_ok.mp hscreen
      rw [hrouter] at hresult
      cases result with
      | filtered status reason =>
          obtain ⟨response, -, hlast⟩ := bind_eq_ok.mp hrest
          cases hlast
      | mismatched => cases hrest
      | matched r pathParams queryParams =>
          obtain ⟨next, hnext, hlast⟩ := bind_eq_ok.mp hrest
          cases hlast
          cases route_of_authorize hnext
          exact ⟨pathParams, queryParams, ⟨hverb, hpath, hfit, hpassed, hresult⟩, hnext⟩

end Connection

end BcmServer.Websocket
