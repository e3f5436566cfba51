import BcmServer.Http.Router
import BcmServer.Limiters.Executor

/-!
# BcmServer.Http.Session — requests over HTTP

`HttpSession::onHeader` asks the validator, looks the route up and authenticates
the caller for routes that want it. What it comes to is an answer, or a route
whose handler is invoked once the body is read (`Next`).

The calls of the user limiter for a request are part of what it comes to.
-/

namespace BcmServer.Http

open Util Auth Limiters

/-- What a request comes to -/
inductive Next (F E : Type) where
  | answer (response : Response F)
  | invoke (route : HttpRoute F E) (ctx : HttpContext F E)

/-- What `HttpService` and `WebsocketService` consist of -/
structure Service (F E : Type) where
  router : HttpRouter F E
  authenticator : Authenticator
  validator : Option LimiterExecutor

/-- What is read besides the request: whether `remote_endpoint` gives an address,
and the clock of the limiters. -/
structure Surroundings where
  remoteEndpoint : Bool := true
  userNow : ℤ
  apiNow : ℤ
deriving DecidableEq, Repr

/-- A request on its way: the service, with the limiters that have counted it, and
the calls of the user limiter. -/
structure Arrival (F E : Type) where
  service : Service F E
  userCalls : List (Bytes × LimitLevel)
  next : Next F E

/-- What the validator says -/
inductive Check (F E : Type) where
  | noEndpoint
  | rejected (service : Service F E) (userCalls : List (Bytes × LimitLevel))
  | passed (service : Service F E) (userCalls : List (Bytes × LimitLevel))

variable {F E : Type} (ext : External F)

/-- `bcm::obsoleteReason` -/
def obsoleteReason (status : ℕ) : Bytes :=
  if ext.knownStatus status then ext.obsoleteReason status
  else if status = 460 then ascii "been throttled".toList
  else if status = 461 then ascii "upgrade required".toList
  else []

/-- `response::result(unsigned)` -/
def External.result (response : Response F) (status : ℕ) : Except Thrown (Response F) :=
  if ext.validStatus status then .ok { response with result := status }
  else .error (.exception (ascii "invalid status-code".toList))

theorem External.result_of_lt (response : Response F) {status : ℕ} (h : status < 1000) :
    ext.result response status = .ok { response with result := status } := by
  rw [result, if_pos (ext.validStatus_of_lt h)]

namespace Service

/-- The validator, if there is one, is asked. -/
def check (svc : Service F E) (request : Request F) (around : Surroundings) : Check F E :=
  match svc.validator with
  | none => .passed svc []
  | some e =>
      if around.remoteEndpoint then
        let v := e.validate ext request around.userNow around.apiNow
        let svc := { svc with validator := some v.executor }
        if v.passed then .passed svc v.userCalls else .rejected svc v.userCalls
      else .noEndpoint

theorem check_router {svc svc' : Service F E} {request : Request F} {around : Surroundings}
    {calls : List (Bytes × LimitLevel)} (h : svc.check ext request around = .passed svc' calls) :
    svc'.router = svc.router := by
  unfold check at h
  split at h
  · cases h
    rfl
  · dsimp only at h
    split at h
    · split at h
      · cases h
        rfl
      · cases h
    · cases h

/-- A request that passes was charged as `LimiterExecutor` charges it. -/
theorem check_passed {svc svc' : Service F E} {request : Request F} {around : Surroundings}
    {calls : List (Bytes × LimitLevel)} {e : LimiterExecutor} (hvalidator : svc.validator = some e)
    (hignore : e.ignore (LimiterExecutor.apiOf request) = false)
    (h : svc.check ext request around = .passed svc' calls) :
    calls = if LimiterExecutor.chargedUid ext request = [] then []
      else [(LimiterExecutor.chargedUid ext request, .good)] := by
  unfold check at h
  rw [hvalidator] at h
  dsimp only at h
  split at h
  · split at h
    · rename_i hpassed
      cases h
      exact LimiterExecutor.validate_calls ext hignore hpassed
    · cases h
  · cases h

end Service

namespace HttpSession

/-- The status for a caller that is not let in -/
def refusal : AuthResult → ℕ
  | .unknownError => 500
  | .deviceNotAllowed => 403
  | _ => 401

/-- The caller of a route is authenticated. -/
def authorize (svc : Service F E) (header : Request F) (route : HttpRoute F E)
    (ctx : HttpContext F E) : Next F E :=
  if route.authType = .noAuth then .invoke route ctx
  else
    match AuthorizationHeader.parse ext (ext.value header.fields (ascii "Authorization".toList)) with
    | none => .answer { ctx.response with result := 401 }
    | some authHeader =>
        let client := parseClientVersion (ext.value header.fields (ascii "X-Client-Version".toList))
        let r := svc.authenticator.auth ext authHeader client route.authType
        if r.1 = .success then .invoke route { ctx with authResult := some (.account r.2) }
        else .answer { ctx.response with result := refusal r.1 }

/-- `HttpSession::onHeader`, with a response that the session has begun -/
def onHeader (svc : Service F E) (header : Request F) (response : Response F)
    (around : Surroundings) : Except Thrown (Arrival F E) :=
  match svc.check ext header around with
  | .noEndpoint =>
      let response := { response with result := 400, reason := obsoleteReason ext 400 }
      return ⟨svc, [], .answer response⟩
  | .rejected svc calls => do
      let response ← ext.result response limiterRejected
      return ⟨svc, calls, .answer { response with reason := obsoleteReason ext limiterRejected }⟩
  | .passed svc calls => do
      match ← svc.router.matchRequest header with
      | .filtered status reason =>
          let response ← ext.result response status
          return ⟨svc, calls, .answer { response with reason := reason }⟩
      | .mismatched => return ⟨svc, calls, .answer { response with result := 404 }⟩
      | .matched route pathParams queryParams =>
          let ctx := HttpContext.mk header response pathParams queryParams none none none
          return ⟨svc, calls, authorize ext svc header route ctx⟩

end HttpSession

end BcmServer.Http
