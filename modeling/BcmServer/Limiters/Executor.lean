import BcmServer.Auth.AuthorizationHeader
import BcmServer.Http.Route
import BcmServer.Limiters.Qps

/-!
# BcmServer.Limiters.Executor — the validator of the requests

`LimiterExecutor` stands in front of the routers. It takes the uid from the
`Authorization` header, or from the path where the API has it there, and lets
the request pass if the limiter of that user and the one of the API grant it.

The calls of the user limiter are recorded: `validate_calls` says which there
are for a request that passes.
-/

namespace BcmServer.Limiters

open Util Http Auth

/-! ## The checkers -/

namespace UidChecker

/-- The APIs without authentication that have the uid in the path -/
def patterns : List Api := [
  LimiterGlobals.api .get "/v1/accounts/challenge/:uid",
  LimiterGlobals.api .delete_ "/v1/accounts/:uid/:signature"]

/-- `UidChecker::preProcessing`, for the uid of the header, empty if there is none -/
def preProcessing (api : Api) (uid : Bytes) : Bytes :=
  if !uid.isEmpty then uid
  else
    (patterns.findSome? fun p =>
      ApiMatcher.matchAndFetch p api (ascii ":uid".toList) uid).getD []

/-- `UidChecker::check`: whether the request passes, the limiter, and the calls of it. -/
def check (limiter : UserQpsLimiter) (api : Api) (uid : Bytes) (now : ℤ) :
    Bool × UserQpsLimiter × List (Bytes × LimitLevel) :=
  let charged := preProcessing api uid
  if charged.isEmpty then (true, limiter, [])
  else
    let r := limiter.acquireAccess charged now
    (r.2 = .good, r.1, [(charged, r.2)])

end UidChecker

/-- `ApiChecker::check`: whether the request passes, and the limiter. -/
def ApiChecker.check (limiter : ApiQpsLimiter) (api : Api) (now : ℤ) : Bool × ApiQpsLimiter :=
  if api.toBytes.isEmpty then (true, limiter)
  else
    let r := limiter.acquireAccess api.toBytes now
    (r.2 = .good, r.1)

/-! ## The executor -/

/-- `custom_http_status::limiter_rejected` -/
def limiterRejected : ℕ := 460

/-- `LimiterExecutor` and the limiters and ignored APIs it works with -/
structure LimiterExecutor where
  user : UserQpsLimiter
  api : ApiQpsLimiter
  ignoredApis : List Api

/-- What `validate` gives: whether the request passes, and the calls of the user
limiter. A request that does not is answered with `limiterRejected`. -/
structure Validation where
  executor : LimiterExecutor
  passed : Bool
  userCalls : List (Bytes × LimitLevel)

namespace LimiterExecutor

variable {F : Type} (ext : External F)

/-- The API name of a target: `assign` from a C string, which ends at a zero byte,
if there is a query. -/
def apiName (url : Bytes) : Bytes :=
  if '?'.toUInt8 ∈ url then url.takeWhile fun c => c ≠ '?'.toUInt8 && c ≠ 0 else url

/-- `CheckArgs::api` -/
def apiOf (request : Request F) : Api := ⟨request.method, apiName request.target⟩

/-- `CheckArgs::uid` -/
def uidOf (request : Request F) : Bytes :=
  ((AuthorizationHeader.parse ext
    (ext.value request.fields (ascii "Authorization".toList))).map AuthorizationHeader.uid).getD []

/-- `LimiterExecutor::ignore` -/
def ignore (e : LimiterExecutor) (api : Api) : Bool :=
  e.ignoredApis.any fun item => ApiMatcher.matchApi item api

/-- `LimiterExecutor::validate`, the clock being read by each limiter -/
def validate (e : LimiterExecutor) (request : Request F) (userNow apiNow : ℤ) : Validation :=
  if e.ignore (apiOf request) then ⟨e, true, []⟩
  else
    match UidChecker.check e.user (apiOf request) (uidOf ext request) userNow with
    | (false, user, calls) => ⟨{ e with user := user }, false, calls⟩
    | (true, user, calls) =>
        let r := ApiChecker.check e.api (apiOf request) apiNow
        ⟨{ e with user := user, api := r.2 }, r.1, calls⟩

/-- The uid that a request is charged to, empty if it is charged to nobody -/
def chargedUid (request : Request F) : Bytes :=
  UidChecker.preProcessing (apiOf request) (uidOf ext request)

/-- A request that passes was granted by the limiter of the user it is charged to. -/
theorem validate_calls {e : LimiterExecutor} {request : Request F} {userNow apiNow : ℤ}
    (hignore : e.ignore (apiOf request) = false)
    (h : (e.validate ext request userNow apiNow).passed = true) :
    (e.validate ext request userNow apiNow).userCalls =
      if chargedUid ext request = [] then [] else [(chargedUid ext request, .good)] := by
  unfold validate at h ⊢
  rw [hignore, if_neg Bool.false_ne_true] at h ⊢
  by_cases huid : chargedUid ext request = []
  · have hcheck : UidChecker.check e.user (apiOf request) (uidOf ext request) userNow =
        (true, e.user, []) := by
      unfold chargedUid at huid
      simp [UidChecker.check, huid]
    rw [hcheck, if_pos huid]
  · have hcheck : UidChecker.check e.user (apiOf request) (uidOf ext request) userNow =
        (decide ((e.user.acquireAccess (chargedUid ext request) userNow).2 = .good),
          (e.user.acquireAccess (chargedUid ext request) userNow).1,
          [(chargedUid ext request, (e.user.acquireAccess (chargedUid ext request) userNow).2)]) := by
      unfold chargedUid at huid ⊢
      simp [UidChecker.check, huid]
    rw [hcheck] at h ⊢
    rw [if_neg huid]
    by_cases hgood : (e.user.acquireAccess (chargedUid ext request) userNow).2 = .good
    · simp [hgood]
    · simp [hgood] at h

end LimiterExecutor

end BcmServer.Limiters
