import BcmServer.Websocket.Request

/-!
# BcmServer.Websocket.Answered — which requests are answered

Before the try block around the handler a request may throw at five places: a
header field that is too long, a value of the query or a segment of the path
that does not decode, a filter and the status it sets, and the cast of the
session's account. Behind that only what is not a `std::exception` is thrown.
A request that gets past all of them is answered once, with its id, and no other
is answered at all (`answered_iff`).
-/

namespace BcmServer.Websocket

open Util Http Auth Limiters Crypto

variable {F E : Type} (ext : External F)

/-! ## Behind the headers -/

/-- A request on its way is answered in the end: neither what comes first nor the
handler throws. -/
def Completes (x : Except Thrown (Arrival F E)) : Prop :=
  ∃ arrival, x = .ok arrival ∧ Thrown.Returns (Connection.respond ext arrival.next)

theorem completes_ok {arrival : Arrival F E} :
    Completes ext (.ok arrival) ↔ Thrown.Returns (Connection.respond ext arrival.next) := by
  constructor
  · rintro ⟨a, ha, h⟩
    cases ha
    exact h
  · intro h
    exact ⟨arrival, rfl, h⟩

/-- A route that is found is open to the session, and its handler throws nothing but
a `std::exception`. -/
structure Callable (conn : Connection F E) (route : HttpRoute F E) (ctx : HttpContext F E) :
    Prop where
  account : route.authType ≠ .noAuth → ∃ a, conn.authenticated = .account a
  handler : ∀ ctx', conn.authorize route ctx = .ok (.invoke route ctx') →
    ∀ ctx'' v, route.attempt ext ctx' ≠ .error (ctx'', some (.other v))

theorem authorize_completes (conn : Connection F E) (svc : Service F E)
    (calls : List (Bytes × LimitLevel)) (route : HttpRoute F E) (ctx : HttpContext F E) :
    Completes ext (conn.authorize route ctx >>= fun next => pure ⟨svc, calls, next⟩) ↔
      Callable ext conn route ctx := by
  have hinvoke : ∀ ctx', Thrown.Returns (Connection.respond ext (.invoke route ctx')) ↔
      ∀ ctx'' v, route.attempt ext ctx' ≠ .error (ctx'', some (.other v)) := by
    intro ctx'
    rw [← route.invokeHandler_returns ext ctx', Connection.respond, Thrown.returns_bind]
    constructor
    · rintro ⟨c, hc, -⟩
      exact ⟨c, hc⟩
    · rintro ⟨c, hc⟩
      exact ⟨c, hc, _, rfl⟩
  by_cases hno : route.authType = .noAuth
  · -- open to everybody
    have hauth : conn.authorize route ctx = .ok (.invoke route ctx) := by
      rw [Connection.authorize, if_pos hno]
      rfl
    rw [hauth]
    refine (completes_ok ext).trans ((hinvoke ctx).trans ⟨fun h => ⟨absurd hno, ?_⟩, fun h => ?_⟩)
    · intro ctx' hctx
      cases hauth.symm.trans hctx
      exact h
    · exact h.handler ctx hauth
  · cases hid : conn.authenticated with
    | requestId id =>
        -- the cast throws
        have hauth : ∃ e, conn.authorize route ctx = .error e := by
          rw [Connection.authorize, if_neg hno, hid]
          exact ⟨_, rfl⟩
        obtain ⟨e, he⟩ := hauth
        rw [he]
        constructor
        · rintro ⟨arrival, harrival, -⟩
          cases harrival
        · intro h
          obtain ⟨a, ha⟩ := h.account hno
          cases hid.symm.trans ha
    | account a =>
        cases hdev : a.getAuthDevice.isSome with
        | true =>
            have hauth : conn.authorize route ctx =
                .ok (.invoke route { ctx with authResult := some (.account a) }) := by
              rw [Connection.authorize, if_neg hno, hid]
              simp only [hdev, if_true]
              rfl
            rw [hauth]
            refine (completes_ok ext).trans ((hinvoke _).trans
              ⟨fun h => ⟨fun _ => ⟨a, hid⟩, ?_⟩, fun h => ?_⟩)
            · intro ctx' hctx
              cases hauth.symm.trans hctx
              exact h
            · exact h.handler _ hauth
        | false =>
            have hauth : conn.authorize route ctx =
                .ok (.answer { ctx.response with result := 403 }) := by
              rw [Connection.authorize, if_neg hno, hid]
              simp only [hdev, Bool.false_eq_true, if_false]
              rfl
            rw [hauth]
            refine iff_of_true ((completes_ok ext).mpr ⟨_, rfl⟩) ⟨fun _ => ⟨a, hid⟩, ?_⟩
            intro ctx' hctx
            cases hauth.symm.trans hctx

/-- The router does not throw on the request, and what it finds does not either. -/
structure Routable (conn : Connection F E) (request : Request F) : Prop where
  query : ∀ p ∈ HttpRouter.pairsOf request.target, UrlEncoder.Decodable p.2
  filters : Thrown.Returns (conn.service.router.refusal request)
  status : ∀ {status reason}, conn.service.router.refusal request = .ok (some (status, reason)) →
    ext.validStatus status = true
  segments : conn.service.router.refusal request = .ok none →
    HttpRouter.RoutesDecode request.method (HttpRouter.targetPath request.target)
      conn.service.router.routes.reverse
  found : ∀ {route pathParams queryParams},
    conn.service.router.matchRequest request = .ok (.matched route pathParams queryParams) →
      Callable ext conn route
        (routeContext ext request pathParams queryParams)

theorem route_completes (conn : Connection F E) {svc : Service F E}
    (hsvc : svc.router = conn.service.router) (calls : List (Bytes × LimitLevel))
    (request : Request F) :
    Completes ext (conn.route ext svc calls (contextOf ext request)) ↔
      Routable ext conn request := by
  have hreturns := conn.service.router.matchRequest_returns request
  have hrequest : (contextOf ext request : HttpContext F E).request = request := rfl
  rw [Connection.route, hsvc, hrequest]
  constructor
  · rintro ⟨arrival, harrival, hrespond⟩
    obtain ⟨result, hresult, hrest⟩ := bind_eq_ok.mp harrival
    obtain ⟨hquery, hfilters, hsegments⟩ := hreturns.mp ⟨result, hresult⟩
    refine ⟨hquery, hfilters, ?_, hsegments, ?_⟩
    · intro status reason hrefused
      cases hresult.symm.trans ((HttpRouter.matchRequest_filtered hquery).mpr hrefused)
      obtain ⟨response, hresponse, -⟩ := bind_eq_ok.mp hrest
      unfold External.result at hresponse
      split at hresponse
      · assumption
      · cases hresponse
    · intro route pathParams queryParams hmatched
      cases hresult.symm.trans hmatched
      exact (authorize_completes ext conn svc calls route _).mp ⟨arrival, hrest, hrespond⟩
  · intro h
    obtain ⟨result, hresult⟩ := hreturns.mpr ⟨h.query, h.filters, h.segments⟩
    rw [hresult]
    cases result with
    | filtered status reason =>
        have hvalid := h.status ((HttpRouter.matchRequest_filtered h.query).mp hresult)
        have hresponse : ext.result (contextOf ext request : HttpContext F E).response status =
            .ok { (contextOf ext request : HttpContext F E).response with result := status } := by
          rw [External.result, if_pos hvalid]
        exact ⟨_, bind_eq_ok.mpr ⟨_, rfl, bind_eq_ok.mpr ⟨_, hresponse, rfl⟩⟩, _, rfl⟩
    | mismatched => exact ⟨_, rfl, _, rfl⟩
    | matched route pathParams queryParams =>
        exact (authorize_completes ext conn svc calls route _).mpr (h.found hresult)

/-! ## The whole request -/

/-- What a request must not run into to be answered. A verb that is not known and an
empty path are answered at once, and so is a request that the validator stops. -/
structure Answerable (conn : Connection F E) (req : RequestMessage) (around : Surroundings) :
    Prop where
  headers : req.HeadersFit ext
  routed : ∀ svc calls, conn.service.check ext (req.http ext) around = .passed svc calls →
    Routable ext conn (req.http ext)

theorem screen_completes (conn : Connection F E) (request : Request F) (around : Surroundings) :
    Completes ext (conn.screen ext (contextOf ext request) around) ↔
      ∀ svc calls, conn.service.check ext request around = .passed svc calls →
        Routable ext conn request := by
  have hrequest : (contextOf ext request : HttpContext F E).request = request := rfl
  rw [Connection.screen, hrequest]
  cases hcheck : conn.service.check ext request around with
  | noEndpoint =>
      refine iff_of_true ⟨_, rfl, _, rfl⟩ ?_
      intro svc calls h
      cases h
  | rejected svc calls =>
      have hresponse := ext.result_of_lt (contextOf ext request : HttpContext F E).response
        (show limiterRejected < 1000 by decide)
      refine iff_of_true ⟨_, bind_eq_ok.mpr ⟨_, hresponse, rfl⟩, _, rfl⟩ ?_
      intro svc calls h
      cases h
  | passed svc calls =>
      have hrouter : svc.router = conn.service.router := Service.check_router ext hcheck
      refine (route_completes ext conn hrouter calls request).trans ⟨fun h => ?_, fun h => h svc calls rfl⟩
      intro svc calls _
      exact h

theorem arrive_completes (conn : Connection F E) (req : RequestMessage) (around : Surroundings) :
    Completes ext (conn.arrive ext req around) ↔
      (req.method = .unknown ∨ req.path = []) ∨ Answerable ext conn req around := by
  unfold Connection.arrive
  by_cases hbad : req.method = .unknown ∨ req.path = []
  · rw [if_pos hbad]
    exact iff_of_true ⟨_, rfl, _, rfl⟩ (.inl hbad)
  · rw [if_neg hbad, or_iff_right hbad]
    constructor
    · rintro ⟨arrival, harrival, hrespond⟩
      obtain ⟨fields, hfields, hscreen⟩ := bind_eq_ok.mp harrival
      obtain ⟨hfit, rfl⟩ := (setHeaders_ok_iff ext _ _ _).mp hfields
      have hrouted := (screen_completes ext conn (req.http ext) around).mp
        ⟨arrival, hscreen, hrespond⟩
      exact ⟨hfit, hrouted⟩
    · intro h
      obtain ⟨arrival, hscreen, hrespond⟩ :=
        (screen_completes ext conn (req.http ext) around).mpr h.routed
      have hfields := (setHeaders_ok_iff ext req.headers ext.noFields _).mpr ⟨h.headers, rfl⟩
      exact ⟨arrival, bind_eq_ok.mpr ⟨_, hfields, hscreen⟩, hrespond⟩

/-- The message is handled without an exception, and the one thing written is a
response with the id of the request. -/
def Answered (conn : Connection F E) (message : Message) (around : Surroundings) : Prop :=
  ∃ conn' response, conn.dispatchMessage ext (some message) around = .ok conn' ∧
    conn'.writeQueue = conn.writeQueue ++ [{ type := .response, response := some response }] ∧
      response.id = (message.request.getD {}).id

/-- A request is answered if and only if its verb is not known or its path is empty,
or else nothing on its way throws. -/
theorem answered_iff (conn : Connection F E) (message : Message) (around : Surroundings)
    (h : message.type = .request) :
    Answered ext conn message around ↔
      ((message.request.getD {}).method = .unknown ∨ (message.request.getD {}).path = []) ∨
        Answerable ext conn (message.request.getD {}) around := by
  rw [← arrive_completes]
  unfold Answered Connection.dispatchMessage
  simp only [h]
  constructor
  · rintro ⟨conn', response, hdispatch, -, -⟩
    obtain ⟨⟨c, r⟩, hhandle, -⟩ := bind_eq_ok.mp hdispatch
    obtain ⟨arrival, harrival, hrest⟩ := bind_eq_ok.mp hhandle
    obtain ⟨response', hresponse, -⟩ := bind_eq_ok.mp hrest
    exact ⟨arrival, harrival, response', hresponse⟩
  · rintro ⟨arrival, harrival, response, hresponse⟩
    have hhandle : conn.handleRequestMessage ext (message.request.getD {})
        (message.response.getD {}) around = .ok ({ conn with service := arrival.service },
          Connection.convert ext (message.response.getD {}) (message.request.getD {}).id response) :=
      bind_eq_ok.mpr ⟨arrival, harrival, bind_eq_ok.mpr ⟨response, hresponse, rfl⟩⟩
    exact ⟨_, _, bind_eq_ok.mpr ⟨_, hhandle, rfl⟩, rfl, rfl⟩

/-! ## A session -/

/-- A service with one route, which all devices may call, and no limits -/
def keepaliveService : Service (List (Bytes × Bytes)) Unit where
  router :=
    { routes := [{
        verb := .get
        path := ascii "/v1/keepalive".toList
        authType := .allowAll
        handler := some fun ctx => (ctx.setResult 200, none) }] }
  authenticator := { accounts := .none, todayInMilli := 0 }
  validator := none

/-- A session of the master device of an account -/
def keepaliveSession : Connection (List (Bytes × Bytes)) Unit where
  service := keepaliveService
  authenticated := .account
    { uid := ascii ['u'], devices := [⟨1, .normal, [], [], 0, {}⟩], authdeviceid := 1 }

def getMessage (path : String) : Message where
  type := .request
  request := some { verb := ascii "get".toList, path := ascii path.toList, id := 7 }

/-- Beast, with digests and Base64 texts that are not asked for -/
def plainExternal : External (List (Bytes × Bytes)) := .ofList id id

theorem answered_iff_keepalive :
    Answered plainExternal keepaliveSession (getMessage "/v1/keepalive") ⟨true, 0, 0⟩ := by
  refine (answered_iff _ _ _ _ rfl).mpr (.inr ⟨?_, ?_⟩)
  · exact fun p hp => absurd hp List.not_mem_nil
  · intro svc calls _
    refine ⟨?_, ⟨none, rfl⟩, ?_, ?_, ?_⟩
    · exact fun p hp => absurd hp List.not_mem_nil
    · intro status reason h
      cases h
    · intro _
      exact (HttpRouter.matchRoutes_returns _ _ _ fun _ => none).mp ⟨_, rfl⟩
    · intro route pathParams queryParams h
      have hroute : keepaliveService.router.matchRequest
          ((getMessage "/v1/keepalive").request.getD {} |>.http plainExternal) =
            .ok (.matched _ _ _) := rfl
      cases hroute.symm.trans h
      refine ⟨fun _ => ⟨_, rfl⟩, ?_⟩
      intro ctx hctx ctx' v hattempt
      cases hctx
      cases hattempt

/-- A `%` that is not followed by digits, in the query of a request -/
theorem unanswered_percent :
    ¬ Answered plainExternal keepaliveSession (getMessage "/v1/keepalive?x=%zz") ⟨true, 0, 0⟩ := by
  rintro ⟨conn, response, h, -, -⟩
  cases h

end BcmServer.Websocket
