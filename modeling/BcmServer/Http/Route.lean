import BcmServer.Http.Api
import BcmServer.Auth.Authenticator

/-!
# BcmServer.Http.Route — routes and their handlers

A route is a verb and a pattern of path segments. `HttpRoute::match` compares
the segments of a path with it one after the other and decodes each segment
that fits before it looks at the next one, so a segment that does not decode
stops the comparison with an exception (`matchPath_returns`). `invokeHandler` runs
the handler of a route between the serializers of its bodies.

`F` is the type of header fields and `E` the one of request and response
entities.
-/

namespace BcmServer.Http

open Util Auth Crypto

/-! ## Messages -/

/-- `http::request` -/
structure Request (F : Type) where
  method : Verb
  target : Bytes
  fields : F
  body : Bytes := []

/-- `http::response` -/
structure Response (F : Type) where
  result : ℕ := 200
  /-- the reason that was set, empty if none was -/
  reason : Bytes := []
  fields : F
  body : Bytes := []

/-- `std::map<std::string, std::string>` of parameters -/
abbrev Params := Bytes → Option Bytes

/-- What an authentication result holds: an account, or the id of a request to
log a device in. -/
inductive Authenticated where
  | account (a : Account)
  | requestId (id : Bytes)
deriving DecidableEq, Repr

/-- `HttpContext` without its statistics -/
structure HttpContext (F E : Type) where
  request : Request F
  response : Response F
  pathParams : Params := fun _ => none
  queryParams : Params := fun _ => none
  authResult : Option Authenticated := none
  requestEntity : Option E := none
  responseEntity : Option E := none

namespace HttpContext

variable {F E : Type}

def setResult (ctx : HttpContext F E) (result : ℕ) : HttpContext F E :=
  { ctx with response := { ctx.response with result := result } }

/-- An answer with a text -/
def answer (ctx : HttpContext F E) (result : ℕ) (body : String) : HttpContext F E :=
  let response := { ctx.response with result := result, body := ascii body.toList }
  { ctx with response := response }

end HttpContext

/-- `JsonSerializer`: entities without a value could not be converted. -/
structure JsonSerializer (E : Type) where
  deserialize : Bytes → Except Thrown (Option E)
  serialize : E → Except Thrown (Option Bytes)

/-! ## Segments -/

/-- `HttpRoute::Segment::Type` -/
inductive SegmentType where
  | none | fixed | parameter | splat
deriving DecidableEq, Repr

/-- `HttpRoute::Segment` -/
structure Segment where
  type : SegmentType
  raw : Bytes
deriving DecidableEq, Repr

namespace Segment

/-- The constructor and `init` -/
def new (raw : Bytes) : Segment :=
  { type :=
      if raw.head? = some colon then .parameter
      else if raw.head? = some '*'.toUInt8 then if 1 < raw.length then .none else .splat
      else .fixed
    raw := raw }

/-- `HttpRoute::Segment::match` -/
def accepts (seg : Segment) (raw : Bytes) : Bool :=
  match seg.type with
  | .none => false
  | .fixed => raw == seg.raw
  | .parameter | .splat => true

/-- The pieces of a path that segments are made of -/
def parts (path : Bytes) : List Bytes :=
  (getlines '/'.toUInt8 path).filter fun p => !p.isEmpty

/-- `HttpRoute::Segment::fromPath` -/
def fromPath (path : Bytes) : List Segment := (parts path).map new

/-- The parameter that a decoded segment gives -/
def store (seg : Segment) (value : Bytes) (params : Params) : Params :=
  match seg.type with
  | .parameter => Function.update params seg.raw (some value)
  | .splat => Function.update params value (some value)
  | .none | .fixed => params

end Segment

/-! ## Routes -/

/-- `HttpRoute::Handler`: the context as the handler leaves it, and what it throws. -/
abbrev Handler (F E : Type) := HttpContext F E → HttpContext F E × Option Thrown

/-- `HttpRoute`; a route without a handler matches nothing. -/
structure HttpRoute (F E : Type) where
  verb : Verb
  path : Bytes
  authType : AuthType
  handler : Option (Handler F E)
  reqSerializer : Option (JsonSerializer E) := none
  resSerializer : Option (JsonSerializer E) := none

namespace HttpRoute

variable {F E : Type}

/-- `m_segments` -/
def segments (route : HttpRoute F E) : List Segment := Segment.fromPath route.path

/-- `HttpRoute::name` -/
def name (route : HttpRoute F E) : Bytes := route.verb.toBytes ++ ascii ['_'] ++ route.path

/-- The loop over the segments -/
def matchSegments : List Segment → List Segment → Params → Except Thrown (Bool × Params)
  | seg :: segs, reqSeg :: reqSegs, params =>
      if seg.accepts reqSeg.raw then do
        let tmp ← UrlEncoder.decode reqSeg.raw
        matchSegments segs reqSegs (seg.store tmp params)
      else return (false, params)
  | _, _, params => return (true, params)

/-- `HttpRoute::match`, with the parameters it leaves -/
def matchPath (route : HttpRoute F E) (verb : Verb) (path : Bytes) (params : Params) :
    Except Thrown (Bool × Params) :=
  if route.handler.isNone then return (false, params)
  else if verb ≠ route.verb then return (false, params)
  else
    let reqSegments := Segment.fromPath path
    if reqSegments.length ≠ route.segments.length then return (false, params)
    else matchSegments route.segments reqSegments params

variable (ext : External F)

/-- `std::string::find` finds something. -/
def contains (s t : Bytes) : Bool := s.tails.any fun u => t.isPrefixOf u

/-- A step of the try block of `invokeHandler`: it goes on, or it ends with an
answer or an exception. -/
abbrev Step (F E : Type) := Except (HttpContext F E × Option Thrown)

/-- The request body is converted. -/
def deserializeRequest (route : HttpRoute F E) (ctx : HttpContext F E) :
    Step F E (HttpContext F E) :=
  match route.reqSerializer with
  | none => .ok ctx
  | some ser =>
      let contentType := ext.value ctx.request.fields (ascii "Content-Type".toList)
      if ctx.request.body.isEmpty then .error (ctx.answer 400 "Body cannot be empty", none)
      else if !contains contentType (ascii "application/json".toList) then
        .error (ctx.answer 400 "The content-type should be application/json", none)
      else
        match ser.deserialize ctx.request.body with
        | .error e => .error (ctx, some e)
        | .ok none => .error (ctx.answer 400 "The body deserialize failed!", none)
        | .ok (some entity) => .ok { ctx with requestEntity := some entity }

/-- The handler is called. -/
def callHandler (route : HttpRoute F E) (ctx : HttpContext F E) :
    Step F E (HttpContext F E) :=
  match route.handler with
  | none => .error (ctx, some (.exception (ascii "bad_function_call".toList)))
  | some handler =>
      match handler ctx with
      | (ctx, none) => .ok ctx
      | (ctx, some e) => .error (ctx, some e)

/-- The response after its entity was converted to `payload` -/
def setPayload (response : Response F) (payload : Bytes) : Except Thrown (Response F) := do
  let json := ascii "application/json; charset=utf-8".toList
  let fields ← ext.set response.fields (ascii "Content-Type".toList) json
  let fields ← ext.set fields (ascii "Content-Length".toList) (decimal payload.length)
  let result := if response.result = 0 then 200 else response.result
  return { response with fields := fields, body := payload, result := result }

/-- The response entity, if there is one, is converted. -/
def serializeResponse (route : HttpRoute F E) (ctx : HttpContext F E) :
    Step F E (HttpContext F E) :=
  match ctx.responseEntity, route.resSerializer with
  | none, _ => .ok ctx
  | some _, none => .error (ctx.answer 500 "miss a serializer of response!", none)
  | some entity, some ser =>
      match ser.serialize entity with
      | .error e => .error (ctx, some e)
      | .ok none => .error (ctx.answer 500 "serialize response failed!", none)
      | .ok (some payload) =>
          match setPayload ext ctx.response payload with
          | .error e => .error (ctx, some e)
          | .ok response => .ok { ctx with response := response }

/-- The try block of `HttpRoute::invokeHandler` -/
def attempt (route : HttpRoute F E) (ctx : HttpContext F E) :
    Step F E (HttpContext F E) := do
  let ctx ← route.deserializeRequest ext ctx
  let ctx ← route.callHandler ctx
  let ctx ← route.serializeResponse ext ctx
  return if ctx.response.result = 0 then ctx.setResult 500 else ctx

/-- `HttpRoute::invokeHandler` -/
def invokeHandler (route : HttpRoute F E) (ctx : HttpContext F E) :
    Except Thrown (HttpContext F E) :=
  match route.attempt ext ctx with
  | .ok ctx => .ok ctx
  | .error (ctx, none) => .ok ctx
  | .error (ctx, some (.exception _)) => .ok (ctx.setResult 500)
  | .error (_, some (.other v)) => .error (.other v)

/-! ## Which paths a route takes -/

/-- The segments fit, whether they decode or not. -/
def accepts (route : HttpRoute F E) (verb : Verb) (path : Bytes) : Bool :=
  route.handler.isSome && verb == route.verb &&
    (Segment.parts path).length == route.segments.length &&
      (List.zipWith Segment.accepts route.segments (Segment.parts path)).all id

/-- The segments in front that fit -/
def reached : List Segment → List Bytes → List Bytes
  | seg :: segs, raw :: raws => if seg.accepts raw then raw :: reached segs raws else []
  | _, _ => []

/-- The segments of the path that the route decodes -/
def decoded (route : HttpRoute F E) (verb : Verb) (path : Bytes) : List Bytes :=
  if route.handler.isSome && verb == route.verb &&
      (Segment.parts path).length == route.segments.length then
    reached route.segments (Segment.parts path)
  else []

theorem matchSegments_returns (segs : List Segment) (raws : List Bytes) (params : Params) :
    Thrown.Returns (matchSegments segs (raws.map Segment.new) params) ↔
      ∀ s ∈ reached segs raws, UrlEncoder.Decodable s := by
  induction segs generalizing raws params with
  | nil => simp [matchSegments, reached]
  | cons seg segs ih =>
      cases raws with
      | nil => simp [matchSegments, reached]
      | cons raw raws =>
          have hraw : (Segment.new raw).raw = raw := rfl
          rw [List.map_cons, matchSegments, reached, hraw]
          by_cases hfit : seg.accepts raw = true
          · rw [if_pos hfit, if_pos hfit, List.forall_mem_cons, ← UrlEncoder.decode_returns,
              Thrown.returns_bind]
            constructor
            · rintro ⟨tmp, htmp, hrest⟩
              exact ⟨⟨tmp, htmp⟩, (ih raws _).mp hrest⟩
            · rintro ⟨⟨tmp, htmp⟩, hrest⟩
              exact ⟨tmp, htmp, (ih raws _).mpr hrest⟩
          · rw [if_neg hfit, if_neg hfit]
            simp

theorem matchSegments_ok {segs : List Segment} {raws : List Bytes} {params params' : Params}
    {b : Bool} (h : matchSegments segs (raws.map Segment.new) params = .ok (b, params')) :
    b = (List.zipWith Segment.accepts segs raws).all id := by
  induction segs generalizing raws params with
  | nil =>
      cases h
      rfl
  | cons seg segs ih =>
      cases raws with
      | nil =>
          cases h
          rfl
      | cons raw raws =>
          have hraw : (Segment.new raw).raw = raw := rfl
          rw [List.map_cons, matchSegments, hraw] at h
          rw [List.zipWith_cons_cons, List.all_cons, id_eq]
          by_cases hfit : seg.accepts raw = true
          · rw [if_pos hfit] at h
            obtain ⟨tmp, -, hrest⟩ := bind_eq_ok.mp h
            rw [hfit, Bool.true_and]
            exact ih hrest
          · rw [if_neg hfit] at h
            cases h
            rw [Bool.not_eq_true] at hfit
            rw [hfit, Bool.false_and]

/-- A route throws if it comes to a segment that does not decode. -/
theorem matchPath_returns (route : HttpRoute F E) (verb : Verb) (path : Bytes) (params : Params) :
    Thrown.Returns (route.matchPath verb path params) ↔
      ∀ s ∈ route.decoded verb path, UrlEncoder.Decodable s := by
  unfold matchPath decoded
  cases hh : route.handler with
  | none => simp
  | some handler =>
      by_cases hv : verb = route.verb
      swap
      · simp [hv]
      by_cases hlen : (Segment.parts path).length = route.segments.length
      · simpa [hv, Segment.fromPath, hlen] using
          matchSegments_returns route.segments (Segment.parts path) params
      · simp [hv, Segment.fromPath, hlen]

theorem matchPath_ok {route : HttpRoute F E} {verb : Verb} {path : Bytes} {params params' : Params}
    {b : Bool} (h : route.matchPath verb path params = .ok (b, params')) :
    b = route.accepts verb path := by
  unfold matchPath at h
  unfold accepts
  split at h
  · rename_i hh
    cases h
    simp [Option.isNone_iff_eq_none.mp hh]
  · split at h
    · rename_i hv
      cases h
      simp [hv]
    · rename_i hh hv
      simp only [Segment.fromPath, List.length_map] at h
      split at h
      · rename_i hlen
        cases h
        simp [hlen]
      · rename_i hlen
        rw [matchSegments_ok h]
        simp_all [Option.isSome_iff_ne_none]

/-- `invokeHandler` throws what the handler or a serializer throws, unless it is a
`std::exception`. -/
theorem invokeHandler_returns (route : HttpRoute F E) (ctx : HttpContext F E) :
    Thrown.Returns (route.invokeHandler ext ctx) ↔
      ∀ ctx' v, route.attempt ext ctx ≠ .error (ctx', some (.other v)) := by
  unfold invokeHandler
  split
  · rename_i h
    simp [h]
  · rename_i h
    simp [h]
  · rename_i h
    simp [h]
  · rename_i h
    simp [h]

end HttpRoute

end BcmServer.Http
