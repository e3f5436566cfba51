import BcmServer.Http.Route

/-!
# BcmServer.Http.Router — from a target to a route

`HttpRouter::match` cuts the query off a target and decodes its values, asks the
filters, and then tries the routes in the reverse order of their names.

`matchRequest_returns` says when it returns: the values of the query decode, no
filter throws, and no route that is tried comes to a segment that does not
decode.
-/

namespace BcmServer.Http

open Util Crypto

/-! ## The target -/

namespace HttpRouter

/-- The loop over a query, with the key read last and the text since the last
separator: the pairs that have a key and a value. -/
def queryPairs : Bytes → Bytes → Bytes → List (Bytes × Bytes)
  | [], _, _ => []
  | c :: rest, key, text =>
      if c = '='.toUInt8 then queryPairs rest text []
      else if c = '&'.toUInt8 then
        if !key.isEmpty && !text.isEmpty then (key, text) :: queryPairs rest [] []
        else queryPairs rest [] []
      else queryPairs rest key (text ++ [c])

/-- The target without the query -/
def targetPath (uri : Bytes) : Bytes := uri.takeWhile fun c => c ≠ '?'.toUInt8

/-- The pairs of the query of a target -/
def pairsOf (uri : Bytes) : List (Bytes × Bytes) :=
  match uri.dropWhile fun c => c ≠ '?'.toUInt8 with
  | [] => []
  | _ :: query => queryPairs (query ++ ascii ['&']) [] []

/-- The values are decoded one after the other. -/
def decodePairs : List (Bytes × Bytes) → Params → Except Thrown Params
  | [], params => return params
  | (key, value) :: pairs, params => do
      let decoded ← UrlEncoder.decode value
      decodePairs pairs (Function.update params key (some decoded))

/-- `HttpRouter::parseUri` -/
def parseUri (uri : Bytes) : Except Thrown (Bytes × Params) := do
  let queryParams ← decodePairs (pairsOf uri) fun _ => none
  return (targetPath uri, queryParams)

end HttpRouter

/-! ## The router -/

/-- `HttpRouter::Filter::onFilter`: whether the request is refused, with the status
and the reason as they are left. -/
abbrev Filter (F : Type) := Request F → ℕ → Bytes → Except Thrown (Bool × ℕ × Bytes)

/-- `HttpRouter`, its routes in the order of their names -/
structure HttpRouter (F E : Type) where
  routes : List (HttpRoute F E)
  filters : List (Filter F) := []
  sorted : routes.Pairwise (fun a b => lexLt a.name b.name) := by decide

/-- `HttpRouter::MatchResult`, with the parameters that are found -/
inductive MatchResult (F E : Type) where
  | matched (route : HttpRoute F E) (pathParams queryParams : Params)
  | filtered (status : ℕ) (reason : Bytes)
  | mismatched

namespace HttpRouter

variable {F E : Type}

/-- The loop over the filters -/
def applyFilters (request : Request F) :
    List (Filter F) → ℕ → Bytes → Except Thrown (Option (ℕ × Bytes))
  | [], _, _ => return none
  | filter :: filters, status, reason => do
      let (refused, status, reason) ← filter request status reason
      if refused then return some (status, reason) else applyFilters request filters status reason

/-- The loop over the routes -/
def matchRoutes (verb : Verb) (path : Bytes) :
    List (HttpRoute F E) → Params → Except Thrown (Option (HttpRoute F E × Params))
  | [], _ => return none
  | route :: routes, params => do
      let (found, params) ← route.matchPath verb path params
      if found then return some (route, params) else matchRoutes verb path routes params

/-- `HttpRouter::match` -/
def matchRequest (router : HttpRouter F E) (request : Request F) :
    Except Thrown (MatchResult F E) := do
  let (path, queryParams) ← parseUri request.target
  let refused ← applyFilters request router.filters 460
    (ascii "Resource Restricted by Filter".toList)
  match refused with
  | some (status, reason) => return .filtered status reason
  | none =>
      let found ← matchRoutes request.method path router.routes.reverse fun _ => none
      match found with
      | some (route, pathParams) => return .matched route pathParams queryParams
      | none => return .mismatched

/-! ## When it returns -/

theorem decodePairs_returns (pairs : List (Bytes × Bytes)) (params : Params) :
    Thrown.Returns (decodePairs pairs params) ↔ ∀ p ∈ pairs, UrlEncoder.Decodable p.2 := by
  induction pairs generalizing params with
  | nil => simp [decodePairs]
  | cons p pairs ih =>
      rw [decodePairs, List.forall_mem_cons, ← UrlEncoder.decode_returns, Thrown.returns_bind]
      constructor
      · rintro ⟨value, hvalue, hrest⟩
        exact ⟨⟨value, hvalue⟩, (ih _).mp hrest⟩
      · rintro ⟨⟨value, hvalue⟩, hrest⟩
        exact ⟨value, hvalue, (ih _).mpr hrest⟩

theorem parseUri_returns (uri : Bytes) :
    Thrown.Returns (parseUri uri) ↔ ∀ p ∈ pairsOf uri, UrlEncoder.Decodable p.2 := by
  rw [← decodePairs_returns _ fun _ => none, parseUri, Thrown.returns_bind]
  constructor
  · rintro ⟨params, hparams, -⟩
    exact ⟨params, hparams⟩
  · rintro ⟨params, hparams⟩
    exact ⟨params, hparams, _, rfl⟩

/-- The routes that are tried come to no segment that does not decode. The first
that fits is the last that is tried. -/
def RoutesDecode (verb : Verb) (path : Bytes) (routes : List (HttpRoute F E)) : Prop :=
  ∀ before route after, routes = before ++ route :: after →
    (∀ r ∈ before, r.accepts verb path = false) →
      ∀ s ∈ route.decoded verb path, UrlEncoder.Decodable s

theorem routesDecode_cons {verb : Verb} {path : Bytes} {route : HttpRoute F E}
    {routes : List (HttpRoute F E)} :
    RoutesDecode verb path (route :: routes) ↔
      (∀ s ∈ route.decoded verb path, UrlEncoder.Decodable s) ∧
        (route.accepts verb path = false → RoutesDecode verb path routes) := by
  constructor
  · intro h
    refine ⟨h [] route routes rfl (by simp), fun hno before r after heq hbefore => ?_⟩
    refine h (route :: before) r after (by rw [heq, List.cons_append]) ?_
    rw [List.forall_mem_cons]
    exact ⟨hno, hbefore⟩
  · rintro ⟨hroute, hrest⟩ before r after heq hbefore
    cases before with
    | nil =>
        rw [List.nil_append, List.cons.injEq] at heq
        rw [← heq.1]
        exact hroute
    | cons b before =>
        rw [List.cons_append, List.cons.injEq] at heq
        obtain ⟨rfl, rfl⟩ := heq
        rw [List.forall_mem_cons] at hbefore
        exact hrest hbefore.1 before r after rfl hbefore.2

theorem matchRoutes_returns (verb : Verb) (path : Bytes) (routes : List (HttpRoute F E))
    (params : Params) :
    Thrown.Returns (matchRoutes verb path routes params) ↔ RoutesDecode verb path routes := by
  induction routes generalizing params with
  | nil =>
      refine iff_of_true ⟨none, rfl⟩ ?_
      intro before route after heq
      simp at heq
  | cons route routes ih =>
      rw [matchRoutes, routesDecode_cons, ← route.matchPath_returns verb path params,
        Thrown.returns_bind]
      constructor
      · rintro ⟨⟨found, params'⟩, hfound, hrest⟩
        refine ⟨⟨_, hfound⟩, fun hno => ?_⟩
        have hf : found = false := (HttpRoute.matchPath_ok hfound).trans hno
        rw [hf] at hrest
        exact (ih params').mp hrest
      · rintro ⟨⟨⟨found, params'⟩, hfound⟩, hrest⟩
        refine ⟨(found, params'), hfound, ?_⟩
        cases found with
        | true => exact ⟨_, rfl⟩
        | false => exact (ih params').mpr (hrest (HttpRoute.matchPath_ok hfound).symm)

/-- The status and the reason with which the filters refuse a request, if they do -/
def refusal (router : HttpRouter F E) (request : Request F) : Except Thrown (Option (ℕ × Bytes)) :=
  applyFilters request router.filters 460 (ascii "Resource Restricted by Filter".toList)

theorem matchRequest_returns (router : HttpRouter F E) (request : Request F) :
    Thrown.Returns (router.matchRequest request) ↔
      (∀ p ∈ pairsOf request.target, UrlEncoder.Decodable p.2) ∧
        Thrown.Returns (router.refusal request) ∧
          (router.refusal request = .ok none →
            RoutesDecode request.method (targetPath request.target) router.routes.reverse) := by
  rw [← parseUri_returns, matchRequest, Thrown.returns_bind]
  have hpath : ∀ {path params}, parseUri request.target = .ok (path, params) →
      path = targetPath request.target := by
    intro path params h
    obtain ⟨q, -, hq⟩ := bind_eq_ok.mp h
    cases hq
    rfl
  constructor
  · rintro ⟨⟨path, params⟩, huri, hrest⟩
    obtain ⟨refused, hrefused, hroutes⟩ := Thrown.returns_bind.mp hrest
    refine ⟨⟨_, huri⟩, ⟨refused, hrefused⟩, fun hnone => ?_⟩
    have hr : refused = none := by
      have heq := hrefused.symm.trans hnone
      exact Except.ok.inj heq
    rw [hr] at hroutes
    obtain ⟨found, hfound, -⟩ := Thrown.returns_bind.mp hroutes
    rw [← hpath huri]
    exact (matchRoutes_returns _ _ _ _).mp ⟨found, hfound⟩
  · rintro ⟨⟨⟨path, params⟩, huri⟩, ⟨refused, hrefused⟩, hroutes⟩
    refine ⟨(path, params), huri, Thrown.returns_bind.mpr ⟨refused, hrefused, ?_⟩⟩
    cases refused with
    | some r => exact ⟨_, rfl⟩
    | none =>
        obtain ⟨found, hfound⟩ := (matchRoutes_returns _ _ _ fun _ => none).mpr
          (hroutes hrefused)
        refine Thrown.returns_bind.mpr ⟨found, ?_, ?_⟩
        · rw [hpath huri]
          exact hfound
        · cases found with
          | none => exact ⟨_, rfl⟩
          | some f => exact ⟨_, rfl⟩

/-- A request whose query decodes is refused with what the filters say. -/
theorem matchRequest_filtered {router : HttpRouter F E} {request : Request F}
    (hquery : ∀ p ∈ pairsOf request.target, UrlEncoder.Decodable p.2) {status : ℕ}
    {reason : Bytes} :
    router.matchRequest request = .ok (.filtered status reason) ↔
      router.refusal request = .ok (some (status, reason)) := by
  constructor
  · intro h
    obtain ⟨⟨path, params⟩, -, hrest⟩ := bind_eq_ok.mp h
    obtain ⟨refused, hrefused, hlast⟩ := bind_eq_ok.mp hrest
    cases refused with
    | some r =>
        cases hlast
        exact hrefused
    | none =>
        obtain ⟨found, -, hlast⟩ := bind_eq_ok.mp hlast
        cases found with
        | none => cases hlast
        | some f => cases hlast
  · intro h
    obtain ⟨⟨path, params⟩, huri⟩ := (parseUri_returns request.target).mpr hquery
    exact bind_eq_ok.mpr ⟨_, huri, bind_eq_ok.mpr ⟨_, h, rfl⟩⟩

/-- The route that is found fits. -/
theorem matchRoutes_accepts {verb : Verb} {path : Bytes} {routes : List (HttpRoute F E)}
    {params params' : Params} {route : HttpRoute F E}
    (h : matchRoutes verb path routes params = .ok (some (route, params'))) :
    route ∈ routes ∧ route.accepts verb path = true := by
  induction routes generalizing params with
  | nil => cases h
  | cons r routes ih =>
      rw [matchRoutes, bind_eq_ok] at h
      obtain ⟨⟨found, params''⟩, hfound, hrest⟩ := h
      cases found with
      | true =>
          cases hrest
          exact ⟨by simp, (HttpRoute.matchPath_ok hfound).symm⟩
      | false =>
          obtain ⟨hmem, hacc⟩ := ih hrest
          exact ⟨List.mem_cons_of_mem _ hmem, hacc⟩

end HttpRouter

end BcmServer.Http
