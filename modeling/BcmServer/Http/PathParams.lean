import BcmServer.Http.RouteChoice

/-!
# BcmServer.Http.PathParams — the parameters that are left by `HttpRouter::match`

All routes that are tried fill the same map, segment by segment, before a segment may
fail to fit. What a route stores is written down as a list of pairs (`stored`), so
the map that is left is one long list of writes (`tryRoutes_writes`).

The map holds the parameters of the route that is taken, and no others, exactly if that
route overwrites all that the routes before it have stored (`pathParams_exact_iff`).
-/

namespace BcmServer.Http

open Util Crypto

/-! ## Writes -/

namespace Params

/-- The pairs are written one after the other. -/
def writeAll (params : Params) (pairs : List (Bytes × Bytes)) : Params :=
  pairs.foldl (fun params p => Function.update params p.1 (some p.2)) params

/-- `std::map` without entries -/
def empty : Params := fun _ => none

@[simp] theorem writeAll_nil (params : Params) : writeAll params [] = params := rfl

@[simp] theorem writeAll_cons (params : Params) (p : Bytes × Bytes) (pairs : List (Bytes × Bytes)) :
    writeAll params (p :: pairs) = writeAll (Function.update params p.1 (some p.2)) pairs := rfl

theorem writeAll_append (params : Params) (pairs pairs' : List (Bytes × Bytes)) :
    writeAll params (pairs ++ pairs') = writeAll (writeAll params pairs) pairs' :=
  List.foldl_append

/-- A key that is not written keeps its value. -/
theorem writeAll_of_notMem {pairs : List (Bytes × Bytes)} {k : Bytes}
    (h : k ∉ pairs.map Prod.fst) (params : Params) : writeAll params pairs k = params k := by
  induction pairs generalizing params with
  | nil => rfl
  | cons p pairs ih =>
      rw [List.map_cons, List.mem_cons, not_or] at h
      rw [writeAll_cons, ih h.2, Function.update_of_ne h.1]

/-- A key that is written does not keep its value. -/
theorem writeAll_of_mem {pairs : List (Bytes × Bytes)} {k : Bytes}
    (h : k ∈ pairs.map Prod.fst) (params params' : Params) :
    writeAll params pairs k = writeAll params' pairs k ∧ writeAll params pairs k ≠ none := by
  induction pairs generalizing params params' with
  | nil => simp at h
  | cons p pairs ih =>
      by_cases hk : k ∈ pairs.map Prod.fst
      · exact ih hk _ _
      · obtain rfl | hk' := List.mem_cons.mp h
        · rw [writeAll_cons, writeAll_cons, writeAll_of_notMem hk, writeAll_of_notMem hk,
            Function.update_self, Function.update_self]
          exact ⟨rfl, by simp⟩
        · exact absurd hk' hk

/-- Earlier writes leave nothing if the later ones write all their keys again. -/
theorem writeAll_writeAll_iff (pairs pairs' : List (Bytes × Bytes)) :
    writeAll (writeAll empty pairs) pairs' = writeAll empty pairs' ↔
      ∀ k ∈ pairs.map Prod.fst, k ∈ pairs'.map Prod.fst := by
  constructor
  · intro h k hk
    by_contra hno
    have hsome := (writeAll_of_mem hk empty empty).2
    apply hsome
    rw [← writeAll_of_notMem hno (writeAll empty pairs), h, writeAll_of_notMem hno]
    rfl
  · intro h
    funext k
    by_cases hk : k ∈ pairs'.map Prod.fst
    · exact (writeAll_of_mem hk _ _).1
    · rw [writeAll_of_notMem hk, writeAll_of_notMem hk,
        writeAll_of_notMem fun hmem => hk (h k hmem)]

end Params

/-! ## What a route stores -/

/-- The pair that a decoded segment gives -/
def Segment.entry (seg : Segment) (value : Bytes) : List (Bytes × Bytes) :=
  match seg.type with
  | .parameter => [(seg.raw, value)]
  | .splat => [(value, value)]
  | .none | .fixed => []

theorem Segment.store_eq (seg : Segment) (value : Bytes) (params : Params) :
    seg.store value params = params.writeAll (seg.entry value) := by
  unfold Segment.store Segment.entry
  cases seg.type <;> rfl

namespace HttpRoute

variable {F E : Type}

/-- The pairs of the segments in front that fit -/
def storedBy : List Segment → List Bytes → List (Bytes × Bytes)
  | seg :: segs, raw :: raws =>
      if seg.accepts raw then
        match UrlEncoder.decode raw with
        | .ok value => seg.entry value ++ storedBy segs raws
        | .error _ => []
      else []
  | _, _ => []

/-- What the route stores when it is tried -/
def stored (route : HttpRoute F E) (verb : Verb) (path : Bytes) : List (Bytes × Bytes) :=
  if route.handler.isSome && verb == route.verb &&
      (Segment.parts path).length == route.segments.length then
    storedBy route.segments (Segment.parts path)
  else []

/-- The parameters of the route, with the decoded segments of the path -/
def pathParams (route : HttpRoute F E) (path : Bytes) : Params :=
  Params.empty.writeAll (storedBy route.segments (Segment.parts path))

theorem matchSegments_writes {segs : List Segment} {raws : List Bytes} {params params' : Params}
    {b : Bool} (h : matchSegments segs (raws.map Segment.new) params = .ok (b, params')) :
    params' = params.writeAll (storedBy segs raws) := by
  induction segs generalizing raws params with
  | nil =>
      cases h
      rfl
  | cons seg segs ih =>
      cases raws with
      | nil =>
          cases h
          rfl
      | cons raw raws =>
          have hraw : (Segment.new raw).raw = raw := rfl
          rw [List.map_cons, matchSegments, hraw] at h
          rw [storedBy]
          by_cases hfit : seg.accepts raw = true
          · rw [if_pos hfit] at h ⊢
            obtain ⟨tmp, htmp, hrest⟩ := bind_eq_ok.mp h
            rw [htmp, Params.writeAll_append, ← Segment.store_eq]
            exact ih hrest
          · rw [if_neg hfit] at h ⊢
            cases h
            rfl

theorem matchPath_writes {route : HttpRoute F E} {verb : Verb} {path : Bytes}
    {params params' : Params} {b : Bool}
    (h : route.matchPath verb path params = .ok (b, params')) :
    params' = params.writeAll (route.stored verb path) := by
  unfold matchPath at h
  unfold stored
  cases hh : route.handler with
  | none =>
      rw [hh] at h
      cases h
      rfl
  | some handler =>
      rw [hh, Option.isNone_some, if_neg (by simp)] at h
      by_cases hverb : verb = route.verb
      · by_cases hlen : (Segment.parts path).length = route.segments.length
        · rw [if_neg (by simpa using hverb)] at h
          simp only [Segment.fromPath, List.length_map] at h
          rw [if_neg (by simpa using hlen)] at h
          rw [if_pos (by simp [hverb, hlen])]
          exact matchSegments_writes h
        · rw [if_neg (by simpa using hverb)] at h
          simp only [Segment.fromPath, List.length_map] at h
          rw [if_pos hlen] at h
          cases h
          rw [if_neg (by simp [hlen]), Params.writeAll_nil]
      · rw [if_pos hverb] at h
        cases h
        rw [if_neg (by simp [hverb]), Params.writeAll_nil]

/-- A route that fits stores its parameters. -/
theorem stored_of_accepts {route : HttpRoute F E} {verb : Verb} {path : Bytes}
    (h : route.accepts verb path = true) :
    route.stored verb path = storedBy route.segments (Segment.parts path) := by
  simp only [accepts, Bool.and_eq_true, beq_iff_eq] at h
  rw [stored, if_pos (by simp [h.1.1.1, h.1.1.2, h.1.2])]

end HttpRoute

/-! ## The map that is left -/

namespace HttpRouter

variable {F E : Type}

/-- The loop over the routes, with the map as it is left -/
def tryRoutes (verb : Verb) (path : Bytes) :
    List (HttpRoute F E) → Params → Except Thrown (Option (HttpRoute F E) × Params)
  | [], params => return (none, params)
  | route :: routes, params => do
      let (found, params) ← route.matchPath verb path params
      if found then return (some route, params) else tryRoutes verb path routes params

/-- `HttpRouter::match`, with the map of path parameters that is handed to it and as it is
left -/
def matchWith (router : HttpRouter F E) (request : Request F) (pathParams : Params) :
    Except Thrown (MatchResult F E × Params) := do
  let (path, queryParams) ← parseUri request.target
  let refused ← applyFilters request router.filters 460
    (ascii "Resource Restricted by Filter".toList)
  match refused with
  | some (status, reason) => return (.filtered status reason, pathParams)
  | none =>
      let (found, pathParams) ← tryRoutes request.method path router.routes.reverse pathParams
      match found with
      | some route => return (.matched route pathParams queryParams, pathParams)
      | none => return (.mismatched, pathParams)

theorem tryRoutes_fst (verb : Verb) (path : Bytes) (routes : List (HttpRoute F E))
    (params : Params) :
    matchRoutes verb path routes params =
      (fun r => r.1.map fun route => (route, r.2)) <$> tryRoutes verb path routes params := by
  induction routes generalizing params with
  | nil => rfl
  | cons route routes ih =>
      rw [matchRoutes, tryRoutes]
      cases route.matchPath verb path params with
      | error e => rfl
      | ok r =>
          obtain ⟨found, params'⟩ := r
          cases found with
          | true => rfl
          | false => exact ih params'

/-- `matchRequest` is `match` with an empty map, without the map that is left. -/
theorem matchWith_fst (router : HttpRouter F E) (request : Request F) :
    router.matchRequest request = Prod.fst <$> router.matchWith request Params.empty := by
  unfold matchRequest matchWith
  cases parseUri request.target with
  | error e => rfl
  | ok r =>
      obtain ⟨path, queryParams⟩ := r
      simp only [Bind.bind, Except.bind]
      cases applyFilters request router.filters 460
          (ascii "Resource Restricted by Filter".toList) with
      | error e => rfl
      | ok refused =>
          cases refused with
          | some refusal => rfl
          | none =>
              have h : matchRoutes request.method path router.routes.reverse (fun _ => none) =
                  (fun r => r.1.map fun route => (route, r.2)) <$>
                    tryRoutes request.method path router.routes.reverse Params.empty :=
                tryRoutes_fst _ _ _ _
              simp only [h]
              cases tryRoutes request.method path router.routes.reverse Params.empty with
              | error e => rfl
              | ok r =>
                  obtain ⟨found, params⟩ := r
                  cases found <;> rfl

/-- The map that is left: the routes that do not fit have stored what they came to, and the
route that is taken its parameters. -/
theorem tryRoutes_writes {verb : Verb} {path : Bytes} {routes : List (HttpRoute F E)}
    {params params' : Params} {found : Option (HttpRoute F E)}
    (h : tryRoutes verb path routes params = .ok (found, params')) :
    ∃ before after, routes = before ++ found.toList ++ after ∧
      (∀ r ∈ before, r.accepts verb path = false) ∧
      (∀ r ∈ found, r.accepts verb path = true) ∧ (found = none → after = []) ∧
      params' = (params.writeAll (before.flatMap fun r => r.stored verb path)).writeAll
        (found.toList.flatMap fun r => r.stored verb path) := by
  induction routes generalizing params with
  | nil =>
      cases h
      exact ⟨[], [], rfl, by simp, by simp, fun _ => rfl, rfl⟩
  | cons route routes ih =>
      rw [tryRoutes, bind_eq_ok] at h
      obtain ⟨⟨b, params₁⟩, hb, hrest⟩ := h
      have hacc := HttpRoute.matchPath_ok hb
      have hwrites := HttpRoute.matchPath_writes hb
      cases b with
      | true =>
          cases hrest
          exact ⟨[], routes, rfl, by simp, by simpa using hacc.symm, by simp, by simpa using hwrites⟩
      | false =>
          obtain ⟨before, after, rfl, hbefore, hfound, hafter, rfl⟩ := ih hrest
          refine ⟨route :: before, after, by simp, ?_, hfound, hafter, ?_⟩
          · rw [List.forall_mem_cons]
            exact ⟨hacc.symm, hbefore⟩
          · rw [List.flatMap_cons, Params.writeAll_append, ← hwrites]

/-! ## Nothing is left over -/

/-- The map that is left holds the parameters of the route that is reported, and nothing if none
is. -/
def Exact (path : Bytes) : MatchResult F E → Params → Prop
  | .matched route pathParams _, params =>
      pathParams = route.pathParams path ∧ params = route.pathParams path
  | .filtered _ _, params => params = Params.empty
  | .mismatched, params => params = Params.empty

/-- Every key that a route tried in vain stores (its name is greater than those of all that fit)
is a key of the greatest route that fits; if none fits, no key is stored at all. -/
def Overwritten (router : HttpRouter F E) (verb : Verb) (path : Bytes) : Prop :=
  ∀ r ∈ router.routes,
    (∀ s ∈ router.routes, s.accepts verb path = true → lexLt s.name r.name = true) →
      ∀ k ∈ (r.stored verb path).map Prod.fst,
        ∃ s ∈ router.routes, (s.accepts verb path = true ∧
          ∀ t ∈ router.routes, t.accepts verb path = true → lexLt s.name t.name = false) ∧
            k ∈ (s.stored verb path).map Prod.fst

instance (router : HttpRouter F E) (verb : Verb) (path : Bytes) :
    Decidable (router.Overwritten verb path) :=
  inferInstanceAs (Decidable (∀ r ∈ router.routes, _ → _))

/-- The routes are tried from the greatest name down. -/
theorem tried_sorted {router : HttpRouter F E} {before after : List (HttpRoute F E)}
    (h : router.routes.reverse = before ++ after) {r s : HttpRoute F E} (hr : r ∈ before)
    (hs : s ∈ after) : lexLt s.name r.name = true := by
  have hsorted := List.pairwise_reverse.mpr router.sorted
  rw [h, List.pairwise_append] at hsorted
  exact hsorted.2.2 r hr s hs

theorem overwritten_of_none {router : HttpRouter F E} {verb : Verb} {path : Bytes}
    (hno : ∀ r ∈ router.routes, r.accepts verb path = false) :
    router.Overwritten verb path ↔
      ∀ k ∈ (router.routes.reverse.flatMap fun r => r.stored verb path).map Prod.fst, k ∈ [] := by
  simp only [List.mem_map, List.mem_flatMap, List.mem_reverse]
  constructor
  · rintro h k ⟨p, ⟨r, hr, hp⟩, rfl⟩
    obtain ⟨s, hs, ⟨hacc, -⟩, -⟩ := h r hr (fun s hs hacc => by simp [hno s hs] at hacc) p.1
      (List.mem_map_of_mem hp)
    simp [hno s hs] at hacc
  · intro h r hr _ k hk
    obtain ⟨p, hp, rfl⟩ := List.mem_map.mp hk
    exact absurd (h p.1 ⟨p, ⟨r, hr, hp⟩, rfl⟩) List.not_mem_nil

section Tried

variable {router : HttpRouter F E} {verb : Verb} {path : Bytes}
  {before after : List (HttpRoute F E)} {route : HttpRoute F E}

theorem mem_tried (htried : router.routes.reverse = before ++ route :: after)
    {r : HttpRoute F E} : r ∈ router.routes ↔ r ∈ before ∨ r = route ∨ r ∈ after := by
  rw [← List.mem_reverse, htried, List.mem_append, List.mem_cons]

theorem after_smaller (htried : router.routes.reverse = before ++ route :: after)
    {r : HttpRoute F E} (hr : r ∈ after) : lexLt r.name route.name = true := by
  have hcut : router.routes.reverse = (before ++ [route]) ++ after := by
    rw [htried, List.append_assoc, List.singleton_append]
  exact tried_sorted hcut (by simp) hr

/-- The routes that are tried in vain are those above all that fit. -/
theorem mem_before_iff (htried : router.routes.reverse = before ++ route :: after)
    (hbefore : ∀ r ∈ before, r.accepts verb path = false)
    (hroute : route.accepts verb path = true) {r : HttpRoute F E} (hr : r ∈ router.routes) :
    (∀ s ∈ router.routes, s.accepts verb path = true → lexLt s.name r.name = true) ↔
      r ∈ before := by
  constructor
  · intro h
    have hgt := h route ((mem_tried htried).mpr (Or.inr (Or.inl rfl))) hroute
    have hgt' := lexLt_asymm hgt
    obtain hr | rfl | hr := (mem_tried htried).mp hr
    · exact hr
    · simp [hgt] at hgt'
    · simp [after_smaller htried hr] at hgt'
  · intro hrb s hs hacc
    rw [← List.mem_reverse, htried, List.mem_append] at hs
    obtain hs | hs := hs
    · simp [hbefore s hs] at hacc
    · exact tried_sorted htried hrb hs

/-- The greatest route that fits is the first one. -/
theorem greatest_iff (htried : router.routes.reverse = before ++ route :: after)
    (hbefore : ∀ r ∈ before, r.accepts verb path = false)
    (hroute : route.accepts verb path = true) {s : HttpRoute F E} (hs : s ∈ router.routes) :
    (s.accepts verb path = true ∧
      ∀ t ∈ router.routes, t.accepts verb path = true → lexLt s.name t.name = false) ↔
      s = route := by
  constructor
  · rintro ⟨hacc, hgreatest⟩
    obtain hs | rfl | hs := (mem_tried htried).mp hs
    · simp [hbefore s hs] at hacc
    · rfl
    · have hnot := hgreatest route ((mem_tried htried).mpr (Or.inr (Or.inl rfl))) hroute
      simp [after_smaller htried hs] at hnot
  · rintro rfl
    refine ⟨hroute, fun t ht hacc => ?_⟩
    obtain ht | rfl | ht := (mem_tried htried).mp ht
    · simp [hbefore t ht] at hacc
    · exact lexLt_irrefl t.name
    · exact lexLt_asymm (after_smaller htried ht)

theorem overwritten_of_some (htried : router.routes.reverse = before ++ route :: after)
    (hbefore : ∀ r ∈ before, r.accepts verb path = false)
    (hroute : route.accepts verb path = true) :
    router.Overwritten verb path ↔
      ∀ k ∈ (before.flatMap fun r => r.stored verb path).map Prod.fst,
        k ∈ (route.stored verb path).map Prod.fst := by
  simp only [List.mem_map, List.mem_flatMap]
  constructor
  · rintro h k ⟨p, ⟨r, hr, hp⟩, rfl⟩
    have hrmem := (mem_tried htried).mpr (Or.inl hr)
    obtain ⟨s, hs, hgreatest, hk⟩ := h r hrmem ((mem_before_iff htried hbefore hroute hrmem).mpr hr)
      p.1 (List.mem_map_of_mem hp)
    rw [(greatest_iff htried hbefore hroute hs).mp hgreatest] at hk
    exact List.mem_map.mp hk
  · intro h r hr habove k hk
    obtain ⟨p, hp, rfl⟩ := List.mem_map.mp hk
    have hroutes := (mem_tried htried).mpr (Or.inr (Or.inl rfl))
    refine ⟨route, hroutes, (greatest_iff htried hbefore hroute hroutes).mpr rfl, ?_⟩
    have hrb := (mem_before_iff htried hbefore hroute hr).mp habove
    exact List.mem_map.mpr (h p.1 ⟨p, ⟨r, hrb, hp⟩, rfl⟩)

end Tried

/-- The parameters that `match` reports are exactly those of the route that it reports, if
nothing that the routes before it stored is left. -/
theorem pathParams_exact_iff {router : HttpRouter F E} {request : Request F}
    {result : MatchResult F E} {params : Params}
    (h : router.matchWith request Params.empty = .ok (result, params)) :
    Exact (targetPath request.target) result params ↔
      (router.refusal request = .ok none →
        router.Overwritten request.method (targetPath request.target)) := by
  obtain ⟨⟨path, queryParams⟩, huri, hrest⟩ := bind_eq_ok.mp h
  obtain ⟨refused, hrefused, hlast⟩ := bind_eq_ok.mp hrest
  obtain ⟨q, -, hq⟩ := bind_eq_ok.mp huri
  cases hq
  have hrefusal : router.refusal request = .ok refused := hrefused
  cases refused with
  | some r =>
      cases hlast
      exact iff_of_true rfl fun hnone => by rw [hrefusal] at hnone; cases hnone
  | none =>
      rw [imp_iff_right hrefusal]
      obtain ⟨⟨found, params'⟩, hfound, hend⟩ := bind_eq_ok.mp hlast
      obtain ⟨before, after, htried, hbefore, hacc, hafter, hwrites⟩ := tryRoutes_writes hfound
      cases found with
      | none =>
          cases hend
          rw [hafter rfl, Option.toList_none, List.append_nil, List.append_nil] at htried
          rw [overwritten_of_none fun r hr => hbefore r (by rw [← htried]; simpa using hr), htried]
          have hiff := Params.writeAll_writeAll_iff
            (before.flatMap fun r => r.stored request.method (targetPath request.target)) []
          rw [Params.writeAll_nil, Params.writeAll_nil] at hiff
          rw [Option.toList_none, List.flatMap_nil, Params.writeAll_nil] at hwrites
          rw [Exact, hwrites, hiff, List.map_nil]
      | some route =>
          cases hend
          have hroute := hacc route rfl
          rw [Option.toList_some, List.append_assoc, List.singleton_append] at htried
          rw [overwritten_of_some htried hbefore hroute, ← Params.writeAll_writeAll_iff]
          rw [Option.toList_some, List.flatMap_singleton] at hwrites
          rw [Exact, and_self, hwrites, HttpRoute.pathParams, ← HttpRoute.stored_of_accepts hroute]

/-- Two routes with different names for the same parameter -/
private def twoIds : HttpRouter Unit Unit where
  routes := [pathOnly "/:id/a", pathOnly "/:z/b"]

/-- The greater route is the one that fits. -/
theorem pathParams_exact_greatest :
    ∃ result params, twoIds.matchWith (getText "/7/b") Params.empty = .ok (result, params) ∧
      Exact (ascii "/7/b".toList) result params := by
  cases h : twoIds.matchWith (getText "/7/b") Params.empty with
  | error e =>
      have hok : (twoIds.matchWith (getText "/7/b") Params.empty).isOk = true := by
        decide +kernel
      rw [h] at hok
      cases hok
  | ok r =>
      refine ⟨r.1, r.2, rfl, (pathParams_exact_iff h).mpr fun _ => ?_⟩
      decide +kernel

/-- The request `/7/a` gets a parameter `:z` of the route `/:z/b`, which does not fit. -/
theorem pathParams_left_over :
    ¬ ∀ (router : HttpRouter Unit Unit) (request : Request Unit) (result : MatchResult Unit Unit)
      (params : Params), router.matchWith request Params.empty = .ok (result, params) →
        Exact (targetPath request.target) result params := by
  intro h
  have hleft : (match twoIds.matchWith (getText "/7/a") Params.empty with
      | .ok (.matched route _ _, params) =>
          params (ascii ":z".toList) == some (ascii ['7']) &&
            route.pathParams (ascii "/7/a".toList) (ascii ":z".toList) == none
      | _ => false) = true := by
    decide +kernel
  cases hm : twoIds.matchWith (getText "/7/a") Params.empty with
  | error e =>
      rw [hm] at hleft
      cases hleft
  | ok r =>
      obtain ⟨result, params⟩ := r
      rw [hm] at hleft
      have hexact := h twoIds (getText "/7/a") result params hm
      cases result with
      | matched route pathParams queryParams =>
          rw [Bool.and_eq_true, beq_iff_eq, beq_iff_eq] at hleft
          obtain ⟨hz, hnone⟩ := hleft
          have hpath : route.pathParams (targetPath (getText "/7/a").target) =
              route.pathParams (ascii "/7/a".toList) := rfl
          rw [hexact.2, hpath, hnone] at hz
          cases hz
      | filtered status reason => cases hleft
      | mismatched => cases hleft

end HttpRouter

end BcmServer.Http
