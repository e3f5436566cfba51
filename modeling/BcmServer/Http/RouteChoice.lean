import BcmServer.Http.Router

/-!
# BcmServer.Http.RouteChoice — which of the routes that fit is taken

The routes are tried from the greatest name down, so of several routes that fit a
request the one with the greatest name is taken (`matchRoutes_find`). A comment of
`HttpRouter::match` explains that this prefers fixed segments, `:` and `*` being
less than letters.

Names are compared byte by byte, and the names of the parameters in front of a
segment are a part of them. What decides is the beginning of a path, up to the first
byte of the segment where the routes differ in kind: beginnings are no prefixes of
one another (`beginning_prefix`), so they are ordered as the paths are.
-/

namespace BcmServer.Http

open Util Crypto

/-- The marks of parameters and splats are less than letters. -/
theorem lexLt_letter {c : UInt8} (h : isLetter c = true) :
    lexLt [colon] [c] = true ∧ lexLt ['*'.toUInt8] [c] = true := by
  have hcolon : colon.toNat = 58 := rfl
  have hstar : '*'.toUInt8.toNat = 42 := rfl
  simp only [isLetter, Bool.or_eq_true, Bool.and_eq_true, decide_eq_true_eq,
    UInt8.le_iff_toNat_le, UInt8.reduceToNat] at h
  simp only [lexLt, Bool.and_false, Bool.or_false, decide_eq_true_eq, UInt8.lt_iff_toNat_lt,
    hcolon, hstar]
  omega

/-! ## The beginning of a path -/

namespace Segment

/-- The pieces of a text that are segments. A piece that the text starts within is none. -/
def startsFrom (within : Bool) (s : Bytes) : List Bytes :=
  let pieces := s.splitOn '/'.toUInt8
  (if within then pieces.tail else pieces).filter fun p => !p.isEmpty

/-- A text up to the first byte of segment `n` that starts in it -/
def beginning : Bool → ℕ → Bytes → Bytes
  | _, _, [] => []
  | within, n, c :: cs =>
      if c = '/'.toUInt8 then c :: beginning false n cs
      else if within then c :: beginning true n cs
      else
        match n with
        | 0 => [c]
        | n + 1 => c :: beginning true n cs

theorem beginning_slash (within : Bool) (n : ℕ) (s : Bytes) :
    beginning within n ('/'.toUInt8 :: s) = '/'.toUInt8 :: beginning false n s := by
  simp [beginning]

theorem beginning_within {c : UInt8} (hc : c ≠ '/'.toUInt8) (n : ℕ) (s : Bytes) :
    beginning true n (c :: s) = c :: beginning true n s := by
  simp [beginning, hc]

theorem beginning_zero {c : UInt8} (hc : c ≠ '/'.toUInt8) (s : Bytes) :
    beginning false 0 (c :: s) = [c] := by
  simp [beginning, hc]

theorem beginning_succ {c : UInt8} (hc : c ≠ '/'.toUInt8) (n : ℕ) (s : Bytes) :
    beginning false (n + 1) (c :: s) = c :: beginning true n s := by
  simp [beginning, hc]

theorem parts_eq (path : Bytes) : parts path = startsFrom false path :=
  filter_getlines _ _

/-- The beginning ends with the first byte of the segment, and what follows does not
matter to it. -/
theorem beginning_spec {within : Bool} {n : ℕ} {s : Bytes}
    (h : n < (startsFrom within s).length) :
    ∃ u c t, s = u ++ c :: t ∧ ((startsFrom within s)[n]).head? = some c ∧
      ∀ t', beginning within n (u ++ c :: t') = u ++ [c] := by
  induction s generalizing within n with
  | nil => cases within <;> simp [startsFrom] at h
  | cons x s ih =>
      by_cases hx : x = '/'.toUInt8
      · -- a slash ends the segment that it is in
        have hsplit : (x :: s).splitOn '/'.toUInt8 = [] :: s.splitOn '/'.toUInt8 := by
          rw [List.splitOn_cons_eq_if_modifyHead, if_pos (by simpa using hx)]
        have hstarts : startsFrom within (x :: s) = startsFrom false s := by
          cases within <;> simp [startsFrom, hsplit]
        simp only [hstarts] at h ⊢
        obtain ⟨u, c, t, rfl, hc, hbegin⟩ := ih h
        refine ⟨x :: u, c, t, rfl, hc, fun t' => ?_⟩
        rw [List.cons_append, hx, beginning_slash, hbegin, List.cons_append]
      · obtain ⟨p, ps, hps⟩ := List.exists_cons_of_ne_nil (List.splitOn_ne_nil '/'.toUInt8 s)
        have hsplit : (x :: s).splitOn '/'.toUInt8 = (x :: p) :: ps := by
          rw [List.splitOn_cons_eq_if_modifyHead, if_neg (by simpa using hx), hps]
          rfl
        have hwithin : startsFrom true (x :: s) = startsFrom true s := by
          simp [startsFrom, hsplit, hps]
        have houtside : startsFrom false (x :: s) = (x :: p) :: startsFrom true s := by
          simp [startsFrom, hsplit, hps]
        cases within with
        | true =>
            simp only [hwithin] at h ⊢
            obtain ⟨u, c, t, rfl, hc, hbegin⟩ := ih h
            refine ⟨x :: u, c, t, rfl, hc, fun t' => ?_⟩
            rw [List.cons_append, beginning_within hx, hbegin, List.cons_append]
        | false =>
            simp only [houtside] at h ⊢
            cases n with
            | zero =>
                exact ⟨[], x, s, rfl, rfl, fun t' => beginning_zero hx t'⟩
            | succ n =>
                obtain ⟨u, c, t, rfl, hc, hbegin⟩ := ih (Nat.lt_of_succ_lt_succ h)
                refine ⟨x :: u, c, t, rfl, hc, fun t' => ?_⟩
                rw [List.cons_append, beginning_succ hx, hbegin, List.cons_append]

/-- Beginnings are no proper prefixes of one another. -/
theorem beginning_prefix {n : ℕ} {s t : Bytes} (hs : n < (parts s).length)
    (ht : n < (parts t).length) (h : beginning false n s <+: beginning false n t) :
    beginning false n s = beginning false n t := by
  rw [parts_eq] at hs ht
  obtain ⟨u, c, w, hsu, -, hbegin⟩ := beginning_spec hs
  obtain ⟨v, d, x, htv, -, hbegin'⟩ := beginning_spec ht
  have hu : beginning false n s = u ++ [c] := by rw [hsu, hbegin]
  have hv : beginning false n t = v ++ [d] := by rw [htv, hbegin']
  rw [hu, hv] at h ⊢
  obtain ⟨y, hy⟩ := h
  -- so `t` too starts with the beginning of `s`
  have hty : t = u ++ c :: (y ++ x) := by
    have hvx : v ++ d :: x = v ++ [d] ++ x := by simp
    rw [htv, hvx, ← hy]
    simp
  rw [← hv, hty, hbegin]

theorem beginning_append {n : ℕ} {s : Bytes} (hs : n < (parts s).length) :
    ∃ t, s = beginning false n s ++ t := by
  rw [parts_eq] at hs
  obtain ⟨u, c, w, hsu, -, hbegin⟩ := beginning_spec hs
  refine ⟨w, ?_⟩
  conv_rhs => rw [hsu, hbegin]
  rw [hsu, List.append_assoc, List.singleton_append]

/-- The last byte of the beginning is the first one of the segment. -/
theorem beginning_getLast {n : ℕ} {s : Bytes} (hs : n < (parts s).length) :
    (beginning false n s).getLast? = ((parts s)[n]).head? := by
  simp only [parts_eq] at hs ⊢
  obtain ⟨u, c, w, hsu, hc, hbegin⟩ := beginning_spec hs
  rw [hc]
  conv_lhs => rw [hsu, hbegin]
  exact List.getLast?_concat

end Segment

/-! ## Routes that fit -/

namespace HttpRoute

variable {F E : Type}

/-- `HttpRoute::match` finds that the route fits. -/
def fits (route : HttpRoute F E) (verb : Verb) (path : Bytes) : Bool :=
  match route.matchPath verb path fun _ => none with
  | .ok (found, _) => found
  | .error _ => false

/-- Whether segment `n` is fixed -/
def fixedAt (route : HttpRoute F E) (n : ℕ) : Bool :=
  (route.segments[n]?).any fun seg => seg.type = .fixed

/-- The path up to the first byte of segment `n` -/
def beginning (route : HttpRoute F E) (n : ℕ) : Bytes := Segment.beginning false n route.path

/-- The path in front of segment `n` -/
def textBefore (route : HttpRoute F E) (n : ℕ) : Bytes := (route.beginning n).dropLast

/-- The fixed segments begin with a letter. -/
def LetterSegments (route : HttpRoute F E) : Prop :=
  ∀ seg ∈ route.segments, seg.type = .fixed → seg.raw.head?.any isLetter = true

instance (route : HttpRoute F E) : Decidable route.LetterSegments :=
  inferInstanceAs (Decidable (∀ seg ∈ route.segments, _ → _))

theorem reached_all {segs : List Segment} {raws : List Bytes} (hlen : raws.length = segs.length)
    (h : (List.zipWith Segment.accepts segs raws).all id = true) : reached segs raws = raws := by
  induction segs generalizing raws with
  | nil =>
      rw [List.length_nil, List.length_eq_zero_iff] at hlen
      rw [hlen, reached]
      simp
  | cons seg segs ih =>
      cases raws with
      | nil => simp at hlen
      | cons raw raws =>
          rw [List.zipWith_cons_cons, List.all_cons, Bool.and_eq_true, id_eq] at h
          rw [reached, if_pos h.1, ih (by simpa using hlen) h.2]

theorem reached_subset (segs : List Segment) (raws : List Bytes) :
    ∀ s ∈ reached segs raws, s ∈ raws := by
  induction segs generalizing raws with
  | nil => simp [reached]
  | cons seg segs ih =>
      cases raws with
      | nil => simp [reached]
      | cons raw raws =>
          intro s hs
          rw [reached] at hs
          split at hs
          · obtain rfl | hs := List.mem_cons.mp hs
            · exact List.mem_cons_self
            · exact List.mem_cons_of_mem _ (ih raws s hs)
          · simp at hs

/-- A route that fits: its segments do, and those of the path decode. -/
theorem fits_iff (route : HttpRoute F E) (verb : Verb) (path : Bytes) :
    route.fits verb path = true ↔ route.accepts verb path = true ∧
      ∀ s ∈ Segment.parts path, UrlEncoder.Decodable s := by
  have hdecoded : route.accepts verb path = true →
      route.decoded verb path = Segment.parts path := by
    intro h
    simp only [accepts, Bool.and_eq_true, beq_iff_eq] at h
    obtain ⟨⟨⟨hhandler, hverb⟩, hlen⟩, hall⟩ := h
    rw [decoded, if_pos (by simp [hhandler, hverb, hlen]), reached_all hlen hall]
  have hreturns := route.matchPath_returns verb path fun _ => none
  unfold fits
  cases hm : route.matchPath verb path fun _ => none with
  | error e =>
      refine iff_of_false (by simp) fun ⟨hacc, hall⟩ => ?_
      rw [hdecoded hacc] at hreturns
      obtain ⟨r, hr⟩ := hreturns.mpr hall
      rw [hm] at hr
      cases hr
  | ok r =>
      obtain ⟨found, params⟩ := r
      have hfound := matchPath_ok hm
      refine ⟨fun h => ?_, fun h => hfound.trans h.1⟩
      have hacc : route.accepts verb path = true := hfound.symm.trans h
      rw [hdecoded hacc] at hreturns
      exact ⟨hacc, hreturns.mp ⟨_, hm⟩⟩

theorem fits_length {route : HttpRoute F E} {verb : Verb} {path : Bytes}
    (h : route.fits verb path = true) :
    (Segment.parts route.path).length = (Segment.parts path).length := by
  have hacc := ((route.fits_iff verb path).mp h).1
  simp only [accepts, Bool.and_eq_true, beq_iff_eq] at hacc
  rw [hacc.1.2, segments, Segment.fromPath, List.length_map]

/-- Of routes that fit the same request the paths are compared. -/
theorem fits_lexLt {a b : HttpRoute F E} {verb : Verb} {path : Bytes}
    (ha : a.fits verb path = true) (hb : b.fits verb path = true) :
    lexLt a.name b.name = lexLt a.path b.path := by
  have hacc := ((a.fits_iff verb path).mp ha).1
  have hacc' := ((b.fits_iff verb path).mp hb).1
  simp only [accepts, Bool.and_eq_true, beq_iff_eq] at hacc hacc'
  rw [name, name, ← hacc.1.1.2, ← hacc'.1.1.2, lexLt_append_left]

/-- The first byte of a segment tells its kind. -/
theorem fixedAt_iff {route : HttpRoute F E} {n : ℕ} (hn : n < (Segment.parts route.path).length) :
    route.fixedAt n = true ↔ (route.beginning n).getLast? ≠ some colon ∧
      (route.beginning n).getLast? ≠ some '*'.toUInt8 := by
  have hseg : route.segments[n]? = some (Segment.new (Segment.parts route.path)[n]) := by
    rw [segments, Segment.fromPath, List.getElem?_map, List.getElem?_eq_getElem hn, Option.map_some]
  rw [fixedAt, hseg, beginning, Segment.beginning_getLast hn]
  generalize (Segment.parts route.path)[n] = raw
  simp only [Option.any_some, Segment.new, decide_eq_true_eq]
  by_cases hcolon : raw.head? = some colon
  · simp [hcolon]
  · by_cases hstar : raw.head? = some '*'.toUInt8
    · rw [if_neg hcolon, if_pos hstar]
      split <;> simp [hstar]
    · simp [hcolon, hstar]

/-- The beginnings of two paths are ordered as the paths are. -/
theorem lexLt_beginning {a b : HttpRoute F E} {n : ℕ} (ha : n < (Segment.parts a.path).length)
    (hb : n < (Segment.parts b.path).length) (hne : a.beginning n ≠ b.beginning n) :
    lexLt a.path b.path = lexLt (a.beginning n) (b.beginning n) := by
  obtain ⟨s, hs⟩ := Segment.beginning_append ha
  obtain ⟨t, ht⟩ := Segment.beginning_append hb
  have hab : ¬ a.beginning n <+: b.beginning n := fun h =>
    hne (Segment.beginning_prefix ha hb h)
  have hba : ¬ b.beginning n <+: a.beginning n := fun h =>
    hne (Segment.beginning_prefix hb ha h).symm
  conv_lhs => rw [hs, ht]
  exact lexLt_append hab hba s t

end HttpRoute

/-! ## The route that is taken -/

namespace HttpRouter

variable {F E : Type}

/-- The first route of the order in which they are tried is found. -/
theorem matchRoutes_find {verb : Verb} {path : Bytes} {routes : List (HttpRoute F E)}
    {params : Params} {found : Option (HttpRoute F E × Params)}
    (h : matchRoutes verb path routes params = .ok found) :
    found.map Prod.fst = routes.find? fun r => r.accepts verb path := by
  induction routes generalizing params with
  | nil =>
      cases h
      rfl
  | cons r routes ih =>
      rw [matchRoutes, bind_eq_ok] at h
      obtain ⟨⟨b, params'⟩, hb, hrest⟩ := h
      have hacc := HttpRoute.matchPath_ok hb
      cases b with
      | true =>
          cases hrest
          rw [List.find?_cons, ← hacc]
          rfl
      | false =>
          rw [List.find?_cons, ← hacc]
          exact ih hrest

/-- A route that fits is found if there is one, and it is the one with the greatest name. -/
theorem find_greatest {router : HttpRouter F E} {verb : Verb} {path : Bytes}
    {route : HttpRoute F E}
    (h : (router.routes.reverse.find? fun r => r.accepts verb path) = some route) :
    (route ∈ router.routes ∧ route.accepts verb path = true) ∧
      ∀ r ∈ router.routes, r.accepts verb path = true → r ≠ route →
        lexLt r.name route.name = true := by
  obtain ⟨hacc, before, after, heq, hbefore⟩ := List.find?_eq_some_iff_append.mp h
  have hroutes : router.routes = after.reverse ++ route :: before.reverse := by
    rw [← List.reverse_reverse router.routes, heq]
    simp
  refine ⟨⟨by simp [hroutes], hacc⟩, fun r hr hracc hne => ?_⟩
  have hsorted := router.sorted
  rw [hroutes, List.pairwise_append] at hsorted
  rw [hroutes, List.mem_append, List.mem_cons] at hr
  obtain hr | rfl | hr := hr
  · exact hsorted.2.2 r hr route List.mem_cons_self
  · exact absurd rfl hne
  · have hno := hbefore r (List.mem_reverse.mp hr)
    simp [hracc] at hno

/-- Two of the routes that fit differ in kind at segment `n`: the one is fixed, the other not. -/
def Differ (router : HttpRouter F E) (verb : Verb) (path : Bytes) (n : ℕ) : Prop :=
  ∃ a ∈ router.routes, ∃ b ∈ router.routes,
    (a.fits verb path = true ∧ b.fits verb path = true) ∧
      a.fixedAt n = true ∧ b.fixedAt n = false

instance (router : HttpRouter F E) (verb : Verb) (path : Bytes) (n : ℕ) :
    Decidable (router.Differ verb path n) :=
  inferInstanceAs (Decidable (∃ a ∈ router.routes, ∃ b ∈ router.routes, _ ∧ _))

/-- Segment `n` is the leftmost at which routes that fit differ in kind. -/
structure FirstDifference (router : HttpRouter F E) (verb : Verb) (path : Bytes) (n : ℕ) :
    Prop where
  differ : router.Differ verb path n
  leftmost : ∀ m < n, ¬ router.Differ verb path m

/-- A fixed segment at `n` has the greatest beginning: greater than that of each route that
fits and has none there. -/
def FixedLast (router : HttpRouter F E) (verb : Verb) (path : Bytes) (n : ℕ) : Prop :=
  ∃ r ∈ router.routes, (r.fits verb path = true ∧ r.fixedAt n = true) ∧
    ∀ s ∈ router.routes, s.fits verb path = true → s.fixedAt n = false →
      lexLt (s.beginning n) (r.beginning n) = true

/-- If the segments of the path decode, a request that is let through takes the first
route of the order in which they are tried. -/
theorem matchRequest_matched_iff {router : HttpRouter F E} {request : Request F}
    {route : HttpRoute F E}
    (hdec : ∀ s ∈ Segment.parts (targetPath request.target), UrlEncoder.Decodable s) :
    (∃ pathParams queryParams,
        router.matchRequest request = .ok (.matched route pathParams queryParams)) ↔
      (∀ p ∈ pairsOf request.target, UrlEncoder.Decodable p.2) ∧
        router.refusal request = .ok none ∧
          (router.routes.reverse.find? fun r =>
            r.accepts request.method (targetPath request.target)) = some route := by
  have hroutes : RoutesDecode request.method (targetPath request.target) router.routes.reverse := by
    intro _ r _ _ _ s hs
    unfold HttpRoute.decoded at hs
    split at hs
    · exact hdec s (HttpRoute.reached_subset _ _ s hs)
    · simp at hs
  obtain ⟨found, hfound⟩ := (matchRoutes_returns _ _ _ fun _ => none).mpr hroutes
  rw [← matchRoutes_find hfound, ← parseUri_returns]
  constructor
  · rintro ⟨pathParams, queryParams, h⟩
    obtain ⟨⟨path, params⟩, huri, hrest⟩ := bind_eq_ok.mp h
    obtain ⟨refused, hrefused, hlast⟩ := bind_eq_ok.mp hrest
    obtain ⟨q, -, hq⟩ := bind_eq_ok.mp huri
    cases hq
    cases refused with
    | some r => cases hlast
    | none =>
        obtain ⟨found', hfound', hend⟩ := bind_eq_ok.mp hlast
        cases hfound.symm.trans hfound'
        cases found with
        | none => cases hend
        | some f =>
            cases hend
            exact ⟨⟨_, huri⟩, hrefused, rfl⟩
  · rintro ⟨⟨⟨path, params⟩, huri⟩, hrefused, hsome⟩
    obtain ⟨⟨r, pathParams⟩, rfl, rfl⟩ := Option.map_eq_some_iff.mp hsome
    refine ⟨pathParams, params, bind_eq_ok.mpr ⟨_, huri, bind_eq_ok.mpr ⟨_, hrefused, ?_⟩⟩⟩
    obtain ⟨q, -, hq⟩ := bind_eq_ok.mp huri
    cases hq
    exact bind_eq_ok.mpr ⟨_, hfound, rfl⟩

/-- Of the routes that fit, the one with the greatest name has a fixed segment at `n` if the
greatest beginning has one. -/
theorem fixedAt_greatest {router : HttpRouter F E} {verb : Verb} {path : Bytes} {n : ℕ}
    {route : HttpRoute F E} (hmem : route ∈ router.routes) (hfits : route.fits verb path = true)
    (hgreatest : ∀ r ∈ router.routes, r.fits verb path = true → r ≠ route →
      lexLt r.name route.name = true)
    (hn : n < (Segment.parts path).length) :
    route.fixedAt n = true ↔ router.FixedLast verb path n := by
  have hlen : ∀ {r : HttpRoute F E}, r.fits verb path = true →
      n < (Segment.parts r.path).length := fun hr => by rw [HttpRoute.fits_length hr]; exact hn
  -- beginnings of different kinds are different
  have hkind : ∀ {r s : HttpRoute F E}, r.fits verb path = true → s.fits verb path = true →
      r.fixedAt n = true → s.fixedAt n = false → s.beginning n ≠ r.beginning n := by
    intro r s hr hs hrn hsn heq
    have hiff := HttpRoute.fixedAt_iff (hlen hs)
    rw [heq, ← HttpRoute.fixedAt_iff (hlen hr), hrn, hsn] at hiff
    simp at hiff
  constructor
  · intro hfixed
    refine ⟨route, hmem, ⟨hfits, hfixed⟩, fun s hs hsfits hsn => ?_⟩
    have hne : s ≠ route := by
      rintro rfl
      rw [hfixed] at hsn
      cases hsn
    have hlt := hgreatest s hs hsfits hne
    rw [HttpRoute.fits_lexLt hsfits hfits,
      HttpRoute.lexLt_beginning (hlen hsfits) (hlen hfits) (hkind hfits hsfits hfixed hsn)] at hlt
    exact hlt
  · rintro ⟨r, hr, ⟨hrfits, hrn⟩, hall⟩
    by_contra hno
    rw [Bool.not_eq_true] at hno
    have hlt := hall route hmem hfits hno
    rw [← HttpRoute.lexLt_beginning (hlen hfits) (hlen hrfits) (hkind hrfits hfits hrn hno),
      ← HttpRoute.fits_lexLt hfits hrfits] at hlt
    have hne : r ≠ route := by
      rintro rfl
      rw [hno] at hrn
      cases hrn
    have hgt := hgreatest r hr hrfits hne
    rw [lexLt_asymm hlt] at hgt
    cases hgt

/-- The preference that the comment explains: it holds where the routes that fit have the same
text in front of the segment, so the same names for the parameters there. -/
theorem fixedLast_of_textBefore {router : HttpRouter F E} {verb : Verb} {path : Bytes} {n : ℕ}
    (hletters : ∀ r ∈ router.routes, r.LetterSegments) (hdiffer : router.Differ verb path n)
    (hsame : ∀ r ∈ router.routes, ∀ s ∈ router.routes, r.fits verb path = true →
      s.fits verb path = true → r.textBefore n = s.textBefore n) :
    router.FixedLast verb path n := by
  obtain ⟨a, ha, -, -, ⟨hafits, -⟩, han, -⟩ := hdiffer
  have hlena : n < a.segments.length := by
    by_contra hge
    rw [HttpRoute.fixedAt, List.getElem?_eq_none (by omega)] at han
    cases han
  refine ⟨a, ha, ⟨hafits, han⟩, fun s hs hsfits hsn => ?_⟩
  rw [HttpRoute.segments, Segment.fromPath, List.length_map] at hlena
  have hlens : n < (Segment.parts s.path).length := by
    rwa [HttpRoute.fits_length hsfits, ← HttpRoute.fits_length hafits]
  -- the one beginning ends with a letter
  have hletter : (a.beginning n).getLast?.any isLetter = true := by
    rw [HttpRoute.beginning, Segment.beginning_getLast hlena]
    refine hletters a ha (Segment.new (Segment.parts a.path)[n])
      (List.mem_map_of_mem (List.getElem_mem hlena)) ?_
    simpa [HttpRoute.fixedAt, HttpRoute.segments, Segment.fromPath, hlena] using han
  -- and the other one with a mark
  have hmark : (s.beginning n).getLast? = some colon ∨
      (s.beginning n).getLast? = some '*'.toUInt8 := by
    by_contra hno
    rw [not_or] at hno
    rw [(HttpRoute.fixedAt_iff hlens).mpr hno] at hsn
    cases hsn
  obtain ⟨c, hc, hcletter⟩ := (Option.any_eq_true _ _).mp hletter
  have hconcat : ∀ {r : HttpRoute F E} {d : UInt8}, (r.beginning n).getLast? = some d →
      r.beginning n = r.textBefore n ++ [d] := fun h => (List.dropLast_append_getLast? _ h).symm
  rw [hconcat hc, hsame a ha s hs hafits hsfits]
  obtain hd | hd := hmark
  · rw [hconcat hd, lexLt_append_left]
    exact (lexLt_letter hcletter).1
  · rw [hconcat hd, lexLt_append_left]
    exact (lexLt_letter hcletter).2

/-- A request takes a route with a fixed segment where the routes that fit differ in kind
first, if it is let through and a fixed segment has the greatest beginning there. -/
theorem matchRequest_prefers_fixed (router : HttpRouter F E) (request : Request F) {n : ℕ}
    (hn : router.FirstDifference request.method (targetPath request.target) n) :
    (∃ route pathParams queryParams,
        router.matchRequest request = .ok (.matched route pathParams queryParams) ∧
          route.fixedAt n = true) ↔
      (∀ p ∈ pairsOf request.target, UrlEncoder.Decodable p.2) ∧
        router.refusal request = .ok none ∧
          router.FixedLast request.method (targetPath request.target) n := by
  obtain ⟨⟨a, ha, b, hb, ⟨hafits, hbfits⟩, han, hbn⟩, -⟩ := hn
  obtain ⟨haacc, hdec⟩ := (a.fits_iff _ _).mp hafits
  have hlen : n < (Segment.parts (targetPath request.target)).length := by
    rw [← HttpRoute.fits_length hafits]
    by_contra hge
    have hnone : a.segments[n]? = none := by
      rw [List.getElem?_eq_none_iff, HttpRoute.segments, Segment.fromPath, List.length_map]
      omega
    rw [HttpRoute.fixedAt, hnone] at han
    cases han
  have hgreatest : ∀ {route : HttpRoute F E},
      (router.routes.reverse.find? fun r =>
        r.accepts request.method (targetPath request.target)) = some route →
      (route.fixedAt n = true ↔
        router.FixedLast request.method (targetPath request.target) n) := by
    intro route hfind
    obtain ⟨⟨hmem, hacc⟩, hall⟩ := find_greatest hfind
    refine fixedAt_greatest hmem ((route.fits_iff _ _).mpr ⟨hacc, hdec⟩) (fun r hr hrfits => ?_)
      hlen
    exact hall r hr ((r.fits_iff _ _).mp hrfits).1
  constructor
  · rintro ⟨route, pathParams, queryParams, hmatched, hfixed⟩
    obtain ⟨hquery, hrefused, hfind⟩ :=
      (matchRequest_matched_iff hdec).mp ⟨pathParams, queryParams, hmatched⟩
    exact ⟨hquery, hrefused, (hgreatest hfind).mp hfixed⟩
  · rintro ⟨hquery, hrefused, hlast⟩
    have hsome : (router.routes.reverse.find? fun r =>
        r.accepts request.method (targetPath request.target)).isSome = true := by
      rw [List.find?_isSome]
      exact ⟨a, List.mem_reverse.mpr ha, haacc⟩
    obtain ⟨route, hfind⟩ := Option.isSome_iff_exists.mp hsome
    obtain ⟨pathParams, queryParams, hmatched⟩ :=
      (matchRequest_matched_iff hdec).mpr ⟨hquery, hrefused, hfind⟩
    exact ⟨route, pathParams, queryParams, hmatched, (hgreatest hfind).mpr hlast⟩

/-- A route that is found by its path alone -/
def pathOnly (path : String) : HttpRoute Unit Unit :=
  { verb := .get
    path := ascii path.toList
    authType := .noAuth
    handler := some fun ctx => (ctx, none) }

/-- Two routes whose first parameters have different names. -/
private def twoNames : HttpRouter Unit Unit where
  routes := [pathOnly "/:a/c", pathOnly "/:b/:x"]

/-- A request for a target -/
def getText (target : String) : Request Unit :=
  { method := .get
    target := ascii target.toList
    fields := () }

/-- A fixed segment and a parameter behind the same text -/
private def oneName : HttpRouter Unit Unit where
  routes := [pathOnly "/:a/:x", pathOnly "/:a/c"]

theorem matchRequest_prefers_fixed_oneName : ∃ route pathParams queryParams,
    oneName.matchRequest (getText "/u/c") = .ok (.matched route pathParams queryParams) ∧
      route.fixedAt 1 = true := by
  refine (matchRequest_prefers_fixed oneName (getText "/u/c")
    ⟨by decide +kernel, by decide +kernel⟩).mpr ⟨?_, rfl, ?_⟩
  · have hnone : pairsOf (getText "/u/c").target = [] := by decide +kernel
    simp [hnone]
  · exact ⟨pathOnly "/:a/c", by simp [oneName], by decide +kernel⟩

/-- The request `/u/c` is not answered by the route `/:a/c`: the name of the first parameter of
the other route is greater. -/
theorem matchRequest_parameter_first :
    ¬ ∀ (router : HttpRouter Unit Unit) (request : Request Unit) (n : ℕ),
      (∀ r ∈ router.routes, r.LetterSegments) →
      router.FirstDifference request.method (targetPath request.target) n →
        ∃ route pathParams queryParams,
          router.matchRequest request = .ok (.matched route pathParams queryParams) ∧
            route.fixedAt n = true := by
  intro h
  have hdec : ∀ s ∈ Segment.parts (targetPath (getText "/u/c").target),
      UrlEncoder.Decodable s :=
    (((pathOnly "/:a/c").fits_iff .get _).mp (by decide +kernel)).2
  obtain ⟨route, pathParams, queryParams, hmatched, hfixed⟩ :=
    h twoNames (getText "/u/c") 1 (by decide +kernel) ⟨by decide +kernel, by decide +kernel⟩
  obtain ⟨-, -, hfind⟩ := (matchRequest_matched_iff hdec).mp ⟨_, _, hmatched⟩
  have hkind : ((twoNames.routes.reverse.find? fun r =>
      r.accepts .get (ascii "/u/c".toList)).map fun r => r.fixedAt 1) = some false := by
    decide +kernel
  rw [show (twoNames.routes.reverse.find? fun r => r.accepts .get (ascii "/u/c".toList)) =
    some route from hfind, Option.map_some, hfixed] at hkind
  cases hkind

end HttpRouter

end BcmServer.Http
