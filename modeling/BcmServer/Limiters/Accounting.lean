import BcmServer.Websocket.Request

/-!
# BcmServer.Limiters.Accounting — whom a request is charged to

`LimiterExecutor` charges a request to the uid of its `Authorization` header.
Over HTTP that header also decides whom the handler works for. Over a websocket
the handler works for the account of the session, and the headers are whatever
the client puts in the message: the request is charged to that account only if
the client says so (`charged_once_iff`).
-/

namespace BcmServer.Limiters

open Util Http Auth Websocket

variable {F E : Type} (ext : External F)

/-- The request is charged once to the uid, and granted. -/
def ChargedOnce (calls : List (Bytes × LimitLevel)) (uid : Bytes) : Prop := calls = [(uid, .good)]

/-- The calls that a request makes charge it to nobody or to one uid. -/
theorem chargedOnce_iff {charged uid : Bytes} :
    ChargedOnce (if charged = [] then [] else [(charged, .good)]) uid ↔
      charged = uid ∧ uid ≠ [] := by
  unfold ChargedOnce
  by_cases hempty : charged = []
  · rw [if_pos hempty]
    refine iff_of_false (by simp) ?_
    rintro ⟨rfl, hne⟩
    exact hne hempty
  · rw [if_neg hempty]
    constructor
    · intro h
      have heq : charged = uid := congrArg Prod.fst (List.singleton_injective h)
      exact ⟨heq, heq ▸ hempty⟩
    · rintro ⟨rfl, -⟩
      rfl

/-! ## The uid in the path -/

/-- The uid stands in the path, in one of the two APIs that have it there. -/
def PathNames (api : Api) (uid : Bytes) : Prop :=
  let text (s : String) : Bytes := ascii s.toList
  (api.method = .get ∧
    pieces api.name = [[], text "v1", text "accounts", text "challenge", uid]) ∨
  (api.method = .delete_ ∧
    ∃ signature, pieces api.name = [[], text "v1", text "accounts", uid, signature])

/-- The matcher on pieces -/
def Match (ps ts : List Bytes) : Prop :=
  List.Forall₂ (fun p t => ApiMatcher.matchInternal p t = true) ps ts

/-- Fixed pieces stand for themselves. -/
theorem match_append {fs : List Bytes} (h : ∀ f ∈ fs, f.head? ≠ some colon) (ps ts : List Bytes) :
    Match (fs ++ ps) ts ↔ ∃ ts', ts = fs ++ ts' ∧ Match ps ts' := by
  induction fs generalizing ts with
  | nil => simp
  | cons f fs ih =>
      rw [List.forall_mem_cons] at h
      unfold Match at ih ⊢
      rw [List.cons_append, List.forall₂_cons_left_iff]
      constructor
      · rintro ⟨t, ts', hf, hfs, rfl⟩
        obtain ⟨us, rfl, hps⟩ := (ih h.2 ts').mp hfs
        rw [(ApiMatcher.matchInternal_of_fixed h.1).mp hf]
        exact ⟨us, rfl, hps⟩
      · rintro ⟨us, rfl, hps⟩
        exact ⟨f, fs ++ us, (ApiMatcher.matchInternal_of_fixed h.1).mpr rfl,
          (ih h.2 _).mpr ⟨us, rfl, hps⟩, rfl⟩

/-- Parameters stand for anything. -/
theorem match_params {ps : List Bytes} (h : ∀ p ∈ ps, p.head? = some colon) (ts : List Bytes) :
    Match ps ts ↔ ts.length = ps.length := by
  induction ps generalizing ts with
  | nil =>
      unfold Match
      rw [List.forall₂_nil_left_iff, List.length_nil, List.length_eq_zero_iff]
  | cons p ps ih =>
      rw [List.forall_mem_cons] at h
      cases ts with
      | nil => simp [Match]
      | cons t ts =>
          have htail := ih h.2 ts
          unfold Match at htail ⊢
          rw [List.forall₂_cons, htail, List.length_cons, List.length_cons,
            Nat.add_right_cancel_iff, and_iff_right (ApiMatcher.matchInternal_of_param h.1 t)]

/-- A pattern of fixed pieces and then parameters, one of which is fetched -/
theorem matchAndFetch_eq_some {p target : Api} {fs ps : List Bytes} (hp : pieces p.name = fs ++ ps)
    (hfs : ∀ f ∈ fs, f.head? ≠ some colon) (hps : ∀ q ∈ ps, q.head? = some colon)
    {key value v : Bytes} (hkey : key.head? = some colon) :
    ApiMatcher.matchAndFetch p target key value = some v ↔
      p.method = target.method ∧ ∃ ts, ts.length = ps.length ∧ pieces target.name = fs ++ ts ∧
        (((ps.zip ts).reverse.find? fun a => a.1 = key).elim value Prod.snd) = v := by
  have hmatch : ApiMatcher.matchApi p target = true ↔
      p.method = target.method ∧ ∃ ts, ts.length = ps.length ∧ pieces target.name = fs ++ ts := by
    rw [ApiMatcher.matchApi, Bool.and_eq_true, beq_iff_eq, ApiMatcher.matchText,
      ApiMatcher.matchPieces_iff, hp]
    refine and_congr_right fun _ => (match_append hfs ps _).trans ⟨?_, ?_⟩
    · rintro ⟨ts, hts, hm⟩
      exact ⟨ts, (match_params hps ts).mp hm, hts⟩
    · rintro ⟨ts, hlen, hts⟩
      exact ⟨ts, hts, (match_params hps ts).mpr hlen⟩
  -- the key is a parameter, so it is not among the fixed pieces
  have hfind : ∀ ts : List Bytes, (((fs ++ ps).zip (fs ++ ts)).reverse.find? fun a => a.1 = key) =
      (ps.zip ts).reverse.find? fun a => a.1 = key := by
    intro ts
    rw [List.zip_append rfl, List.reverse_append, List.find?_append]
    have hnone : ((fs.zip fs).reverse.find? fun a => a.1 = key) = none := by
      rw [List.find?_eq_none]
      intro a ha hak
      have hmem : a.1 ∈ fs := (List.of_mem_zip (List.mem_reverse.mp ha)).1
      rw [decide_eq_true_eq] at hak
      exact hfs _ hmem (hak ▸ hkey)
    rw [hnone, Option.or_none]
  unfold ApiMatcher.matchAndFetch
  by_cases h : ApiMatcher.matchApi p target = true
  · obtain ⟨hmethod, ts, hlen, hts⟩ := hmatch.mp h
    rw [if_pos h, hp, hts, Option.some.injEq, hfind]
    constructor
    · intro hv
      exact ⟨hmethod, ts, hlen, rfl, hv⟩
    · rintro ⟨-, ts', -, heq, hv⟩
      rw [List.append_cancel_left heq]
      exact hv
  · rw [if_neg h]
    refine iff_of_false (by simp) ?_
    rintro ⟨hmethod, ts, hlen, hts, -⟩
    exact h (hmatch.mpr ⟨hmethod, ts, hlen, hts⟩)

theorem fetch_challenge {api : Api} {uid : Bytes} :
    ApiMatcher.matchAndFetch (LimiterGlobals.api .get "/v1/accounts/challenge/:uid") api
        (ascii ":uid".toList) [] = some uid ↔
      api.method = .get ∧ pieces api.name = [[], ascii "v1".toList, ascii "accounts".toList,
        ascii "challenge".toList] ++ [uid] := by
  have hp : pieces (LimiterGlobals.api .get "/v1/accounts/challenge/:uid").name =
      [[], ascii "v1".toList, ascii "accounts".toList, ascii "challenge".toList] ++
        [ascii ":uid".toList] := by decide
  rw [matchAndFetch_eq_some hp (by decide) (by decide) (by decide), eq_comm]
  refine and_congr_right fun _ => ⟨?_, ?_⟩
  · rintro ⟨ts, hlen, hts, hfetch⟩
    obtain ⟨t, rfl⟩ := List.length_eq_one_iff.mp hlen
    cases hfetch
    exact hts
  · intro hts
    exact ⟨[uid], rfl, hts, rfl⟩

theorem fetch_destroy {api : Api} {uid : Bytes} :
    ApiMatcher.matchAndFetch (LimiterGlobals.api .delete_ "/v1/accounts/:uid/:signature") api
        (ascii ":uid".toList) [] = some uid ↔
      api.method = .delete_ ∧ ∃ signature, pieces api.name =
        [[], ascii "v1".toList, ascii "accounts".toList] ++ [uid, signature] := by
  have hp : pieces (LimiterGlobals.api .delete_ "/v1/accounts/:uid/:signature").name =
      [[], ascii "v1".toList, ascii "accounts".toList] ++
        [ascii ":uid".toList, ascii ":signature".toList] := by decide
  rw [matchAndFetch_eq_some hp (by decide) (by decide) (by decide), eq_comm]
  refine and_congr_right fun _ => ⟨?_, ?_⟩
  · rintro ⟨ts, hlen, hts, hfetch⟩
    obtain ⟨t, signature, rfl⟩ := List.length_eq_two.mp hlen
    cases hfetch
    exact ⟨signature, hts⟩
  · rintro ⟨signature, hts⟩
    exact ⟨[uid, signature], rfl, hts, rfl⟩

theorem preProcessing_of_ne {uid : Bytes} (h : uid ≠ []) (api : Api) :
    UidChecker.preProcessing api uid = uid := by
  simp [UidChecker.preProcessing, h]

/-- Without a uid in the header it is the one in the path, if the API has one there. -/
theorem preProcessing_nil {api : Api} {uid : Bytes} (h : uid ≠ []) :
    UidChecker.preProcessing api [] = uid ↔ PathNames api uid := by
  have hpaths : PathNames api uid ↔
      ApiMatcher.matchAndFetch (LimiterGlobals.api .get "/v1/accounts/challenge/:uid") api
        (ascii ":uid".toList) [] = some uid ∨
      ApiMatcher.matchAndFetch (LimiterGlobals.api .delete_ "/v1/accounts/:uid/:signature") api
        (ascii ":uid".toList) [] = some uid := by
    rw [fetch_challenge, fetch_destroy]
    exact Iff.rfl
  rw [hpaths]
  unfold UidChecker.preProcessing UidChecker.patterns
  rw [List.isEmpty_nil, Bool.not_true, if_neg Bool.false_ne_true, List.findSome?_cons,
    List.findSome?_cons, List.findSome?_nil]
  cases hget : ApiMatcher.matchAndFetch (LimiterGlobals.api .get "/v1/accounts/challenge/:uid") api
      (ascii ":uid".toList) [] with
  | some v =>
      -- the verbs of the two APIs differ
      have hnone : ApiMatcher.matchAndFetch
          (LimiterGlobals.api .delete_ "/v1/accounts/:uid/:signature") api
            (ascii ":uid".toList) [] ≠ some uid := by
        intro hdelete
        cases (fetch_challenge.mp hget).1.symm.trans (fetch_destroy.mp hdelete).1
      rw [or_iff_left hnone, Option.some.injEq]
      exact Iff.rfl
  | none =>
      cases ApiMatcher.matchAndFetch (LimiterGlobals.api .delete_ "/v1/accounts/:uid/:signature")
          api (ascii ":uid".toList) [] with
      | some v => simp
      | none => simpa using h.symm

/-- The header names the user, or it names nobody and the path names the user. -/
def NamesUser (request : Request F) (uid : Bytes) : Prop :=
  LimiterExecutor.uidOf ext request = uid ∨
    LimiterExecutor.uidOf ext request = [] ∧ PathNames (LimiterExecutor.apiOf request) uid

theorem chargedUid_eq_iff {request : Request F} {uid : Bytes} (h : uid ≠ []) :
    LimiterExecutor.chargedUid ext request = uid ↔ NamesUser ext request uid := by
  unfold LimiterExecutor.chargedUid NamesUser
  by_cases huid : LimiterExecutor.uidOf ext request = []
  · rw [huid, preProcessing_nil h]
    simp [h.symm]
  · rw [preProcessing_of_ne huid]
    simp [huid]

/-! ## The two transports -/

/-- Over HTTP the account is the one of the header. -/
theorem onHeader_account {svc svc' : Service F E} {header : Request F} {response : Response F}
    {around : Surroundings} {calls : List (Bytes × LimitLevel)} {route : HttpRoute F E}
    {ctx : HttpContext F E} {a : Account}
    (h : HttpSession.onHeader ext svc header response around = .ok ⟨svc', calls, .invoke route ctx⟩)
    (ha : ctx.authResult = some (.account a)) :
    svc.check ext header around = .passed svc' calls ∧ a.uid = LimiterExecutor.uidOf ext header := by
  unfold HttpSession.onHeader at h
  split at h
  · cases h
  · obtain ⟨res, -, hlast⟩ := bind_eq_ok.mp h
    cases hlast
  · rename_i svc'' calls'' hpassed
    obtain ⟨result, -, hrest⟩ := bind_eq_ok.mp h
    cases result with
    | filtered status reason =>
        obtain ⟨res, -, hlast⟩ := bind_eq_ok.mp hrest
        cases hlast
    | mismatched => cases hrest
    | matched r pathParams queryParams =>
        simp only [pure, Except.pure, Except.ok.injEq, Arrival.mk.injEq] at hrest
        obtain ⟨rfl, rfl, hnext⟩ := hrest
        refine ⟨hpassed, ?_⟩
        unfold HttpSession.authorize at hnext
        split at hnext
        · cases hnext
          cases ha
        · rename_i hauth
          split at hnext
          · cases hnext
          · rename_i authHeader hparse
            dsimp only at hnext
            split at hnext
            · rename_i hsuccess
              cases hnext
              cases ha
              rw [Authenticator.auth_uid ext hauth hsuccess]
              rw [LimiterExecutor.uidOf, hparse]
              rfl
            · cases hnext

/-- Over HTTP a request that a handler gets is charged to the caller, if the caller has
a uid. -/
theorem http_charged {svc svc' : Service F E} {e : LimiterExecutor}
    (hvalidator : svc.validator = some e) {header : Request F} {response : Response F}
    {around : Surroundings} {calls : List (Bytes × LimitLevel)} {route : HttpRoute F E}
    {ctx : HttpContext F E} {a : Account}
    (hignore : e.ignore (LimiterExecutor.apiOf header) = false)
    (h : HttpSession.onHeader ext svc header response around = .ok ⟨svc', calls, .invoke route ctx⟩)
    (ha : ctx.authResult = some (.account a)) :
    ChargedOnce calls a.uid ↔ LimiterExecutor.uidOf ext header ≠ [] := by
  obtain ⟨hpassed, huid⟩ := onHeader_account ext h ha
  rw [Service.check_passed ext hvalidator hignore hpassed, chargedOnce_iff, huid]
  constructor
  · rintro ⟨-, hne⟩
    exact hne
  · intro hne
    exact ⟨preProcessing_of_ne hne _, hne⟩

/-- Over a websocket it is charged to whom the message names. -/
theorem websocket_charged {conn : Connection F E} {e : LimiterExecutor}
    (hvalidator : conn.service.validator = some e) {req : RequestMessage} {around : Surroundings}
    {svc : Service F E} {calls : List (Bytes × LimitLevel)} {route : HttpRoute F E}
    {ctx : HttpContext F E} {uid : Bytes}
    (hignore : e.ignore (LimiterExecutor.apiOf (req.http ext)) = false)
    (h : conn.arrive ext req around = .ok ⟨svc, calls, .invoke route ctx⟩) :
    ChargedOnce calls uid ↔ NamesUser ext (req.http ext) uid ∧ uid ≠ [] := by
  obtain ⟨pathParams, queryParams, hreach, -⟩ := Connection.reaches_of_arrive ext h
  rw [Service.check_passed ext hvalidator hignore hreach.passed, chargedOnce_iff]
  constructor
  · rintro ⟨hcharged, hne⟩
    exact ⟨(chargedUid_eq_iff ext hne).mp hcharged, hne⟩
  · rintro ⟨hnames, hne⟩
    exact ⟨(chargedUid_eq_iff ext hne).mpr hnames, hne⟩

/-- A request that a handler gets with an account, on an API that is not ignored, is
charged once to that account and granted: over HTTP if the account has a uid,
over a websocket if the account has a uid and the message names it. -/
theorem charged_once_iff (svc : Service F E) {e : LimiterExecutor} (hvalidator : svc.validator = some e)
    (around : Surroundings) :
    (∀ header response svc' calls route ctx a,
      e.ignore (LimiterExecutor.apiOf header) = false →
      HttpSession.onHeader ext svc header response around = .ok ⟨svc', calls, .invoke route ctx⟩ →
      ctx.authResult = some (.account a) →
        (ChargedOnce calls a.uid ↔ LimiterExecutor.uidOf ext header ≠ [])) ∧
    (∀ (conn : Connection F E) req svc' calls route ctx a, conn.service = svc →
      e.ignore (LimiterExecutor.apiOf (req.http ext)) = false →
      conn.arrive ext req around = .ok ⟨svc', calls, .invoke route ctx⟩ →
      ctx.authResult = some (.account a) →
        (ChargedOnce calls a.uid ↔ NamesUser ext (req.http ext) a.uid ∧ a.uid ≠ [])) := by
  constructor
  · intro header response svc' calls route ctx a hignore h ha
    exact http_charged ext hvalidator hignore h ha
  · rintro conn req svc' calls route ctx a rfl hignore h -
    exact websocket_charged ext hvalidator hignore h

/-! ## A message with and without the header -/

/-- Beast with the Base64 text of `u:t` -/
def basicExternal : External (List (Bytes × Bytes)) :=
  .ofList id fun _ => ascii "u:t".toList

/-- A session of the user `u`, on a service with one route and both limiters -/
def profileSession : Connection (List (Bytes × Bytes)) Unit where
  service :=
    { router :=
        { routes := [{
            verb := .get
            path := ascii "/v1/profile/:uid".toList
            authType := .allowAll
            handler := some fun ctx => (ctx.setResult 200, none) }] }
      authenticator := { accounts := .none, todayInMilli := 0 }
      validator := some
        { user := {}
          api :=
            { status := fun api =>
                if api = ascii "v1/profile/:uid/get".toList then some {} else none
              apiPatterns := [ascii "/v1/profile/:uid/get".toList] }
          ignoredApis := [] } }
  authenticated := .account
    { uid := ascii ['u'], devices := [⟨1, .normal, [], [], 0, {}⟩], authdeviceid := 1 }

def profileMessage (headers : List String) : RequestMessage where
  verb := ascii "GET".toList
  path := ascii "/v1/profile/v".toList
  headers := headers.map fun h => ascii h.toList
  id := 7

theorem charged_once_iff_named : ∃ svc calls route ctx,
    profileSession.arrive basicExternal (profileMessage ["Authorization: Basic dTp0"])
      ⟨true, 1, 1⟩ = .ok ⟨svc, calls, .invoke route ctx⟩ ∧ ChargedOnce calls (ascii ['u']) := by
  refine ⟨_, _, _, _, rfl, ?_⟩
  exact ((charged_once_iff basicExternal profileSession.service rfl ⟨true, 1, 1⟩).2 profileSession
    (profileMessage ["Authorization: Basic dTp0"]) _ _ _ _ _ rfl rfl rfl rfl).mpr
      ⟨.inl rfl, by decide⟩

/-- Without the header the handler works for `u`, and nobody is charged. -/
theorem charged_to_nobody : ∃ svc calls route ctx a,
    profileSession.arrive basicExternal (profileMessage []) ⟨true, 1, 1⟩ =
      .ok ⟨svc, calls, .invoke route ctx⟩ ∧
    ctx.authResult = some (.account a) ∧ a.uid = ascii ['u'] ∧ ¬ ChargedOnce calls a.uid := by
  refine ⟨_, _, _, _, _, rfl, rfl, rfl, ?_⟩
  intro h
  cases h

end BcmServer.Limiters
