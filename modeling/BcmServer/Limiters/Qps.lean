import BcmServer.Limiters.ApiMatcher
import BcmServer.Util.Window

/-!
# BcmServer.Limiters.Qps — the limiters that count in memory

`UserQpsLimiter` keeps a `Status` for each user, `ApiQpsLimiter` one for each
active API; both count requests in windows in the same way (`Status.access`,
`Status.limited`). Start time 0 marks a status without a window, so the clock
has to be positive, which a steady clock is.

* `Status.access_refines`: on positive clock values a status is a fixed window
  of `Util.Window`.
* `served_key`: what a limiter answers on one key depends on the calls on that
  key only.
* `windows_enforced`: the bounds of `Util.Window` for both limiters.
-/

namespace BcmServer.Limiters

open Util Util.Cells Http

/-- `dao::LimitRule`, the period in milliseconds -/
structure LimitRule where
  period : ℤ
  count : ℤ
deriving DecidableEq, Repr

/-- `LimitLevel` -/
inductive LimitLevel where
  | good | limited
deriving DecidableEq, Repr

/-- `ILimiter::Status` -/
structure Status where
  startTime : ℤ := 0
  counter : ℤ := 0
deriving DecidableEq, Repr

namespace Status

/-- No window is open at `now`. -/
def closed (s : Status) (rule : LimitRule) (now : ℤ) : Bool :=
  s.startTime == 0 || decide (now - s.startTime ≥ rule.period)

/-- What `acquireAccess` does under the mutex of the item. -/
def access (s : Status) (rule : LimitRule) (now : ℤ) : Status × LimitLevel :=
  if s.closed rule now then (⟨now, 1⟩, .good)
  else (⟨s.startTime, s.counter + 1⟩, if s.counter + 1 ≤ rule.count then .good else .limited)

/-- What `limited` makes of the status. -/
def limited (s : Status) (rule : LimitRule) (now : ℤ) : LimitLevel :=
  if s.counter > rule.count ∧ now - s.startTime < rule.period then .limited else .good

end Status

/-! ## The limiters -/

/-- `UserQpsLimiter` -/
structure UserQpsLimiter where
  rule : LimitRule := ⟨1000, 1000⟩
  status : Bytes → Option Status := fun _ => none

namespace UserQpsLimiter

/-- The item of a user, new if there is none. -/
def item (l : UserQpsLimiter) (id : Bytes) : Status := (l.status id).getD {}

/-- `UserQpsLimiter::acquireAccess` -/
def acquireAccess (l : UserQpsLimiter) (id : Bytes) (now : ℤ) : UserQpsLimiter × LimitLevel :=
  let r := (l.item id).access l.rule now
  ({ l with status := Function.update l.status id (some r.1) }, r.2)

/-- `UserQpsLimiter::limited` -/
def limited (l : UserQpsLimiter) (id : Bytes) (now : ℤ) : LimitLevel :=
  match l.status id with
  | none => .good
  | some s => s.limited l.rule now

end UserQpsLimiter

/-- `kDefaultApiQpsRuleKey` -/
def kDefaultApiQpsRuleKey : Bytes := ascii "default".toList

/-- `ApiQpsLimiter`, the patterns in the order in which they are tried. -/
structure ApiQpsLimiter where
  rules : Bytes → Option LimitRule := fun _ => none
  status : Bytes → Option Status
  apiPatterns : List Bytes

namespace ApiQpsLimiter

/-- The name of an API: its pattern without the slash in front. -/
def apiName (pattern : Bytes) : Bytes := if pattern.head? = some slash then pattern.tail else pattern

/-- The constructor: an item for each active API. `std::greater` puts the
parameters behind the fixed pieces. -/
def new (activeApis : List Api) : ApiQpsLimiter :=
  let patterns := (activeApis.map Api.toBytes).filter fun p => !p.isEmpty
  { status := fun api => if api ∈ patterns.map apiName then some {} else none
    apiPatterns := patterns.dedup.mergeSort fun a b => !lexLt a b }

/-- The API that `id` is matched to, empty if there is none. -/
def api (l : ApiQpsLimiter) (id : Bytes) : Bytes :=
  match l.apiPatterns.find? fun pattern => ApiMatcher.matchText pattern id with
  | none => []
  | some pattern => apiName pattern

/-- The rule for an API: its own, the default one, or the built-in one. -/
def ruleOf (rules : Bytes → Option LimitRule) (api : Bytes) : LimitRule :=
  match rules api with
  | some rule => rule
  | none => (rules kDefaultApiQpsRuleKey).getD ⟨1000, 1000⟩

/-- The item of an API is given a new status. -/
def setStatus (l : ApiQpsLimiter) (api : Bytes) (s : Status) : ApiQpsLimiter :=
  { l with status := Function.update l.status api (some s) }

/-- `ApiQpsLimiter::acquireAccess` -/
def acquireAccess (l : ApiQpsLimiter) (id : Bytes) (now : ℤ) : ApiQpsLimiter × LimitLevel :=
  if (l.api id).isEmpty then (l, .good)
  else
    match l.status (l.api id) with
    | none => (l, .good)
    | some s =>
        let r := s.access (ruleOf l.rules (l.api id)) now
        (l.setStatus (l.api id) r.1, r.2)

/-- `ApiQpsLimiter::limited` -/
def limited (l : ApiQpsLimiter) (id : Bytes) (now : ℤ) : LimitLevel :=
  match l.status id with
  | none => .good
  | some s => s.limited (ruleOf l.rules id) now

/-- The item that `id` is counted in, if it is counted. -/
def key (l : ApiQpsLimiter) (id : Bytes) : Option Bytes :=
  if (l.api id).isEmpty ∨ l.status (l.api id) = none then none else some (l.api id)

end ApiQpsLimiter

/-! ## What they serve -/

/-- A request and its answer: the user or API it was counted for, and whether it
opened a window. -/
structure Served where
  key : Option Bytes
  now : ℤ
  opens : Bool
  level : LimitLevel
deriving DecidableEq, Repr

/-- The requests in terms of `Util.Window` -/
def Served.hit (e : Served) : Hit ℤ := ⟨e.now, e.opens, e.level = .good⟩

/-- The answers to `acquireAccess(id)` at the given times -/
def UserQpsLimiter.serve (l : UserQpsLimiter) (calls : List (Bytes × ℤ)) : List Served :=
  answers (fun l c => ((l.acquireAccess c.1 c.2).1,
    ⟨some c.1, c.2, (l.item c.1).closed l.rule c.2, (l.acquireAccess c.1 c.2).2⟩)) l calls

/-- The answers to `acquireAccess(id)` at the given times -/
def ApiQpsLimiter.serve (l : ApiQpsLimiter) (calls : List (Bytes × ℤ)) : List Served :=
  answers (fun l c => ((l.acquireAccess c.1 c.2).1,
    ⟨l.key c.1, c.2, (l.key c.1).any fun api =>
      ((l.status api).getD {}).closed (ApiQpsLimiter.ruleOf l.rules api) c.2,
      (l.acquireAccess c.1 c.2).2⟩)) l calls

/-- The status of one key, served alone. Requests without a key are not counted. -/
def serveKey (rule : Bytes → LimitRule) (key : Option Bytes) (s : Option Status) (now : ℤ) :
    Option Status × Served :=
  match key with
  | none => (s, ⟨none, now, false, .good⟩)
  | some k =>
      let r := (s.getD {}).access (rule k) now
      (some r.1, ⟨some k, now, (s.getD {}).closed (rule k) now, r.2⟩)

@[simp] theorem serveKey_key (rule : Bytes → LimitRule) (key : Option Bytes) (s : Option Status)
    (now : ℤ) : (serveKey rule key s now).2.key = key := by
  cases key <;> rfl

/-- Answers grouped by their keys. -/
theorem onKey_map_key (k : Bytes) (log : List Served) :
    onKey (some k) (log.map fun e => (e.key, e)) = log.filter fun e => e.key = some k := by
  induction log with
  | nil => rfl
  | cons e log ih =>
      rw [List.map_cons, List.filter_cons]
      by_cases he : e.key = some k
      · rw [he, onKey_cons_self, ih]
        simp
      · rw [onKey_cons_ne he, ih]
        simp [he]

/-- `UserQpsLimiter` is a family of statuses, one for each user. -/
theorem UserQpsLimiter.serve_eq (l : UserQpsLimiter) (calls : List (Bytes × ℤ)) :
    Cells.serve (serveKey fun _ => l.rule) (fun k => k.bind l.status)
        (calls.map fun c => (some c.1, c.2)) =
      (l.serve calls).map fun e => (e.key, e) := by
  let R : UserQpsLimiter → (Option Bytes → Option Status) → Prop :=
    fun l' m => l'.rule = l.rule ∧ ∀ k, m (some k) = l'.status k
  refine answers_map _ (fun c : Bytes × ℤ => (some c.1, c.2)) (fun e : Served => (e.key, e))
    (fun _ => True) R ?_ ?_ (by simp)
  · rintro l' m ⟨id, now⟩ ⟨hrule, hm⟩ -
    refine ⟨⟨hrule, ?_⟩, ?_⟩
    · intro k
      by_cases hk : k = id
      · subst hk
        simp [serveStep, serveKey, acquireAccess, item, hm, hrule]
      · simp [serveStep, serveKey, acquireAccess, hk, hm]
    · simp [serveStep, serveKey, acquireAccess, item, hm, hrule]
  · exact ⟨rfl, fun k => rfl⟩

/-- A new status for an item leaves the matching of requests as it is. -/
theorem ApiQpsLimiter.key_setStatus {l : ApiQpsLimiter} {api : Bytes} (h : l.status api ≠ none)
    (s : Status) (id : Bytes) : (l.setStatus api s).key id = l.key id := by
  have hapi : (l.setStatus api s).api id = l.api id := rfl
  have hnone : (l.setStatus api s).status (l.api id) = none ↔ l.status (l.api id) = none := by
    by_cases hid : l.api id = api
    · simp [setStatus, hid, h]
    · simp [setStatus, hid]
  unfold key
  rw [hapi]
  simp only [hnone]

theorem ApiQpsLimiter.key_eq_some {l : ApiQpsLimiter} {id api : Bytes} (h : l.key id = some api) :
    api = l.api id ∧ (l.api id).isEmpty = false ∧ ∃ s, l.status (l.api id) = some s := by
  unfold key at h
  split at h
  · cases h
  · rename_i hkey
    rw [not_or] at hkey
    refine ⟨(Option.some.inj h).symm, by simpa using hkey.1, ?_⟩
    exact Option.ne_none_iff_exists'.mp hkey.2

/-- A request that is not counted changes nothing and is granted. -/
theorem ApiQpsLimiter.acquireAccess_of_key_none {l : ApiQpsLimiter} {id : Bytes} (now : ℤ)
    (h : l.key id = none) : l.acquireAccess id now = (l, .good) := by
  unfold key at h
  unfold acquireAccess
  split at h
  · rename_i hkey
    rcases hkey with hkey | hkey
    · rw [if_pos hkey]
    · simp [hkey]
  · cases h

theorem ApiQpsLimiter.acquireAccess_of_key {l : ApiQpsLimiter} {id api : Bytes} (now : ℤ)
    (h : l.key id = some api) : l.acquireAccess id now =
      (l.setStatus api (((l.status api).getD {}).access (ruleOf l.rules api) now).1,
        (((l.status api).getD {}).access (ruleOf l.rules api) now).2) := by
  obtain ⟨rfl, hne, s, hs⟩ := key_eq_some h
  simp [acquireAccess, hne, hs]

/-- `ApiQpsLimiter` is a family of statuses, one for each active API. -/
theorem ApiQpsLimiter.serve_eq (l : ApiQpsLimiter) (calls : List (Bytes × ℤ)) :
    Cells.serve (serveKey (ruleOf l.rules)) (fun k => k.bind l.status)
        (calls.map fun c => (l.key c.1, c.2)) =
      (l.serve calls).map fun e => (e.key, e) := by
  -- the patterns, the rules and the set of the items never change
  let R : ApiQpsLimiter → (Option Bytes → Option Status) → Prop := fun l' m =>
    l'.rules = l.rules ∧ (∀ id, l'.key id = l.key id) ∧ ∀ k, m (some k) = l'.status k
  refine answers_map _ (fun c : Bytes × ℤ => (l.key c.1, c.2)) (fun e : Served => (e.key, e))
    (fun _ => True) R ?_ ?_ (by simp)
  · rintro l' m ⟨id, now⟩ ⟨hrules, hkey, hm⟩ -
    cases hk : l.key id with
    | none =>
        have hl' : l'.key id = none := (hkey id).trans hk
        refine ⟨⟨?_, ?_, ?_⟩, ?_⟩ <;>
          simp [serveStep, serveKey, hk, acquireAccess_of_key_none now hl', hrules, hkey, hm]
    | some api =>
        have hl' : l'.key id = some api := (hkey id).trans hk
        have hacq := acquireAccess_of_key now hl'
        refine ⟨⟨?_, ?_, ?_⟩, ?_⟩
        · simp [hacq, setStatus, hrules]
        · intro j
          obtain ⟨rfl, -, s, hs⟩ := key_eq_some hl'
          rw [hacq, ← hkey j]
          exact key_setStatus (by simp [hs]) _ j
        · intro k
          by_cases hj : k = api
          · subst hj
            simp [serveStep, serveKey, hacq, setStatus, hm, hrules]
          · simp [serveStep, hacq, setStatus, hj, hm]
        · simp [serveStep, serveKey, hacq, hl', hm, hrules]
  · exact ⟨rfl, fun id => rfl, fun k => rfl⟩

/-! ## The windows -/

/-- The open window of a status. -/
def Status.window (s : Status) : Option (Window ℤ) :=
  if s.startTime = 0 then none else some ⟨s.startTime, s.counter⟩

/-- On a positive clock a status is a fixed window. -/
theorem Status.access_refines (s : Status) (rule : LimitRule) {now : ℤ} (hnow : 0 < now) :
    ((s.access rule now).1.window, (⟨now, s.closed rule now,
        decide ((s.access rule now).2 = .good)⟩ : Hit ℤ)) =
      Window.hit rule.period rule.count s.window now := by
  by_cases hstart : s.startTime = 0
  · simp [access, closed, window, hstart, Window.hit, hnow.ne']
  · have hopen : s.window = some ⟨s.startTime, s.counter⟩ := by simp [window, hstart]
    rw [hopen]
    by_cases hclosed : s.startTime + rule.period ≤ now
    · have hover : now - s.startTime ≥ rule.period := by omega
      rw [Window.hit_open _ _ hclosed]
      simp [access, closed, window, hover, hnow.ne']
    · have hover : ¬ now - s.startTime ≥ rule.period := by omega
      rw [Window.hit_counted _ _ hclosed]
      by_cases hcount : s.counter + 1 ≤ rule.count <;>
        simp [access, closed, window, hstart, hover, hcount]

/-- The answers on one key are those of a fixed window. -/
theorem serveKey_hits (rule : Bytes → LimitRule) (k : Bytes) (s : Option Status) {ts : List ℤ}
    (hts : ∀ t ∈ ts, 0 < t) :
    (answers (serveKey rule (some k)) s ts).map Served.hit =
      Window.hits (rule k).period (rule k).count (s.bind Status.window) ts := by
  have hmirror := answers_map (serveKey rule (some k)) (g := Window.hit (rule k).period (rule k).count)
    id Served.hit (fun t => 0 < t) (fun s w => w = s.bind Status.window)
    (fun s w t hw ht => by
      have hrefines := (s.getD {}).access_refines (rule k) ht
      have hbind : (s.getD {}).window = s.bind Status.window := by
        cases s <;> rfl
      rw [hbind, ← hw] at hrefines
      rw [id_eq, ← hrefines]
      exact ⟨rfl, rfl⟩) (s := s) rfl hts
  rw [List.map_id] at hmirror
  exact hmirror.symm

/-- The requests that were granted for a key. -/
def grants (key : Bytes) (log : List Served) : ℕ :=
  log.countP fun e => decide (e.key = some key) && decide (e.level = .good)

/-- The times of the calls that `f` gives the key `k`. -/
def timesOf (f : Bytes → Option Bytes) (calls : List (Bytes × ℤ)) (k : Bytes) : List ℤ :=
  onKey (some k) (calls.map fun c => (f c.1, c.2))

/-- The log keeps to the rules: a window opened for a key (the request that
opens it and those up to the next one that does) grants no more than the count
of its rule, or one; an interval shorter than the period, twice as many. -/
structure Enforced (rule : Bytes → LimitRule) (log : List Served) : Prop where
  window : ∀ key pre e mid post, log = pre ++ e :: (mid ++ post) → e.key = some key →
    e.opens = true → (∀ d ∈ mid, d.key = some key → d.opens = false) →
    (grants key (e :: mid) : ℤ) ≤ max (rule key).count 1
  interval : ∀ key a b, b - a < (rule key).period →
    (grants key (log.filter fun e => decide (a ≤ e.now) && decide (e.now ≤ b)) : ℤ) ≤
      2 * max (rule key).count 1

theorem grants_eq (key : Bytes) (log : List Served) :
    grants key log = ((log.filter fun e => e.key = some key).map Served.hit).countP (·.granted) := by
  rw [List.countP_map, List.countP_filter]
  unfold grants
  congr 1
  funext e
  rw [Bool.and_comm]
  rfl

theorem grants_filter_eq (key : Bytes) (a b : ℤ) (log : List Served) :
    grants key (log.filter fun e => decide (a ≤ e.now) && decide (e.now ≤ b)) =
      Window.grantedIn a b ((log.filter fun e => e.key = some key).map Served.hit) := by
  unfold grants Window.grantedIn
  rw [List.countP_map, List.countP_filter, List.countP_filter]
  congr 1
  funext e
  rw [Bool.eq_iff_iff]
  simp only [Function.comp, Bool.and_eq_true, decide_eq_true_eq]
  simp only [Served.hit, decide_eq_true_eq]
  tauto

/-- A log that serves every key by fixed windows keeps to the rules. -/
theorem enforced_of_hits {rule : Bytes → LimitRule} {log : List Served}
    (h : ∀ k, ∃ ts : List ℤ, ts.Pairwise (· ≤ ·) ∧
      (log.filter fun e => e.key = some k).map Served.hit =
        Window.hits (rule k).period (rule k).count none ts) : Enforced rule log := by
  constructor
  · rintro key pre e mid post rfl he hopens hmid
    obtain ⟨ts, -, hlog⟩ := h key
    simp only [List.filter_append, List.filter_cons, he, decide_true, if_true, List.map_append,
      List.map_cons] at hlog
    rw [grants_eq, List.filter_cons, if_pos (by simpa using he), List.map_cons]
    refine Window.granted_window _ _ hlog.symm hopens ?_
    intro d hd
    obtain ⟨d', hd', rfl⟩ := List.mem_map.mp hd
    obtain ⟨hmem, hkey⟩ := List.mem_filter.mp hd'
    exact hmid d' hmem (by simpa using hkey)
  · intro key a b hab
    obtain ⟨ts, hts, hlog⟩ := h key
    rw [grants_filter_eq, hlog]
    exact Window.granted_interval _ _ (by omega) Window.counted_none hts

section Serve

variable {rule : Bytes → LimitRule} {m : Option Bytes → Option Status} {f : Bytes → Option Bytes}
  {calls : List (Bytes × ℤ)} {log : List Served}

/-- A key is served as if its calls were the only ones. -/
theorem served_key (k : Bytes) (h : Cells.serve (serveKey rule) m
      (calls.map fun c => (f c.1, c.2)) = log.map fun e => (e.key, e)) :
    (log.filter fun e => e.key = some k) =
      answers (serveKey rule (some k)) (m (some k)) (timesOf f calls k) := by
  rw [← onKey_map_key, ← h, serve_at]
  rfl

/-- The calls that reach no item of the key make no difference to it. -/
theorem served_alone {log' : List Served} (k : Bytes)
    (h : Cells.serve (serveKey rule) m (calls.map fun c => (f c.1, c.2)) =
      log.map fun e => (e.key, e))
    (h' : Cells.serve (serveKey rule) m ((calls.filter fun c => f c.1 = some k).map
      fun c => (f c.1, c.2)) = log'.map fun e => (e.key, e)) :
    (log.filter fun e => e.key = some k) = log' := by
  have hkeys : ∀ e ∈ log', e.key = some k := by
    intro e he
    have hfst := congrArg (List.map Prod.fst) h'
    rw [serve_keys, List.map_map, List.map_map] at hfst
    have hmem : e.key ∈ log'.map (Prod.fst ∘ fun e => (e.key, e)) := List.mem_map.mpr ⟨e, he, rfl⟩
    rw [← hfst] at hmem
    obtain ⟨c, hc, hcke⟩ := List.mem_map.mp hmem
    rw [← hcke]
    simpa using (List.mem_filter.mp hc).2
  have hall : (log'.filter fun e => e.key = some k) = log' :=
    List.filter_eq_self.mpr fun e he => by simpa using hkeys e he
  have htimes : timesOf f (calls.filter fun c => f c.1 = some k) k = timesOf f calls k := by
    unfold timesOf
    rw [← onKey_filter (some k) (calls.map _), List.filter_map]
    rfl
  rw [← hall, served_key k h, served_key k h', htimes]

/-- Windows that have not begun, on a positive clock that does not run backwards. -/
theorem enforced_of_serve (hm : ∀ k, (m (some k)).bind Status.window = none)
    (hpos : ∀ c ∈ calls, 0 < c.2) (hclock : calls.Pairwise fun c d => c.2 ≤ d.2)
    (h : Cells.serve (serveKey rule) m (calls.map fun c => (f c.1, c.2)) =
      log.map fun e => (e.key, e)) : Enforced rule log := by
  apply enforced_of_hits
  intro k
  have htimes : timesOf f calls k = (calls.filter fun c => f c.1 = some k).map Prod.snd := by
    unfold timesOf onKey
    rw [List.filter_map, List.map_map]
    rfl
  refine ⟨timesOf f calls k, ?_, ?_⟩
  · rw [htimes, List.pairwise_map]
    exact hclock.filter _
  · rw [served_key k h, serveKey_hits, hm]
    intro t ht
    rw [htimes] at ht
    obtain ⟨c, hc, rfl⟩ := List.mem_map.mp ht
    exact hpos c (List.mem_filter.mp hc).1

end Serve

/-- The limiter of a set of APIs with fixed rules. -/
def ApiQpsLimiter.withRules (activeApis : List Api) (rules : Bytes → Option LimitRule) :
    ApiQpsLimiter :=
  { new activeApis with rules := rules }

/-- Both limiters keep to their rules on every run, and a user or an API is
served as if its calls were the only ones. -/
theorem windows_enforced (calls : List (Bytes × ℤ)) (hpos : ∀ c ∈ calls, 0 < c.2)
    (hclock : calls.Pairwise fun c d => c.2 ≤ d.2) :
    (∀ rule : LimitRule,
      Enforced (fun _ => rule) (({ rule := rule } : UserQpsLimiter).serve calls) ∧
      ∀ uid, ((({ rule := rule } : UserQpsLimiter).serve calls).filter fun e => e.key = some uid) =
        ({ rule := rule } : UserQpsLimiter).serve (calls.filter fun c => some c.1 = some uid)) ∧
    (∀ (activeApis : List Api) (rules : Bytes → Option LimitRule),
      Enforced (ApiQpsLimiter.ruleOf rules)
        ((ApiQpsLimiter.withRules activeApis rules).serve calls) ∧
      ∀ api, (((ApiQpsLimiter.withRules activeApis rules).serve calls).filter
          fun e => e.key = some api) =
        (ApiQpsLimiter.withRules activeApis rules).serve
          (calls.filter fun c => (ApiQpsLimiter.withRules activeApis rules).key c.1 = some api)) := by
  constructor
  · intro rule
    obtain ⟨l, hl⟩ : ∃ l : UserQpsLimiter, l = { rule := rule } := ⟨_, rfl⟩
    have hnew : ∀ k, (l.status k).bind Status.window = none := by
      intro k
      rw [hl]
      rfl
    have hrule : l.rule = rule := by rw [hl]
    rw [← hl, ← hrule]
    constructor
    · exact enforced_of_serve (f := some) hnew hpos hclock (l.serve_eq calls)
    · intro uid
      exact served_alone (f := some) uid (l.serve_eq calls) (l.serve_eq _)
  · intro activeApis rules
    obtain ⟨l, hl⟩ : ∃ l, l = ApiQpsLimiter.withRules activeApis rules := ⟨_, rfl⟩
    have hnew : ∀ k, (l.status k).bind Status.window = none := by
      intro k
      simp only [hl, ApiQpsLimiter.withRules, ApiQpsLimiter.new]
      split <;> rfl
    have hrules : l.rules = rules := by rw [hl]; rfl
    rw [← hl, ← hrules]
    constructor
    · exact enforced_of_serve hnew hpos hclock (l.serve_eq calls)
    · intro api
      exact served_alone (f := l.key) api (l.serve_eq calls) (l.serve_eq _)

theorem windows_enforced_pair :
    Enforced (fun _ => ⟨1000, 1⟩)
      (({ rule := ⟨1000, 1⟩ } : UserQpsLimiter).serve [(ascii ['u'], 5), (ascii ['u'], 7)]) :=
  ((windows_enforced [(ascii ['u'], 5), (ascii ['u'], 7)] (by decide) (by decide)).1 ⟨1000, 1⟩).1

example : (({ rule := ⟨1000, 1⟩ } : UserQpsLimiter).serve
    [(ascii ['u'], 5), (ascii ['v'], 6), (ascii ['u'], 7), (ascii ['u'], 1005)]).map (·.level) =
    [.good, .good, .limited, .good] := by decide

end BcmServer.Limiters
