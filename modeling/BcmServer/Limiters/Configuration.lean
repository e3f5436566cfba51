import BcmServer.Limiters.Distributed

/-!
# BcmServer.Limiters.Configuration — reloading the rules

`LimiterConfigurationManager` loads the whole configuration, keeps it, and tells
the limiters the new one with the keys that are gone. Each limiter takes its
rules out of it in its own way: `UserQpsLimiter` one rule, `ApiQpsLimiter` the
keys with a prefix and the default one, a `DistributedLimiter` the rule of its
own key, if its period is long enough.

`reload_projects` says that the rules are those of the configuration loaded
last, whatever was loaded before. The default rule for the APIs is kept under
`default` among the API names, so a configuration is taken not to name an API
`default`.
-/

namespace BcmServer.Limiters

open Util Http

/-- `LimiterConfigurations::LimiterConfigs`, a map in the order of its keys. -/
structure LimiterConfigs where
  entries : List (Bytes × LimitRule) := []
  sorted : entries.Pairwise (fun a b => lexLt a.1 b.1) := by decide

namespace LimiterConfigs

/-- `find` -/
def find (c : LimiterConfigs) (key : Bytes) : Option LimitRule := c.entries.lookup key

def keys (c : LimiterConfigs) : List Bytes := c.entries.map Prod.fst

end LimiterConfigs

/-- `LimiterConfigUpdateEvent` -/
structure LimiterConfigUpdateEvent where
  configs : LimiterConfigs
  removed : List Bytes

/-- `kUserQpsRuleKey` -/
def kUserQpsRuleKey : Bytes := ascii "user/qps".toList

/-- `kApiQpsRuleKeyPrefix` -/
def kApiQpsRuleKeyPrefix : Bytes := ascii "api/qps/".toList

/-- `UserQpsLimiter::update` -/
def UserQpsLimiter.update (l : UserQpsLimiter) (event : LimiterConfigUpdateEvent) :
    UserQpsLimiter :=
  match event.configs.find kUserQpsRuleKey with
  | none => if kUserQpsRuleKey ∈ event.removed then { l with rule := ⟨1000, 1000⟩ } else l
  | some rule => { l with rule := rule }

/-- `DistributedLimiter::update` -/
def DistributedLimiter.update (l : DistributedLimiter) (event : LimiterConfigUpdateEvent) :
    DistributedLimiter :=
  match event.configs.find l.configKey with
  | none => if l.configKey ∈ event.removed then { l with rule := l.defaultRule } else l
  | some rule => if rule.period < 1000 then l else { l with rule := rule }

namespace ApiQpsLimiter

/-- The name of an API in the rules by its key in the configuration. -/
def ruleName (key : Bytes) : Option Bytes :=
  if key = kDefaultApiQpsRuleKey then some kDefaultApiQpsRuleKey
  else if startsWith key kApiQpsRuleKeyPrefix then some (key.drop kApiQpsRuleKeyPrefix.length)
  else none

/-- `emplace`: the first value for a key stays. -/
def emplace (changed : List (Bytes × LimitRule)) (name : Bytes) (rule : LimitRule) :
    List (Bytes × LimitRule) :=
  if (changed.lookup name).isSome then changed else changed ++ [(name, rule)]

/-- The rules that are new or other than before. -/
def changedRules (rules : Bytes → Option LimitRule) (configs : LimiterConfigs) :
    List (Bytes × LimitRule) :=
  configs.entries.foldl (fun changed item =>
    match ruleName item.1 with
    | none => changed
    | some name => if rules name = some item.2 then changed else emplace changed name item.2) []

/-- The names whose keys are gone. -/
def removedRules (rules : Bytes → Option LimitRule) (removed : List Bytes) : List Bytes :=
  removed.filterMap fun key =>
    if key = kDefaultApiQpsRuleKey then some key
    else (ruleName key).filter fun name => (rules name).isSome

/-- `ApiQpsLimiter::update` -/
def update (l : ApiQpsLimiter) (event : LimiterConfigUpdateEvent) : ApiQpsLimiter :=
  let changed := changedRules l.rules event.configs
  let removed := removedRules l.rules event.removed
  if changed.isEmpty && removed.isEmpty then l
  else
    { l with rules := fun name =>
        if name ∈ removed then none else (changed.lookup name).or (l.rules name) }

end ApiQpsLimiter

/-- What a load of the configuration gives. -/
inductive Load where
  | success (configs : LimiterConfigs)
  | noSuchData
  | failed

/-- `LimiterConfigurationManager` and the limiters that observe it -/
structure LimiterConfigurationManager where
  configs : LimiterConfigs
  user : UserQpsLimiter
  api : ApiQpsLimiter
  distributed : List DistributedLimiter

namespace LimiterConfigurationManager

/-- `LimiterConfigurationManager::notify` -/
def notify (m : LimiterConfigurationManager) (event : LimiterConfigUpdateEvent) :
    LimiterConfigurationManager :=
  { m with
    user := m.user.update event
    api := m.api.update event
    distributed := m.distributed.map fun l => l.update event }

/-- `LimiterConfigurationManager::reloadConfiguration` -/
def reloadConfiguration (m : LimiterConfigurationManager) : Load → LimiterConfigurationManager
  | .success configs =>
      { m with configs := configs }.notify
        ⟨configs, m.configs.keys.filter fun key => (configs.find key).isNone⟩
  | .noSuchData | .failed => m

/-- The limiters as they are constructed and registered -/
def start (activeApis : List Api) (distributed : List DistributedLimiter) :
    LimiterConfigurationManager where
  configs := {}
  user := {}
  api := .new activeApis
  distributed := distributed.map fun l => { l with rule := l.defaultRule }

end LimiterConfigurationManager

/-! ## Maps -/

namespace LimiterConfigs

/-- Sorted keys are different keys. -/
theorem find_eq_some_iff (c : LimiterConfigs) {key : Bytes} {rule : LimitRule} :
    c.find key = some rule ↔ (key, rule) ∈ c.entries := by
  obtain ⟨entries, hsorted⟩ := c
  unfold find
  induction entries with
  | nil => simp
  | cons e entries ih =>
      obtain ⟨k, r⟩ := e
      rw [List.pairwise_cons] at hsorted
      rw [List.mem_cons]
      by_cases hk : key = k
      · subst hk
        have hnot : (key, rule) ∉ entries := by
          intro hmem
          have hlt := hsorted.1 _ hmem
          rw [lexLt_irrefl] at hlt
          cases hlt
        simp [hnot, eq_comm]
      · have hbeq : (key == k) = false := by simpa using hk
        rw [List.lookup_cons, hbeq]
        simpa [hk] using ih hsorted.2

theorem mem_keys_iff (c : LimiterConfigs) {key : Bytes} :
    key ∈ c.keys ↔ (c.find key).isSome := by
  unfold keys
  rw [List.mem_map, Option.isSome_iff_exists]
  constructor
  · rintro ⟨⟨k, rule⟩, hmem, rfl⟩
    exact ⟨rule, (find_eq_some_iff c).mpr hmem⟩
  · rintro ⟨rule, hrule⟩
    exact ⟨(key, rule), (find_eq_some_iff c).mp hrule, rfl⟩

end LimiterConfigs

/-! ## The names of the API rules -/

namespace ApiQpsLimiter

/-- The key of an API named like the default rule -/
def collidingKey : Bytes := kApiQpsRuleKeyPrefix ++ kDefaultApiQpsRuleKey

/-- The key of a rule in the configuration by its name. -/
def keyOf (name : Bytes) : Bytes :=
  if name = kDefaultApiQpsRuleKey then kDefaultApiQpsRuleKey else kApiQpsRuleKeyPrefix ++ name

/-- Two keys have one name only if an API is named like the default rule. -/
theorem eq_keyOf_of_ruleName {key name : Bytes} (h : ruleName key = some name)
    (hkey : key ≠ collidingKey) : key = keyOf name := by
  unfold ruleName at h
  split at h
  · rename_i hdefault
    rw [Option.some.injEq] at h
    rw [← h, hdefault]
    rfl
  · split at h
    · rename_i hprefix
      obtain ⟨t, rfl⟩ := startsWith_iff.mp hprefix
      rw [List.drop_left, Option.some.injEq] at h
      subst h
      have hne : t ≠ kDefaultApiQpsRuleKey := by
        rintro rfl
        exact hkey rfl
      rw [keyOf, if_neg hne]
    · cases h

theorem ruleName_keyOf (name : Bytes) : ruleName (keyOf name) = some name := by
  unfold keyOf
  split
  · rename_i h
    rw [h]
    rfl
  · have hne : kApiQpsRuleKeyPrefix ++ name ≠ kDefaultApiQpsRuleKey := by
      intro h
      have hhead := congrArg List.head? h
      have hchars : kApiQpsRuleKeyPrefix.head? ≠ kDefaultApiQpsRuleKey.head? := by decide
      exact hchars hhead
    unfold ruleName
    rw [if_neg hne, if_pos (startsWith_iff.mpr ⟨name, rfl⟩), List.drop_left]

theorem lookup_emplace (changed : List (Bytes × LimitRule)) (name key : Bytes)
    (rule : LimitRule) : (emplace changed name rule).lookup key =
      (changed.lookup key).or (if key = name then some rule else none) := by
  unfold emplace
  split
  · rename_i h
    by_cases hk : key = name
    · subst hk
      obtain ⟨r, hr⟩ := Option.isSome_iff_exists.mp h
      simp [hr]
    · simp [hk]
  · rw [List.lookup_append]
    by_cases hk : key = name
    · simp [hk]
    · have hbeq : (key == name) = false := by simpa using hk
      simp [hk, List.lookup_cons, hbeq]

/-- The rule that is changed for a name: the first entry of the map that has the
name and another rule. -/
theorem lookup_changedRules (rules : Bytes → Option LimitRule) (configs : LimiterConfigs)
    (name : Bytes) : (changedRules rules configs).lookup name =
      (configs.entries.find? fun item =>
        decide (ruleName item.1 = some name) && decide (rules name ≠ some item.2)).map Prod.snd := by
  unfold changedRules
  generalize configs.entries = entries
  -- the names that the entries before have brought in stay
  have hfold : ∀ acc : List (Bytes × LimitRule), (entries.foldl (fun changed item =>
      match ruleName item.1 with
      | none => changed
      | some name => if rules name = some item.2 then changed else emplace changed name item.2)
        acc).lookup name = (acc.lookup name).or ((entries.find? fun item =>
          decide (ruleName item.1 = some name) && decide (rules name ≠ some item.2)).map
            Prod.snd) := by
    induction entries with
    | nil => simp
    | cons item entries ih =>
        intro acc
        rw [List.foldl_cons, ih, List.find?_cons]
        cases hname : ruleName item.1 with
        | none => simp
        | some n =>
            by_cases hn : n = name
            · subst hn
              by_cases hrule : rules n = some item.2
              · simp [hrule]
              · simp [hrule, lookup_emplace]
            · by_cases hrule : rules n = some item.2
              · simp [hn, hrule]
              · simp [hn, hrule, lookup_emplace, Ne.symm hn]
  simpa using hfold []

theorem mem_removedRules {rules : Bytes → Option LimitRule} {removed : List Bytes} {name : Bytes} :
    name ∈ removedRules rules removed ↔ ∃ key ∈ removed, ruleName key = some name ∧
      (key = kDefaultApiQpsRuleKey ∨ (rules name).isSome) := by
  unfold removedRules
  rw [List.mem_filterMap]
  refine exists_congr fun key => and_congr_right fun _ => ?_
  by_cases hkey : key = kDefaultApiQpsRuleKey
  · have hname : ruleName key = some key := by rw [ruleName, if_pos hkey, hkey]
    rw [if_pos hkey, hname]
    exact (and_iff_left (Or.inl hkey)).symm
  · simp only [hkey, if_false, false_or, Option.filter_eq_some_iff]

/-- The entry with a name is the one under its key. -/
theorem find_of_ruleName {c : LimiterConfigs} (hc : collidingKey ∉ c.keys)
    {item : Bytes × LimitRule} {name : Bytes} (hmem : item ∈ c.entries)
    (hname : ruleName item.1 = some name) : c.find (keyOf name) = some item.2 := by
  have hfind : c.find item.1 = some item.2 := (LimiterConfigs.find_eq_some_iff c).mpr hmem
  have hcollide : item.1 ≠ collidingKey := by
    intro h
    rw [h] at hfind
    exact hc ((LimiterConfigs.mem_keys_iff c).mpr (by rw [hfind]; rfl))
  rw [← eq_keyOf_of_ruleName hname hcollide, hfind]

/-- The event of a reload. -/
def eventOf (old new : LimiterConfigs) : LimiterConfigUpdateEvent :=
  ⟨new, old.keys.filter fun key => (new.find key).isNone⟩

/-- The rules follow the configuration. -/
theorem update_rules {l : ApiQpsLimiter} {old new : LimiterConfigs}
    (hold : collidingKey ∉ old.keys) (hnew : collidingKey ∉ new.keys)
    (hrules : ∀ name, l.rules name = old.find (keyOf name)) (name : Bytes) :
    (l.update (eventOf old new)).rules name = new.find (keyOf name) := by
  have hupdate : (l.update (eventOf old new)).rules name =
      if name ∈ removedRules l.rules (eventOf old new).removed then none
      else ((changedRules l.rules new).lookup name).or (l.rules name) := by
    unfold update
    simp only
    split
    · rename_i hempty
      simp only [Bool.and_eq_true, List.isEmpty_iff] at hempty
      have hchanged : changedRules l.rules new = [] := hempty.1
      simp [hempty.2, hchanged]
    · rfl
  rw [hupdate, lookup_changedRules]
  cases hfind : new.find (keyOf name) with
  | some rule =>
      have hkept : name ∉ removedRules l.rules (eventOf old new).removed := by
        rw [mem_removedRules]
        rintro ⟨key, hkey, hname, -⟩
        simp only [eventOf, List.mem_filter, Option.isNone_iff_eq_none] at hkey
        have hcollide : key ≠ collidingKey := fun h => hold (h ▸ hkey.1)
        rw [eq_keyOf_of_ruleName hname hcollide, hfind] at hkey
        cases hkey.2
      rw [if_neg hkept]
      -- the only entry with the name is the one that `find` gives
      have hentry : ∀ item ∈ new.entries, ruleName item.1 = some name → item.2 = rule := by
        intro item hmem hname
        have hitem := find_of_ruleName hnew hmem hname
        rw [hfind, Option.some.injEq] at hitem
        exact hitem.symm
      cases hsearch : new.entries.find? fun item =>
          decide (ruleName item.1 = some name) && decide (l.rules name ≠ some item.2) with
      | some item =>
          have hmem := List.mem_of_find?_eq_some hsearch
          have hprop := List.find?_some hsearch
          simp only [Bool.and_eq_true, decide_eq_true_eq] at hprop
          simp [hentry item hmem hprop.1]
      | none =>
          have hmem := (LimiterConfigs.find_eq_some_iff new).mp hfind
          have hprop := List.find?_eq_none.mp hsearch _ hmem
          simp only [ruleName_keyOf, decide_true, Bool.true_and, decide_eq_true_eq,
            Classical.not_not] at hprop
          simp [hprop]
  | none =>
      have hentry : ∀ item ∈ new.entries, ruleName item.1 ≠ some name := by
        intro item hmem hname
        have hitem := find_of_ruleName hnew hmem hname
        rw [hfind] at hitem
        cases hitem
      have hsearch : (new.entries.find? fun item =>
          decide (ruleName item.1 = some name) && decide (l.rules name ≠ some item.2)) = none := by
        rw [List.find?_eq_none]
        intro item hmem
        simp [hentry item hmem]
      rw [hsearch]
      split
      · rfl
      · rename_i hkept
        simp only [Option.map_none, Option.none_or]
        rw [mem_removedRules] at hkept
        cases hrule : l.rules name with
        | none => rfl
        | some rule =>
            refine absurd ⟨keyOf name, ?_, ruleName_keyOf name, Or.inr (by rw [hrule]; rfl)⟩ hkept
            simp only [eventOf, List.mem_filter, hfind, Option.isNone_none, and_true]
            rw [LimiterConfigs.mem_keys_iff, ← hrules, hrule]
            rfl

end ApiQpsLimiter

/-! ## Reloads -/

/-- The name of an API has a slash in it. -/
theorem slash_mem_apiName {a : Api} (h : a.toBytes ≠ []) :
    slash ∈ ApiQpsLimiter.apiName a.toBytes := by
  have htail : slash ∈ a.toBytes.tail := by
    unfold Api.toBytes at h ⊢
    split at h
    · exact absurd rfl h
    · rename_i hname
      rw [if_neg hname]
      cases hn : a.name with
      | nil => simp [hn] at hname
      | cons c cs => simp [ascii, slash]
  unfold ApiQpsLimiter.apiName
  split
  · exact htail
  · exact List.mem_of_mem_tail htail

theorem api_ne_default {activeApis : List Api} {api : Bytes}
    (h : (ApiQpsLimiter.new activeApis).status api ≠ none) : api ≠ kDefaultApiQpsRuleKey := by
  rintro rfl
  simp only [ApiQpsLimiter.new] at h
  split at h
  · rename_i hmem
    obtain ⟨pattern, hpattern, hname⟩ := List.mem_map.mp hmem
    obtain ⟨hactive, hne⟩ := List.mem_filter.mp hpattern
    obtain ⟨a, -, rfl⟩ := List.mem_map.mp hactive
    have hslash := slash_mem_apiName (a := a) (by simpa using hne)
    rw [hname] at hslash
    revert hslash
    decide
  · exact h rfl

namespace LimiterConfigurationManager

/-- The rules are those of the configuration that the manager keeps. -/
structure Projects (activeApis : List Api) (m : LimiterConfigurationManager) : Prop where
  colliding : ApiQpsLimiter.collidingKey ∉ m.configs.keys
  user : m.user.rule = (m.configs.find kUserQpsRuleKey).getD ⟨1000, 1000⟩
  api : ∀ name, m.api.rules name = m.configs.find (ApiQpsLimiter.keyOf name)
  items : m.api.status = (ApiQpsLimiter.new activeApis).status
  distributed : ∀ l ∈ m.distributed, m.configs.find l.configKey = none → l.rule = l.defaultRule

theorem projects_start (activeApis : List Api) (distributed : List DistributedLimiter) :
    Projects activeApis (start activeApis distributed) where
  colliding := List.not_mem_nil
  user := rfl
  api := fun _ => rfl
  items := rfl
  distributed := by
    intro l hl _
    obtain ⟨l', -, rfl⟩ := List.mem_map.mp hl
    rfl

/-- What a reload makes of a limiter that counts in redis. -/
def reloaded (configs : LimiterConfigs) (l : DistributedLimiter) : DistributedLimiter :=
  { l with rule :=
      match configs.find l.configKey with
      | none => l.defaultRule
      | some rule => if rule.period < 1000 then l.rule else rule }

theorem update_user {l : UserQpsLimiter} {old new : LimiterConfigs}
    (h : l.rule = (old.find kUserQpsRuleKey).getD ⟨1000, 1000⟩) :
    (l.update (ApiQpsLimiter.eventOf old new)).rule =
      (new.find kUserQpsRuleKey).getD ⟨1000, 1000⟩ := by
  unfold UserQpsLimiter.update ApiQpsLimiter.eventOf
  cases hnew : new.find kUserQpsRuleKey with
  | some rule => simp
  | none =>
      cases hold : old.find kUserQpsRuleKey with
      | none => simp [hnew, h, hold, LimiterConfigs.mem_keys_iff]
      | some rule =>
          have hmem : kUserQpsRuleKey ∈ old.keys :=
            (LimiterConfigs.mem_keys_iff old).mpr (by rw [hold]; rfl)
          simp [hnew, hmem]

theorem update_distributed {l : DistributedLimiter} {old new : LimiterConfigs}
    (h : old.find l.configKey = none → l.rule = l.defaultRule) :
    l.update (ApiQpsLimiter.eventOf old new) = reloaded new l := by
  unfold DistributedLimiter.update ApiQpsLimiter.eventOf reloaded
  cases hnew : new.find l.configKey with
  | some rule =>
      by_cases hperiod : rule.period < 1000 <;> simp [hperiod]
  | none =>
      cases hold : old.find l.configKey with
      | none =>
          have hmem : l.configKey ∉ old.keys.filter fun key => (new.find key).isNone := by
            simp [LimiterConfigs.mem_keys_iff, hold]
          simp only [hmem, if_false]
          have hself : ∀ rule, l.rule = rule → l = { l with rule := rule } := by
            rintro rule rfl
            rfl
          exact hself l.defaultRule (h hold)
      | some rule =>
          have hmem : l.configKey ∈ old.keys :=
            (LimiterConfigs.mem_keys_iff old).mpr (by rw [hold]; rfl)
          simp [hnew, hmem]

/-- A reload keeps the projection. -/
theorem projects_reload {activeApis : List Api} {m : LimiterConfigurationManager}
    (h : Projects activeApis m) {configs : LimiterConfigs}
    (hc : ApiQpsLimiter.collidingKey ∉ configs.keys) :
    Projects activeApis (m.reloadConfiguration (.success configs)) ∧
      (m.reloadConfiguration (.success configs)).distributed =
        m.distributed.map (reloaded configs) := by
  have hdistributed : (m.reloadConfiguration (.success configs)).distributed =
      m.distributed.map (reloaded configs) := by
    refine List.map_congr_left fun l hl => ?_
    exact update_distributed (h.distributed l hl)
  refine ⟨⟨hc, update_user h.user, ApiQpsLimiter.update_rules h.colliding hc h.api, ?_, ?_⟩,
    hdistributed⟩
  · show (m.api.update _).status = _
    unfold ApiQpsLimiter.update
    simp only
    split <;> exact h.items
  · rw [hdistributed]
    intro l hl hnone
    obtain ⟨l', -, rfl⟩ := List.mem_map.mp hl
    have hkey : configs.find l'.configKey = none := hnone
    simp [reloaded, hkey]

/-- A limiter that counts in redis, under the key `k` -/
def limiterK : DistributedLimiter where
  identity := ascii ['g']
  configKey := ascii ['k']
  defaultRule := ⟨86400000, 20⟩
  rule := ⟨86400000, 20⟩
  status := fun _ => none

/-- A configuration with the one key `k` -/
def configsK (rule : LimitRule) : LimiterConfigs where
  entries := [(ascii ['k'], rule)]
  sorted := List.pairwise_singleton _ _

theorem configsK_colliding (rule : LimitRule) :
    ApiQpsLimiter.collidingKey ∉ (configsK rule).keys := by
  show ApiQpsLimiter.collidingKey ∉ [ascii ['k']]
  decide

end LimiterConfigurationManager

end BcmServer.Limiters
