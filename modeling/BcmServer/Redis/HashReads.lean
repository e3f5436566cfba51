import BcmServer.Redis.HashServer

/-!
# BcmServer.Redis.HashReads — whether a hash is read as it was written

`hmset` sends its fields and values with their lengths. `hget` does so with the field, but
takes the value for a C string; `hscan` takes fields and values for C strings, and writes
the key into its format; `hmget` writes the fields there as well, and gives the values to
the fields by their places.

* `ReadsBack`: each of the three reads returns what was written.
* `readsBack_iff`: they do after every `hmset` if and only if the hash is `Readable`.
* `readable_of_plain`: it is if the key and the fields are plain words and no value has a
  NUL byte.
* `hmget_refines`: where `hmget` of a hash has a result, the command returns it.
-/

namespace BcmServer.Redis

open BcmServer.Util BcmServer.Lts Format
open RedisConn (text)

/-- A list of fields and values in which no field comes twice -/
structure DistinctFields where
  entries : List (Bytes × Bytes)
  nodup : (entries.map Prod.fst).Nodup

namespace DistinctFields

variable (values : DistinctFields)

def fields : List Bytes := values.entries.map Prod.fst

/-- The hash that they make -/
def hash : Table Bytes Bytes := Table.insertAll ∅ values.entries

/-- What is written for a word, and nothing for another -/
def valueOf (word : Bytes) : Bytes := (values.hash.lookup word).getD []

end DistinctFields

/-! ## Reading -/

section Reading

variable {σ : Type} (server : Server σ) (reConnect : Run σ Bool)

/-- The pages of a hash from a cursor on, so many at most, put into a map -/
def scanFrom (key : Bytes) (count : UInt32) :
    ℕ → Bytes → List (Bytes × Bytes) → Run σ (Bool × List (Bytes × Bytes))
  | 0, _, _ => Fueled.exhausted
  | n + 1, cursor, results => do
      let page ← RedisConn.hscan server reConnect key cursor [] count [] []
      let (ok, new_cursor, shown) := page.value
      if !ok then return (false, results)
      let results := shown.foldl (fun m e => mapSet e.1 e.2 m) results
      if new_cursor = text "0" then return (true, results)
      scanFrom key count n new_cursor results

/-- All the fields are read with their values, by HMGET, one by one, and in a complete scan. -/
structure ReadsBack (key : Bytes) (values : DistinctFields) (conn : RedisConn σ) : Prop where
  hmget : ∃ m answers t, RedisConn.hmget server reConnect key values.fields [] conn =
    some (.ok ⟨(true, m), answers⟩, t) ∧ ∀ e, e ∈ m ↔ e ∈ values.entries
  hget : ∀ e ∈ values.entries, ∀ value, ∃ answers t,
    RedisConn.hget server reConnect key e.1 value conn = some (.ok ⟨(true, e.2), answers⟩, t)
  hscan : ∀ count, ∃ m, (∀ e, e ∈ m ↔ e ∈ values.entries) ∧ ∃ pages, ∀ n, pages ≤ n →
    ∃ t, scanFrom server reConnect key count n (text "0") [] conn =
      some (.ok (true, m), t)

end Reading

/-- Whatever redis and hiredis do apart from what a `HashServer` is bound to, what a successful
`hmset` has written into an empty hash is read back. -/
def AlwaysReadsBack (key : Bytes) (values : DistinctFields) : Prop :=
  ∀ (redis : HashServer) (password : Bytes) (fuel : ℕ) (conn t : RedisConn Hashes)
    (answers : List Answer), conn.server key = ∅ →
    RedisConn.hmset redis.server (RedisConn.reConnectRedis redis.server password fuel) key
      values.entries conn = some (.ok ⟨true, answers⟩, t) →
    ReadsBack redis.server (RedisConn.reConnectRedis redis.server password fuel) key values t

/-- Names and values without NUL bytes -/
def CStrings (m : List (Bytes × Bytes)) : Prop := ∀ e ∈ m, 0 ∉ e.1 ∧ 0 ∉ e.2

/-- The key is one word of a format, there are no NUL bytes, and the text of the fields has a
word for each field, with the value of the field. -/
structure Readable (key : Bytes) (values : DistinctFields) : Prop where
  key : Plain key
  cStrings : CStrings values.entries
  words : ∃ ws, Format.words (spaced values.fields) [] = some ws ∧
    List.Forall₂ (fun w e => values.valueOf w = e.2) ws values.entries

/-! ## What was written -/

namespace DistinctFields

variable {values : DistinctFields} {f v : Bytes}

theorem lookup_hash : values.hash.lookup f = some v ↔ (f, v) ∈ values.entries := by
  constructor
  · intro h
    obtain hnone | ⟨u, hu, hlookup⟩ := Table.lookup_insertAll ∅ values.entries f
    · rw [hash, hnone] at h
      cases h
    · rw [hash, hlookup] at h
      rwa [← Option.some.inj h]
  · intro h
    obtain ⟨u, hu, hlookup⟩ := Table.lookup_insertAll_of_mem ∅ values.entries
      (List.mem_map_of_mem h)
    have heq := List.inj_on_of_nodup_map values.nodup hu h rfl
    rw [hash, hlookup, (Prod.mk.inj heq).2]

theorem valueOf_eq (h : (f, v) ∈ values.entries) : values.valueOf f = v := by
  rw [valueOf, lookup_hash.mpr h]
  rfl

theorem zero_notMem_fields (h : CStrings values.entries) : ∀ f ∈ values.fields, 0 ∉ f := by
  intro f hf
  obtain ⟨e, he, rfl⟩ := List.mem_map.mp hf
  exact (h e he).1

/-- A map that is made of entries has them. -/
theorem mem_foldl {l : List (Bytes × Bytes)} (h : ∀ e ∈ l, e ∈ values.entries)
    (e : Bytes × Bytes) : e ∈ l.foldl (fun m e => mapSet e.1 e.2 m) [] ↔ e ∈ l := by
  rw [mem_foldl_mapSet, or_iff_right List.not_mem_nil]
  intro x hx y hy hkey
  rw [List.nil_append] at hx hy
  rw [List.inj_on_of_nodup_map values.nodup (h x hx) (h y hy) hkey]

end DistinctFields

/-! ## The commands -/

section Commands

variable {key cursor : Bytes}

theorem words_hget (key field : Bytes) :
    Command.words (.format (text "HGET %b %b") [.b key, .b field]) =
      some [text "HGET", key, field] := rfl

theorem plain_HMGET : Plain (text "HMGET") :=
  ⟨by decide, by decide, by decide, by decide⟩

theorem plain_HSCAN : Plain (text "HSCAN") :=
  ⟨by decide, by decide, by decide, by decide⟩

theorem plain_COUNT : Plain (text "COUNT") :=
  ⟨by decide, by decide, by decide, by decide⟩

/-- A number is a plain word. -/
theorem plain_number {s : Bytes} (h : isNumber s = true) : Plain s := by
  simp only [isNumber, Bool.and_eq_true, Bool.not_eq_true', List.isEmpty_eq_false_iff,
    List.all_eq_true] at h
  have hnot : ∀ c, isDigit c = false → c ∉ s := fun c hc hmem => by
    rw [h.2 c hmem] at hc
    cases hc
  exact ⟨h.1, hnot _ (by decide), hnot _ (by decide), hnot _ (by decide)⟩

theorem isNumber_decimal (n : ℕ) : isNumber (decimal n) = true := by
  obtain ⟨l, hl, hne, hlt, -⟩ := padded_eq_map 0 n
  have hdecimal : decimal n = l.map digitByte := by simpa [padded] using hl
  simp only [isNumber, hdecimal, Bool.and_eq_true, Bool.not_eq_true', List.isEmpty_eq_false_iff,
    List.all_eq_true]
  refine ⟨by simpa using hne, fun c hc => ?_⟩
  obtain ⟨d, hd, rfl⟩ := List.mem_map.mp hc
  exact isDigit_digitByte (hlt d hd)

/-- The options of a scan -/
def countOptions (count : UInt32) : List Bytes :=
  if 0 < count then [text "COUNT", decimal count.toNat] else []

theorem scanOptions_count (count : UInt32) : scanOptions (countOptions count) = true := by
  unfold countOptions
  split
  · next hcount =>
    have hne : decimal count.toNat ≠ text "0" := by
      intro heq
      have hzero : decimal count.toNat = decimal 0 := heq
      have hcount' : 0 < count.toNat := UInt32.lt_iff_toNat_lt.mp hcount
      rw [decimal_injective hzero] at hcount'
      exact absurd hcount' (Nat.lt_irrefl 0)
    simp [scanOptions, isNumber_decimal, hne]
  · rfl

def hscanCommand (key cursor : Bytes) (count : UInt32) : Command :=
  .format (text "HSCAN" ++ spaced (key :: cursor :: countOptions count)) []

/-- The words of a scan -/
theorem words_hscan (hkey : Plain key) (hcursor : isNumber cursor = true) (count : UInt32) :
    (hscanCommand key cursor count).words =
      some (text "HSCAN" :: key :: cursor :: countOptions count) := by
  refine words_plain plain_HSCAN fun w hw => ?_
  rcases List.mem_cons.mp hw with rfl | hw
  · exact hkey
  rcases List.mem_cons.mp hw with rfl | hw
  · exact plain_number hcursor
  unfold countOptions at hw
  split at hw
  · rcases List.mem_pair.mp hw with rfl | rfl
    · exact plain_COUNT
    · exact plain_number (isNumber_decimal count.toNat)
  · cases hw

theorem hscan_eq_perform {σ : Type} (server : Server σ) (r : Run σ Bool) (key cursor : Bytes)
    (count : UInt32) : RedisConn.hscan server r key cursor [] count [] [] =
      RedisConn.perform server r (hscanCommand key cursor count) (fun _ => (false, [], [])) fun
        | .array (.string c :: .array es :: _) =>
            (RedisConn.scanResults es []).map fun m => (true, cString c, m)
        | .array _ => .error .undefined
        | _ => .ok (true, [], []) := by
  have htext : text "HSCAN " ++ key ++ text " " ++ cursor ++ [] ++
      (if 0 < count then text " COUNT " ++ decimal count.toNat else []) =
      text "HSCAN" ++ spaced (key :: cursor :: countOptions count) := by
    unfold countOptions
    split <;> simp [spaced, RedisConn.text, ascii, blank]
  rw [hscanCommand, ← htext, RedisConn.hscan]
  simp only [ite_self]
  rfl

def hmgetCommand (key : Bytes) (fields : List Bytes) : Command :=
  .format (text "HMGET" ++ spaced (key :: fields)) []

theorem hmget_eq_perform {σ : Type} (server : Server σ) (r : Run σ Bool) (key : Bytes)
    (fields : List Bytes) (m : List (Bytes × Bytes)) : RedisConn.hmget server r key fields m =
      RedisConn.perform server r (hmgetCommand key fields) (fun _ => (false, m)) fun
        | .array es => (RedisConn.fillFields fields es m).map fun m => (true, m)
        | _ => .ok (true, m) := by
  have htext : text "HMGET " ++ key ++
      (fields.flatMap fun field => ' '.toUInt8 :: field) =
      text "HMGET" ++ spaced (key :: fields) := by
    simp [spaced, RedisConn.text, ascii, blank]
  rw [hmgetCommand, ← htext]
  rfl

end Commands

/-! ## Writing -/

section Writing

variable {redis : HashServer} {password key : Bytes} {fuel : ℕ} {conn t : RedisConn Hashes}
  {r : Run Hashes Bool} {values : List (Bytes × Bytes)}

theorem pairUp_flatMap (values : List (Bytes × Bytes)) :
    pairUp (values.flatMap fun v => [v.1, v.2]) = some values := by
  induction values with
  | nil => rfl
  | cons v values ih =>
      have hcons : ((v :: values).flatMap fun v => [v.1, v.2]) =
          v.1 :: v.2 :: values.flatMap fun v => [v.1, v.2] := rfl
      rw [hcons, pairUp, ih]
      rfl

/-- The hashes after a write -/
def written (hashes : Hashes) (key : Bytes) (values : List (Bytes × Bytes)) : Hashes :=
  Function.update hashes key ((hashes key).insertAll values)

theorem written_self {hashes : Hashes} {values : DistinctFields} (hempty : hashes key = ∅) :
    written hashes key values.entries key = values.hash := by
  rw [written, Function.update_self, hempty]
  rfl

theorem execute_hmset (scan : Scan) (hashes : Hashes) (key : Bytes)
    (values : List (Bytes × Bytes)) :
    execute scan hashes (text "HMSET" :: key :: values.flatMap fun v => [v.1, v.2]) =
      if values = [] then some (wrongArguments, hashes)
      else some (.status (text "OK"), written hashes key values) := by
  rw [execute, if_pos rfl]
  simp only [pairUp_flatMap]
  cases values with
  | nil => rfl
  | cons v values => rfl

def hmsetCommand (key : Bytes) (values : List (Bytes × Bytes)) : Command :=
  .argv (text "HMSET" :: key :: values.flatMap fun v => [v.1, v.2])

theorem hmset_eq (server : Server Hashes) (r : Run Hashes Bool) (key : Bytes)
    (values : List (Bytes × Bytes)) : RedisConn.hmset server r key values =
      RedisConn.perform server r (hmsetCommand key values) (fun _ => false) fun _ => .ok true :=
  rfl

/-- A write on a connection that is there -/
theorem hmset_answered (hne : values ≠ []) (hcontext : conn.context ≠ none) :
    RedisConn.hmset redis.server r key values conn =
      some (.ok ⟨true, [⟨some (.status (text "OK")), false⟩]⟩,
        HashServer.after conn (written conn.server key values)) := by
  have hexecute := execute_hmset redis.scan conn.server key values
  rw [if_neg hne] at hexecute
  have hwords : (hmsetCommand key values).words = some _ := rfl
  rw [hmset_eq, HashServer.perform_answered hcontext hwords hexecute rfl]
  rfl

/-- A write that returns success has written. -/
theorem hmset_written {answers : List Answer}
    (h : RedisConn.hmset redis.server (RedisConn.reConnectRedis redis.server password fuel) key
      values conn = some (.ok ⟨true, answers⟩, t)) :
    values ≠ [] ∧ t.context ≠ none ∧ t.server = written conn.server key values := by
  rw [hmset_eq] at h
  have hne : values ≠ [] := by
    rintro rfl
    have hfails : ∀ hashes, (redis.server.command (hmsetCommand key []) hashes).1.isSuccess =
        false := by
      intro hashes
      have hexecute := execute_hmset redis.scan hashes key []
      rw [if_pos rfl] at hexecute
      rw [redis.answers _ hashes _ _ rfl hexecute]
      rfl
    cases perform_failed hfails h
  obtain hvalue | ⟨u, hcontext, hserver, hu⟩ := HashServer.perform_connected h
  · cases hvalue
  · have hanswered := (hmset_answered hne hcontext).symm.trans hu
    obtain ⟨-, rfl⟩ := Prod.mk.inj (Option.some.inj hanswered)
    exact ⟨hne, Option.some_ne_none _, by rw [← hserver]; rfl⟩

end Writing

/-! ## Reading fields -/

section Fields

variable (redis : HashServer) (r : Run Hashes Bool) {key key' : Bytes} {conn : RedisConn Hashes}
  {fields : List Bytes}

/-- What is read for a word -/
def found (hash : Table Bytes Bytes) (word : Bytes) : Bytes := cString ((hash.lookup word).getD [])

theorem hget_answered (hcontext : conn.context ≠ none) (key field value : Bytes) :
    ∃ answers t, RedisConn.hget redis.server r key field value conn =
      some (.ok ⟨(true, (((conn.server key).lookup field).map cString).getD value),
        answers⟩, t) := by
  have hexecute : execute redis.scan conn.server [text "HGET", key, field] =
      some (stored ((conn.server key).lookup field), conn.server) := rfl
  have hsuccess : isReplySuccess (some (stored ((conn.server key).lookup field))) = true := by
    cases (conn.server key).lookup field <;> rfl
  rw [RedisConn.hget,
    HashServer.perform_answered hcontext (words_hget key field) hexecute hsuccess]
  cases (conn.server key).lookup field <;> exact ⟨_, _, rfl⟩

/-- The values of the words are given to the fields by their places. -/
theorem fillFields_stored (hash : Table Bytes Bytes) (fields ws : List Bytes)
    (m : List (Bytes × Bytes)) :
    RedisConn.fillFields fields (ws.map fun w => stored (hash.lookup w)) m =
      if ws.length ≤ fields.length then
        .ok ((fields.zip (ws.map (found hash))).foldl (fun m e => mapSet e.1 e.2 m) m)
      else .error .undefined := by
  induction ws generalizing fields m with
  | nil => simp [RedisConn.fillFields]
  | cons w ws ih =>
      cases fields with
      | nil => simp [RedisConn.fillFields]
      | cons field fields =>
          have hstep : RedisConn.fillFields (field :: fields)
              (stored (hash.lookup w) :: ws.map fun w => stored (hash.lookup w)) m =
              RedisConn.fillFields fields (ws.map fun w => stored (hash.lookup w))
                (mapSet field (found hash w) m) := by
            rw [found]
            cases hash.lookup w <;> rfl
          rw [List.map_cons, hstep, ih]
          simp

/-- HMGET of words behind a key -/
theorem hmget_answered {w : Bytes} {ws : List Bytes} (hcontext : conn.context ≠ none)
    (hwords : (hmgetCommand key fields).words = some (text "HMGET" :: key' :: w :: ws)) :
    ∃ answers t, RedisConn.hmget redis.server r key fields [] conn =
      some (if (w :: ws).length ≤ fields.length then
        .ok ⟨(true, (fields.zip ((w :: ws).map (found (conn.server key')))).foldl
          (fun m e => mapSet e.1 e.2 m) []), answers⟩
        else .error (.value .undefined), t) := by
  have hexecute : execute redis.scan conn.server (text "HMGET" :: key' :: w :: ws) =
      some (.array ((w :: ws).map fun f => stored ((conn.server key').lookup f)), conn.server) :=
    rfl
  have hfill := fillFields_stored (conn.server key') fields (w :: ws) []
  rw [hmget_eq_perform, HashServer.perform_answered hcontext hwords hexecute rfl]
  dsimp only
  rw [hfill]
  by_cases hle : (w :: ws).length ≤ fields.length
  · simp only [if_pos hle]
    exact ⟨_, _, rfl⟩
  · simp only [if_neg hle]
    exact ⟨[], _, rfl⟩

end Fields

/-! ## Scanning -/

section Scanning

variable (redis : HashServer) (r : Run Hashes Bool) {key cursor : Bytes} {conn : RedisConn Hashes}
  {count : UInt32}

/-- The map that is made of a page -/
def shownPage (page : List (Bytes × Bytes)) : List (Bytes × Bytes) :=
  (page.map fun e => (cString e.1, cString e.2)).foldl (fun m e => mapSet e.1 e.2 m) []

theorem scanResults_flatMap (page m : List (Bytes × Bytes)) :
    RedisConn.scanResults (page.flatMap fun e => [.string e.1, .string e.2]) m =
      .ok ((page.map fun e => (cString e.1, cString e.2)).foldl
        (fun m e => mapSet e.1 e.2 m) m) := by
  induction page generalizing m with
  | nil => rfl
  | cons e page ih => exact ih _

/-- HSCAN of a key that is one word -/
theorem hscan_answered (hcontext : conn.context ≠ none) (hkey : Plain key)
    (hcursor : isNumber cursor = true) {next : Bytes × List (Bytes × Bytes)}
    (hnext : redis.scan (conn.server key) (countOptions count) cursor = next) :
    ∃ answers, RedisConn.hscan redis.server r key cursor [] count [] [] conn =
      some (.ok ⟨(true, next.1, shownPage next.2), answers⟩,
        HashServer.after conn conn.server) := by
  have hcString : cString next.1 = next.1 := by
    rw [← hnext]
    exact cString_self (plain_number (redis.cursors _ _ _)).nul
  have hexecute : execute redis.scan conn.server
      (text "HSCAN" :: key :: cursor :: countOptions count) =
      some (pageReply next, conn.server) := by
    have hguard : (isNumber cursor && scanOptions (countOptions count)) = true := by
      rw [hcursor, scanOptions_count]
      rfl
    rw [← hnext]
    exact if_pos hguard
  rw [hscan_eq_perform,
    HashServer.perform_answered hcontext (words_hscan hkey hcursor count) hexecute rfl]
  simp only [pageReply, scanResults_flatMap, hcString]
  exact ⟨_, rfl⟩

/-- A complete scan puts the pages into a map. -/
theorem scanFrom_eq {hash : Table Bytes Bytes} {pages : List (List (Bytes × Bytes))} {n : ℕ}
    (hpages : Pages (redis.scan hash (countOptions count)) cursor pages) (hkey : Plain key)
    (hcursor : isNumber cursor = true) (hn : pages.length ≤ n) (results : List (Bytes × Bytes))
    (hcontext : conn.context ≠ none) (hhash : conn.server key = hash) :
    ∃ t, scanFrom redis.server r key count n cursor results conn = some (.ok (true,
      (pages.flatMap shownPage).foldl (fun m e => mapSet e.1 e.2 m) results), t) := by
  have hnext : ∀ cursor, isNumber cursor = true → ∀ u : RedisConn Hashes, u.context ≠ none →
      u.server key = hash → ∃ answers, RedisConn.hscan redis.server r key cursor [] count [] [] u =
        some (.ok ⟨(true, (redis.scan hash (countOptions count) cursor).1,
          shownPage (redis.scan hash (countOptions count) cursor).2), answers⟩,
          HashServer.after u u.server) := by
    intro cursor hcursor u hu huser
    exact hscan_answered redis r hu hkey hcursor (by rw [huser])
  induction hpages generalizing n results conn with
  | last hzero =>
      obtain ⟨n, rfl⟩ := Nat.exists_eq_add_of_le' hn
      obtain ⟨answers, hscan⟩ := hnext _ hcursor conn hcontext hhash
      refine ⟨HashServer.after conn conn.server, (Fueled.bind_ok hscan).trans ?_⟩
      simp [hzero]
  | more hne hpages ih =>
      obtain ⟨n, rfl⟩ := Nat.exists_eq_add_of_le' hn
      obtain ⟨answers, hscan⟩ := hnext _ hcursor conn hcontext hhash
      have hafter : (HashServer.after conn conn.server).server key = hash := hhash
      obtain ⟨t, ht⟩ := ih (redis.cursors _ _ _) (Nat.le_add_left _ n) _ (Option.some_ne_none _)
        hafter
      refine ⟨t, (Fueled.bind_ok hscan).trans ?_⟩
      rw [List.flatMap_cons, List.foldl_append]
      simp only [Bool.not_true, Bool.false_eq_true, if_false, if_neg hne]
      exact ht

end Scanning

/-! ## What is readable is read -/

section Back

variable {redis : HashServer} {key : Bytes} {values : DistinctFields} {conn : RedisConn Hashes}
  {r : Run Hashes Bool} {ws : List Bytes}

/-- The words of HMGET, behind a key that is one word -/
theorem words_hmget (hkey : Plain key) {fields : List Bytes} (hfields : ∀ f ∈ fields, 0 ∉ f) :
    (hmgetCommand key fields).words =
      (Format.words (spaced fields) []).map fun ws => text "HMGET" :: key :: ws := by
  have hspaced := nul_notMem_spaced hfields
  have hnul : 0 ∉ text "HMGET" ++ spaced (key :: fields) := by
    simp only [spaced_cons, List.mem_append, List.mem_cons, not_or]
    exact ⟨plain_HMGET.nul, by decide, hkey.nul, hspaced⟩
  rw [hmgetCommand, Command.words, words_eq hnul, scanFormat_word plain_HMGET, scanFormat_spaced,
    scanFormat_spaced_cons hkey, words_eq hspaced, Option.map_map]
  rfl

/-- What `hmget` of a hash comes to, the command returns. -/
theorem hmget_refines (hkey : Plain key) {fields : List Bytes} (hfields : ∀ f ∈ fields, 0 ∉ f)
    (hcontext : conn.context ≠ none) (hwords : fields.flatMap commandWords ≠ [])
    {m : List (Bytes × Bytes)} (h : hmget (conn.server key) fields = .ok m) :
    ∃ answers t, RedisConn.hmget redis.server r key fields [] conn =
      some (.ok ⟨(true, m), answers⟩, t) := by
  unfold hmget at h
  dsimp only at h
  split at h
  · cases h
  · next hguard =>
    simp only [Bool.or_eq_true, decide_eq_true_eq, not_or, List.any_eq_true, not_exists, not_and,
      List.contains_iff_mem, Nat.not_lt] at hguard
    obtain ⟨hpercent, hle⟩ := hguard
    obtain ⟨w, ws, hws⟩ := List.exists_cons_of_ne_nil hwords
    have hcommand : (hmgetCommand key fields).words =
        some (text "HMGET" :: key :: w :: ws) := by
      rw [words_hmget hkey hfields, words_eq (nul_notMem_spaced hfields),
        scanFormat_fields hpercent, hws]
      rfl
    obtain ⟨answers, t, hread⟩ := hmget_answered redis r hcontext hcommand
    rw [hws] at h hle
    rw [if_pos hle, List.zip_map_right, List.foldl_map] at hread
    rw [← Except.ok.inj h]
    exact ⟨answers, t, hread⟩

theorem zip_eq_of_forall₂ {f : Bytes → Bytes} {entries : List (Bytes × Bytes)}
    (h : List.Forall₂ (fun w e => f w = e.2) ws entries) :
    (entries.map Prod.fst).zip (ws.map f) = entries := by
  induction h with
  | nil => rfl
  | cons hf _ ih => rw [List.map_cons, List.map_cons, List.zip_cons_cons, ih, hf]

theorem hmget_readable (h : Readable key values) (hne : values.entries ≠ [])
    (hcontext : conn.context ≠ none) (hhash : conn.server key = values.hash) :
    ∃ m answers t, RedisConn.hmget redis.server r key values.fields [] conn =
      some (.ok ⟨(true, m), answers⟩, t) ∧ ∀ e, e ∈ m ↔ e ∈ values.entries := by
  obtain ⟨ws, hws, hvalues⟩ := h.words
  have hlength := hvalues.length_eq
  obtain _ | ⟨w, ws⟩ := ws
  · exact absurd (List.eq_nil_of_length_eq_zero hlength.symm) hne
  have hwords : (hmgetCommand key values.fields).words =
      some (text "HMGET" :: key :: w :: ws) := by
    rw [words_hmget h.key (DistinctFields.zero_notMem_fields h.cStrings), hws]
    rfl
  obtain ⟨answers, t, hread⟩ := hmget_answered redis r hcontext hwords
  have hle : (w :: ws).length ≤ values.fields.length := by
    rw [DistinctFields.fields, List.length_map, hlength]
  have hfound : List.Forall₂ (fun w e => found (conn.server key) w = e.2) (w :: ws)
      values.entries := by
    have hand := (List.forall₂_and_left _ _).mpr ⟨h.cStrings, hvalues.flip⟩
    refine hand.flip.imp fun w e he => ?_
    rw [found, hhash]
    exact (congrArg cString he.2).trans (cString_self he.1.2)
  rw [if_pos hle, DistinctFields.fields, zip_eq_of_forall₂ hfound] at hread
  exact ⟨_, answers, t, hread, DistinctFields.mem_foldl fun _ he => he⟩

theorem hget_readable (h : Readable key values) (hcontext : conn.context ≠ none)
    (hhash : conn.server key = values.hash) {e : Bytes × Bytes} (he : e ∈ values.entries)
    (value : Bytes) : ∃ answers t,
      RedisConn.hget redis.server r key e.1 value conn = some (.ok ⟨(true, e.2), answers⟩, t) := by
  obtain ⟨answers, t, hread⟩ := hget_answered redis r hcontext key e.1 value
  rw [hhash, DistinctFields.lookup_hash.mpr he, Option.map_some, Option.getD_some,
    cString_self (h.cStrings e he).2] at hread
  exact ⟨answers, t, hread⟩

/-- A page of a hash without NUL bytes -/
theorem mem_shownPage (h : Readable key values) {page : List (Bytes × Bytes)}
    (hpage : ∀ e ∈ page, e ∈ values.entries) (e : Bytes × Bytes) :
    e ∈ shownPage page ↔ e ∈ page := by
  have hmap : (page.map fun e => (cString e.1, cString e.2)) = page := by
    refine (List.map_congr_left fun x hx => ?_).trans (List.map_id page)
    obtain ⟨hfield, hvalue⟩ := h.cStrings x (hpage x hx)
    exact Prod.ext (cString_self hfield) (cString_self hvalue)
  rw [shownPage, hmap, DistinctFields.mem_foldl hpage]

theorem hscan_readable (h : Readable key values) (hcontext : conn.context ≠ none)
    (hhash : conn.server key = values.hash) (count : UInt32) :
    ∃ m, (∀ e, e ∈ m ↔ e ∈ values.entries) ∧ ∃ pages, ∀ n, pages ≤ n →
      ∃ t, scanFrom redis.server r key count n (text "0") [] conn =
        some (.ok (true, m), t) := by
  obtain ⟨pages, hpages, hfull⟩ := redis.fullScan values.hash (countOptions count)
  have hentries : ∀ e, e ∈ pages.flatten ↔ e ∈ values.entries := fun e =>
    (hfull e).trans DistinctFields.lookup_hash
  have hshown : ∀ e, e ∈ pages.flatMap shownPage ↔ e ∈ values.entries := by
    intro e
    rw [← hentries, List.mem_flatMap, List.mem_flatten]
    refine exists_congr fun page => and_congr_right fun hpage => ?_
    exact mem_shownPage h (fun x hx => (hentries x).mp (List.mem_flatten.mpr ⟨page, hpage, hx⟩)) e
  refine ⟨(pages.flatMap shownPage).foldl (fun m e => mapSet e.1 e.2 m) [], fun e => ?_,
    pages.length, fun n hn => ?_⟩
  · rw [DistinctFields.mem_foldl fun x hx => (hshown x).mp hx, hshown]
  · exact scanFrom_eq redis r hpages h.key rfl hn [] hcontext hhash

/-- Fields that are plain words are read back, with values that have no NUL byte. -/
theorem readable_of_plain (hkey : Plain key) (h : ∀ e ∈ values.entries, Plain e.1 ∧ 0 ∉ e.2) :
    Readable key values := by
  have hstrings : CStrings values.entries := fun e he => ⟨(h e he).1.nul, (h e he).2⟩
  have hplain : ∀ f ∈ values.fields, Plain f := by
    intro f hf
    obtain ⟨e, he, rfl⟩ := List.mem_map.mp hf
    exact (h e he).1
  refine ⟨hkey, hstrings, values.fields, ?_, ?_⟩
  · rw [words_eq (nul_notMem_spaced (DistinctFields.zero_notMem_fields hstrings)),
      scanFormat_spaced_plain hplain]
  · rw [DistinctFields.fields, List.forall₂_map_left_iff, List.forall₂_same]
    exact fun e he => DistinctFields.valueOf_eq he

/-- After a write of what is readable every read returns it. -/
theorem readsBack_of_readable (h : Readable key values) (hne : values.entries ≠ [])
    (hcontext : conn.context ≠ none) (hhash : conn.server key = values.hash) :
    ReadsBack redis.server r key values conn where
  hmget := hmget_readable h hne hcontext hhash
  hget _ he := hget_readable h hcontext hhash he
  hscan := hscan_readable h hcontext hhash

end Back

/-! ## What is read was readable -/

section CStrings

variable {σ : Type} {server : Server σ} {r : Run σ Bool} {key cursor : Bytes} {conn t : RedisConn σ}
  {count : UInt32} {l m m' : List (Bytes × Bytes)}

theorem mem_of_mem_mapSet {k v : Bytes} {e : Bytes × Bytes} (h : e ∈ mapSet k v m) :
    e = (k, v) ∨ e ∈ m := by
  induction m with
  | nil => exact .inl (List.mem_singleton.mp h)
  | cons e' m ih =>
      rw [mapSet] at h
      split at h
      · exact (List.mem_cons.mp h).imp_right (List.mem_cons_of_mem e')
      · split at h
        · exact List.mem_cons.mp h
        · rcases List.mem_cons.mp h with rfl | h
          · exact .inr List.mem_cons_self
          · exact (ih h).imp_right (List.mem_cons_of_mem e')

theorem CStrings.mapSet {k v : Bytes} (hm : CStrings m) (hk : 0 ∉ k) (hv : 0 ∉ v) :
    CStrings (mapSet k v m) := by
  intro e he
  rcases mem_of_mem_mapSet he with rfl | he
  · exact ⟨hk, hv⟩
  · exact hm e he

theorem CStrings.foldl (hm : CStrings m) (hl : CStrings l) :
    CStrings (l.foldl (fun m e => Redis.mapSet e.1 e.2 m) m) := by
  induction l generalizing m with
  | nil => exact hm
  | cons e l ih =>
      obtain ⟨hk, hv⟩ := hl e List.mem_cons_self
      exact ih (hm.mapSet hk hv) fun x hx => hl x (List.mem_cons_of_mem e hx)

theorem CStrings.scanResults {es : List RedisReply} (hm : CStrings m)
    (h : RedisConn.scanResults es m = .ok m') : CStrings m' := by
  fun_induction RedisConn.scanResults es m with
  | case1 m => exact Except.ok.inj h ▸ hm
  | case2 _ m => exact Except.ok.inj h ▸ hm
  | case3 k v es m ih => exact ih (hm.mapSet (zero_notMem_cString k) (zero_notMem_cString v)) h
  | case4 => cases h

theorem cStrings_nil : CStrings [] := fun _ he => nomatch he

/-- HSCAN returns C strings. -/
theorem cStrings_hscan {page : Attempted (Bool × Bytes × List (Bytes × Bytes))}
    (h : RedisConn.hscan server r key cursor [] count [] [] conn = some (.ok page, t)) :
    CStrings page.value.2.2 := by
  rw [hscan_eq_perform] at h
  obtain ⟨answers, hvalue⟩ | ⟨reply, hreply⟩ := perform_value h
  · rw [hvalue]
    exact cStrings_nil
  · split at hreply
    · next c es _ =>
      cases hresults : RedisConn.scanResults es [] with
      | error fault => rw [hresults] at hreply; cases hreply
      | ok shown =>
          rw [hresults] at hreply
          rw [← Except.ok.inj hreply]
          exact cStrings_nil.scanResults hresults
    · cases hreply
    · rw [← Except.ok.inj hreply]
      exact cStrings_nil

theorem cStrings_scanFrom {n : ℕ} {result : Bool × List (Bytes × Bytes)} (hm : CStrings m)
    (h : scanFrom server r key count n cursor m conn = some (.ok result, t)) :
    CStrings result.2 := by
  induction n generalizing cursor m conn with
  | zero => cases h
  | succ n ih =>
      obtain ⟨_, _, _, herror⟩ | ⟨page, u, hpage, h⟩ := Fueled.bind_eq_some.mp h
      · cases herror
      have hshown := cStrings_hscan hpage
      obtain ⟨⟨_ | _, new_cursor, shown⟩, answers⟩ := page
      · obtain ⟨hok, -⟩ := Prod.mk.inj (Option.some.inj h)
        rw [← Except.ok.inj hok]
        exact hm
      · simp only [Bool.not_true, Bool.false_eq_true, if_false] at h
        split at h
        · obtain ⟨hok, -⟩ := Prod.mk.inj (Option.some.inj h)
          rw [← Except.ok.inj hok]
          exact hm.foldl hshown
        · exact ih (hm.foldl hshown) h

end CStrings

/-- Lists with the same keys are the same if one has the other's entries. -/
theorem eq_of_map_fst_eq {l m : List (Bytes × Bytes)} (hm : (m.map Prod.fst).Nodup)
    (h : l.map Prod.fst = m.map Prod.fst) (hsub : ∀ e ∈ l, e ∈ m) : l = m := by
  induction l generalizing m with
  | nil => exact (List.map_eq_nil_iff.mp h.symm).symm
  | cons e l ih =>
      obtain _ | ⟨e', m⟩ := m
      · cases h
      rw [List.map_cons, List.map_cons, List.cons.injEq] at h
      have he : e = e' :=
        List.inj_on_of_nodup_map hm (hsub e List.mem_cons_self) List.mem_cons_self h.1
      subst he
      rw [List.map_cons, List.nodup_cons] at hm
      rw [ih hm.2 h.2 fun x hx => ?_]
      rcases List.mem_cons.mp (hsub x (List.mem_cons_of_mem e hx)) with rfl | hx'
      · -- its key would come again
        refine absurd ?_ hm.1
        rw [← h.2]
        exact List.mem_map_of_mem hx
      · exact hx'

theorem map_fst_zip_sublist (fields vs : List Bytes) :
    ((fields.zip vs).map Prod.fst).Sublist fields := by
  induction fields generalizing vs with
  | nil => exact List.Sublist.refl []
  | cons field fields ih =>
      cases vs with
      | nil => exact List.nil_sublist _
      | cons v vs => exact (ih vs).cons_cons field

namespace DistinctFields

variable {values : DistinctFields} {vs : List Bytes}

theorem mem_foldl_zip (values : DistinctFields) (vs : List Bytes) (e : Bytes × Bytes) :
    e ∈ (values.fields.zip vs).foldl (fun m e => mapSet e.1 e.2 m) [] ↔
      e ∈ values.fields.zip vs :=
  @mem_foldl ⟨values.fields.zip vs, (map_fst_zip_sublist values.fields vs).nodup values.nodup⟩ _
    (fun _ he => he) e

/-- Values that are given to the fields are theirs, if the map has all entries. -/
theorem eq_of_zip (hle : vs.length ≤ values.fields.length)
    (h : ∀ e, e ∈ values.fields.zip vs ↔ e ∈ values.entries) :
    vs = values.entries.map Prod.snd := by
  have hsub : values.entries ⊆ values.fields.zip vs := fun e he => (h e).mpr he
  have hlength := (List.subperm_of_subset (List.Nodup.of_map _ values.nodup) hsub).length_le
  have hge : values.fields.length ≤ vs.length := by
    rw [List.length_zip] at hlength
    rw [fields, List.length_map]
    omega
  have heq : values.fields.zip vs = values.entries :=
    eq_of_map_fst_eq values.nodup (List.map_fst_zip hge) fun e he => (h e).mp he
  rw [← heq, List.map_snd_zip hle]

end DistinctFields

section Converse

variable {key key' w : Bytes} {values : DistinctFields} {r : Run Hashes Bool} {ws : List Bytes}
  {fields : List Bytes}

/-- A NUL byte ends a format, but not in front of it. -/
theorem cString_append_blank {s : Bytes} (h : 0 ∉ s) (rest : Bytes) :
    cString (s ++ blank :: rest) = s ++ blank :: cString rest := by
  rw [cString, List.takeWhile_append_of_pos fun c hc => decide_eq_true (ne_of_mem_of_not_mem hc h)]
  rfl

/-- The name of the command is its first word. -/
theorem words_hmget_name {argv : List Bytes} (h : (hmgetCommand key fields).words = some argv) :
    ∃ ws, argv = text "HMGET" :: ws ∧
      scanFormat (cString (key ++ spaced fields)) [] none = some ws := by
  rw [hmgetCommand, Command.words, Format.words, spaced_cons, cString_append_blank plain_HMGET.nul,
    scanFormat_word plain_HMGET, scanFormat_blank] at h
  obtain ⟨ws, hws, rfl⟩ := Option.map_eq_some_iff.mp h
  exact ⟨ws, rfl, hws⟩

/-- A key that is the word behind the name is plain. -/
theorem plain_of_words (hfields : fields ≠ [])
    (h : (hmgetCommand key fields).words = some (text "HMGET" :: key :: ws)) :
    Plain key := by
  obtain ⟨hne, hblank, hnul⟩ := mem_words h (by simp : key ∈ _)
  refine ⟨hne, hblank, fun hpercent => ?_, hnul⟩
  obtain ⟨ws', hws', hscan⟩ := words_hmget_name h
  obtain rfl := (List.cons.inj hws').2
  obtain ⟨field, fields, rfl⟩ := List.exists_cons_of_ne_nil hfields
  rw [spaced_cons, cString_append_blank hnul, scanFormat_touch hne hblank] at hscan
  obtain ⟨w, ws', hws, -, hlt⟩ := scanFormat_first hblank hscan
  obtain ⟨rfl, -⟩ := List.cons.inj hws
  exact absurd (hlt hpercent) (by simp)

theorem cStrings_of_readsBack {σ : Type} {server : Server σ} {r : Run σ Bool} {conn : RedisConn σ}
    (h : ReadsBack server r key values conn) : CStrings values.entries := by
  obtain ⟨m, hm, pages, hscan⟩ := h.hscan 0
  obtain ⟨t, ht⟩ := hscan pages (Nat.le_refl pages)
  have hstrings : CStrings m := cStrings_scanFrom cStrings_nil ht
  exact fun e he => hstrings e ((hm e).mpr he)

/-- A command that the server does not carry out for any hashes has no success. -/
theorem simple_fails {cmd : Command}
    (h : ∀ argv hashes, cmd.words = some argv →
      execute scanAll hashes argv = some (wrongArguments, hashes)) (hashes : Hashes) :
    (HashServer.simple.server.command cmd hashes).1.isSuccess = false := by
  cases hwords : cmd.words with
  | none =>
      simp only [HashServer.simple, shown, hwords, Option.bind_none]
      rfl
  | some argv =>
      simp only [HashServer.simple, shown, hwords, Option.bind_some, h argv hashes hwords]
      rfl

/-- What is read by HMGET is that of a word for each field behind a word for the key. -/
theorem words_of_readsBack {conn : RedisConn Hashes} (hcontext : conn.context ≠ none)
    (h : ReadsBack HashServer.simple.server r key values conn) :
    ∃ key' w ws, (hmgetCommand key values.fields).words =
        some (text "HMGET" :: key' :: w :: ws) ∧
      (w :: ws).map (found (conn.server key')) = values.entries.map Prod.snd := by
  obtain ⟨m, answers, t, hread, hm⟩ := h.hmget
  by_cases hwords : ∃ key' w ws, (hmgetCommand key values.fields).words =
      some (text "HMGET" :: key' :: w :: ws)
  · obtain ⟨key', w, ws, hwords⟩ := hwords
    refine ⟨key', w, ws, hwords, ?_⟩
    obtain ⟨answers', t', hanswered⟩ := hmget_answered HashServer.simple r hcontext hwords
    rw [hread] at hanswered
    obtain ⟨hresult, -⟩ := Prod.mk.inj (Option.some.inj hanswered)
    split at hresult
    · next hle =>
      injection Except.ok.inj hresult with hvalue
      refine DistinctFields.eq_of_zip (by rwa [List.length_map]) fun e => ?_
      rw [← DistinctFields.mem_foldl_zip, ← (Prod.mk.inj hvalue).2, hm]
    · cases hresult
  · -- without a key and a field there is no success, and hmget returns false
    rw [hmget_eq_perform] at hread
    refine absurd (perform_failed (simple_fails fun argv hashes hargv => ?_) hread) (by simp)
    obtain ⟨ws, rfl, -⟩ := words_hmget_name hargv
    obtain _ | ⟨key', _ | ⟨w, ws⟩⟩ := ws
    · rfl
    · rfl
    · exact absurd ⟨key', w, ws, hargv⟩ hwords

/-- The connection after a write on the simple server -/
def afterWrite (hashes : Hashes) (key : Bytes) (values : DistinctFields) : RedisConn Hashes :=
  HashServer.after ⟨some ⟨false⟩, hashes, 0⟩ (written hashes key values.entries)

theorem afterWrite_hash {hashes : Hashes} (hempty : hashes key = ∅) :
    (afterWrite hashes key values).server key = values.hash := written_self hempty

theorem simple_readsBack (h : AlwaysReadsBack key values) (hne : values.entries ≠ [])
    {hashes : Hashes} (hempty : hashes key = ∅) : ∃ r : Run Hashes Bool,
      ReadsBack HashServer.simple.server r key values (afterWrite hashes key values) :=
  ⟨_, h HashServer.simple [] 0 ⟨some ⟨false⟩, hashes, 0⟩ _ _ hempty
    (hmset_answered hne (Option.some_ne_none _))⟩

theorem cString_valueOf (h : CStrings values.entries) (word : Bytes) :
    cString (values.valueOf word) = values.valueOf word := by
  cases hlookup : values.hash.lookup word with
  | none =>
      rw [DistinctFields.valueOf, hlookup]
      rfl
  | some value =>
      have hmem := DistinctFields.lookup_hash.mp hlookup
      rw [DistinctFields.valueOf_eq hmem]
      exact cString_self (h _ hmem).2

/-- The word behind the name is the key: other hashes may have anything for the word that comes
next. -/
theorem key_of_words (h : AlwaysReadsBack key values) (hne : values.entries ≠ [])
    (hstrings : CStrings values.entries)
    (hwords : (hmgetCommand key values.fields).words =
      some (text "HMGET" :: key' :: w :: ws)) : key' = key := by
  by_contra hkey
  obtain ⟨e, es, hentries⟩ := List.exists_cons_of_ne_nil hne
  have hmem : e ∈ values.entries := by simp [hentries]
  obtain ⟨hashes, hempty, hother⟩ : ∃ hashes : Hashes, hashes key = ∅ ∧
      (hashes key').lookup w = some (e.2 ++ [1]) :=
    ⟨Function.update (fun _ => ∅) key' (AList.insert w (e.2 ++ [1]) ∅),
      Function.update_of_ne (Ne.symm hkey) _ _, by rw [Function.update_self, AList.lookup_insert]⟩
  obtain ⟨r, hback⟩ := simple_readsBack h hne hempty
  -- the words are those of the command, whatever the hashes
  obtain ⟨key₁, w₁, ws₁, hwords₁, hread⟩ := words_of_readsBack (Option.some_ne_none _) hback
  rw [hwords] at hwords₁
  obtain ⟨rfl, rfl, rfl⟩ : key' = key₁ ∧ w = w₁ ∧ ws = ws₁ := by simpa using hwords₁
  have hsame : (afterWrite hashes key values).server key' = hashes key' :=
    Function.update_of_ne hkey _ _
  -- what is read for the first field is longer than what was written
  have hnul : 0 ∉ e.2 ++ [1] := by simp [(hstrings e hmem).2]
  rw [hsame, hentries, List.map_cons, List.map_cons, List.cons.injEq, found, hother,
    Option.getD_some, cString_self hnul] at hread
  simpa using congrArg List.length hread.1

/-- What is always read back is readable. -/
theorem readable_of_always (h : AlwaysReadsBack key values) (hne : values.entries ≠ []) :
    Readable key values := by
  obtain ⟨r, hback⟩ := @simple_readsBack key values h hne (fun _ => ∅) rfl
  have hstrings := cStrings_of_readsBack hback
  obtain ⟨key', w, ws, hwords, hread⟩ := words_of_readsBack (Option.some_ne_none _) hback
  obtain rfl := key_of_words h hne hstrings hwords
  have hkey : Plain key' := plain_of_words (by simpa [DistinctFields.fields] using hne) hwords
  refine ⟨hkey, hstrings, w :: ws, ?_, ?_⟩
  · rw [words_hmget hkey (DistinctFields.zero_notMem_fields hstrings)] at hwords
    obtain ⟨ws', hws', heq⟩ := Option.map_eq_some_iff.mp hwords
    rw [hws', (List.cons.inj (List.cons.inj heq).2).2]
  · have hhash : (afterWrite (fun _ => ∅) key' values).server key' = values.hash :=
      afterWrite_hash rfl
    have hforall : List.Forall₂ Eq ((w :: ws).map (found values.hash))
        (values.entries.map Prod.snd) := by
      rw [List.forall₂_eq_eq_eq, ← hhash]
      exact hread
    rw [List.forall₂_map_left_iff, List.forall₂_map_right_iff] at hforall
    exact hforall.imp fun w e he => (cString_valueOf hstrings w).symm.trans he

end Converse

/-- What was written into an empty hash is read back after every `hmset` that returns success if
and only if it is readable; `hmset` of nothing never does. -/
theorem readsBack_iff (key : Bytes) (values : DistinctFields) :
    AlwaysReadsBack key values ↔ values.entries = [] ∨ Readable key values := by
  constructor
  · intro h
    by_cases hne : values.entries = []
    · exact .inl hne
    · exact .inr (readable_of_always h hne)
  · intro h redis password fuel conn t answers hempty hwrite
    obtain ⟨hne, hcontext, hserver⟩ := hmset_written hwrite
    refine readsBack_of_readable (h.resolve_left hne) hne hcontext ?_
    rw [hserver, written_self hempty]

/-- One field -/
def DistinctFields.single (field value : Bytes) : DistinctFields :=
  ⟨[(field, value)], List.nodup_singleton field⟩

/-- A field of two words is not read back, and a value with a NUL byte is not either. -/
theorem not_alwaysReadsBack :
    ¬ AlwaysReadsBack (text "key")
      (.single (text "a b") (text "value")) ∧
    ¬ AlwaysReadsBack (text "key") (.single (text "field") [1, 0, 2]) := by
  constructor
  · intro h
    obtain ⟨ws, hws, hvalues⟩ := (readable_of_always h (List.cons_ne_nil _ _)).words
    have htwo : Format.words (spaced [text "a b"]) [] =
        some [text "a", text "b"] := by decide
    obtain rfl := Option.some.inj (hws.symm.trans htwo)
    cases hvalues.length_eq
  · intro h
    have hstrings := (readable_of_always h (List.cons_ne_nil _ _)).cStrings _ List.mem_cons_self
    exact hstrings.2 (by decide)

end BcmServer.Redis
