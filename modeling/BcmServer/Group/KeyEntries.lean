import BcmServer.Group.KeyMode
import BcmServer.Group.OnlineMembers
import BcmServer.Util.Json
import BcmServer.Util.Text
import Mathlib.Data.Finset.Card

/-!
# BcmServer.Group.KeyEntries — the keys that a device gets

The keys of a group are stored as a JSON text for each version. In a group that
makes keys for each member the text has an entry for every device, and
`onFetchGroupKeysV3` and `onFetchLatestGroupKeysV3` look for the one of the
caller. `keys_confined` says that the answer does not depend on the entries of
other devices, and that the two handlers give the same key for the latest
version.
-/

namespace BcmServer.Group

open BcmServer.Util

/-! ## The stored keys -/

structure GroupKeyEntryV0 where
  uid : Bytes := []
  deviceId : UInt32 := 0
  key : Bytes := []
deriving DecidableEq, Repr

structure GroupKeyEntryV1 where
  key : Bytes := []
deriving DecidableEq, Repr

structure GroupKeysJson where
  encryptVersion : Int32 := 0
  keysV0 : List GroupKeyEntryV0 := []
  keysV1 : GroupKeyEntryV1 := {}
deriving DecidableEq, Repr

/-- `from_json` of an entry -/
def GroupKeyEntryV0.fromJson (j : Json) : Except JsonError GroupKeyEntryV0 := do
  let uid ← j.toString "uid"
  let deviceId ← j.toNumber Json.getUInt32 lexicalUInt32 "device_id"
  let key ← j.toString "key"
  return ⟨uid, deviceId, key⟩

/-- `from_json` of an entry -/
def GroupKeyEntryV1.fromJson (j : Json) : Except JsonError GroupKeyEntryV1 := do
  let key ← j.toString "key"
  return ⟨key⟩

/-- `from_json` of the keys -/
def GroupKeysJson.fromJson (j : Json) : Except JsonError GroupKeysJson := do
  let encryptVersion ← j.toNumber Json.getInt lexicalInt32 "encrypt_version"
  let keysV0 ← j.toGeneric (Json.getList GroupKeyEntryV0.fromJson) "keys_v0"
  let keysV1 ← j.toGeneric GroupKeyEntryV1.fromJson "keys_v1"
  return ⟨encryptVersion, keysV0, keysV1⟩

/-- `GroupKeys`, a row of the table -/
structure GroupKeys where
  gid : Gid
  version : ℤ
  mode : GroupKeysMode
  groupkeys : Bytes
deriving DecidableEq, Repr

/-- The table of group keys -/
structure GroupKeysTable where
  rows : List GroupKeys
  nodup : (rows.map fun r => (r.gid, r.version)).Nodup := by decide

namespace GroupKeysTable

/-- `dao::GroupKeys::get` -/
def get (t : GroupKeysTable) (gid : Gid) (versions : Finset ℤ) : List GroupKeys :=
  t.rows.filter fun r => r.gid = gid ∧ r.version ∈ versions

/-- No version of the group is later. -/
def isLatest (t : GroupKeysTable) (r : GroupKeys) : Bool :=
  t.rows.all fun r' => r'.gid ≠ r.gid ∨ r'.version ≤ r.version

/-- `dao::GroupKeys::getLatestGroupKeys` -/
def getLatestGroupKeys (t : GroupKeysTable) (gids : Finset Gid) : List GroupKeys :=
  t.rows.filter fun r => r.gid ∈ gids ∧ t.isLatest r = true

end GroupKeysTable

/-! ## The handlers -/

/-- What a read gives -/
inductive Fetched (α : Type) where
  | success (a : α)
  | noSuchData
  | failed
deriving DecidableEq, Repr

/-- The rows that a query finds, unless it fails -/
def fetched (fails : Bool) (rows : List GroupKeys) : Fetched (List GroupKeys) :=
  if fails then .failed else if rows.isEmpty then .noSuchData else .success rows

/-- The caller, and what the other reads of the handlers give -/
structure FetchContext where
  uid : Bytes
  deviceId : UInt32
  /-- `getMember` -/
  member : Gid → Fetched Unit
  /-- `getJoinedGroups`, without a value if it fails -/
  joinedGids : Option (List Gid)
  /-- the read of the keys fails -/
  keysFail : Bool

/-- `FetchGroupKeysResponseKey` -/
structure FetchGroupKeysResponseKey where
  version : ℤ
  encryptVersion : Int32
  groupKeysMode : GroupKeysMode
  keysV0 : GroupKeyEntryV0 := {}
  keysV1 : GroupKeyEntryV1 := {}
deriving DecidableEq, Repr

/-- `FetchLatestGroupKeysResponseKey` -/
structure FetchLatestGroupKeysResponseKey where
  gid : Gid
  key : FetchGroupKeysResponseKey
deriving DecidableEq, Repr

/-- `FetchGroupKeysResponse` -/
structure FetchGroupKeysResponse where
  gid : Gid
  keys : List FetchGroupKeysResponseKey
deriving DecidableEq, Repr

/-- `FetchLatestGroupKeysResponse` -/
structure FetchLatestGroupKeysResponse where
  keys : List FetchLatestGroupKeysResponseKey
deriving DecidableEq, Repr

/-- The status and the entity of a response -/
structure KeysResponse (α : Type) where
  status : ℕ
  entity : Option α := none
deriving DecidableEq, Repr

/-- `kMaxGroupBatchCommonV3` -/
def kMaxGroupBatchCommonV3 : ℕ := 10

/-- `kMaxGroupBatchFetchLatestKeysV3` -/
def kMaxGroupBatchFetchLatestKeysV3 : ℕ := 5

section

-- `nlohmann::json::parse`
variable (parse : Bytes → Option Json)

/-- `JsonSerializerImp<GroupKeysJson>::deserialize` -/
def deserializeKeys (text : Bytes) : Option GroupKeysJson :=
  match parse text with
  | some (.object fields) => (GroupKeysJson.fromJson (.object fields)).toOption
  | _ => none

/-- The entry is the one of the device. -/
def GroupKeyEntryV0.isOf (uid : Bytes) (deviceId : UInt32) (e : GroupKeyEntryV0) : Bool :=
  e.uid == uid && e.deviceId == deviceId

/-- The key of a row for a device, if it has one. -/
def responseKey (uid : Bytes) (deviceId : UInt32) (row : GroupKeys) (k : GroupKeysJson) :
    Option FetchGroupKeysResponseKey :=
  let key : FetchGroupKeysResponseKey := ⟨row.version, k.encryptVersion, row.mode, {}, {}⟩
  match row.mode with
  | .allTheSame => some { key with keysV1 := k.keysV1 }
  | .oneForEach =>
      (k.keysV0.find? (GroupKeyEntryV0.isOf uid deviceId)).map fun e => { key with keysV0 := e }
  | .unknown | .other _ => some key

/-- The loop over the rows: the keys with their groups. A text that is no keys makes
the response fail. -/
def collectKeys (uid : Bytes) (deviceId : UInt32) :
    List GroupKeys → Option (List FetchLatestGroupKeysResponseKey)
  | [] => some []
  | row :: rows =>
      match deserializeKeys parse row.groupkeys with
      | none => none
      | some k =>
          (collectKeys uid deviceId rows).map fun keys =>
            ((responseKey uid deviceId row k).map fun key => ⟨row.gid, key⟩).toList ++ keys

/-- `GroupManagerController::onFetchLatestGroupKeysV3` -/
def onFetchLatestGroupKeysV3 (t : GroupKeysTable) (ctx : FetchContext) (gids : Finset Gid) :
    KeysResponse FetchLatestGroupKeysResponse :=
  if kMaxGroupBatchFetchLatestKeysV3 < gids.card then { status := 400 }
  else
    match ctx.joinedGids with
    | none => { status := 500 }
    | some joinedGids =>
        if ∃ gid ∈ gids, gid ∉ joinedGids then { status := 403 }
        else
          match fetched ctx.keysFail (t.getLatestGroupKeys gids) with
          | .noSuchData => { status := 200, entity := some ⟨[]⟩ }
          | .failed => { status := 500 }
          | .success rows =>
              match collectKeys parse ctx.uid ctx.deviceId rows with
              | none => { status := 500 }
              | some keys => { status := 200, entity := some ⟨keys⟩ }

/-- `GroupManagerController::onFetchGroupKeysV3` -/
def onFetchGroupKeysV3 (t : GroupKeysTable) (ctx : FetchContext) (gid : Gid)
    (versions : Finset ℤ) : KeysResponse FetchGroupKeysResponse :=
  if kMaxGroupBatchCommonV3 < versions.card then { status := 400 }
  else
    match ctx.member gid with
    | .noSuchData => { status := 403 }
    | .failed => { status := 500 }
    | .success _ =>
        match fetched ctx.keysFail (t.get gid versions) with
        | .noSuchData => { status := 200, entity := some ⟨gid, []⟩ }
        | .failed => { status := 500 }
        | .success rows =>
            match collectKeys parse ctx.uid ctx.deviceId rows with
            | none => { status := 500 }
            | some keys => { status := 200, entity := some ⟨gid, keys.map fun k => k.key⟩ }

/-! ## Other devices' entries -/

/-- The keys differ in the entries of other devices only. What a mode does not read
may differ too. -/
structure SameKeys (uid : Bytes) (deviceId : UInt32) (mode : GroupKeysMode) (k k' : GroupKeysJson) :
    Prop where
  encryptVersion : k.encryptVersion = k'.encryptVersion
  own : k.keysV0.filter (GroupKeyEntryV0.isOf uid deviceId) =
    k'.keysV0.filter (GroupKeyEntryV0.isOf uid deviceId)
  common : mode = .allTheSame → k.keysV1 = k'.keysV1

/-- The texts of two rows are both no keys, or they differ in the entries of other
devices only. -/
structure SameRow (uid : Bytes) (deviceId : UInt32) (r r' : GroupKeys) : Prop where
  gid : r.gid = r'.gid
  version : r.version = r'.version
  mode : r.mode = r'.mode
  keys : Option.Rel (SameKeys uid deviceId r.mode) (deserializeKeys parse r.groupkeys)
    (deserializeKeys parse r'.groupkeys)

theorem responseKey_congr {uid : Bytes} {deviceId : UInt32} {r r' : GroupKeys}
    (hversion : r.version = r'.version) (hmode : r.mode = r'.mode) {k k' : GroupKeysJson}
    (h : SameKeys uid deviceId r.mode k k') :
    responseKey uid deviceId r k = responseKey uid deviceId r' k' := by
  have hfind : k.keysV0.find? (GroupKeyEntryV0.isOf uid deviceId) =
      k'.keysV0.find? (GroupKeyEntryV0.isOf uid deviceId) := by
    rw [← List.head?_filter, ← List.head?_filter, h.own]
  unfold responseKey
  rw [← hversion, ← hmode, h.encryptVersion, hfind]
  cases hm : r.mode with
  | allTheSame =>
      have hcommon : k.keysV1 = k'.keysV1 := h.common hm
      simp only [hcommon]
  | oneForEach => rfl
  | unknown => rfl
  | other n => rfl

theorem collectKeys_congr {uid : Bytes} {deviceId : UInt32} {rows rows' : List GroupKeys}
    (h : List.Forall₂ (SameRow parse uid deviceId) rows rows') :
    collectKeys parse uid deviceId rows = collectKeys parse uid deviceId rows' := by
  induction h with
  | nil => rfl
  | @cons r r' rows rows' hrow _ ih =>
      have hkeys := hrow.keys
      rw [collectKeys, collectKeys, ih]
      cases hr : deserializeKeys parse r.groupkeys with
      | none =>
          rw [hr] at hkeys
          cases hr' : deserializeKeys parse r'.groupkeys with
          | none => rfl
          | some k' =>
              rw [hr'] at hkeys
              cases hkeys
      | some k =>
          rw [hr] at hkeys
          cases hr' : deserializeKeys parse r'.groupkeys with
          | none =>
              rw [hr'] at hkeys
              cases hkeys
          | some k' =>
              rw [hr'] at hkeys
              cases hkeys with
              | some hsame =>
                  simp only [responseKey_congr hrow.version hrow.mode hsame, hrow.gid]

/-- Queries choose rows by group and version, which are the same. -/
theorem filter_congr {uid : Bytes} {deviceId : UInt32} {rows rows' : List GroupKeys}
    (h : List.Forall₂ (SameRow parse uid deviceId) rows rows') {p p' : GroupKeys → Bool}
    (hp : ∀ r r', SameRow parse uid deviceId r r' → p r = p' r') :
    List.Forall₂ (SameRow parse uid deviceId) (rows.filter p) (rows'.filter p') := by
  induction h with
  | nil => exact .nil
  | @cons r r' rows rows' hrow _ ih =>
      rw [List.filter_cons, List.filter_cons, hp r r' hrow]
      split
      · exact .cons hrow ih
      · exact ih

theorem isLatest_congr {uid : Bytes} {deviceId : UInt32} {t t' : GroupKeysTable}
    (h : List.Forall₂ (SameRow parse uid deviceId) t.rows t'.rows) {r r' : GroupKeys}
    (hrow : SameRow parse uid deviceId r r') : t.isLatest r = t'.isLatest r' := by
  unfold GroupKeysTable.isLatest
  rw [hrow.gid, hrow.version]
  generalize t.rows = rows at h ⊢
  generalize t'.rows = rows' at h ⊢
  induction h with
  | nil => rfl
  | @cons a a' rows rows' ha _ ih => rw [List.all_cons, List.all_cons, ih, ha.gid, ha.version]

theorem fetched_congr {uid : Bytes} {deviceId : UInt32} {rows rows' : List GroupKeys}
    (h : List.Forall₂ (SameRow parse uid deviceId) rows rows') (fails : Bool) :
    fetched fails rows = .failed ∧ fetched fails rows' = .failed ∨
      fetched fails rows = .noSuchData ∧ fetched fails rows' = .noSuchData ∨
        fetched fails rows = .success rows ∧ fetched fails rows' = .success rows' := by
  cases fails with
  | true => exact .inl ⟨rfl, rfl⟩
  | false =>
      cases h with
      | nil => exact .inr (.inl ⟨rfl, rfl⟩)
      | cons hrow hrows => exact .inr (.inr ⟨rfl, rfl⟩)

/-- The two tables differ in the entries of other devices only. -/
def SameTable (uid : Bytes) (deviceId : UInt32) (t t' : GroupKeysTable) : Prop :=
  List.Forall₂ (SameRow parse uid deviceId) t.rows t'.rows

theorem onFetchGroupKeysV3_congr {t t' : GroupKeysTable} {ctx : FetchContext}
    (h : SameTable parse ctx.uid ctx.deviceId t t') (gid : Gid) (versions : Finset ℤ) :
    onFetchGroupKeysV3 parse t ctx gid versions = onFetchGroupKeysV3 parse t' ctx gid versions := by
  have hrows : List.Forall₂ (SameRow parse ctx.uid ctx.deviceId) (t.get gid versions)
      (t'.get gid versions) :=
    filter_congr parse h fun r r' hrow => by rw [hrow.gid, hrow.version]
  unfold onFetchGroupKeysV3
  obtain ⟨hf, hf'⟩ | ⟨hf, hf'⟩ | ⟨hf, hf'⟩ := fetched_congr parse hrows ctx.keysFail
  · rw [hf, hf']
  · rw [hf, hf']
  · rw [hf, hf']
    simp only [collectKeys_congr parse hrows]

theorem onFetchLatestGroupKeysV3_congr {t t' : GroupKeysTable} {ctx : FetchContext}
    (h : SameTable parse ctx.uid ctx.deviceId t t') (gids : Finset Gid) :
    onFetchLatestGroupKeysV3 parse t ctx gids = onFetchLatestGroupKeysV3 parse t' ctx gids := by
  have hrows : List.Forall₂ (SameRow parse ctx.uid ctx.deviceId) (t.getLatestGroupKeys gids)
      (t'.getLatestGroupKeys gids) :=
    filter_congr parse h fun r r' hrow => by rw [hrow.gid, isLatest_congr parse h hrow]
  unfold onFetchLatestGroupKeysV3
  obtain ⟨hf, hf'⟩ | ⟨hf, hf'⟩ | ⟨hf, hf'⟩ := fetched_congr parse hrows ctx.keysFail
  · rw [hf, hf']
  · rw [hf, hf']
  · rw [hf, hf']
    simp only [collectKeys_congr parse hrows]

/-! ## The latest version -/

omit parse in
theorem responseKey_version {uid : Bytes} {deviceId : UInt32} {row : GroupKeys} {k : GroupKeysJson}
    {key : FetchGroupKeysResponseKey} (h : responseKey uid deviceId row k = some key) :
    key.version = row.version := by
  unfold responseKey at h
  cases hm : row.mode with
  | oneForEach =>
      rw [hm] at h
      obtain ⟨e, -, rfl⟩ := Option.map_eq_some_iff.mp h
      rfl
  | allTheSame =>
      rw [hm] at h
      cases h
      rfl
  | unknown =>
      rw [hm] at h
      cases h
      rfl
  | other n =>
      rw [hm] at h
      cases h
      rfl

/-- The keys of some of the rows are the keys with their groups and versions. -/
theorem collectKeys_filter {uid : Bytes} {deviceId : UInt32} {rows : List GroupKeys}
    {keys : List FetchLatestGroupKeysResponseKey} (p : Gid → ℤ → Bool)
    (h : collectKeys parse uid deviceId rows = some keys) :
    collectKeys parse uid deviceId (rows.filter fun r => p r.gid r.version) =
      some (keys.filter fun k => p k.gid k.key.version) := by
  induction rows generalizing keys with
  | nil =>
      cases h
      rfl
  | cons row rows ih =>
      rw [collectKeys] at h
      cases hk : deserializeKeys parse row.groupkeys with
      | none =>
          rw [hk] at h
          cases h
      | some k =>
          rw [hk] at h
          obtain ⟨rest, hrest, rfl⟩ := Option.map_eq_some_iff.mp h
          -- the key of the row has its group and version
          have hown : ∀ b, p row.gid row.version = b →
              (((responseKey uid deviceId row k).map fun key =>
                (⟨row.gid, key⟩ : FetchLatestGroupKeysResponseKey)).toList.filter fun k =>
                  p k.gid k.key.version) =
                if b then ((responseKey uid deviceId row k).map fun key => ⟨row.gid, key⟩).toList
                else [] := by
            intro b hb
            cases hkey : responseKey uid deviceId row k with
            | none => cases b <;> rfl
            | some key => cases b <;> simp [responseKey_version hkey, hb]
          rw [List.filter_append, List.filter_cons]
          cases hp : p row.gid row.version with
          | true =>
              rw [if_pos rfl, collectKeys, hk, ih hrest, hown true hp]
              rfl
          | false =>
              rw [if_neg Bool.false_ne_true, ih hrest, hown false hp]
              rfl

/-- The latest version of a group -/
def LatestVersion (t : GroupKeysTable) (gid : Gid) (version : ℤ) : Prop :=
  (∃ r ∈ t.rows, r.gid = gid ∧ r.version = version) ∧
    ∀ r ∈ t.rows, r.gid = gid → r.version ≤ version

omit parse in
/-- Both queries find the row of the latest version. -/
theorem latest_rows {t : GroupKeysTable} {gid : Gid} {version : ℤ}
    (h : LatestVersion t gid version) {gids : Finset Gid} (hgid : gid ∈ gids)
    {versions : Finset ℤ} (hversion : version ∈ versions) :
    ((t.get gid versions).filter fun r => decide (r.gid = gid ∧ r.version = version)) =
      (t.getLatestGroupKeys gids).filter fun r => decide (r.gid = gid ∧ r.version = version) := by
  obtain ⟨-, hmax⟩ := h
  unfold GroupKeysTable.get GroupKeysTable.getLatestGroupKeys
  rw [List.filter_filter, List.filter_filter]
  refine List.filter_congr fun r hr => ?_
  by_cases hrow : r.gid = gid ∧ r.version = version
  · obtain ⟨rfl, rfl⟩ := hrow
    have hlatest : t.isLatest r = true := by
      unfold GroupKeysTable.isLatest
      rw [List.all_eq_true]
      intro r' hr'
      rw [decide_eq_true_eq]
      by_cases hsame : r'.gid = r.gid
      · exact .inr (hmax r' hr' hsame)
      · exact .inl hsame
    simp [hgid, hversion, hlatest]
  · simp [hrow]

omit parse in
theorem LatestVersion.get_ne_nil {t : GroupKeysTable} {gid : Gid} {version : ℤ}
    (h : LatestVersion t gid version) {versions : Finset ℤ} (hversion : version ∈ versions) :
    t.get gid versions ≠ [] := by
  obtain ⟨⟨r, hr, rfl, rfl⟩, -⟩ := h
  have hmem : r ∈ t.get r.gid versions := by simp [GroupKeysTable.get, hr, hversion]
  exact List.ne_nil_of_mem hmem

omit parse in
theorem fetched_of_ne_nil {rows : List GroupKeys} (hrows : rows ≠ []) (fails : Bool) :
    fetched fails rows = .failed ∨ fetched fails rows = .success rows := by
  cases fails with
  | true => exact .inl rfl
  | false =>
      right
      unfold fetched
      rw [if_neg Bool.false_ne_true, if_neg]
      simpa using hrows

/-- What a response with keys was made of -/
theorem onFetchGroupKeysV3_keys {t : GroupKeysTable} {ctx : FetchContext} {gid : Gid}
    {versions : Finset ℤ} {keys : List FetchGroupKeysResponseKey}
    (hrows : t.get gid versions ≠ [])
    (h : onFetchGroupKeysV3 parse t ctx gid versions = ⟨200, some ⟨gid, keys⟩⟩) :
    ∃ collected, collectKeys parse ctx.uid ctx.deviceId (t.get gid versions) = some collected ∧
      keys = collected.map fun k => k.key := by
  unfold onFetchGroupKeysV3 at h
  split at h
  · cases h
  · cases hmember : ctx.member gid with
    | noSuchData =>
        rw [hmember] at h
        cases h
    | failed =>
        rw [hmember] at h
        cases h
    | success _ =>
        rw [hmember] at h
        obtain hf | hf := fetched_of_ne_nil hrows ctx.keysFail
        · rw [hf] at h
          cases h
        · rw [hf] at h
          dsimp only at h
          cases hc : collectKeys parse ctx.uid ctx.deviceId (t.get gid versions) with
          | none =>
              rw [hc] at h
              cases h
          | some collected =>
              rw [hc] at h
              cases h
              exact ⟨collected, rfl, rfl⟩

/-- What a response with keys was made of -/
theorem onFetchLatestGroupKeysV3_keys {t : GroupKeysTable} {ctx : FetchContext}
    {gids : Finset Gid} {keys : List FetchLatestGroupKeysResponseKey}
    (h : onFetchLatestGroupKeysV3 parse t ctx gids = ⟨200, some ⟨keys⟩⟩) :
    collectKeys parse ctx.uid ctx.deviceId (t.getLatestGroupKeys gids) = some keys := by
  unfold onFetchLatestGroupKeysV3 at h
  split at h
  · cases h
  · cases hjoined : ctx.joinedGids with
    | none =>
        rw [hjoined] at h
        cases h
    | some joinedGids =>
        rw [hjoined] at h
        dsimp only at h
        split at h
        · cases h
        · by_cases hrows : t.getLatestGroupKeys gids = []
          · rw [hrows] at h ⊢
            cases hfail : ctx.keysFail with
            | true =>
                rw [hfail] at h
                cases h
            | false =>
                rw [hfail] at h
                cases h
                rfl
          · obtain hf | hf := fetched_of_ne_nil hrows ctx.keysFail
            · rw [hf] at h
              cases h
            · rw [hf] at h
              dsimp only at h
              cases hc : collectKeys parse ctx.uid ctx.deviceId (t.getLatestGroupKeys gids) with
              | none =>
                  rw [hc] at h
                  cases h
              | some collected =>
                  rw [hc] at h
                  cases h
                  rfl

/-- The keys of a list of rows are of their groups and versions. -/
theorem collectKeys_forall {uid : Bytes} {deviceId : UInt32} {rows : List GroupKeys}
    {keys : List FetchLatestGroupKeysResponseKey} {p : Gid → ℤ → Bool}
    (h : collectKeys parse uid deviceId rows = some keys)
    (hp : ∀ r ∈ rows, p r.gid r.version = true) : ∀ k ∈ keys, p k.gid k.key.version = true := by
  have hall : (rows.filter fun r => p r.gid r.version) = rows := List.filter_eq_self.mpr hp
  have hkeys := collectKeys_filter parse p h
  rw [hall, h, Option.some.injEq] at hkeys
  exact List.filter_eq_self.mp hkeys.symm

/-- The latest rows of a group are of its latest version. -/
theorem latest_keys {t : GroupKeysTable} {gid : Gid} {version : ℤ}
    (h : LatestVersion t gid version) {uid : Bytes} {deviceId : UInt32} {gids : Finset Gid}
    {keys : List FetchLatestGroupKeysResponseKey}
    (hkeys : collectKeys parse uid deviceId (t.getLatestGroupKeys gids) = some keys) :
    (keys.filter fun k => decide (k.gid = gid)) =
      keys.filter fun k => decide (k.gid = gid ∧ k.key.version = version) := by
  obtain ⟨⟨r₀, hr₀, hgid₀, hversion₀⟩, hmax⟩ := h
  have hrows : ∀ r ∈ t.getLatestGroupKeys gids,
      decide (r.gid = gid → r.version = version) = true := by
    intro r hr
    obtain ⟨hmem, hlatest⟩ := List.mem_filter.mp hr
    simp only [decide_eq_true_eq] at hlatest ⊢
    intro hgid
    have hle : r.version ≤ version := hmax r hmem hgid
    have hge := List.all_eq_true.mp hlatest.2 r₀ hr₀
    simp only [decide_eq_true_eq] at hge
    obtain hne | hge := hge
    · exact absurd (hgid₀.trans hgid.symm) hne
    · omega
  have hversions := collectKeys_forall parse (p := fun g w => decide (g = gid → w = version))
    hkeys hrows
  refine List.filter_congr fun k hk => ?_
  have hk' := hversions k hk
  simp only [decide_eq_true_eq] at hk'
  rw [decide_eq_decide]
  exact ⟨fun hgid => ⟨hgid, hk' hgid⟩, fun hboth => hboth.1⟩

/-- The two handlers find the same key for the latest version. -/
theorem latest_key_eq {t : GroupKeysTable} {ctx ctx' : FetchContext} (huid : ctx.uid = ctx'.uid)
    (hdevice : ctx.deviceId = ctx'.deviceId) {gid : Gid} {version : ℤ}
    (hlatest : LatestVersion t gid version) {versions : Finset ℤ} (hversion : version ∈ versions)
    {gids : Finset Gid} (hgid : gid ∈ gids) {keys : List FetchGroupKeysResponseKey}
    {latestKeys : List FetchLatestGroupKeysResponseKey}
    (h : onFetchGroupKeysV3 parse t ctx gid versions = ⟨200, some ⟨gid, keys⟩⟩)
    (h' : onFetchLatestGroupKeysV3 parse t ctx' gids = ⟨200, some ⟨latestKeys⟩⟩) :
    (keys.filter fun k => decide (k.version = version)) =
      (latestKeys.filter fun k => decide (k.gid = gid)).map fun k => k.key := by
  obtain ⟨collected, hcollected, rfl⟩ :=
    onFetchGroupKeysV3_keys parse (hlatest.get_ne_nil hversion) h
  have hkeys := onFetchLatestGroupKeysV3_keys parse h'
  rw [← huid, ← hdevice] at hkeys
  -- both lists of keys are collected from the row of the latest version
  have hown := collectKeys_filter parse (fun g w => decide (g = gid ∧ w = version)) hcollected
  have hother := collectKeys_filter parse (fun g w => decide (g = gid ∧ w = version)) hkeys
  rw [latest_rows hlatest hgid hversion, hother, Option.some.injEq] at hown
  have hgids := collectKeys_forall parse (p := fun g _ => decide (g = gid)) hcollected
    (by
      intro r hr
      have hr' := (List.mem_filter.mp hr).2
      simp only [decide_eq_true_eq] at hr' ⊢
      exact hr'.1)
  rw [latest_keys parse hlatest hkeys, hown, List.filter_map]
  congr 1
  refine List.filter_congr fun k hk => ?_
  have hk' := hgids k hk
  simp only [decide_eq_true_eq] at hk'
  simp [hk']

/-- The answers of both handlers are the same in tables that differ in the entries of other
devices, and they have the same key for the latest version. -/
theorem keys_confined :
    (∀ t t' ctx, SameTable parse ctx.uid ctx.deviceId t t' →
      (∀ gid versions, onFetchGroupKeysV3 parse t ctx gid versions =
        onFetchGroupKeysV3 parse t' ctx gid versions) ∧
      ∀ gids, onFetchLatestGroupKeysV3 parse t ctx gids =
        onFetchLatestGroupKeysV3 parse t' ctx gids) ∧
    ∀ t ctx ctx', ctx.uid = ctx'.uid → ctx.deviceId = ctx'.deviceId →
      ∀ gid version, LatestVersion t gid version →
        ∀ versions, version ∈ versions → ∀ gids, gid ∈ gids → ∀ keys latestKeys,
          onFetchGroupKeysV3 parse t ctx gid versions = ⟨200, some ⟨gid, keys⟩⟩ →
          onFetchLatestGroupKeysV3 parse t ctx' gids = ⟨200, some ⟨latestKeys⟩⟩ →
          (keys.filter fun k => decide (k.version = version)) =
            (latestKeys.filter fun k => decide (k.gid = gid)).map fun k => k.key := by
  constructor
  · intro t t' ctx h
    exact ⟨onFetchGroupKeysV3_congr parse h, onFetchLatestGroupKeysV3_congr parse h⟩
  · intro t ctx ctx' huid hdevice gid version hlatest versions hversion gids hgid keys latestKeys
    exact latest_key_eq parse huid hdevice hlatest hversion hgid

end

/-- The keys of the devices of `u` and `w` -/
def twoKeysText : Bytes :=
  ascii "\x7b\x22encrypt_version\x22:1,\x22keys_v0\x22:[".toList ++
    ascii "\x7b\x22device_id\x22:1,\x22key\x22:\x22a\x22,\x22uid\x22:\x22u\x22\x7d,".toList ++
    ascii "\x7b\x22device_id\x22:1,\x22key\x22:\x22b\x22,\x22uid\x22:\x22w\x22\x7d],".toList ++
    ascii "\x22keys_v1\x22:\x7b\x22key\x22:\x22\x22\x7d\x7d".toList

def twoKeysJson : Json :=
  .object [("encrypt_version", .number 1), ("keys_v0", .array [
    .object [("device_id", .number 1), ("key", .string [97]), ("uid", .string [117])],
    .object [("device_id", .number 1), ("key", .string [98]), ("uid", .string [119])]]),
    ("keys_v1", .object [("key", .string [])])]

/-- The key of the device of `u`, with one of another device of it -/
def otherKeysText : Bytes :=
  ascii "\x7b\x22encrypt_version\x22:1,\x22keys_v0\x22:[".toList ++
    ascii "\x7b\x22device_id\x22:2,\x22key\x22:\x22c\x22,\x22uid\x22:\x22u\x22\x7d,".toList ++
    ascii "\x7b\x22device_id\x22:1,\x22key\x22:\x22a\x22,\x22uid\x22:\x22u\x22\x7d],".toList ++
    ascii "\x22keys_v1\x22:\x7b\x22key\x22:\x22\x22\x7d\x7d".toList

def otherKeysJson : Json :=
  .object [("encrypt_version", .number 1), ("keys_v0", .array [
    .object [("device_id", .number 2), ("key", .string [99]), ("uid", .string [117])],
    .object [("device_id", .number 1), ("key", .string [97]), ("uid", .string [117])]]),
    ("keys_v1", .object [("key", .string [])])]

/-- The parser on the two texts -/
def parseKeys (text : Bytes) : Option Json :=
  if text = twoKeysText then some twoKeysJson
  else if text = otherKeysText then some otherKeysJson
  else none

/-- Group 7 with a version 3 -/
def keysTable (text : Bytes) : GroupKeysTable := ⟨[⟨7, 3, .oneForEach, text⟩], by simp⟩

/-- The device 1 of `u`, a member of group 7 -/
def deviceOfU : FetchContext where
  uid := [117]
  deviceId := 1
  member := fun gid => if gid = 7 then .success () else .noSuchData
  joinedGids := some [7]
  keysFail := false

/-- Its key -/
def keyOfU : FetchGroupKeysResponseKey where
  version := 3
  encryptVersion := 1
  groupKeysMode := .oneForEach
  keysV0 := ⟨[117], 1, [97]⟩

theorem deserializeKeys_two : deserializeKeys parseKeys twoKeysText =
    some ⟨1, [⟨[117], 1, [97]⟩, ⟨[119], 1, [98]⟩], ⟨[]⟩⟩ := by
  have hparse : parseKeys twoKeysText = some twoKeysJson := if_pos rfl
  unfold deserializeKeys
  rw [hparse]
  rfl

theorem deserializeKeys_other : deserializeKeys parseKeys otherKeysText =
    some ⟨1, [⟨[117], 2, [99]⟩, ⟨[117], 1, [97]⟩], ⟨[]⟩⟩ := by
  have hparse : parseKeys otherKeysText = some otherKeysJson := by
    unfold parseKeys
    rw [if_neg (by decide +kernel), if_pos rfl]
  unfold deserializeKeys
  rw [hparse]
  rfl

theorem keysTable_same :
    SameTable parseKeys deviceOfU.uid deviceOfU.deviceId (keysTable twoKeysText)
      (keysTable otherKeysText) := by
  have hrow : SameRow parseKeys [117] 1 ⟨7, 3, .oneForEach, twoKeysText⟩
      ⟨7, 3, .oneForEach, otherKeysText⟩ := by
    refine ⟨rfl, rfl, rfl, ?_⟩
    dsimp only
    rw [deserializeKeys_two, deserializeKeys_other]
    exact .some ⟨rfl, by decide, fun h => nomatch h⟩
  exact .cons hrow .nil

theorem keysTable_latest : LatestVersion (keysTable twoKeysText) 7 3 := by
  constructor
  · exact ⟨_, List.mem_singleton_self _, rfl, rfl⟩
  · intro r hr hgid
    rw [List.mem_singleton.mp hr]

theorem keys_confined_two :
    onFetchGroupKeysV3 parseKeys (keysTable otherKeysText) deviceOfU 7 {3} =
        ⟨200, some ⟨7, [keyOfU]⟩⟩ ∧
      [keyOfU].filter (fun k => decide (k.version = 3)) =
        ([⟨7, keyOfU⟩].filter fun k : FetchLatestGroupKeysResponseKey => decide (k.gid = 7)).map
          fun k => k.key := by
  have hkeys : collectKeys parseKeys [117] 1 [⟨7, 3, .oneForEach, twoKeysText⟩] =
      some [⟨7, keyOfU⟩] := by
    rw [collectKeys, deserializeKeys_two]
    rfl
  have hfetch : onFetchGroupKeysV3 parseKeys (keysTable twoKeysText) deviceOfU 7 {3} =
      ⟨200, some ⟨7, [keyOfU]⟩⟩ := by
    have hrows : (keysTable twoKeysText).get 7 {3} = [⟨7, 3, .oneForEach, twoKeysText⟩] := by
      simp [keysTable, GroupKeysTable.get]
    unfold onFetchGroupKeysV3
    rw [hrows]
    simp [deviceOfU, fetched, kMaxGroupBatchCommonV3, hkeys]
  have hlatest : onFetchLatestGroupKeysV3 parseKeys (keysTable twoKeysText) deviceOfU {7} =
      ⟨200, some ⟨[⟨7, keyOfU⟩]⟩⟩ := by
    have hrows : (keysTable twoKeysText).getLatestGroupKeys {7} =
        [⟨7, 3, .oneForEach, twoKeysText⟩] := by
      simp [keysTable, GroupKeysTable.getLatestGroupKeys, GroupKeysTable.isLatest]
    unfold onFetchLatestGroupKeysV3
    rw [hrows]
    simp [deviceOfU, fetched, kMaxGroupBatchFetchLatestKeysV3, hkeys]
  constructor
  · rw [← ((keys_confined parseKeys).1 _ _ _ keysTable_same).1, hfetch]
  · exact (keys_confined parseKeys).2 _ _ _ rfl rfl 7 3 keysTable_latest _
      (Finset.mem_singleton_self 3) _ (Finset.mem_singleton_self 7) _ _ hfetch hlatest

end BcmServer.Group
