import BcmServer.Redis.HashReply
import BcmServer.Util.Json
import BcmServer.Util.Newest

/-!
# BcmServer.Offline.GroupUserMsg — what has been pushed to the users of a group

For each group a hash in every redis database has a record for each user: the
last message that was pushed, and how to push to the user. A broadcast reads the
whole hash with a cursor (`dbScanGroupUserMsgList`), a multicast the records of
some users (`dbHmgetRedisGroupUserMsg`). Both go through the databases and keep
the record with the highest `last_mid`.

* `scan_hmget_agree`: for users whose names are words and a hash whose fields are
  C strings the two give the same records, those with the highest `last_mid` over
  all databases, in whatever order these and the pages of a scan come.
* `hmget_misplaces`: with a user of the empty name among them, HMGET is asked for
  one user less, and the others get each other's records.
-/

namespace BcmServer.Offline

open BcmServer.Util BcmServer.Redis

/-- `GroupUserMessageIdInfo` -/
structure GroupUserMessageIdInfo where
  lastMid : UInt64
  gcmId : Bytes
  umengId : Bytes
  osType : UInt32
  osVersion : Bytes
  bcmBuildCode : UInt64
  phoneModel : Bytes
  apnId : Bytes
  apnType : Bytes
  voipApnId : Bytes
  targetAddress : Bytes
  cfgFlag : Int32
deriving DecidableEq, Repr

/-- `GroupUserConfigPushType` -/
inductive GroupUserConfigPushType where
  | normal
  | noConfig
deriving DecidableEq, Repr

def GroupUserConfigPushType.value : GroupUserConfigPushType → Int32
  | normal => 0
  | noConfig => 1

namespace GroupUserMessageIdInfo

def initial : GroupUserMessageIdInfo where
  lastMid := 0
  gcmId := []
  umengId := []
  osType := 0
  osVersion := []
  bcmBuildCode := 0
  phoneModel := []
  apnId := []
  apnType := []
  voipApnId := []
  targetAddress := []
  cfgFlag := GroupUserConfigPushType.normal.value

/-- `jsonable::toString` of a key, if it is there -/
def textIfFound (j : Json) (key : String) : Except JsonError Bytes :=
  match j.find key with
  | none => .ok []
  | some _ => j.toString key

/-- The body of `from_string` -/
def ofJson (j : Json) : Except JsonError GroupUserMessageIdInfo := do
  let lastMid ← j.toNumberOptional Json.getUInt64 lexicalUInt64 "last_mid" 0
  let cfgFlag ← j.toNumberOptional Json.getInt lexicalInt32 "cfgFlag" 0
  let gcmId ← textIfFound j "gcmId"
  let umengId ← textIfFound j "umengId"
  let (apnId, apnType, voipApnId) ←
    match j.find "apnId" with
    | none => .ok ([], [], [])
    | some _ => do
        .ok (← j.toString "apnId", ← j.toString "apnType", ← j.toString "voipApnId")
  let osType ← j.toNumberOptional Json.getUInt32 lexicalUInt32 "osType" 0
  let bcmBuildCode ← j.toNumberOptional Json.getUInt64 lexicalUInt64 "bcmBuildCode" 0
  let phoneModel ← j.toStringOptional "phoneModel"
  let osVersion ← j.toStringOptional "osVersion"
  let targetAddress ← j.toStringOptional "targetAddress"
  .ok {
    lastMid := lastMid
    gcmId := gcmId
    umengId := umengId
    osType := osType
    osVersion := osVersion
    bcmBuildCode := bcmBuildCode
    phoneModel := phoneModel
    apnId := apnId
    apnType := apnType
    voipApnId := voipApnId
    targetAddress := targetAddress
    cfgFlag := cfgFlag }

/-- `GroupUserMessageIdInfo::from_string` into a new value, over the JSON parser;
none, if it fails. -/
def fromString (parse : Bytes → Except JsonError Json) (str : Bytes) :
    Option GroupUserMessageIdInfo :=
  (parse str >>= ofJson).toOption

/-- What decides which record is kept -/
def version (gu : GroupUserMessageIdInfo) : ℕ := gu.lastMid.toNat

end GroupUserMessageIdInfo

/-- `groupUserMsgId` -/
abbrev GroupUserMsgs := Table Bytes GroupUserMessageIdInfo

/-- The hash of a group in a database, with what its commands return. -/
structure UserHash where
  /-- `group_user_msg_<gid>` -/
  records : Table Bytes Bytes
  /-- the new cursor and the elements for a cursor, unless HSCAN fails -/
  hscan : Bytes → Option (Bytes × List (Bytes × Bytes))
  /-- HMGET succeeds. -/
  answers : Bool

namespace UserHash

variable (parse : Bytes → Except JsonError Json)

/-- The body of the loops over the users -/
def mergeUser (groupUserMsgId : GroupUserMsgs) (e : Bytes × Bytes) : GroupUserMsgs :=
  match GroupUserMessageIdInfo.fromString parse e.2 with
  | none => groupUserMsgId
  | some guDb => groupUserMsgId.keepNewest GroupUserMessageIdInfo.version e.1 guDb

/-- The map `RedisConn::hscan` makes of the elements -/
def resultGroupUsers (elements : List (Bytes × Bytes)) : List (Bytes × Bytes) :=
  (elements.map fun e => (cString e.1, cString e.2)).foldl (fun m e => mapSet e.1 e.2 m) []

/-- The first cursor and the last -/
def cursorZero : Bytes := ascii ['0']

/-- The loop over the pages of a hash, of at most so many rounds; none, if it goes
on. A page that fails ends it. -/
def scanPages (db : UserHash) : ℕ → Bytes → GroupUserMsgs → Option GroupUserMsgs
  | 0, _, _ => none
  | n + 1, cursor, groupUserMsgId =>
      match db.hscan cursor with
      | none => some groupUserMsgId
      | some (newCursor, elements) =>
          let merged := (resultGroupUsers elements).foldl (mergeUser parse) groupUserMsgId
          if cString newCursor = cursorZero then some merged
          else scanPages db n (cString newCursor) merged

end UserHash

open UserHash

/-- `dbScanGroupUserMsgList`, over the hashes of the databases -/
def dbScanGroupUserMsgList (parse : Bytes → Except JsonError Json) (n : ℕ) (dbs : List UserHash)
    (groupUserMsgId : GroupUserMsgs) : Option GroupUserMsgs :=
  dbs.foldlM (fun m db => db.scanPages parse n cursorZero m) groupUserMsgId

/-- `dbHmgetRedisGroupUserMsg`, over the hashes of the databases. HMGET fails without
a field, which comes to the same as finding nothing. -/
def dbHmgetRedisGroupUserMsg (parse : Bytes → Except JsonError Json) (dbs : List UserHash)
    (memberUids : List Bytes) (groupUserMsgId : GroupUserMsgs) : Except Fault GroupUserMsgs :=
  dbs.foldlM (fun m db => do
    let resultGroupUsers ← hmget db.records memberUids
    .ok (if db.answers then resultGroupUsers.foldl (mergeUser parse) m else m)) groupUserMsgId

/-! ## The record of a user -/

/-- A database has a record of the user, and this is it. -/
def HasRecord (parse : Bytes → Except JsonError Json) (hashes : List (Table Bytes Bytes))
    (uid : Bytes) (gu : GroupUserMessageIdInfo) : Prop :=
  ∃ records ∈ hashes, ∃ value, records.lookup uid = some value ∧
    GroupUserMessageIdInfo.fromString parse (cString value) = some gu

/-- Two records of a user with the same `last_mid` are the same. -/
def NoTies (parse : Bytes → Except JsonError Json) (hashes : List (Table Bytes Bytes)) : Prop :=
  ∀ uid gu gu', HasRecord parse hashes uid gu → HasRecord parse hashes uid gu' →
    gu.lastMid = gu'.lastMid → gu = gu'

/-- The record of a user with the highest `last_mid` -/
def LastRecord (parse : Bytes → Except JsonError Json) (hashes : List (Table Bytes Bytes))
    (uid : Bytes) : Option GroupUserMessageIdInfo → Prop :=
  IsNewest GroupUserMessageIdInfo.version (HasRecord parse hashes uid)

/-- The pages of a scan from a cursor on -/
inductive UserHash.Pages (db : UserHash) : Bytes → List (List (Bytes × Bytes)) → Prop where
  | last {cursor newCursor : Bytes} {page : List (Bytes × Bytes)}
      (h : db.hscan cursor = some (newCursor, page)) (hzero : cString newCursor = cursorZero) :
      Pages db cursor [page]
  | more {cursor newCursor : Bytes} {page : List (Bytes × Bytes)}
      {pages : List (List (Bytes × Bytes))} (h : db.hscan cursor = some (newCursor, page))
      (hne : cString newCursor ≠ cursorZero) (hpages : Pages db (cString newCursor) pages) :
      Pages db cursor (page :: pages)

/-- A scan comes to an end and returns every field with its value at least once,
and nothing else. -/
def UserHash.FullScan (db : UserHash) : Prop :=
  ∃ pages, db.Pages cursorZero pages ∧
    ∀ f v, (∃ page ∈ pages, (f, v) ∈ page) ↔ db.records.lookup f = some v

/-- Redis answers, and the fields are C strings. -/
structure UserHash.Sound (db : UserHash) : Prop where
  answers : db.answers = true
  fullScan : db.FullScan
  cStrings : ∀ f v, db.records.lookup f = some v → 0 ∉ f

variable {parse : Bytes → Except JsonError Json} {db : UserHash} {dbs dbs' : List UserHash}
  {m m' : GroupUserMsgs} {P : Bytes → GroupUserMessageIdInfo → Prop} {uids : List Bytes}

/-! ## Merging -/

/-- What is kept after some rows -/
theorem isNewest_mergeUsers
    (h : ∀ uid, IsNewest GroupUserMessageIdInfo.version (P uid) (m.lookup uid))
    (rows : List (Bytes × Bytes)) (uid : Bytes) :
    IsNewest GroupUserMessageIdInfo.version
      (fun gu => P uid gu ∨ ∃ value, (uid, value) ∈ rows ∧
        GroupUserMessageIdInfo.fromString parse value = some gu)
      ((rows.foldl (mergeUser parse) m).lookup uid) := by
  induction rows generalizing m P with
  | nil => exact (h uid).congr fun gu => by simp
  | cons e rows ih =>
      rw [List.foldl_cons, mergeUser]
      cases hparse : GroupUserMessageIdInfo.fromString parse e.2 with
      | none =>
          -- a value that is no record adds nothing
          refine (ih h).congr fun gu => or_congr_right ⟨?_, ?_⟩
          · rintro ⟨value, hmem, hvalue⟩
            exact ⟨value, List.mem_cons_of_mem e hmem, hvalue⟩
          · rintro ⟨value, hmem, hvalue⟩
            rcases List.mem_cons.mp hmem with rfl | hmem
            · rw [hparse] at hvalue
              cases hvalue
            · exact ⟨value, hmem, hvalue⟩
      | some guDb =>
          refine (ih (Table.isNewest_keepNewest h e.1 guDb)).congr fun gu => ?_
          rw [or_assoc]
          refine or_congr_right ⟨?_, ?_⟩
          · rintro (⟨rfl, rfl⟩ | ⟨value, hmem, hvalue⟩)
            · exact ⟨e.2, List.mem_cons_self, hparse⟩
            · exact ⟨value, List.mem_cons_of_mem e hmem, hvalue⟩
          · rintro ⟨value, hmem, hvalue⟩
            rcases List.mem_cons.mp hmem with rfl | hmem
            · rw [hparse, Option.some.injEq] at hvalue
              exact Or.inl ⟨rfl, hvalue.symm⟩
            · exact Or.inr ⟨value, hmem, hvalue⟩

/-! ## Scanning -/

/-- The map made of a page of a sound hash -/
theorem mem_resultGroupUsers (hdb : db.Sound) {elements : List (Bytes × Bytes)}
    (hel : ∀ f v, (f, v) ∈ elements → db.records.lookup f = some v) {e : Bytes × Bytes} :
    e ∈ resultGroupUsers elements ↔ ∃ v, (e.1, v) ∈ elements ∧ e.2 = cString v := by
  have hname : ∀ x ∈ elements, cString x.1 = x.1 := fun x hx =>
    cString_self (hdb.cStrings _ _ (hel x.1 x.2 hx))
  rw [resultGroupUsers, mem_foldl_mapSet]
  · simp only [List.not_mem_nil, false_or, List.mem_map]
    constructor
    · rintro ⟨x, hx, rfl⟩
      exact ⟨x.2, by rw [hname x hx]; exact hx, rfl⟩
    · rintro ⟨v, hv, hvalue⟩
      exact ⟨(e.1, v), hv, Prod.ext (hname _ hv) hvalue.symm⟩
  · -- a field that the page has twice has the same value
    intro x hx y hy hkey
    simp only [List.nil_append, List.mem_map] at hx hy
    obtain ⟨x, hx, rfl⟩ := hx
    obtain ⟨y, hy, rfl⟩ := hy
    have hxy : x.1 = y.1 := by
      rw [← hname x hx, ← hname y hy]
      exact hkey
    have hlookup := hel x.1 x.2 hx
    rw [hxy, hel y.1 y.2 hy, Option.some.injEq] at hlookup
    rw [hlookup]

theorem scanPages_eq {cursor : Bytes} {pages : List (List (Bytes × Bytes))}
    (h : db.Pages cursor pages) (n : ℕ) (m : GroupUserMsgs) : db.scanPages parse n cursor m =
      if pages.length ≤ n then some ((pages.flatMap resultGroupUsers).foldl (mergeUser parse) m)
      else none := by
  induction h generalizing n m with
  | last h hzero =>
      cases n with
      | zero => rfl
      | succ n =>
          rw [scanPages, h]
          simp [hzero]
  | more h hne hpages ih =>
      cases n with
      | zero => rfl
      | succ n =>
          rw [scanPages, h]
          simp [hne, ih, List.foldl_append]

/-- What is kept after a scan of a sound hash -/
theorem isNewest_scanPages (hdb : db.Sound) {n : ℕ}
    (h : ∀ uid, IsNewest GroupUserMessageIdInfo.version (P uid) (m.lookup uid))
    (hscan : db.scanPages parse n cursorZero m = some m') (uid : Bytes) :
    IsNewest GroupUserMessageIdInfo.version
      (fun gu => P uid gu ∨ HasRecord parse [db.records] uid gu) (m'.lookup uid) := by
  obtain ⟨pages, hpages, hfull⟩ := hdb.fullScan
  rw [scanPages_eq hpages] at hscan
  split at hscan
  · cases hscan
    refine (isNewest_mergeUsers h _ uid).congr fun gu => or_congr_right ?_
    have hmem : ∀ value, (uid, value) ∈ pages.flatMap resultGroupUsers ↔
        ∃ v, db.records.lookup uid = some v ∧ value = cString v := by
      intro value
      rw [List.mem_flatMap]
      constructor
      · rintro ⟨page, hpage, hvalue⟩
        obtain ⟨v, hv, rfl⟩ := (mem_resultGroupUsers hdb fun f v hfv =>
          (hfull f v).mp ⟨page, hpage, hfv⟩).mp hvalue
        exact ⟨v, (hfull uid v).mp ⟨page, hpage, hv⟩, rfl⟩
      · rintro ⟨v, hv, rfl⟩
        obtain ⟨page, hpage, hfv⟩ := (hfull uid v).mpr hv
        exact ⟨page, hpage, (mem_resultGroupUsers hdb fun f v hfv =>
          (hfull f v).mp ⟨page, hpage, hfv⟩).mpr ⟨v, hfv, rfl⟩⟩
    simp only [hmem, HasRecord, List.mem_singleton, exists_eq_left]
    constructor
    · rintro ⟨_, ⟨v, hv, rfl⟩, hgu⟩
      exact ⟨v, hv, hgu⟩
    · rintro ⟨v, hv, hgu⟩
      exact ⟨_, ⟨v, hv, rfl⟩, hgu⟩
  · cases hscan

theorem hasRecord_cons {records : Table Bytes Bytes} {hashes : List (Table Bytes Bytes)}
    {uid : Bytes} {gu : GroupUserMessageIdInfo} : HasRecord parse (records :: hashes) uid gu ↔
      HasRecord parse [records] uid gu ∨ HasRecord parse hashes uid gu := by
  simp [HasRecord]

/-- The scan of all databases -/
theorem isNewest_dbScan (hdbs : ∀ db ∈ dbs, db.Sound) {n : ℕ}
    (h : ∀ uid, IsNewest GroupUserMessageIdInfo.version (P uid) (m.lookup uid))
    (hscan : dbScanGroupUserMsgList parse n dbs m = some m') (uid : Bytes) :
    IsNewest GroupUserMessageIdInfo.version
      (fun gu => P uid gu ∨ HasRecord parse (dbs.map UserHash.records) uid gu)
      (m'.lookup uid) := by
  induction dbs generalizing m P with
  | nil =>
      cases hscan
      exact (h uid).congr fun gu => by simp [HasRecord]
  | cons db dbs ih =>
      rw [dbScanGroupUserMsgList, List.foldlM_cons] at hscan
      obtain ⟨m₁, hone, hrest⟩ := Option.bind_eq_some_iff.mp hscan
      refine (ih (fun db hdb => hdbs db (List.mem_cons_of_mem _ hdb))
        (isNewest_scanPages (hdbs db List.mem_cons_self) h hone) hrest).congr fun gu => ?_
      have hcons : HasRecord parse (db.records :: dbs.map UserHash.records) uid gu ↔ _ :=
        hasRecord_cons
      rw [List.map_cons, hcons, or_assoc]

theorem exists_dbScan (parse : Bytes → Except JsonError Json) (hdbs : ∀ db ∈ dbs, db.Sound) :
    ∃ N, ∀ n, N ≤ n → ∀ m, ∃ m', dbScanGroupUserMsgList parse n dbs m = some m' := by
  induction dbs with
  | nil => exact ⟨0, fun n _ m => ⟨m, rfl⟩⟩
  | cons db dbs ih =>
      obtain ⟨N, hN⟩ := ih fun db hdb => hdbs db (List.mem_cons_of_mem _ hdb)
      obtain ⟨pages, hpages, -⟩ := (hdbs db List.mem_cons_self).fullScan
      refine ⟨max N pages.length, fun n hn m => ?_⟩
      rw [dbScanGroupUserMsgList, List.foldlM_cons, scanPages_eq hpages, if_pos (by omega)]
      exact hN n (by omega) _

/-! ## Looking up -/

/-- A name that HMGET is asked for as it is -/
structure Word (uid : Bytes) : Prop where
  ne_nil : uid ≠ []
  noBlank : ' '.toUInt8 ∉ uid
  noPercent : '%'.toUInt8 ∉ uid
  cString : 0 ∉ uid

namespace Word

variable {uid : Bytes}

theorem oneWord (h : Word uid) : oneWord uid = true := by
  refine oneWord_iff.mpr ⟨h.noPercent, ?_⟩
  rw [commandWords_self h.ne_nil h.noBlank]
  rfl

theorem wordOf (h : Word uid) : wordOf uid = uid := by
  rw [Redis.wordOf, commandWords_self h.ne_nil h.noBlank]
  rfl

end Word

theorem isNewest_dbHmget (hdbs : ∀ db ∈ dbs, db.Sound) (huids : ∀ uid ∈ uids, Word uid)
    (hparse : GroupUserMessageIdInfo.fromString parse [] = none)
    (h : ∀ uid, IsNewest GroupUserMessageIdInfo.version (P uid) (m.lookup uid)) :
    ∃ m', dbHmgetRedisGroupUserMsg parse dbs uids m = .ok m' ∧ ∀ uid,
      IsNewest GroupUserMessageIdInfo.version
        (fun gu => P uid gu ∨ uid ∈ uids ∧ HasRecord parse (dbs.map UserHash.records) uid gu)
        (m'.lookup uid) := by
  induction dbs generalizing m P with
  | nil => exact ⟨m, rfl, fun uid => (h uid).congr fun gu => by simp [HasRecord]⟩
  | cons db dbs ih =>
      obtain ⟨rows, hrows, hmem⟩ := hmget_eq db.records uids fun uid huid =>
        (huids uid huid).oneWord
      have hone : ∀ uid, IsNewest GroupUserMessageIdInfo.version
          (fun gu => P uid gu ∨ uid ∈ uids ∧ HasRecord parse [db.records] uid gu)
          ((rows.foldl (mergeUser parse) m).lookup uid) := by
        intro uid
        refine (isNewest_mergeUsers h rows uid).congr fun gu => or_congr_right ?_
        simp only [hmem, Prod.mk.injEq, HasRecord, List.mem_singleton, exists_eq_left]
        constructor
        · rintro ⟨value, ⟨_, huid, rfl, rfl⟩, hgu⟩
          refine ⟨huid, ?_⟩
          rw [fieldValue, (huids uid huid).wordOf] at hgu
          cases hlookup : db.records.lookup uid with
          | none =>
              -- a missing field comes as the empty text, which is no record
              have hempty : cString [] = [] := rfl
              rw [hlookup, Option.getD_none, hempty, hparse] at hgu
              cases hgu
          | some v =>
              rw [hlookup] at hgu
              exact ⟨v, rfl, hgu⟩
        · rintro ⟨huid, v, hv, hgu⟩
          refine ⟨cString v, ⟨uid, huid, rfl, ?_⟩, hgu⟩
          rw [fieldValue, (huids uid huid).wordOf, hv]
          rfl
      obtain ⟨m', hrest, hnewest⟩ := ih (fun db hdb => hdbs db (List.mem_cons_of_mem _ hdb)) hone
      refine ⟨m', ?_, fun uid => (hnewest uid).congr fun gu => ?_⟩
      · rw [dbHmgetRedisGroupUserMsg, List.foldlM_cons, hrows]
        simp only [(hdbs db List.mem_cons_self).answers, if_true]
        exact hrest
      · have hcons : HasRecord parse (db.records :: dbs.map UserHash.records) uid gu ↔ _ :=
          hasRecord_cons
        rw [List.map_cons, hcons, or_assoc, ← and_or_left]

/-! ## Both -/

theorem hasRecord_perm {hashes hashes' : List (Table Bytes Bytes)} (h : hashes'.Perm hashes)
    {uid : Bytes} {gu : GroupUserMessageIdInfo} :
    HasRecord parse hashes' uid gu ↔ HasRecord parse hashes uid gu := by
  simp only [HasRecord, h.mem_iff]

/-- There is a last record. -/
theorem exists_lastRecord (parse : Bytes → Except JsonError Json) (dbs : List UserHash)
    (hdbs : ∀ db ∈ dbs, db.Sound) : ∃ last : Bytes → Option GroupUserMessageIdInfo,
      ∀ uid, LastRecord parse (dbs.map UserHash.records) uid (last uid) := by
  obtain ⟨N, hN⟩ := exists_dbScan parse hdbs
  obtain ⟨m, hm⟩ := hN N (Nat.le_refl N) ∅
  refine ⟨fun uid => m.lookup uid, fun uid => ?_⟩
  refine (isNewest_dbScan (P := fun _ _ => False) hdbs (fun uid => ?_) hm uid).congr fun gu => ?_
  · rw [AList.lookup_empty]
    exact fun _ => not_false
  · rw [false_or]

/-- The databases may come in any order, and so may the pages of a scan, which
`Sound` leaves open. -/
theorem scan_hmget_agree (hdbs : ∀ db ∈ dbs, db.Sound)
    (hties : NoTies parse (dbs.map UserHash.records)) (huids : ∀ uid ∈ uids, Word uid)
    (hparse : GroupUserMessageIdInfo.fromString parse [] = none) :
    ∃ last : Bytes → Option GroupUserMessageIdInfo,
      (∀ uid, LastRecord parse (dbs.map UserHash.records) uid (last uid)) ∧
      ∀ dbs' : List UserHash, (∀ db ∈ dbs', db.Sound) →
        (dbs'.map UserHash.records).Perm (dbs.map UserHash.records) →
        (∃ N, ∀ n, N ≤ n → ∃ m, dbScanGroupUserMsgList parse n dbs' ∅ = some m ∧
          ∀ uid, m.lookup uid = last uid) ∧
        ∃ m, dbHmgetRedisGroupUserMsg parse dbs' uids ∅ = .ok m ∧
          ∀ uid, m.lookup uid = if uid ∈ uids then last uid else none := by
  obtain ⟨last, hlast⟩ := exists_lastRecord parse dbs hdbs
  refine ⟨last, hlast, fun dbs' hdbs' hperm => ?_⟩
  have hempty : ∀ uid : Bytes, IsNewest GroupUserMessageIdInfo.version (fun _ => False)
      ((∅ : GroupUserMsgs).lookup uid) := fun uid => by
    rw [AList.lookup_empty]
    exact fun _ => not_false
  have hversion : ∀ uid gu gu', HasRecord parse (dbs.map UserHash.records) uid gu →
      HasRecord parse (dbs.map UserHash.records) uid gu' → gu.version = gu'.version → gu = gu' :=
    fun uid gu gu' hgu hgu' heq => hties uid gu gu' hgu hgu' (UInt64.toNat_inj.mp heq)
  constructor
  · obtain ⟨N, hN⟩ := exists_dbScan parse hdbs'
    refine ⟨N, fun n hn => ?_⟩
    obtain ⟨m, hm⟩ := hN n hn ∅
    refine ⟨m, hm, fun uid => ?_⟩
    have hscan : LastRecord parse (dbs.map UserHash.records) uid (m.lookup uid) :=
      (isNewest_dbScan (P := fun _ _ => False) hdbs' hempty hm uid).congr fun gu => by
        rw [false_or, hasRecord_perm hperm]
    exact hscan.unique (hlast uid) (hversion uid)
  · obtain ⟨m, hm, hnewest⟩ :=
      isNewest_dbHmget (P := fun _ _ => False) hdbs' huids hparse hempty
    refine ⟨m, hm, fun uid => ?_⟩
    split
    · next huid =>
      have hfound : LastRecord parse (dbs.map UserHash.records) uid (m.lookup uid) :=
        (hnewest uid).congr fun gu => by
          rw [false_or, hasRecord_perm hperm]
          exact and_iff_right huid
      exact hfound.unique (hlast uid) (hversion uid)
    · next huid =>
      have hnone := hnewest uid
      cases hlookup : m.lookup uid with
      | none => rfl
      | some gu =>
          rw [hlookup] at hnone
          exact absurd (hnone.1.resolve_left not_false).1 huid

namespace UserHash

/-- A hash that is scanned in one page -/
def onePage (records : Table Bytes Bytes) : UserHash where
  records := records
  hscan := fun cursor =>
    if cursor = cursorZero then some (cursorZero, records.entries.map fun e => (e.1, e.2))
    else none
  answers := true

theorem onePage_sound {records : Table Bytes Bytes}
    (h : ∀ f v, records.lookup f = some v → 0 ∉ f) : (onePage records).Sound := by
  refine ⟨rfl, ⟨[records.entries.map fun e => (e.1, e.2)], ?_, fun f v => ?_⟩, h⟩
  · have hzero : (onePage records).hscan cursorZero =
        some (cursorZero, records.entries.map fun e => (e.1, e.2)) := by
      simp [onePage]
    exact .last hzero (by decide)
  · simp only [List.mem_singleton, exists_eq_left]
    rw [onePage, ← Option.mem_def, AList.mem_lookup_iff, List.mem_map]
    constructor
    · rintro ⟨e, he, heq⟩
      cases heq
      exact he
    · exact fun he => ⟨⟨f, v⟩, he, rfl⟩

/-- The record of one digit -/
def lastMidText (digit : Char) : Bytes :=
  ascii ['\x7b', '\x22', 'l', 'a', 's', 't', '_', 'm', 'i', 'd', '\x22', ':', digit, '\x7d']

/-- What the parser makes of two records, and of no record -/
def parseLastMid (str : Bytes) : Except JsonError Json :=
  if str = lastMidText '5' then .ok (.object [("last_mid", .number 5)])
  else if str = lastMidText '7' then .ok (.object [("last_mid", .number 7)])
  else .error .parseError

theorem noTies_parseLastMid (hashes : List (Table Bytes Bytes)) : NoTies parseLastMid hashes := by
  have hrecord : ∀ value gu, GroupUserMessageIdInfo.fromString parseLastMid value = some gu →
      gu = { GroupUserMessageIdInfo.initial with lastMid := 5 } ∨
        gu = { GroupUserMessageIdInfo.initial with lastMid := 7 } := by
    intro value gu h
    unfold GroupUserMessageIdInfo.fromString parseLastMid at h
    split_ifs at h
    · exact Or.inl (Option.some.inj (h.symm.trans (by decide +kernel)))
    · exact Or.inr (Option.some.inj (h.symm.trans (by decide +kernel)))
    · cases h
  rintro uid gu gu' ⟨_, _, value, _, hgu⟩ ⟨_, _, value', _, hgu'⟩ heq
  rcases hrecord _ _ hgu with rfl | rfl <;> rcases hrecord _ _ hgu' with rfl | rfl
  · rfl
  · exact absurd heq (by decide)
  · exact absurd heq (by decide)
  · rfl

/-- The user "u" in two databases -/
def twoDbs : List UserHash :=
  [onePage (AList.insert [117] (lastMidText '5') ∅),
    onePage (AList.insert [117] (lastMidText '7') ∅)]

theorem twoDbs_sound : ∀ db ∈ twoDbs, db.Sound := by
  have hname : ∀ value f v,
      (AList.insert [117] value ∅ : Table Bytes Bytes).lookup f = some v → 0 ∉ f := by
    intro value f v h
    by_cases hf : f = [117]
    · subst hf
      decide
    · rw [AList.lookup_insert_ne hf, AList.lookup_empty] at h
      cases h
  intro db hdb
  rcases List.mem_cons.mp hdb with rfl | hdb
  · exact onePage_sound (hname _)
  · rw [List.mem_singleton.mp hdb]
    exact onePage_sound (hname _)

theorem scan_hmget_agree_twoDbs : ∃ last : Bytes → Option GroupUserMessageIdInfo,
    (∀ uid, LastRecord parseLastMid (twoDbs.map UserHash.records) uid (last uid)) ∧
    ∀ dbs' : List UserHash, (∀ db ∈ dbs', db.Sound) →
      (dbs'.map UserHash.records).Perm (twoDbs.map UserHash.records) →
      (∃ N, ∀ n, N ≤ n → ∃ m, dbScanGroupUserMsgList parseLastMid n dbs' ∅ = some m ∧
        ∀ uid, m.lookup uid = last uid) ∧
      ∃ m, dbHmgetRedisGroupUserMsg parseLastMid dbs' [[117], [118]] ∅ = .ok m ∧
        ∀ uid, m.lookup uid = if uid ∈ [[117], [118]] then last uid else none :=
  scan_hmget_agree twoDbs_sound (noTies_parseLastMid _)
    (by
      intro uid huid
      rcases List.mem_cons.mp huid with rfl | huid
      · exact ⟨by decide, by decide, by decide, by decide⟩
      · rw [List.mem_singleton.mp huid]
        exact ⟨by decide, by decide, by decide, by decide⟩)
    (by decide +kernel)

end UserHash

/-- HMGET is not asked for the user of the empty name, who gets the record of the
next one, "u". -/
theorem hmget_misplaces :
    ¬ ∀ (parse : Bytes → Except JsonError Json) (dbs : List UserHash) (uids : List Bytes),
      (∀ db ∈ dbs, db.Sound) → NoTies parse (dbs.map UserHash.records) →
      GroupUserMessageIdInfo.fromString parse [] = none →
      ∃ n m m', dbScanGroupUserMsgList parse n dbs ∅ = some m ∧
        dbHmgetRedisGroupUserMsg parse dbs uids ∅ = .ok m' ∧
        ∀ uid ∈ uids, m'.lookup uid = m.lookup uid := by
  intro h
  obtain ⟨n, m, m', hscan, hhmget, hagree⟩ := h parseLastMid twoDbs [[], [117]] twoDbs_sound
    (noTies_parseLastMid _) (by decide +kernel)
  have hview : (dbHmgetRedisGroupUserMsg parseLastMid twoDbs [[], [117]] ∅).toOption.map
      (fun m => m.lookup [117]) = some none := by
    decide +kernel
  rw [hhmget] at hview
  have hnone : m.lookup [117] = none := by
    rw [← hagree [117] (by decide)]
    exact Option.some.inj hview
  have hnewest := isNewest_dbScan (P := fun _ _ => False) twoDbs_sound (fun uid => by
    rw [AList.lookup_empty]
    exact fun _ => not_false) hscan [117]
  rw [hnone] at hnewest
  refine hnewest { GroupUserMessageIdInfo.initial with lastMid := 5 } (Or.inr ?_)
  exact ⟨_, List.mem_cons_self, lastMidText '5', AList.lookup_insert _, by decide +kernel⟩

end BcmServer.Offline
