import BcmServer.Offline.GroupMsgWritten
import BcmServer.Offline.PushNotification
import BcmServer.Util.JsonText
import Mathlib.Data.Finset.Sort

/-!
# BcmServer.Offline.GroupStoreFormat — the records of groups that the servers share

The online servers write the names of `group_msg_list` with `snprintf`, the offline
servers split them and read the numbers. The records of users and of multicast
messages are JSON texts both ways.

* `group_records_round_trip`: names and records are read as they were written, and
  names are ordered by their numbers.
* `zadd_read`: what an online server announces is what an offline server reads.
-/

namespace BcmServer.Offline

open BcmServer.Util
open BcmServer.Group (Gid)

/-! ## The names of messages -/

/-- `multiField` and `groupField` of `updateRedisdbOfflineInfo`, from a buffer of 50
bytes -/
def printField (gid : Gid) (mid : UInt64) (pushType : Int32) : Bytes :=
  snprintf 50 (padded 20 gid.toNat ++ ascii ['_'] ++ padded 20 mid.toNat ++ ascii ['_'] ++
    paddedInt 2 pushType.toInt)

/-- The numbers of a name as `dbGetAndDeleteOneRedisGroupMsg` reads them; none, if it
has not three parts -/
def readField (member : Bytes) : Except Fault (Option (Gid × UInt64 × Int32)) :=
  match member.splitOn '_'.toUInt8 with
  | [gidText, midText, typeText] => do
      let curGid ← number (stoull gidText)
      let lastMid ← number (stoull midText)
      let type ← number (stoll typeText)
      .ok (some (curGid, lastMid, type.toInt32))
  | _ => .ok none

/-- These are the numbers that a message is judged by, and put into its task with. -/
theorem readField_of_judge {cfg : RoundConfig} {now : ℤ} {g : ZSetMemberScore} {curGid : Gid}
    {gmDb : GroupMessageIdInfo} (h : cfg.judge now g = .ok (some (curGid, gmDb))) :
    readField g.member = .ok (some (curGid, gmDb.lastMid, gmDb.type)) := by
  unfold RoundConfig.judge at h
  unfold readField
  -- only a name of three parts is judged
  rcases hparts : g.member.splitOn '_'.toUInt8 with
    _ | ⟨gidText, _ | ⟨midText, _ | ⟨typeText, _ | ⟨extra, rest⟩⟩⟩⟩
  case cons.cons.cons.nil =>
    rw [hparts] at h
    dsimp only at h ⊢
    cases hgid : number (stoull gidText) with
    | error e => rw [hgid] at h; cases h
    | ok gid =>
        cases hmid : number (stoull midText) with
        | error e => rw [hgid, hmid] at h; cases h
        | ok mid =>
            cases htype : number (stoll typeText) with
            | error e => rw [hgid, hmid, htype] at h; cases h
            | ok type =>
                simp only [hgid, hmid, htype, bind, Except.bind] at h ⊢
                split_ifs at h
                · cases h
                · cases h
                · cases hinfo : cfg.pushInfo gid with
                  | none => rw [hinfo] at h; cases h; rfl
                  | some gmS =>
                      rw [hinfo] at h
                      dsimp only at h
                      split_ifs at h
                      · cases h
                      · cases h
                        rfl
  all_goals
    rw [hparts] at h
    cases h

/-- A name in the buffer is not cut. -/
theorem printField_eq {gid : Gid} {mid : UInt64} {pushType : Int32}
    (h : 0 ≤ pushType.toInt ∧ pushType.toInt ≤ 99) :
    printField gid mid pushType = ['_'.toUInt8].intercalate
      [padded 20 gid.toNat, padded 20 mid.toNat, padded 2 pushType.toInt.natAbs] := by
  have hgid : (padded 20 gid.toNat).length = 20 :=
    length_padded (by omega) (Nat.lt_trans gid.toNat_lt (by decide))
  have hmid : (padded 20 mid.toNat).length = 20 :=
    length_padded (by omega) (Nat.lt_trans mid.toNat_lt (by decide))
  have htype : (padded 2 pushType.toInt.natAbs).length = 2 := length_padded (by omega) (by omega)
  rw [printField, snprintf, paddedInt, if_neg (by omega), List.take_of_length_le]
  · simp [ascii, List.intercalate_cons_of_ne_nil]
  · simp only [List.length_append, hgid, hmid, htype]
    decide

theorem groupField_eq (gid : Gid) (mid : UInt64) (type : PushPeopleType) :
    groupField gid mid type = printField gid mid type.value := by
  have hrange : 0 ≤ type.value.toInt ∧ type.value.toInt ≤ 99 := by cases type <;> decide
  have hnat : type.value.toInt.natAbs = type.value.toNatClampNeg := by cases type <;> decide
  rw [printField_eq hrange, hnat]
  simp [groupField, ascii, List.intercalate_cons_of_ne_nil]

theorem readField_printField (gid : Gid) (mid : UInt64) {pushType : Int32}
    (h : 0 ≤ pushType.toInt ∧ pushType.toInt ≤ 99) :
    readField (printField gid mid pushType) = .ok (some (gid, mid, pushType)) := by
  have hsplit : (printField gid mid pushType).splitOn '_'.toUInt8 =
      [padded 20 gid.toNat, padded 20 mid.toNat, padded 2 pushType.toInt.natAbs] := by
    rw [printField_eq h]
    refine splitOn_padded (by decide) (by simp) fun p hp => ?_
    simp only [List.mem_cons, List.not_mem_nil, or_false] at hp
    rcases hp with rfl | rfl | rfl <;> exact ⟨_, _, rfl⟩
  have htype : stoll (padded 2 pushType.toInt.natAbs) = some (Int64.ofInt pushType.toInt) := by
    have hvalue : (pushType.toInt.natAbs : ℤ) = pushType.toInt := by omega
    rw [stoll, readInt_padded, hvalue, Option.filter_some, if_pos (by simp; omega),
      Option.map_some]
  have hcast : (Int64.ofInt pushType.toInt).toInt32 = pushType := by
    rw [← Int32.ofInt_toInt pushType, Int64.toInt32_ofInt, Int32.ofInt_toInt]
  simp only [readField, hsplit, stoull_padded, htype, number, Option.elim_some, bind, Except.bind,
    hcast]

theorem lexLt_printField {gid gid' : Gid} {mid mid' : UInt64} {pushType pushType' : Int32}
    (h : 0 ≤ pushType.toInt ∧ pushType.toInt ≤ 99)
    (h' : 0 ≤ pushType'.toInt ∧ pushType'.toInt ≤ 99) :
    lexLt (printField gid mid pushType) (printField gid' mid' pushType') = true ↔
      gid < gid' ∨ gid = gid' ∧ (mid < mid' ∨ mid = mid' ∧ pushType < pushType') := by
  have hbound : ∀ n : UInt64, n.toNat < 10 ^ 20 := fun n => Nat.lt_trans n.toNat_lt (by decide)
  have hparts : ∀ a b c : Bytes, ['_'.toUInt8].intercalate [a, b, c] =
      a ++ ('_'.toUInt8 :: (b ++ ('_'.toUInt8 :: (c ++ [])))) := fun a b c => by
    simp [List.intercalate_cons_of_ne_nil]
  have hsep : ∀ s t : Bytes, lexLt ('_'.toUInt8 :: s) ('_'.toUInt8 :: t) = lexLt s t :=
    lexLt_append_left ['_'.toUInt8]
  have htype : pushType.toInt.natAbs < pushType'.toInt.natAbs ↔ pushType < pushType' := by
    rw [Int32.lt_iff_toInt_lt]
    omega
  rw [printField_eq h, printField_eq h', hparts, hparts,
    lexLt_padded_append (by omega) (hbound _) (hbound _), hsep,
    lexLt_padded_append (by omega) (hbound _) (hbound _), hsep,
    lexLt_padded_append (by omega) (by omega) (by omega), lexLt_irrefl, htype,
    ← UInt64.lt_iff_toNat_lt, ← UInt64.lt_iff_toNat_lt, UInt64.toNat_inj, UInt64.toNat_inj]
  simp

/-! ## The records -/

namespace GroupUserMessageIdInfo

/-- `GroupUserMessageIdInfo::to_string`, over the JSON printer -/
def toString (dump : Json → Bytes) (gu : GroupUserMessageIdInfo) : Bytes :=
  dump gu.toJson.mapOrder

/-- The strings are UTF-8. -/
structure Utf8Strings (gu : GroupUserMessageIdInfo) : Prop where
  gcmId : Utf8 gu.gcmId
  umengId : Utf8 gu.umengId
  osVersion : Utf8 gu.osVersion
  phoneModel : Utf8 gu.phoneModel
  apnId : Utf8 gu.apnId
  apnType : Utf8 gu.apnType
  voipApnId : Utf8 gu.voipApnId
  targetAddress : Utf8 gu.targetAddress

theorem mapOrder_toJson (gu : GroupUserMessageIdInfo) : gu.toJson.mapOrder =
    .object [("apnId", .string gu.apnId), ("apnType", .string gu.apnType),
      ("bcmBuildCode", .number gu.bcmBuildCode.toNat), ("cfgFlag", .number gu.cfgFlag.toInt),
      ("gcmId", .string gu.gcmId), ("last_mid", .number gu.lastMid.toNat),
      ("osType", .number gu.osType.toNat), ("osVersion", .string gu.osVersion),
      ("phoneModel", .string gu.phoneModel), ("targetAddress", .string gu.targetAddress),
      ("umengId", .string gu.umengId), ("voipApnId", .string gu.voipApnId)] := by
  simp [Json.mapOrder, toJson, List.insertionSort, List.orderedInsert]

theorem ofJson_congr {fields fields' : List (String × Json)}
    (h : ∀ key, fields.lookup key = fields'.lookup key) :
    ofJson (.object fields) = ofJson (.object fields') := by
  simp only [ofJson, textIfFound, Json.toNumberOptional, Json.toStringOptional, Json.toNumber,
    Json.toString, Json.find, Json.at_, h]

/-- The order of the keys makes no difference to the reader. -/
theorem ofJson_mapOrder (gu : GroupUserMessageIdInfo) : ofJson gu.toJson.mapOrder = .ok gu := by
  rw [← ofJson_toJson gu]
  exact ofJson_congr (Json.lookup_mapOrder (by simp))

theorem storable_toJson {gu : GroupUserMessageIdInfo} (h : gu.Utf8Strings) :
    gu.toJson.mapOrder.Storable := by
  have hu64 : ∀ n : UInt64, (Json.number n.toNat).Storable := fun n => by
    have hlt : n.toNat < 2 ^ 64 := n.toNat_lt
    exact .number (by omega)
  have hu32 : ∀ n : UInt32, (Json.number n.toNat).Storable := fun n => by
    have hlt : n.toNat < 2 ^ 32 := n.toNat_lt
    exact .number (by omega)
  have hi32 : (Json.number gu.cfgFlag.toInt).Storable := by
    have hle := gu.cfgFlag.le_toInt
    have hlt := gu.cfgFlag.toInt_lt
    exact .number (by omega)
  have hkeys : ["apnId", "apnType", "bcmBuildCode", "cfgFlag", "gcmId", "last_mid", "osType",
      "osVersion", "phoneModel", "targetAddress", "umengId", "voipApnId"].Pairwise (· < ·) := by
    decide
  rw [mapOrder_toJson]
  refine .of_keys hkeys ?_
  simp only [List.forall_mem_cons, List.not_mem_nil, false_imp_iff, implies_true, and_true]
  exact ⟨.string h.apnId, .string h.apnType, hu64 _, hi32, .string h.gcmId, hu64 _, hu32 _,
    .string h.osVersion, .string h.phoneModel, .string h.targetAddress, .string h.umengId,
    .string h.voipApnId⟩

theorem fromString_toString {dump : Json → Bytes} {parse : Bytes → Except JsonError Json}
    (hjson : JsonRoundTrips dump parse) {gu : GroupUserMessageIdInfo} (h : gu.Utf8Strings) :
    fromString parse (gu.toString dump) = some gu := by
  have hread : parse (gu.toString dump) = .ok gu.toJson.mapOrder := hjson _ (storable_toJson h)
  simp only [fromString, hread, bind, Except.bind, ofJson_mapOrder, Except.toOption]

end GroupUserMessageIdInfo

namespace GroupMultibroadMessageInfo

/-- The value that `to_string` makes -/
def toJson (gmm : GroupMultibroadMessageInfo) : Json :=
  let members := ("members", Json.array ((gmm.members.sort LexLe).map .string))
  .object (if gmm.fromUid = [] then [members] else [members, ("from_uid", .string gmm.fromUid)])

/-- `GroupMultibroadMessageInfo::to_string`, over the JSON printer -/
def toString (dump : Json → Bytes) (gmm : GroupMultibroadMessageInfo) : Bytes :=
  dump gmm.toJson.mapOrder

/-- The strings are UTF-8. -/
structure Utf8Strings (gmm : GroupMultibroadMessageInfo) : Prop where
  members : ∀ uid ∈ gmm.members, Utf8 uid
  fromUid : Utf8 gmm.fromUid

theorem mapOrder_toJson (gmm : GroupMultibroadMessageInfo) : gmm.toJson.mapOrder =
    let members := ("members", Json.array ((gmm.members.sort LexLe).map .string))
    .object (if gmm.fromUid = [] then [members]
      else [("from_uid", .string gmm.fromUid), members]) := by
  unfold toJson
  split <;> simp [Json.mapOrder, List.insertionSort, List.orderedInsert]

theorem storable_toJson {gmm : GroupMultibroadMessageInfo} (h : gmm.Utf8Strings) :
    gmm.toJson.mapOrder.Storable := by
  have hmembers : (Json.array ((gmm.members.sort LexLe).map .string)).Storable := by
    refine .array fun j hj => ?_
    obtain ⟨uid, huid, rfl⟩ := List.mem_map.mp hj
    exact .string (h.members uid ((Finset.mem_sort LexLe).mp huid))
  have hkeys : ["from_uid", "members"].Pairwise (· < ·) := by decide
  rw [mapOrder_toJson]
  split
  · refine .of_keys (List.pairwise_singleton _ _) ?_
    simpa using hmembers
  · refine .of_keys hkeys ?_
    simpa using ⟨Json.Storable.string h.fromUid, hmembers⟩

theorem getStrings_map (uids : List Bytes) :
    (Json.array (uids.map .string)).getStrings = .ok uids := by
  induction uids with
  | nil => rfl
  | cons uid uids ih =>
      simp only [Json.getStrings] at ih
      simp [Json.getStrings, Json.getString, ih, bind, Except.bind, pure, Except.pure]

/-- A new value is what was written. -/
theorem fromString_toString {dump : Json → Bytes} {parse : Bytes → Except JsonError Json}
    (hjson : JsonRoundTrips dump parse) {gmm : GroupMultibroadMessageInfo} (h : gmm.Utf8Strings) :
    fromString parse initial (gmm.toString dump) = (gmm, true) := by
  obtain ⟨members, uid⟩ := gmm
  have hmembers := getStrings_map (members.sort LexLe)
  rw [fromString, toString, hjson _ (storable_toJson h), mapOrder_toJson]
  by_cases huid : uid = []
  · simp [huid, Json.toGeneric, Json.at_, hmembers, Json.find, initial, bind, Except.bind,
      List.lookup_cons]
  · simp [huid, Json.toGeneric, Json.at_, hmembers, Json.find, bind, Except.bind, List.lookup_cons,
      Json.getString]

end GroupMultibroadMessageInfo

/-! ## What an online server writes -/

/-- What is sent to redis -/
inductive OfflineWrite where
  | hset (field value : Bytes)
  | zadd (member : Bytes)
deriving DecidableEq, Repr

/-- `GroupMsgService::updateRedisdbOfflineInfo`, with whether HSET succeeds -/
def updateRedisdbOfflineInfo (dump : Json → Bytes) (hsetOk : Bool) (gid : Gid) (mid : UInt64)
    (groupMultibroadInfo : GroupMultibroadMessageInfo) : List OfflineWrite :=
  if groupMultibroadInfo.members = ∅ then
    [.zadd (printField gid mid PushPeopleType.toAll.value)]
  else
    let multiField := printField gid mid PushPeopleType.toDesignatedPerson.value
    .hset multiField (groupMultibroadInfo.toString dump) ::
      if hsetOk then [.zadd multiField] else []

variable {dump : Json → Bytes} {parse : Bytes → Except JsonError Json}

/-- A message that is announced is read with its group and its number, and if it is not for all,
its users are there and are read. -/
theorem zadd_read (hjson : JsonRoundTrips dump parse) {hsetOk : Bool} {gid : Gid} {mid : UInt64}
    {gmm : GroupMultibroadMessageInfo} (hutf8 : gmm.Utf8Strings) {member : Bytes}
    (h : .zadd member ∈ updateRedisdbOfflineInfo dump hsetOk gid mid gmm) :
    (gmm.members = ∅ ∧ readField member = .ok (some (gid, mid, PushPeopleType.toAll.value))) ∨
      readField member = .ok (some (gid, mid, PushPeopleType.toDesignatedPerson.value)) ∧
      ∃ value, .hset member value ∈ updateRedisdbOfflineInfo dump hsetOk gid mid gmm ∧
        GroupMultibroadMessageInfo.fromString parse .initial value = (gmm, true) := by
  unfold updateRedisdbOfflineInfo at h ⊢
  split at h
  · next hall =>
    cases List.mem_singleton.mp h
    exact Or.inl ⟨hall, readField_printField gid mid (by decide)⟩
  · next hall =>
    rw [if_neg hall]
    cases hsetOk with
    | false => simp at h
    | true =>
        have hmember : member = printField gid mid PushPeopleType.toDesignatedPerson.value := by
          simpa using h
        subst hmember
        exact Or.inr ⟨readField_printField gid mid (by decide), _, List.mem_cons_self,
          GroupMultibroadMessageInfo.fromString_toString hjson hutf8⟩

/-- The types are those of two digits. -/
theorem group_records_round_trip (hjson : JsonRoundTrips dump parse) :
    (∀ gid mid (pushType : Int32), 0 ≤ pushType.toInt ∧ pushType.toInt ≤ 99 →
      readField (printField gid mid pushType) = .ok (some (gid, mid, pushType))) ∧
    (∀ gid gid' mid mid' (pushType pushType' : Int32),
      0 ≤ pushType.toInt ∧ pushType.toInt ≤ 99 → 0 ≤ pushType'.toInt ∧ pushType'.toInt ≤ 99 →
      (printField gid mid pushType = printField gid' mid' pushType' ↔
        (gid, mid, pushType) = (gid', mid', pushType')) ∧
      (lexLt (printField gid mid pushType) (printField gid' mid' pushType') = true ↔
        gid < gid' ∨ gid = gid' ∧ (mid < mid' ∨ mid = mid' ∧ pushType < pushType'))) ∧
    (∀ gu : GroupUserMessageIdInfo, gu.Utf8Strings →
      GroupUserMessageIdInfo.fromString parse (gu.toString dump) = some gu) ∧
    ∀ gmm : GroupMultibroadMessageInfo, gmm.Utf8Strings →
      GroupMultibroadMessageInfo.fromString parse .initial (gmm.toString dump) = (gmm, true) := by
  refine ⟨fun gid mid _ h => readField_printField gid mid h, ?_,
    fun _ h => GroupUserMessageIdInfo.fromString_toString hjson h,
    fun _ h => GroupMultibroadMessageInfo.fromString_toString hjson h⟩
  intro gid gid' mid mid' pushType pushType' h h'
  refine ⟨⟨fun heq => ?_, fun heq => ?_⟩, lexLt_printField h h'⟩
  · -- the same text is read as the same numbers
    have hread := readField_printField gid mid h
    rw [heq, readField_printField gid' mid' h', Except.ok.injEq, Option.some.injEq] at hread
    exact hread.symm
  · cases heq
    rfl

theorem group_records_round_trip_compact :
    readField (printField 18446744073709551615 0 99) =
      .ok (some (18446744073709551615, 0, 99)) ∧
    GroupMultibroadMessageInfo.fromString JsonText.parse .initial
      (GroupMultibroadMessageInfo.toString JsonText.dump ⟨{[], []}, []⟩) =
        (⟨{[], []}, []⟩, true) :=
  ⟨(group_records_round_trip JsonText.parse_dump).1 _ _ _ (by decide),
    (group_records_round_trip JsonText.parse_dump).2.2.2 _ ⟨by simp [utf8_nil], utf8_nil⟩⟩

end BcmServer.Offline
