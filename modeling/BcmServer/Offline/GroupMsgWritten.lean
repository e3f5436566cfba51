import BcmServer.Offline.GroupMsgRound

/-!
# BcmServer.Offline.GroupMsgWritten — a round over what the online servers wrote

The names that `updateRedisdbOfflineInfo` writes are read back as they were
printed, so with them a round drops nothing by mistake.

* `round_drains`: while redis answers and with a clock that stands, a call ends
  with an empty score range. Every message of the range that is to be pushed is in
  the task of its group once and in no other; the counters are those of the
  messages of each kind, and the users those stored for the messages that are not
  for all. Whether a message is too old is decided by the low half of its score.
* `negative_score_kept`: a message with a negative score is not too old.
-/

namespace BcmServer.Offline

open BcmServer.Util BcmServer.Redis
open BcmServer.Group (Gid)

/-- A message as the online servers store it, with a score. -/
structure StoredMessage (S : Type) where
  gid : Gid
  mid : UInt64
  type : PushPeopleType
  score : S
deriving DecidableEq

namespace StoredMessage

variable {S : Type} [RedisScore S]

/-- Its name -/
def field (m : StoredMessage S) : Bytes := groupField m.gid m.mid m.type

/-- The member of the sorted set -/
def member (m : StoredMessage S) : Bytes × S := (m.field, m.score)

/-- The number in front of the score -/
def scoreValue (m : StoredMessage S) : Int64 := (stoll (RedisScore.text m.score)).getD 0

/-- The score as it is kept in 32 bits -/
def tm (m : StoredMessage S) : UInt32 := UInt32.ofInt m.scoreValue.toInt

end StoredMessage

/-! ## Reading the names back -/

theorem notMem_groupField {c : UInt8} (hdigit : isDigit c = false) (hc : c ≠ '_'.toUInt8)
    (gid : Gid) (mid : UInt64) (type : PushPeopleType) : c ∉ groupField gid mid type := by
  simp only [groupField, List.mem_append, not_or]
  refine ⟨⟨⟨⟨notMem_padded hdigit _ _, ?_⟩, notMem_padded hdigit _ _⟩, ?_⟩,
    notMem_padded hdigit _ _⟩
  · simpa [ascii] using hc
  · simpa [ascii] using hc

theorem splitOn_groupField (gid : Gid) (mid : UInt64) (type : PushPeopleType) :
    (groupField gid mid type).splitOn '_'.toUInt8 =
      [padded 20 gid.toNat, padded 20 mid.toNat, padded 2 type.value.toNatClampNeg] := by
  have hparts : groupField gid mid type = ['_'.toUInt8].intercalate
      [padded 20 gid.toNat, padded 20 mid.toNat, padded 2 type.value.toNatClampNeg] := by
    simp [groupField, ascii, List.intercalate_cons_of_ne_nil]
  rw [hparts]
  refine splitOn_padded (by decide) (by simp) fun p hp => ?_
  simp only [List.mem_cons, List.not_mem_nil, or_false] at hp
  rcases hp with rfl | rfl | rfl <;> exact ⟨_, _, rfl⟩

theorem stoll_type (type : PushPeopleType) :
    (stoll (padded 2 type.value.toNatClampNeg)).map Int64.toInt32 = some type.value := by
  cases type <;> decide +kernel

theorem oneWord_groupField (gid : Gid) (mid : UInt64) (type : PushPeopleType) :
    commandWords (groupField gid mid type) = [groupField gid mid type] ∧
      oneWord (groupField gid mid type) = true := by
  have hne : groupField gid mid type ≠ [] := by
    intro h
    have hsplit := splitOn_groupField gid mid type
    rw [h] at hsplit
    simp at hsplit
  have hself := commandWords_self hne (notMem_groupField (by decide) (by decide) gid mid type)
  refine ⟨hself, oneWord_iff.mpr ⟨notMem_groupField (by decide) (by decide) gid mid type, ?_⟩⟩
  rw [hself]
  rfl

namespace RoundConfig

variable {S : Type} [RedisScore S] (cfg : RoundConfig)

/-- What is to be pushed: a message for some users or for all that is not too old,
and not older than the last one pushed to its group. -/
def toPush (tm : StoredMessage S → ℤ) (m : StoredMessage S) : Bool :=
  m.type ≠ .unknown && cfg.start - tm m ≤ offlineGroupMessageExpireTime &&
    (cfg.pushInfo m.gid).all fun gmS => gmS.lastMid ≤ m.mid

/-- A message as it is put into a task -/
def infoOf (m : StoredMessage S) : GroupMessageIdInfo where
  lastMid := m.mid
  tm := m.tm
  type := m.type.value
  dbKey := m.field
  redisId := cfg.redisId
  gmm := .initial

variable {cfg}

theorem value_ne_iff (type : PushPeopleType) :
    (type.value ≠ PushPeopleType.toAll.value ∧
      type.value ≠ PushPeopleType.toDesignatedPerson.value) ↔ type = .unknown := by
  cases type <;> decide

/-- A message that was written is kept exactly when it is to be pushed. -/
theorem judge_member (m : StoredMessage S) :
    cfg.judge cfg.start (asMember m.member) = .ok
      (if cfg.toPush (fun m => m.tm.toNat) m then some (m.gid, cfg.infoOf m) else none) := by
  have hzero : 0 ∉ m.field := notMem_groupField (by decide) (by decide) _ _ _
  obtain ⟨type, htype, hvalue⟩ := Option.map_eq_some_iff.mp (stoll_type m.type)
  have hmember : asMember m.member = ⟨m.field, m.scoreValue⟩ := by
    rw [asMember, StoredMessage.member, cString_self hzero]
    rfl
  have hsplit : m.field.splitOn '_'.toUInt8 = _ := splitOn_groupField m.gid m.mid m.type
  rw [hmember]
  simp only [judge, hsplit, stoull_padded, htype, number, Option.elim_some]
  show (if type.toInt32 ≠ _ ∧ type.toInt32 ≠ _ then _ else _) = _
  have htm : UInt32.ofInt m.scoreValue.toInt = m.tm := rfl
  rw [hvalue, htm]
  by_cases hunknown : m.type = .unknown
  · rw [if_pos ((value_ne_iff m.type).mpr hunknown), if_neg (by simp [toPush, hunknown])]
  · rw [if_neg fun h => hunknown ((value_ne_iff m.type).mp h)]
    by_cases hold : offlineGroupMessageExpireTime < cfg.start - m.tm.toNat
    · rw [if_pos hold, if_neg]
      simp only [toPush, Bool.and_eq_true, decide_eq_true_eq, not_and, not_le.mpr hold]
      simp
    · rw [if_neg hold]
      cases hinfo : cfg.pushInfo m.gid with
      | none => simp [toPush, hunknown, not_lt.mp hold, hinfo, infoOf]
      | some gmS =>
          by_cases hlast : m.mid < gmS.lastMid
          · simp [toPush, hlast, hinfo]
          · simp [toPush, hunknown, not_lt.mp hold, hinfo, hlast, UInt64.not_lt.mp hlast, infoOf]

/-! ## What is conserved -/

variable (cfg)

/-- The messages of the score range -/
def messagesInRange (msgs : List (StoredMessage S)) : List (StoredMessage S) :=
  if cfg.maxTimeStamp < 0 then []
  else msgs.filter fun m => RedisScore.le m.score cfg.maxTimeStamp

/-- The users stored for a message: none, if there is no list or it is malformed. -/
def usersOf (hash : Table Bytes Bytes) (m : StoredMessage S) : Finset Bytes :=
  GroupMessageInfoTask.storedMembers cfg.parse (cString ((hash.lookup m.field).getD []))

/-- The messages of a group that are kept -/
def keptFor (kept : StoredMessage S → Bool) (msgs : List (StoredMessage S)) (gid : Gid) :
    List (StoredMessage S) :=
  (cfg.messagesInRange msgs).filter fun m => kept m && m.gid = gid

/-- The score range is empty, and the kept messages are in the tasks: each once in
the task of its own group, counted by their kind, with the users of those that
are not for all. -/
structure Conserved (kept : StoredMessage S → Bool) (msgs : List (StoredMessage S))
    (hash : Table Bytes Bytes) (s : RoundState S) : Prop where
  drained : cfg.inRange s.redis.groupMsgs = []
  once : ∀ m ∈ cfg.messagesInRange msgs, ∀ gid,
    ((cfg.taskOf s.tasks gid).gms.map (·.dbKey)).count m.field =
      if kept m ∧ m.gid = gid then 1 else 0
  gms : ∀ gid, (cfg.taskOf s.tasks gid).gms.map (·.bare) =
    (cfg.keptFor kept msgs gid).map cfg.infoOf
  broadcastCount : ∀ gid, (cfg.taskOf s.tasks gid).broadcastCount =
    (cfg.keptFor kept msgs gid).countP fun m => m.type = .toAll
  multicastCount : ∀ gid, (cfg.taskOf s.tasks gid).multicastCount =
    (cfg.keptFor kept msgs gid).countP fun m => m.type = .toDesignatedPerson
  members : ∀ gid uid, uid ∈ (cfg.taskOf s.tasks gid).multicastMembers ↔
    ∃ m ∈ cfg.keptFor kept msgs gid, m.type = .toDesignatedPerson ∧ uid ∈ cfg.usersOf hash m

variable {cfg} {msgs : List (StoredMessage S)}

theorem inRange_map_member (msgs : List (StoredMessage S)) :
    cfg.inRange (msgs.map StoredMessage.member) =
      (cfg.messagesInRange msgs).map StoredMessage.member := by
  unfold inRange messagesInRange
  split
  · rfl
  · rw [List.filter_map]
    rfl

/-- The messages that a call keeps of a list of them -/
theorem keptOf_members (hclock : ∀ i, cfg.clock i = cfg.start) (i : ℕ)
    (l : List (StoredMessage S)) : cfg.keptOf i ((l.map StoredMessage.member).map asMember) =
      (l.filter (cfg.toPush fun m => m.tm.toNat)).map fun m => (m.gid, cfg.infoOf m) := by
  induction l generalizing i with
  | nil => rfl
  | cons m l ih =>
      rw [List.map_cons, List.map_cons, keptOf, ih, verdict, hclock, judge_member,
        List.filter_cons]
      split <;> rfl

theorem admissible_member (hclock : ∀ i, cfg.clock i = cfg.start) (i : ℕ)
    {m : StoredMessage S} (hscore : (stoll (RedisScore.text m.score)).isSome = true) :
    cfg.admissible i m.member = true := by
  have hjudge := @judge_member S _ cfg m
  rw [← hclock i] at hjudge
  exact admissible_iff.mpr ⟨notMem_groupField (by decide) (by decide) _ _ _, hscore, _, hjudge,
    fun _ _ _ => (oneWord_groupField _ _ _).2⟩

theorem multicast_infoOf (m : StoredMessage S) :
    (cfg.infoOf m).multicast = decide (m.type = .toDesignatedPerson) := by
  have hvalue : ∀ type : PushPeopleType,
      decide (type.value = PushPeopleType.toDesignatedPerson.value) =
        decide (type = .toDesignatedPerson) := by
    intro type
    cases type <;> decide
  exact hvalue m.type

omit [RedisScore S] in
theorem toAll_iff {m : StoredMessage S} {tm : StoredMessage S → ℤ}
    (h : cfg.toPush tm m = true) : m.type = .toAll ↔ ¬ m.type = .toDesignatedPerson := by
  simp only [toPush, Bool.and_eq_true, decide_eq_true_eq] at h
  have hne := h.1.1
  cases hm : m.type with
  | unknown => exact absurd hm hne
  | toAll => simp
  | toDesignatedPerson => simp

theorem ofGroup_kept (kept : StoredMessage S → Bool) (gid : Gid) :
    Kept.ofGroup (((cfg.messagesInRange msgs).filter kept).map fun m => (m.gid, cfg.infoOf m)) gid =
      (cfg.keptFor kept msgs gid).map cfg.infoOf := by
  rw [Kept.ofGroup, List.filter_map, List.filter_filter, List.map_map, keptFor]
  refine congrArg _ (List.filter_congr fun m _ => ?_)
  simp [Bool.and_comm]

/-- Different messages of the range have different names. -/
theorem field_inj (hd : Distinct (msgs.map StoredMessage.member)) {m m' : StoredMessage S}
    (hm : m ∈ cfg.messagesInRange msgs) (hm' : m' ∈ cfg.messagesInRange msgs)
    (h : m.field = m'.field) : m = m' := by
  have hmem : ∀ {m}, m ∈ cfg.messagesInRange msgs → m ∈ msgs := by
    intro m hm
    unfold messagesInRange at hm
    split at hm
    · cases hm
    · exact List.mem_of_mem_filter hm
  rw [Distinct, List.map_map] at hd
  exact List.inj_on_of_nodup_map hd (hmem hm) (hmem hm') h

theorem count_field (hd : Distinct (msgs.map StoredMessage.member)) (kept : StoredMessage S → Bool)
    {m : StoredMessage S} (hm : m ∈ cfg.messagesInRange msgs) (gid : Gid) :
    ((cfg.keptFor kept msgs gid).map StoredMessage.field).count m.field =
      if kept m ∧ m.gid = gid then 1 else 0 := by
  -- the names differ, so a count is 1 or 0
  have hnodup : ((cfg.keptFor kept msgs gid).map StoredMessage.field).Nodup := by
    have hrange : Distinct ((cfg.messagesInRange msgs).map StoredMessage.member) := by
      rw [← inRange_map_member]
      exact hd.sublist (inRange_sublist _)
    rw [Distinct, List.map_map] at hrange
    exact List.Nodup.sublist (List.Sublist.map _ List.filter_sublist) hrange
  rw [hnodup.count]
  refine if_congr ?_ rfl rfl
  rw [List.mem_map]
  constructor
  · rintro ⟨m', hm', hfield⟩
    obtain ⟨hrange, hkept⟩ := List.mem_filter.mp hm'
    obtain rfl := field_inj hd hrange hm hfield
    simpa using hkept
  · intro hkept
    exact ⟨m, List.mem_filter.mpr ⟨hm, by simpa using hkept⟩, rfl⟩

theorem storedUsers_infoOf (hash : Table Bytes Bytes) (m : StoredMessage S) :
    cfg.storedUsers hash (cfg.infoOf m) = cfg.usersOf hash m := by
  have hword : wordOf m.field = m.field := by
    rw [wordOf, StoredMessage.field, (oneWord_groupField _ _ _).1]
    rfl
  rw [storedUsers, fieldValue, infoOf, hword, usersOf]

/-- What a drained round has conserved. -/
theorem Drained.conserved {hash : Table Bytes Bytes} {s : RoundState S}
    (hclock : ∀ i, cfg.clock i = cfg.start) (hd : Distinct (msgs.map StoredMessage.member))
    (h : cfg.Drained ⟨⟨msgs.map StoredMessage.member, hash⟩, ∅, false, 0, 0, []⟩ s ∅ []) :
    cfg.Conserved (cfg.toPush fun m => m.tm.toNat) msgs hash s := by
  have hkept : cfg.keptFrom ⟨⟨msgs.map StoredMessage.member, hash⟩, ∅, false, 0, 0, []⟩ =
      ((cfg.messagesInRange msgs).filter (cfg.toPush fun m => m.tm.toNat)).map
        fun m => (m.gid, cfg.infoOf m) := by
    rw [keptFrom, inRange_map_member, keptOf_members hclock]
  have htallies := h.tallies
  rw [hkept, List.nil_append] at htallies
  have hgms : ∀ gid, (cfg.taskOf s.tasks gid).gms.map (·.bare) =
      (cfg.keptFor (cfg.toPush fun m => m.tm.toNat) msgs gid).map cfg.infoOf := by
    intro gid
    rw [htallies.gms, ofGroup_kept, List.map_map]
    simp only [taskOf, AList.lookup_empty, Option.getD_none, newTask, List.map_nil,
      List.nil_append]
    rfl
  refine ⟨?_, ?_, hgms, ?_, ?_, ?_⟩
  · -- all names of the range have been removed
    rw [h.groupMsgs, inRange_zrem]
    refine List.filter_eq_nil_iff.mpr fun e he hnot => ?_
    exact of_decide_eq_true hnot (List.mem_map_of_mem he)
  · intro m hm gid
    have hkeys : (cfg.taskOf s.tasks gid).gms.map (·.dbKey) =
        (cfg.keptFor (cfg.toPush fun m => m.tm.toNat) msgs gid).map StoredMessage.field := by
      have hbare := congrArg (List.map GroupMessageIdInfo.dbKey) (hgms gid)
      rwa [List.map_map, List.map_map] at hbare
    rw [hkeys]
    exact count_field hd _ hm gid
  · intro gid
    rw [htallies.broadcastCount, ofGroup_kept, List.countP_map]
    simp only [taskOf, AList.lookup_empty, Option.getD_none, newTask, Nat.zero_add]
    refine List.countP_congr fun m hm => ?_
    -- what is kept has one of two types
    have hpush := (List.mem_filter.mp hm).2
    rw [Bool.and_eq_true] at hpush
    simp [multicast_infoOf, toAll_iff hpush.1]
  · intro gid
    rw [htallies.multicastCount, ofGroup_kept, List.countP_map]
    simp only [taskOf, AList.lookup_empty, Option.getD_none, newTask, Nat.zero_add]
    refine List.countP_congr fun m _ => ?_
    simp [multicast_infoOf]
  · intro gid uid
    rw [h.members, hkept]
    · simp only [taskOf, AList.lookup_empty, Option.getD_none, newTask, Finset.notMem_empty,
        false_or, List.mem_map, exists_exists_and_eq_and, keptFor, List.mem_filter,
        multicast_infoOf, storedUsers_infoOf, Bool.and_eq_true, decide_eq_true_eq]
      refine exists_congr fun m => ?_
      tauto
    · intro k hk _
      rw [hkept] at hk
      obtain ⟨m, -, rfl⟩ := List.mem_map.mp hk
      show wordOf m.field = m.field
      rw [wordOf, StoredMessage.field, (oneWord_groupField _ _ _).1]
      rfl

end RoundConfig

open RoundConfig in
/-- A call with nothing pushed yet, over what the online servers wrote. -/
theorem round_drains {S : Type} [RedisScore S] {cfg : RoundConfig}
    {msgs : List (StoredMessage S)} {hash : Table Bytes Bytes}
    (hreplies : ∀ k, cfg.replies k = .all) (hclock : ∀ i, cfg.clock i = cfg.start)
    (hd : Distinct (msgs.map StoredMessage.member))
    (hscores : ∀ m ∈ msgs, (stoll (RedisScore.text m.score)).isSome = true) :
    ∃ n s, cfg.dbGetAndDeleteOneRedisGroupMsg n ⟨msgs.map StoredMessage.member, hash⟩ ∅ =
        some (.ok s) ∧ cfg.Conserved (cfg.toPush fun m => m.tm.toNat) msgs hash s := by
  obtain ⟨s, hloop, hdrained⟩ := @loop_drained S _ cfg
    ⟨⟨msgs.map StoredMessage.member, hash⟩, ∅, false, 0, 0, []⟩ ∅ [] hreplies _ hd (fun j e hj => by
      have he := (inRange_sublist _).subset (List.mem_of_getElem? hj)
      obtain ⟨m, hm, rfl⟩ := List.mem_map.mp he
      exact admissible_member hclock _ (hscores m hm)) (tallies_refl cfg ∅) (lt_scanSize_mul_succ _)
  exact ⟨_, s, hloop, hdrained.conserved hclock hd⟩

namespace RoundConfig

/-- The list of the user "u" -/
def membersText : Bytes :=
  ascii ['\x7b', '\x22', 'm', 'e', 'm', 'b', 'e', 'r', 's', '\x22', ':', '[', '\x22', 'u', '\x22',
    ']', '\x7d']

/-- The parser for this list and nothing else -/
def oneUser : RoundConfig :=
  { tenThousand with
    parse := fun value =>
      if value = membersText then .ok (.object [("members", .array [.string [117]])])
      else .error .parseError }

/-- Two messages of a group to push, one of no pushed type and one that is too
old. -/
def fourMessages : List (StoredMessage ℤ) :=
  [⟨7, 5, .toAll, 9000⟩, ⟨7, 6, .toDesignatedPerson, 9000⟩, ⟨8, 5, .unknown, 9000⟩,
    ⟨8, 6, .toAll, 100⟩]

theorem round_drains_fourMessages : ∃ n s,
    oneUser.dbGetAndDeleteOneRedisGroupMsg n ⟨fourMessages.map StoredMessage.member,
      AList.insert (groupField 7 6 .toDesignatedPerson) membersText ∅⟩ ∅ = some (.ok s) ∧
        oneUser.Conserved (oneUser.toPush fun m => m.tm.toNat) fourMessages
          (AList.insert (groupField 7 6 .toDesignatedPerson) membersText ∅) s :=
  round_drains (fun _ => rfl) (fun _ => rfl) (by decide +kernel) (by decide +kernel)

end RoundConfig

open RoundConfig in
/-- The score goes into 32 bits without a sign, so a message with the score -1 is
not too old. -/
theorem negative_score_kept :
    ¬ ∀ (cfg : RoundConfig) (msgs : List (StoredMessage ℤ)) (hash : Table Bytes Bytes),
      (∀ k, cfg.replies k = .all) → (∀ i, cfg.clock i = cfg.start) →
      Distinct (msgs.map StoredMessage.member) →
      (∀ m ∈ msgs, (stoll (RedisScore.text m.score)).isSome = true) →
      ∃ n s, cfg.dbGetAndDeleteOneRedisGroupMsg n ⟨msgs.map StoredMessage.member, hash⟩ ∅ =
          some (.ok s) ∧ cfg.Conserved (cfg.toPush fun m => m.score) msgs hash s := by
  intro h
  let msgs : List (StoredMessage ℤ) := [⟨7, 5, .toAll, -1⟩]
  have hview :
      (tenThousand.onePage ⟨⟨msgs.map StoredMessage.member, ∅⟩, ∅, false, 0, 0, []⟩).toOption.map
      (fun r => (r.2, (tenThousand.taskOf r.1.tasks 7).gms.map (·.dbKey))) =
        some (false, [groupField 7 5 .toAll]) := by
    decide +kernel
  obtain ⟨n, s, hrun, hconserved⟩ := h tenThousand msgs ∅ (fun _ => rfl) (fun _ => rfl)
    (by decide +kernel) (by decide +kernel)
  cases n with
  | zero => cases hrun
  | succ n =>
      rw [dbGetAndDeleteOneRedisGroupMsg, loop] at hrun
      cases hpage : tenThousand.onePage
          ⟨⟨msgs.map StoredMessage.member, ∅⟩, ∅, false, 0, 0, []⟩ with
      | error e => simp [hpage, Except.toOption] at hview
      | ok r =>
          obtain ⟨s', more⟩ := r
          simp only [hpage, Except.toOption, Option.map_some, Option.some.injEq,
            Prod.mk.injEq] at hview
          obtain ⟨rfl, hkeys⟩ := hview
          simp only [hpage, Option.some.injEq, Except.ok.injEq] at hrun
          subst hrun
          have hcount := hconserved.once ⟨7, 5, .toAll, -1⟩ (by decide +kernel) 7
          rw [hkeys] at hcount
          revert hcount
          decide +kernel

end BcmServer.Offline
