import BcmServer.Group.OnlineMembers
import BcmServer.Redis.HashReply
import BcmServer.Util.Json

/-!
# BcmServer.Offline.GroupMsgList — the messages an offline server takes from redis

The online servers put a group message with offline users into the sorted set
`group_msg_list` of a redis database, with the time as the score, and the users
of one that is not for all into the hash `group_multi_msg_list`, under the same
name. In a round `dbGetAndDeleteOneRedisGroupMsg` reads the sorted set page by
page, puts what is to be pushed into a task for its group, and removes the page
and its fields of the hash.

This module has the functions and what the loop over a page does; what comes into
the tasks is in `GroupMsgTasks`, and the loop over the pages in `GroupMsgRound`.

What the functions throw is a `Fault` here, as is what C++ leaves undefined.
-/

namespace BcmServer.Offline

open BcmServer.Util BcmServer.Redis
open BcmServer.Group (Gid)

/-! ## What is stored -/

/-- `PushPeopleType` -/
inductive PushPeopleType where
  | unknown
  | toAll
  | toDesignatedPerson
deriving DecidableEq, Repr

def PushPeopleType.value : PushPeopleType → Int32
  | unknown => 0
  | toAll => 1
  | toDesignatedPerson => 2

/-- A name in both, as `updateRedisdbOfflineInfo` prints it -/
def groupField (gid : Gid) (mid : UInt64) (type : PushPeopleType) : Bytes :=
  padded 20 gid.toNat ++ ascii ['_'] ++ padded 20 mid.toNat ++ ascii ['_'] ++
    padded 2 type.value.toNatClampNeg

/-- `GroupMultibroadMessageInfo` -/
structure GroupMultibroadMessageInfo where
  members : Finset Bytes
  fromUid : Bytes
deriving DecidableEq

namespace GroupMultibroadMessageInfo

def initial : GroupMultibroadMessageInfo := ⟨∅, []⟩

/-- `GroupMultibroadMessageInfo::from_string`, over the JSON parser: the value
after it, with whether it succeeds. The members stay if the sender is malformed. -/
def fromString (parse : Bytes → Except JsonError Json) (gmm : GroupMultibroadMessageInfo)
    (str : Bytes) : GroupMultibroadMessageInfo × Bool :=
  match parse str with
  | .error _ => (gmm, false)
  | .ok j =>
      match j.toGeneric Json.getStrings "members" with
      | .error _ => (gmm, false)
      | .ok members =>
          let gmm := { gmm with members := members.toFinset }
          match j.find "from_uid" with
          | none | some .null => (gmm, true)
          | some v =>
              match v.getString with
              | .error _ => (gmm, false)
              | .ok uid => ({ gmm with fromUid := uid }, true)

end GroupMultibroadMessageInfo

/-- How redis treats the scores of a sorted set, which are floating-point
numbers. -/
class RedisScore (S : Type) where
  /-- a score in a reply -/
  text : S → Bytes
  /-- the score is not above a bound -/
  le : S → ℤ → Bool

/-- Scores that are integers -/
instance : RedisScore ℤ := ⟨intDecimal, fun s n => s ≤ n⟩

/-- A redis database: the sorted set, in its order, and the hash. -/
structure OfflineRedis (S : Type) where
  groupMsgs : List (Bytes × S)
  multiMsgs : Table Bytes Bytes

/-- `ZSetMemberScore` -/
structure ZSetMemberScore where
  member : Bytes
  score : Int64
deriving DecidableEq, Repr

/-! ## The tasks -/

/-- `GroupMessageIdInfo` -/
structure GroupMessageIdInfo where
  lastMid : UInt64
  tm : UInt32
  type : Int32
  dbKey : Bytes
  redisId : Int32
  gmm : GroupMultibroadMessageInfo
deriving DecidableEq

/-- `GroupMessageInfoTask`; the counters do not overflow. -/
structure GroupMessageInfoTask where
  preRoundMid : UInt64
  preRoundMsgTs : UInt32
  broadcastCount : ℕ
  multicastCount : ℕ
  gms : List GroupMessageIdInfo
  multicastMembers : Finset Bytes
deriving DecidableEq

/-- `newGroupMsg` -/
abbrev GroupTasks := Table Gid GroupMessageInfoTask

/-- `GroupMessageSeqInfo` -/
structure GroupMessageSeqInfo where
  timestamp : UInt32
  lastMid : UInt64
deriving DecidableEq, Repr

/-- Which commands redis executes for a page. -/
structure PageReplies where
  range : Bool
  zrem : Bool
  hmget : Bool
  hdel : Bool
deriving DecidableEq, Repr

def PageReplies.all : PageReplies := ⟨true, true, true, true⟩

/-- What a call of `dbGetAndDeleteOneRedisGroupMsg` depends on. -/
structure RoundConfig where
  redisId : Int32
  /-- `GroupPartitionMgr::getGroupPushInfo` -/
  pushInfo : Gid → Option GroupMessageSeqInfo
  /-- `nlohmann::json::parse` -/
  parse : Bytes → Except JsonError Json
  /-- the clock when the call begins -/
  start : ℤ
  /-- the clock when the entry with a number is looked at -/
  clock : ℕ → ℤ
  replies : ℕ → PageReplies

/-- `OFFLINE_GROUP_MESSAGE_EXPIRE_TIME` -/
def offlineGroupMessageExpireTime : ℤ := 30 * 60

/-- `OFFLINE_GROUP_MESSAGE_DELAY_TIME` -/
def offlineGroupMessageDelayTime : ℤ := 5

/-- `OFFLINE_GROUP_MESSAGE_SCAN_SIZE` -/
def offlineGroupMessageScanSize : ℕ := 300

namespace RoundConfig

variable (cfg : RoundConfig)

/-- What is to be done with an entry: nothing, or push it to its group. -/
def judge (now : ℤ) (g : ZSetMemberScore) : Except Fault (Option (Gid × GroupMessageIdInfo)) :=
  match g.member.splitOn '_'.toUInt8 with
  | [gidText, midText, typeText] => do
      let curGid ← number (stoull gidText)
      let lastMid ← number (stoull midText)
      let type ← number (stoll typeText)
      let gmDb : GroupMessageIdInfo := {
        lastMid := lastMid
        tm := UInt32.ofInt g.score.toInt
        type := type.toInt32
        dbKey := g.member
        redisId := cfg.redisId
        gmm := .initial }
      if gmDb.type ≠ PushPeopleType.toAll.value ∧
          gmDb.type ≠ PushPeopleType.toDesignatedPerson.value then .ok none
      else if offlineGroupMessageExpireTime < now - gmDb.tm.toNat then .ok none
      else
        match cfg.pushInfo curGid with
        | some gmS => if gmDb.lastMid < gmS.lastMid then .ok none else .ok (some (curGid, gmDb))
        | none => .ok (some (curGid, gmDb))
  | _ => .ok none

/-- The task of a group that has none yet -/
def newTask (gid : Gid) : GroupMessageInfoTask where
  preRoundMid := ((cfg.pushInfo gid).map GroupMessageSeqInfo.lastMid).getD 0
  preRoundMsgTs := ((cfg.pushInfo gid).map GroupMessageSeqInfo.timestamp).getD 0
  broadcastCount := 0
  multicastCount := 0
  gms := []
  multicastMembers := ∅

end RoundConfig

/-- The message is for the users in the hash. -/
def GroupMessageIdInfo.multicast (gm : GroupMessageIdInfo) : Bool :=
  gm.type = PushPeopleType.toDesignatedPerson.value

/-- A message is put into a task. -/
def GroupMessageInfoTask.push (t : GroupMessageInfoTask) (gm : GroupMessageIdInfo) :
    GroupMessageInfoTask :=
  { t with
    broadcastCount := if gm.multicast then t.broadcastCount else t.broadcastCount + 1
    multicastCount := if gm.multicast then t.multicastCount + 1 else t.multicastCount
    gms := t.gms ++ [gm] }

/-- The variables of the loop over a page -/
structure PageState where
  tasks : GroupTasks
  mGetMultiMsgs : List Bytes
  cleanGroupMsg : List Bytes
  resultRedisData : Bool
  /-- entries looked at so far -/
  seen : ℕ

namespace RoundConfig

variable (cfg : RoundConfig)

/-- The task of a group, or the one it would get -/
def taskOf (tasks : GroupTasks) (gid : Gid) : GroupMessageInfoTask :=
  (tasks.lookup gid).getD (cfg.newTask gid)

/-- Every entry is to be removed. -/
def clean (s : PageState) (g : ZSetMemberScore) : PageState :=
  { s with
    cleanGroupMsg := s.cleanGroupMsg ++ [g.member]
    resultRedisData := s.resultRedisData || (g.member.splitOn '_'.toUInt8).length = 3
    seen := s.seen + 1 }

/-- A message goes into the task of its group. -/
def keep (s : PageState) (gid : Gid) (gm : GroupMessageIdInfo) : PageState :=
  { s with
    tasks := s.tasks.insert gid ((cfg.taskOf s.tasks gid).push gm)
    mGetMultiMsgs := if gm.multicast then s.mGetMultiMsgs ++ [gm.dbKey] else s.mGetMultiMsgs }

/-- The body of the loop over a page -/
def entry (s : PageState) (g : ZSetMemberScore) : Except Fault PageState := do
  match ← cfg.judge (cfg.clock s.seen) g with
  | none => .ok (clean s g)
  | some (gid, gm) => .ok (cfg.keep (clean s g) gid gm)

end RoundConfig

/-! ## The users of the messages of a page -/

/-- The loop over the messages of a task, for a value of the hash -/
def GroupMessageInfoTask.join (parse : Bytes → Except JsonError Json) (curLastMid : UInt64)
    (value : Bytes) (t : GroupMessageInfoTask) : GroupMessageInfoTask :=
  { t with
    gms := t.gms.map fun gm =>
      if gm.lastMid ≠ curLastMid then gm else { gm with gmm := (gm.gmm.fromString parse value).1 }
    multicastMembers := t.gms.foldl (fun members gm =>
      if gm.lastMid ≠ curLastMid then members
      else if (gm.gmm.fromString parse value).2 then
        members ∪ (gm.gmm.fromString parse value).1.members
      else members) t.multicastMembers }

namespace RoundConfig

variable (cfg : RoundConfig)

/-- The loop of `dbGetAndDeleteOneRedisMultiMsg`, for one field -/
def joinField (tasks : GroupTasks) (e : Bytes × Bytes) : Except Fault GroupTasks :=
  match e.1.splitOn '_'.toUInt8 with
  | [gidText, midText, _] => do
      let curGid ← number (stoull gidText)
      let curLastMid ← number (stoull midText)
      match tasks.lookup curGid with
      | none => .ok tasks
      | some t => .ok (tasks.insert curGid (t.join cfg.parse curLastMid e.2))
  | _ => .ok tasks

/-- `dbGetAndDeleteOneRedisMultiMsg`: the tasks and the hash after it -/
def dbGetAndDeleteOneRedisMultiMsg (replies : PageReplies) (hash : Table Bytes Bytes)
    (fields : List Bytes) (tasks : GroupTasks) : Except Fault (GroupTasks × Table Bytes Bytes) := do
  let mapFieldValue ← hmget hash fields
  if replies.hmget then
    let tasks ← mapFieldValue.foldlM cfg.joinField tasks
    .ok (tasks, if replies.hdel then hash.eraseAll fields else hash)
  else .ok (tasks, hash)

end RoundConfig

/-! ## What becomes of an entry -/

/-- The kept messages, with their groups -/
abbrev Kept := List (Gid × GroupMessageIdInfo)

namespace RoundConfig

variable (cfg : RoundConfig)

def verdict (now : ℤ) (g : ZSetMemberScore) : Option (Gid × GroupMessageIdInfo) :=
  (cfg.judge now g).toOption.join

/-- The entries that are kept, the first of them being looked at as the `i`-th -/
def keptOf : ℕ → List ZSetMemberScore → Kept
  | _, [] => []
  | i, g :: l => (cfg.verdict (cfg.clock i) g).toList ++ keptOf (i + 1) l

/-- A message is put into the task of its group. -/
def pushTask (tasks : GroupTasks) (k : Gid × GroupMessageIdInfo) : GroupTasks :=
  tasks.insert k.1 ((cfg.taskOf tasks k.1).push k.2)

/-- The fields of the kept messages that are not for all -/
def fieldsOf (ks : Kept) : List Bytes :=
  (ks.filter fun k => k.2.multicast).map fun k => k.2.dbKey

variable {cfg} {now : ℤ} {g : ZSetMemberScore} {gid : Gid} {gm : GroupMessageIdInfo}

/-- A kept entry is named by the numbers in it. -/
theorem judge_kept (h : cfg.judge now g = .ok (some (gid, gm))) :
    ∃ gidText midText typeText, g.member.splitOn '_'.toUInt8 = [gidText, midText, typeText] ∧
      stoull gidText = some gid ∧ stoull midText = some gm.lastMid ∧ gm.dbKey = g.member ∧
        gm.gmm = .initial := by
  unfold judge at h
  split at h
  · next gidText midText typeText hsplit =>
    obtain ⟨curGid, hgid, h⟩ := bind_eq_ok.mp h
    obtain ⟨lastMid, hmid, h⟩ := bind_eq_ok.mp h
    obtain ⟨type, -, h⟩ := bind_eq_ok.mp h
    refine ⟨_, _, _, hsplit, ?_⟩
    rw [number_eq_ok] at hgid hmid
    dsimp only at h
    -- the three tests leave the same message
    split at h
    · cases h
    · split at h
      · cases h
      · split at h
        · split at h
          · cases h
          · cases h
            exact ⟨hgid, hmid, rfl, rfl⟩
        · cases h
          exact ⟨hgid, hmid, rfl, rfl⟩
  · cases h

theorem fieldsOf_append (ks ls : Kept) : fieldsOf (ks ++ ls) = fieldsOf ks ++ fieldsOf ls := by
  simp [fieldsOf]

theorem keptOf_append (i : ℕ) (l m : List ZSetMemberScore) :
    cfg.keptOf i (l ++ m) = cfg.keptOf i l ++ cfg.keptOf (i + l.length) m := by
  induction l generalizing i with
  | nil => rfl
  | cons g l ih =>
      rw [List.cons_append, keptOf, keptOf, ih, List.append_assoc, List.length_cons]
      congr 3
      omega

/-- A kept message comes of an entry. -/
theorem judge_of_mem_keptOf {i : ℕ} {l : List ZSetMemberScore} {k : Gid × GroupMessageIdInfo}
    (hk : k ∈ cfg.keptOf i l) :
    ∃ j g, l[j]? = some g ∧ cfg.judge (cfg.clock (i + j)) g = .ok (some k) := by
  induction l generalizing i with
  | nil => cases hk
  | cons g l ih =>
      rcases List.mem_append.mp hk with hk | hk
      · refine ⟨0, g, rfl, ?_⟩
        rw [Option.mem_toList, verdict] at hk
        rw [Nat.add_zero]
        cases hj : cfg.judge (cfg.clock i) g with
        | error e => simp [hj, Except.toOption] at hk
        | ok v => simpa [hj, Except.toOption] using hk
      · obtain ⟨j, g', hj, hjudge⟩ := ih hk
        refine ⟨j + 1, g', by simpa using hj, ?_⟩
        rw [show i + (j + 1) = i + 1 + j by omega]
        exact hjudge

theorem mem_keptOf {i j : ℕ} {l : List ZSetMemberScore} {k : Gid × GroupMessageIdInfo}
    (hg : l[j]? = some g) (h : cfg.judge (cfg.clock (i + j)) g = .ok (some k)) :
    k ∈ cfg.keptOf i l := by
  induction l generalizing i j with
  | nil => simp at hg
  | cons g' l ih =>
      cases j with
      | zero =>
          cases hg
          rw [Nat.add_zero] at h
          refine List.mem_append_left _ ?_
          simp [verdict, h, Except.toOption]
      | succ j =>
          refine List.mem_append_right _ (@ih (i + 1) j (by simpa using hg) ?_)
          rwa [show i + 1 + j = i + (j + 1) by omega]

theorem entry_eq {s : PageState} {v : Option (Gid × GroupMessageIdInfo)}
    (h : cfg.judge (cfg.clock s.seen) g = .ok v) :
    ∃ s', cfg.entry s g = .ok s' ∧ s'.tasks = v.toList.foldl cfg.pushTask s.tasks ∧
      s'.mGetMultiMsgs = s.mGetMultiMsgs ++ fieldsOf v.toList ∧
        s'.cleanGroupMsg = s.cleanGroupMsg ++ [g.member] ∧ s'.seen = s.seen + 1 := by
  cases v with
  | none =>
      refine ⟨clean s g, by rw [entry, h]; rfl, rfl, ?_, rfl, rfl⟩
      simp [clean, fieldsOf]
  | some k =>
      obtain ⟨gid, gm⟩ := k
      refine ⟨cfg.keep (clean s g) gid gm, by rw [entry, h]; rfl, rfl, ?_, rfl, rfl⟩
      cases hm : gm.multicast <;> simp [keep, clean, fieldsOf, hm]

/-- A page whose entries can all be converted -/
theorem page_eq {s : PageState} {l : List ZSetMemberScore}
    (h : ∀ j g, l[j]? = some g → ∃ v, cfg.judge (cfg.clock (s.seen + j)) g = .ok v) :
    ∃ s', l.foldlM cfg.entry s = .ok s' ∧
      s'.tasks = (cfg.keptOf s.seen l).foldl cfg.pushTask s.tasks ∧
        s'.mGetMultiMsgs = s.mGetMultiMsgs ++ fieldsOf (cfg.keptOf s.seen l) ∧
          s'.cleanGroupMsg = s.cleanGroupMsg ++ l.map ZSetMemberScore.member ∧
            s'.seen = s.seen + l.length := by
  induction l generalizing s with
  | nil => exact ⟨s, rfl, rfl, by simp [keptOf, fieldsOf], by simp, rfl⟩
  | cons g l ih =>
      obtain ⟨v, hv⟩ := h 0 g rfl
      obtain ⟨s₁, hentry, htasks, hmulti, hclean, hseen⟩ := entry_eq hv
      obtain ⟨s', hfold, htasks', hmulti', hclean', hseen'⟩ := @ih s₁ fun j g' hj => by
        rw [hseen, show s.seen + 1 + j = s.seen + (j + 1) by omega]
        exact h (j + 1) g' (by simpa using hj)
      have hverdict : cfg.verdict (cfg.clock s.seen) g = v := by
        rw [Nat.add_zero] at hv
        simp [verdict, hv, Except.toOption]
      refine ⟨s', ?_, ?_, ?_, ?_, ?_⟩
      · rw [List.foldlM_cons, hentry]
        exact hfold
      · rw [htasks', htasks, hseen, keptOf, hverdict, List.foldl_append]
      · rw [hmulti', hmulti, hseen, keptOf, hverdict, fieldsOf_append, List.append_assoc]
      · rw [hclean', hclean, List.map_cons, List.append_assoc]
        rfl
      · rw [hseen', hseen, List.length_cons]
        omega

theorem judge_of_entry {s s' : PageState} (h : cfg.entry s g = .ok s') :
    s'.seen = s.seen + 1 ∧ ∃ v, cfg.judge (cfg.clock s.seen) g = .ok v := by
  obtain ⟨v, hv, -⟩ := bind_eq_ok.mp h
  obtain ⟨t, ht, -, -, -, hseen⟩ := entry_eq hv
  rw [ht] at h
  cases h
  exact ⟨hseen, v, hv⟩

/-- Only such a page gets through. -/
theorem judge_of_page {s s' : PageState} {l : List ZSetMemberScore}
    (h : l.foldlM cfg.entry s = .ok s') :
    ∀ j g, l[j]? = some g → ∃ v, cfg.judge (cfg.clock (s.seen + j)) g = .ok v := by
  induction l generalizing s with
  | nil =>
      intro j g hj
      simp at hj
  | cons g l ih =>
      rw [List.foldlM_cons] at h
      obtain ⟨s₁, hentry, hrest⟩ := bind_eq_ok.mp h
      obtain ⟨hseen, hjudge⟩ := judge_of_entry hentry
      intro j g' hj
      cases j with
      | zero =>
          cases hj
          exact hjudge
      | succ j =>
          have hnext := ih hrest j g' (by simpa using hj)
          rwa [hseen, show s.seen + 1 + j = s.seen + (j + 1) by omega] at hnext

end RoundConfig

end BcmServer.Offline
