import BcmServer.Offline.GroupMsgTasks

/-!
# BcmServer.Offline.GroupMsgRound — a round over the sorted set

`dbGetAndDeleteOneRedisGroupMsg` reads the first `OFFLINE_GROUP_MESSAGE_SCAN_SIZE`
members of the score range again and again, until there are fewer. It starts at
offset 0 each time, so it relies on every member of a page having been removed.

* `loop_drained`: while redis answers and every member of the range is
  `admissible`, the loop ends with the range removed and its kept messages in the
  tasks.
* `queue_drains_iff`: it ends and has removed what it has read only then.
* `malformed_name_stays`: a name whose parts are not numbers is read and not
  removed.
-/

namespace BcmServer.Offline

open BcmServer.Util BcmServer.Redis
open BcmServer.Group (Gid)

/-- The loop of `dbGetAndDeleteOneRedisGroupMsg`. -/
structure RoundState (S : Type) where
  redis : OfflineRedis S
  /-- `newGroupMsg` -/
  tasks : GroupTasks
  resultRedisData : Bool
  seen : ℕ
  /-- pages processed so far -/
  pages : ℕ
  /-- the members of the pages read so far -/
  read : List Bytes

namespace RoundConfig

variable {S : Type} [RedisScore S] (cfg : RoundConfig)

/-- `maxTimeStamp` -/
def maxTimeStamp : ℤ := cfg.start - offlineGroupMessageDelayTime

/-- The members of the score range; a minimum of 0 is sent as `-inf`, but there is
no range if it is above the maximum. -/
def inRange (l : List (Bytes × S)) : List (Bytes × S) :=
  if cfg.maxTimeStamp < 0 then [] else l.filter fun e => RedisScore.le e.2 cfg.maxTimeStamp

/-- The first members of the range -/
def page (l : List (Bytes × S)) : List (Bytes × S) :=
  (cfg.inRange l).take offlineGroupMessageScanSize

/-- What `getMemsByScoreWithLimit` makes of a member -/
def readMember (e : Bytes × S) : Except Fault ZSetMemberScore := do
  let score ← number (stoll (RedisScore.text e.2))
  .ok ⟨cString e.1, score⟩

/-- The names that are to be removed -/
def zrem (l : List (Bytes × S)) (names : List Bytes) : List (Bytes × S) :=
  l.filter fun e => e.1 ∉ names

/-- The users of the messages of a page, if there are some that are not for all -/
def multiOf (replies : PageReplies) (hash : Table Bytes Bytes) (mGetMultiMsgs : List Bytes)
    (tasks : GroupTasks) : Except Fault (GroupTasks × Table Bytes Bytes) :=
  if mGetMultiMsgs.isEmpty then .ok (tasks, hash)
  else cfg.dbGetAndDeleteOneRedisMultiMsg replies hash mGetMultiMsgs tasks

/-- The body of the loop, with whether it is repeated. -/
def onePage (s : RoundState S) : Except Fault (RoundState S × Bool) :=
  let replies := cfg.replies s.pages
  if !replies.range || cfg.maxTimeStamp < 0 then .ok (s, false)
  else do
    let stored := cfg.page s.redis.groupMsgs
    let resultGroups ← stored.mapM readMember
    let p ← resultGroups.foldlM cfg.entry ⟨s.tasks, [], [], s.resultRedisData, s.seen⟩
    let s' := { s with
      tasks := p.tasks
      resultRedisData := p.resultRedisData
      seen := p.seen
      pages := s.pages + 1
      read := s.read ++ stored.map Prod.fst }
    if !p.cleanGroupMsg.isEmpty && !replies.zrem then .ok (s', false)
    else do
      let (tasks, multiMsgs) ← cfg.multiOf replies s.redis.multiMsgs p.mGetMultiMsgs p.tasks
      let s' := { s' with
        tasks := tasks
        redis := ⟨zrem s.redis.groupMsgs p.cleanGroupMsg, multiMsgs⟩ }
      .ok (s', offlineGroupMessageScanSize ≤ resultGroups.length)

/-- The loop, of at most so many rounds; none, if it goes on. -/
def loop : ℕ → RoundState S → Option (Except Fault (RoundState S))
  | 0, _ => none
  | n + 1, s =>
      match cfg.onePage s with
      | .error e => some (.error e)
      | .ok (s', false) => some (.ok s')
      | .ok (s', true) => loop n s'

/-- `dbGetAndDeleteOneRedisGroupMsg` -/
def dbGetAndDeleteOneRedisGroupMsg (n : ℕ) (redis : OfflineRedis S) (newGroupMsg : GroupTasks) :
    Option (Except Fault (RoundState S)) :=
  cfg.loop n ⟨redis, newGroupMsg, false, 0, 0, []⟩

/-! ## Pages and the range -/

/-- The members in the range have different names. -/
def Distinct (l : List (Bytes × S)) : Prop := (l.map Prod.fst).Nodup

omit [RedisScore S] in
instance (l : List (Bytes × S)) : Decidable (Distinct l) :=
  inferInstanceAs (Decidable (l.map Prod.fst).Nodup)

variable {cfg} {l : List (Bytes × S)}

theorem inRange_sublist (l : List (Bytes × S)) : (cfg.inRange l).Sublist l := by
  unfold inRange
  split
  · exact List.nil_sublist l
  · exact List.filter_sublist

omit [RedisScore S] in
theorem Distinct.sublist {l' : List (Bytes × S)} (h : Distinct l) (hl : l'.Sublist l) :
    Distinct l' :=
  List.Nodup.sublist (hl.map Prod.fst) h

theorem page_sublist (l : List (Bytes × S)) : (cfg.page l).Sublist l :=
  (List.take_sublist _ _).trans (inRange_sublist l)

theorem inRange_zrem (l : List (Bytes × S)) (names : List Bytes) :
    cfg.inRange (zrem l names) = zrem (cfg.inRange l) names := by
  unfold inRange zrem
  split
  · rfl
  · rw [List.filter_filter, List.filter_filter]
    simp only [Bool.and_comm]

omit [RedisScore S] in
theorem Distinct.zrem (h : Distinct l) (names : List Bytes) : Distinct (zrem l names) :=
  h.sublist List.filter_sublist

omit [RedisScore S] in
/-- What comes first is removed by its names, and nothing else. -/
theorem zrem_take (h : Distinct l) (n : ℕ) : zrem l ((l.take n).map Prod.fst) = l.drop n := by
  have hdisjoint : ∀ e ∈ l.drop n, e.1 ∉ (l.take n).map Prod.fst := by
    intro e he hmem
    rw [Distinct, ← List.take_append_drop n l, List.map_append] at h
    exact (List.disjoint_of_nodup_append h) hmem (List.mem_map_of_mem he)
  conv_lhs => rw [zrem, ← List.take_append_drop n l]
  rw [List.filter_append, List.filter_eq_nil_iff.mpr, List.filter_eq_self.mpr, List.nil_append]
  · intro e he
    rw [List.take_append_drop n l]
    simpa using hdisjoint e he
  · intro e he
    rw [List.take_append_drop n l]
    have hmem : e.1 ∈ (l.take n).map Prod.fst := List.mem_map_of_mem he
    exact fun hnot => of_decide_eq_true hnot hmem

/-- Once a page is removed, the range is what came after it. -/
theorem inRange_after (h : Distinct l) :
    cfg.inRange (zrem l ((cfg.page l).map Prod.fst)) =
      (cfg.inRange l).drop offlineGroupMessageScanSize := by
  rw [inRange_zrem]
  exact zrem_take (h.sublist (inRange_sublist l)) _

theorem page_append_inRange (h : Distinct l) :
    cfg.page l ++ cfg.inRange (zrem l ((cfg.page l).map Prod.fst)) = cfg.inRange l := by
  rw [inRange_after h]
  exact List.take_append_drop _ _

/-! ## What a page needs -/

/-- A member as the client returns it, its score being a number -/
def asMember (e : Bytes × S) : ZSetMemberScore :=
  ⟨cString e.1, (stoll (RedisScore.text e.2)).getD 0⟩

theorem mapM_readMember {gs : List ZSetMemberScore} : l.mapM readMember = .ok gs ↔
    (∀ e ∈ l, (stoll (RedisScore.text e.2)).isSome = true) ∧ gs = l.map asMember := by
  induction l generalizing gs with
  | nil =>
      rw [List.mapM_nil]
      constructor
      · rintro ⟨⟩
        simp
      · rintro ⟨-, rfl⟩
        rfl
  | cons e l ih =>
      rw [List.mapM_cons]
      simp only [bind_eq_ok, readMember, number_eq_ok]
      constructor
      · rintro ⟨g, ⟨score, hscore, hg⟩, gs', hgs', hgs⟩
        cases hg
        cases hgs
        obtain ⟨hall, rfl⟩ := ih.mp hgs'
        refine ⟨?_, by simp [asMember, hscore]⟩
        simpa [hscore] using hall
      · rintro ⟨hall, rfl⟩
        obtain ⟨score, hscore⟩ := Option.isSome_iff_exists.mp (hall e List.mem_cons_self)
        refine ⟨_, ⟨score, hscore, rfl⟩, l.map asMember, ?_, ?_⟩
        · exact ih.mpr ⟨fun e' he' => hall e' (List.mem_cons_of_mem e he'), rfl⟩
        · rw [List.map_cons, asMember, hscore]
          rfl

/-- A member that is looked at as the `i`-th does no harm: its name is a C string,
its score and the parts of its name are numbers, and if it is kept and not for
all its name stays one word in a command. -/
def admissible (cfg : RoundConfig) (i : ℕ) (e : Bytes × S) : Bool :=
  !e.1.contains 0 && (stoll (RedisScore.text e.2)).isSome &&
    match cfg.judge (cfg.clock i) (asMember e) with
    | .error _ => false
    | .ok none => true
    | .ok (some (_, gm)) => !gm.multicast || oneWord e.1

theorem admissible_iff {i : ℕ} {e : Bytes × S} : cfg.admissible i e = true ↔
    0 ∉ e.1 ∧ (stoll (RedisScore.text e.2)).isSome = true ∧
      ∃ v, cfg.judge (cfg.clock i) (asMember e) = .ok v ∧
        ∀ k, v = some k → k.2.multicast = true → oneWord e.1 = true := by
  unfold admissible
  rw [Bool.and_eq_true, Bool.and_eq_true, and_assoc]
  refine and_congr (by simp) (and_congr Iff.rfl ?_)
  split
  · next h => simp [h]
  · next h => simp [h]
  · next gid gm h =>
    simp only [h, Except.ok.injEq, exists_eq_left', Option.some.injEq, forall_eq',
      Bool.or_eq_true, Bool.not_eq_true']
    cases gm.multicast <;> simp

/-- The fields that are asked for are among the names of the page. -/
theorem fieldsOf_sublist (i : ℕ) (gs : List ZSetMemberScore) :
    (fieldsOf (cfg.keptOf i gs)).Sublist (gs.map ZSetMemberScore.member) := by
  induction gs generalizing i with
  | nil => exact List.Sublist.refl _
  | cons g gs ih =>
      rw [keptOf, fieldsOf_append, List.map_cons]
      cases hv : cfg.verdict (cfg.clock i) g with
      | none =>
          exact (ih (i + 1)).cons _
      | some k =>
          have hkey : k.2.dbKey = g.member := by
            obtain ⟨j, g', hj, hjudge⟩ := @judge_of_mem_keptOf cfg i [g] k (by simp [keptOf, hv])
            obtain ⟨_, _, _, -, -, -, hkey, -⟩ := judge_kept hjudge
            rw [hkey]
            cases j with
            | zero =>
                cases hj
                rfl
            | succ j => simp at hj
          cases hm : k.2.multicast with
          | false => simpa [fieldsOf, hm] using (ih (i + 1)).cons _
          | true => simpa [fieldsOf, hm, hkey] using (ih (i + 1)).cons_cons g.member

theorem map_asMember (h : ∀ e ∈ l, 0 ∉ e.1) :
    (l.map asMember).map ZSetMemberScore.member = l.map Prod.fst := by
  rw [List.map_map]
  exact List.map_congr_left fun e he => cString_self (h e he)

theorem nodup_fieldsOf (hd : Distinct l) (h : ∀ e ∈ l, 0 ∉ e.1) (i : ℕ) :
    (fieldsOf (cfg.keptOf i (l.map asMember))).Nodup := by
  refine List.Nodup.sublist (fieldsOf_sublist _ _) ?_
  rw [map_asMember h]
  exact hd

/-! ## One page -/

/-- The users that the hash has for a message -/
def storedUsers (cfg : RoundConfig) (hash : Table Bytes Bytes) (gm : GroupMessageIdInfo) :
    Finset Bytes :=
  GroupMessageInfoTask.storedMembers cfg.parse (fieldValue hash gm.dbKey)

/-- What a page has done: it is removed, its messages are in the tasks, with the
users of those that are not for all, whose fields are removed as well. -/
structure PageDone (cfg : RoundConfig) (s s' : RoundState S) (base : GroupTasks) (ks : Kept) :
    Prop where
  groupMsgs : s'.redis.groupMsgs =
    zrem s.redis.groupMsgs ((cfg.page s.redis.groupMsgs).map Prod.fst)
  multiMsgs : s'.redis.multiMsgs = s.redis.multiMsgs.eraseAll
    (fieldsOf (cfg.keptOf s.seen ((cfg.page s.redis.groupMsgs).map asMember)))
  seen : s'.seen = s.seen + (cfg.page s.redis.groupMsgs).length
  read : s'.read = s.read ++ (cfg.page s.redis.groupMsgs).map Prod.fst
  tallies : cfg.Tallies base s'.tasks
    (ks ++ cfg.keptOf s.seen ((cfg.page s.redis.groupMsgs).map asMember))
  members : ∀ gid uid, uid ∈ (cfg.taskOf s'.tasks gid).multicastMembers ↔
    uid ∈ (cfg.taskOf s.tasks gid).multicastMembers ∨
      ∃ k ∈ cfg.keptOf s.seen ((cfg.page s.redis.groupMsgs).map asMember),
        k.1 = gid ∧ k.2.multicast = true ∧ uid ∈ cfg.storedUsers s.redis.multiMsgs k.2

variable {s : RoundState S}

/-- Every entry of the page is admissible. -/
def PageOk (cfg : RoundConfig) (s : RoundState S) : Prop :=
  ∀ j e, (cfg.page s.redis.groupMsgs)[j]? = some e → cfg.admissible (s.seen + j) e = true

theorem PageOk.zero_notMem (h : cfg.PageOk s) : ∀ e ∈ cfg.page s.redis.groupMsgs, 0 ∉ e.1 := by
  intro e he
  obtain ⟨j, hj⟩ := List.mem_iff_getElem?.mp he
  exact (admissible_iff.mp (h j e hj)).1

/-- The kept messages of the page that are not for all: what their fields are
called, and that they are words. -/
theorem PageOk.kept (h : cfg.PageOk s) {k : Gid × GroupMessageIdInfo}
    (hk : k ∈ cfg.keptOf s.seen ((cfg.page s.redis.groupMsgs).map asMember)) :
    Kept.Names k.2.dbKey k ∧ (k.2.multicast = true → oneWord k.2.dbKey = true) := by
  obtain ⟨j, g, hj, hjudge⟩ := judge_of_mem_keptOf hk
  obtain ⟨a, b, c, hsplit, hgid, hmid, hkey, -⟩ := judge_kept hjudge
  rw [hkey]
  refine ⟨⟨a, b, c, hsplit, hgid, hmid⟩, fun hm => ?_⟩
  rw [List.getElem?_map, Option.map_eq_some_iff] at hj
  obtain ⟨e, he, rfl⟩ := hj
  obtain ⟨hzero, -, v, hv, hword⟩ := admissible_iff.mp (h j e he)
  rw [hv, Except.ok.injEq] at hjudge
  rw [asMember, cString_self hzero]
  exact hword _ hjudge hm

/-- The users of the messages of a page -/
theorem multi_eq {base tasks : GroupTasks} {hash : Table Bytes Bytes} {all ks : Kept}
    (htallies : cfg.Tallies base tasks all) (hsub : ∀ k ∈ ks, k ∈ all)
    (hks : ∀ k ∈ ks, Kept.Names k.2.dbKey k ∧
      (k.2.multicast = true → oneWord k.2.dbKey = true)) :
    ∃ tasks', cfg.dbGetAndDeleteOneRedisMultiMsg .all hash (fieldsOf ks) tasks =
        .ok (tasks', hash.eraseAll (fieldsOf ks)) ∧ cfg.Tallies base tasks' all ∧
      ∀ gid uid, uid ∈ (cfg.taskOf tasks' gid).multicastMembers ↔
        uid ∈ (cfg.taskOf tasks gid).multicastMembers ∨
          ∃ k ∈ ks, k.1 = gid ∧ k.2.multicast = true ∧ uid ∈ cfg.storedUsers hash k.2 := by
  have hfields : ∀ f, f ∈ fieldsOf ks ↔ ∃ k ∈ ks, k.2.multicast = true ∧ k.2.dbKey = f := by
    intro f
    simp [fieldsOf, and_assoc]
  obtain ⟨m, hm, hmem⟩ := hmget_eq hash (fieldsOf ks) (fun f hf => by
    obtain ⟨k, hk, hmulti, rfl⟩ := (hfields f).mp hf
    exact (hks k hk).2 hmulti)
  obtain ⟨tasks', hfold, htallies', hmembers⟩ := htallies.joinAll (m := m) fun e he => by
    obtain ⟨f, hf, rfl⟩ := (hmem e).mp he
    obtain ⟨k, hk, -, rfl⟩ := (hfields f).mp hf
    exact ⟨k, hsub k hk, (hks k hk).1⟩
  refine ⟨tasks', ?_, htallies', ?_⟩
  · rw [dbGetAndDeleteOneRedisMultiMsg, hm]
    show (m.foldlM cfg.joinField tasks >>= _) = _
    rw [hfold]
    rfl
  · intro gid uid
    rw [hmembers]
    refine or_congr_right ⟨?_, ?_⟩
    · -- the name says the group, so the users go to the task of their message
      rintro ⟨e, he, ⟨k', -, hnames, rfl⟩, huid⟩
      obtain ⟨f, hf, rfl⟩ := (hmem e).mp he
      obtain ⟨k, hk, hmulti, rfl⟩ := (hfields f).mp hf
      exact ⟨k, hk, (hks k hk).1.group_eq hnames, hmulti, huid⟩
    · rintro ⟨k, hk, rfl, hmulti, huid⟩
      refine ⟨(k.2.dbKey, fieldValue hash k.2.dbKey), ?_, ⟨k, hsub k hk, (hks k hk).1, rfl⟩, huid⟩
      exact (hmem _).mpr ⟨_, (hfields _).mpr ⟨k, hk, hmulti, rfl⟩, rfl⟩

/-- To ask redis for nothing would do nothing. -/
theorem multiOf_eq (hash : Table Bytes Bytes) (fields : List Bytes) (tasks : GroupTasks) :
    cfg.multiOf .all hash fields tasks =
      cfg.dbGetAndDeleteOneRedisMultiMsg .all hash fields tasks := by
  unfold multiOf
  split
  · next hempty =>
    rw [List.isEmpty_iff.mp hempty]
    rfl
  · rfl

/-- A page whose entries are all admissible -/
theorem onePage_eq {base : GroupTasks} {ks : Kept} (hreplies : cfg.replies s.pages = .all)
    (hmax : 0 ≤ cfg.maxTimeStamp) (hok : cfg.PageOk s)
    (htallies : cfg.Tallies base s.tasks ks) : ∃ s', cfg.onePage s = .ok (s',
      offlineGroupMessageScanSize ≤ (cfg.page s.redis.groupMsgs).length) ∧
        PageDone cfg s s' base ks := by
  have hscores : (cfg.page s.redis.groupMsgs).mapM readMember =
      .ok ((cfg.page s.redis.groupMsgs).map asMember) := by
    refine mapM_readMember.mpr ⟨fun e he => ?_, rfl⟩
    obtain ⟨j, hj⟩ := List.mem_iff_getElem?.mp he
    exact (admissible_iff.mp (hok j e hj)).2.1
  obtain ⟨p, hp, htasks, hmulti, hclean, hseen⟩ := @page_eq cfg
    ⟨s.tasks, [], [], s.resultRedisData, s.seen⟩ ((cfg.page s.redis.groupMsgs).map asMember)
    fun j g hj => by
      rw [List.getElem?_map, Option.map_eq_some_iff] at hj
      obtain ⟨e, he, rfl⟩ := hj
      obtain ⟨-, -, v, hv, -⟩ := admissible_iff.mp (hok j e he)
      exact ⟨v, hv⟩
  have hnames : p.cleanGroupMsg = (cfg.page s.redis.groupMsgs).map Prod.fst := by
    rw [hclean, List.nil_append, map_asMember hok.zero_notMem]
  have htallies' := htallies.pushAll
    (cfg.keptOf s.seen ((cfg.page s.redis.groupMsgs).map asMember))
  rw [← htasks] at htallies'
  obtain ⟨tasks', hjoin, htallies', hmembers⟩ := @multi_eq cfg base p.tasks s.redis.multiMsgs _
    (cfg.keptOf s.seen ((cfg.page s.redis.groupMsgs).map asMember)) htallies'
    (fun k hk => List.mem_append_right _ hk) (fun k hk => hok.kept hk)
  rw [List.nil_append] at hmulti
  rw [← hmulti, ← multiOf_eq] at hjoin
  let s' : RoundState S := {
    redis := ⟨zrem s.redis.groupMsgs p.cleanGroupMsg, s.redis.multiMsgs.eraseAll p.mGetMultiMsgs⟩
    tasks := tasks'
    resultRedisData := p.resultRedisData
    seen := p.seen
    pages := s.pages + 1
    read := s.read ++ (cfg.page s.redis.groupMsgs).map Prod.fst }
  refine ⟨s', ?_, ?_⟩
  · have hguard : (!PageReplies.all.range || decide (cfg.maxTimeStamp < 0)) = false := by
      simpa [PageReplies.all] using hmax
    have hzrem : (!p.cleanGroupMsg.isEmpty && !PageReplies.all.zrem) = false := by
      simp [PageReplies.all]
    have hlength : ((cfg.page s.redis.groupMsgs).map asMember).length =
        (cfg.page s.redis.groupMsgs).length := List.length_map _
    simp only [onePage, hreplies, hguard, Bool.false_eq_true, if_false, hscores]
    show (((cfg.page s.redis.groupMsgs).map asMember).foldlM cfg.entry _ >>= _) = _
    rw [hp]
    show (if (!p.cleanGroupMsg.isEmpty && !PageReplies.all.zrem) = true then _ else _) = _
    rw [hzrem, if_neg Bool.false_ne_true, hjoin]
    show Except.ok (s', _) = _
    rw [hlength]
  · refine ⟨?_, ?_, ?_, rfl, htallies', ?_⟩
    · show zrem s.redis.groupMsgs p.cleanGroupMsg = _
      rw [hnames]
    · show s.redis.multiMsgs.eraseAll p.mGetMultiMsgs = _
      rw [hmulti]
    · show p.seen = _
      rw [hseen, List.length_map]
    · intro gid uid
      rw [hmembers, htasks, multicastMembers_pushAll]

/-! ## All pages -/

omit [RedisScore S] in
theorem zrem_zrem (l : List (Bytes × S)) (names names' : List Bytes) :
    zrem (zrem l names) names' = zrem l (names ++ names') := by
  unfold zrem
  rw [List.filter_filter]
  refine List.filter_congr fun e _ => ?_
  simp [not_or, Bool.and_comm]

/-- The messages that are kept, if the range is looked at from now on -/
def keptFrom (cfg : RoundConfig) (s : RoundState S) : Kept :=
  cfg.keptOf s.seen ((cfg.inRange s.redis.groupMsgs).map asMember)

/-- What a call has done that went through all pages. The users are those the
hash had at first, if no name contains another as its only word. -/
structure Drained (cfg : RoundConfig) (s s' : RoundState S) (base : GroupTasks) (ks : Kept) :
    Prop where
  groupMsgs : s'.redis.groupMsgs =
    zrem s.redis.groupMsgs ((cfg.inRange s.redis.groupMsgs).map Prod.fst)
  read : s'.read = s.read ++ (cfg.inRange s.redis.groupMsgs).map Prod.fst
  tallies : cfg.Tallies base s'.tasks (ks ++ cfg.keptFrom s)
  members : (∀ k ∈ cfg.keptFrom s, k.2.multicast = true → wordOf k.2.dbKey = k.2.dbKey) →
    ∀ gid uid, uid ∈ (cfg.taskOf s'.tasks gid).multicastMembers ↔
      uid ∈ (cfg.taskOf s.tasks gid).multicastMembers ∨ ∃ k ∈ cfg.keptFrom s,
        k.1 = gid ∧ k.2.multicast = true ∧ uid ∈ cfg.storedUsers s.redis.multiMsgs k.2

/-- Every entry of the range is admissible. -/
def RangeOk (cfg : RoundConfig) (s : RoundState S) : Prop :=
  ∀ j e, (cfg.inRange s.redis.groupMsgs)[j]? = some e → cfg.admissible (s.seen + j) e = true

theorem RangeOk.pageOk (h : cfg.RangeOk s) : cfg.PageOk s := by
  intro j e hj
  refine h j e ?_
  rw [page, List.getElem?_take] at hj
  split at hj
  · exact hj
  · cases hj

variable {s' s'' : RoundState S} {base : GroupTasks} {ks : Kept}

/-- What comes after the page -/
theorem PageDone.inRange_eq (h : cfg.PageDone s s' base ks) (hd : Distinct s.redis.groupMsgs) :
    cfg.inRange s'.redis.groupMsgs =
      (cfg.inRange s.redis.groupMsgs).drop offlineGroupMessageScanSize := by
  rw [h.groupMsgs]
  exact inRange_after hd

theorem PageDone.inRange_append (h : cfg.PageDone s s' base ks)
    (hd : Distinct s.redis.groupMsgs) :
    cfg.page s.redis.groupMsgs ++ cfg.inRange s'.redis.groupMsgs =
      cfg.inRange s.redis.groupMsgs := by
  rw [h.groupMsgs]
  exact page_append_inRange hd

theorem PageDone.keptFrom_eq (h : cfg.PageDone s s' base ks) (hd : Distinct s.redis.groupMsgs) :
    cfg.keptFrom s = cfg.keptOf s.seen ((cfg.page s.redis.groupMsgs).map asMember) ++
      cfg.keptFrom s' := by
  rw [keptFrom, ← h.inRange_append hd, List.map_append, keptOf_append, List.length_map, keptFrom,
    h.seen]

theorem PageDone.rangeOk (h : cfg.PageDone s s' base ks) (hd : Distinct s.redis.groupMsgs)
    (hok : cfg.RangeOk s) : cfg.RangeOk s' := by
  intro j e hj
  rw [h.seen, Nat.add_assoc]
  refine hok _ e ?_
  rw [← h.inRange_append hd, List.getElem?_append_right (by omega), Nat.add_sub_cancel_left]
  exact hj

theorem RangeOk.zero_notMem (h : cfg.RangeOk s) :
    ∀ e ∈ cfg.inRange s.redis.groupMsgs, 0 ∉ e.1 := by
  intro e he
  obtain ⟨j, hj⟩ := List.mem_iff_getElem?.mp he
  exact (admissible_iff.mp (h j e hj)).1

/-- The names after a page are not those that it has removed from the hash. -/
theorem PageDone.storedUsers_eq (h : cfg.PageDone s s' base ks) (hd : Distinct s.redis.groupMsgs)
    (hok : cfg.RangeOk s) {k : Gid × GroupMessageIdInfo} (hk : k ∈ cfg.keptFrom s')
    (hmulti : k.2.multicast = true) (hword : wordOf k.2.dbKey = k.2.dbKey) :
    cfg.storedUsers s'.redis.multiMsgs k.2 = cfg.storedUsers s.redis.multiMsgs k.2 := by
  have hnodup : (fieldsOf (cfg.keptFrom s)).Nodup :=
    nodup_fieldsOf (hd.sublist (inRange_sublist _)) hok.zero_notMem _
  rw [h.keptFrom_eq hd, fieldsOf_append] at hnodup
  have hlater : k.2.dbKey ∈ fieldsOf (cfg.keptFrom s') :=
    List.mem_map.mpr ⟨k, List.mem_filter.mpr ⟨hk, hmulti⟩, rfl⟩
  rw [storedUsers, storedUsers, fieldValue, fieldValue, hword, h.multiMsgs,
    Table.lookup_eraseAll, if_neg]
  exact fun hf => List.disjoint_of_nodup_append hnodup hf hlater

/-- A page and what a call has done after it -/
theorem PageDone.drained (h : cfg.PageDone s s' base ks) (hd : Distinct s.redis.groupMsgs)
    (hok : cfg.RangeOk s) (hrest : cfg.Drained s' s'' base
      (ks ++ cfg.keptOf s.seen ((cfg.page s.redis.groupMsgs).map asMember))) :
    cfg.Drained s s'' base ks := by
  have hkept := h.keptFrom_eq hd
  refine ⟨?_, ?_, ?_, ?_⟩
  · rw [hrest.groupMsgs, h.groupMsgs, zrem_zrem, ← h.groupMsgs, ← List.map_append,
      h.inRange_append hd]
  · rw [hrest.read, h.read, List.append_assoc, ← List.map_append, h.inRange_append hd]
  · rw [hkept, ← List.append_assoc]
    exact hrest.tallies
  · intro hplain gid uid
    rw [hkept] at hplain ⊢
    have hlater : ∀ k ∈ cfg.keptFrom s', k.2.multicast = true → wordOf k.2.dbKey = k.2.dbKey :=
      fun k hk => hplain k (List.mem_append_right _ hk)
    rw [hrest.members hlater, h.members]
    have hsame : (∃ k ∈ cfg.keptFrom s', k.1 = gid ∧ k.2.multicast = true ∧
        uid ∈ cfg.storedUsers s'.redis.multiMsgs k.2) ↔ ∃ k ∈ cfg.keptFrom s',
          k.1 = gid ∧ k.2.multicast = true ∧ uid ∈ cfg.storedUsers s.redis.multiMsgs k.2 := by
      refine exists_congr fun k => and_congr_right fun hk => and_congr_right fun _ =>
        and_congr_right fun hmulti => ?_
      rw [h.storedUsers_eq hd hok hk hmulti (hlater k hk hmulti)]
    rw [hsame]
    simp only [List.mem_append, or_and_right, exists_or, or_assoc]

/-- Nothing is left to do. -/
theorem drained_refl (h : cfg.inRange s.redis.groupMsgs = [])
    (htallies : cfg.Tallies base s.tasks ks) : cfg.Drained s s base ks := by
  have hkept : cfg.keptFrom s = [] := by rw [keptFrom, h, List.map_nil, keptOf]
  refine ⟨?_, by simp [h], by simpa [hkept] using htallies, fun _ => by simp [hkept]⟩
  rw [h, zrem, List.filter_eq_self.mpr]
  simp

theorem onePage_of_maxTimeStamp_neg (h : cfg.maxTimeStamp < 0) :
    cfg.onePage s = .ok (s, false) := by
  simp [onePage, h]

/-- There are fewer pages than members. -/
theorem lt_scanSize_mul_succ (n : ℕ) : n < offlineGroupMessageScanSize * (n + 1) := by
  rw [offlineGroupMessageScanSize]
  omega

/-- With admissible entries the loop goes through all pages. -/
theorem loop_drained (hreplies : ∀ k, cfg.replies k = .all) {n : ℕ}
    (hd : Distinct s.redis.groupMsgs) (hok : cfg.RangeOk s) (htallies : cfg.Tallies base s.tasks ks)
    (hn : (cfg.inRange s.redis.groupMsgs).length < offlineGroupMessageScanSize * n) :
    ∃ s', cfg.loop n s = some (.ok s') ∧ cfg.Drained s s' base ks := by
  induction n generalizing s ks with
  | zero => omega
  | succ n ih =>
      by_cases hmax : cfg.maxTimeStamp < 0
      · have hnil : cfg.inRange s.redis.groupMsgs = [] := if_pos hmax
        refine ⟨s, ?_, drained_refl hnil htallies⟩
        rw [loop, onePage_of_maxTimeStamp_neg hmax]
      · obtain ⟨s₁, hpage, hdone⟩ := onePage_eq (hreplies _) (by omega) hok.pageOk htallies
        have hd₁ : Distinct s₁.redis.groupMsgs := by
          rw [hdone.groupMsgs]
          exact hd.zrem _
        have hlength : (cfg.inRange s₁.redis.groupMsgs).length =
            (cfg.inRange s.redis.groupMsgs).length - offlineGroupMessageScanSize := by
          rw [hdone.inRange_eq hd, List.length_drop]
        have hshort : (cfg.page s.redis.groupMsgs).length =
            min offlineGroupMessageScanSize (cfg.inRange s.redis.groupMsgs).length :=
          List.length_take
        by_cases hmore : offlineGroupMessageScanSize ≤ (cfg.page s.redis.groupMsgs).length
        · -- a full page: the loop goes on with the rest of the range
          rw [decide_eq_true hmore] at hpage
          obtain ⟨s', hloop, hrest⟩ := ih hd₁ (hdone.rangeOk hd hok) hdone.tallies (by
            rw [hlength]
            rw [Nat.mul_succ] at hn
            omega)
          exact ⟨s', by rw [loop, hpage]; exact hloop, hdone.drained hd hok hrest⟩
        · rw [decide_eq_false hmore] at hpage
          have hnil : cfg.inRange s₁.redis.groupMsgs = [] := by
            rw [← List.length_eq_zero_iff, hlength]
            omega
          refine ⟨s₁, by rw [loop, hpage], hdone.drained hd hok ?_⟩
          exact drained_refl hnil hdone.tallies

/-! ## What a call gets through with -/

/-- The fields that HMGET gets through with are words. -/
theorem oneWord_of_multi {hash : Table Bytes Bytes} {tasks : GroupTasks}
    {r : GroupTasks × Table Bytes Bytes} {i : ℕ} {gs : List ZSetMemberScore}
    (h : cfg.multiOf .all hash (fieldsOf (cfg.keptOf i gs)) tasks = .ok r) :
    ∀ f ∈ fieldsOf (cfg.keptOf i gs), oneWord f = true := by
  rw [multiOf_eq, dbGetAndDeleteOneRedisMultiMsg] at h
  obtain ⟨m, hm, -⟩ := bind_eq_ok.mp h
  refine oneWord_of_hmget hm fun f hf => ?_
  obtain ⟨k, hk, rfl⟩ := List.mem_map.mp hf
  obtain ⟨j, g, -, hjudge⟩ := judge_of_mem_keptOf (List.mem_of_mem_filter hk)
  obtain ⟨a, b, c, hsplit, -, -, hkey, -⟩ := judge_kept hjudge
  rw [hkey]
  exact commandWords_ne_nil hsplit

/-- What the body of the loop has done when it gets through, and that the page was
admissible if its names are C strings. -/
structure PageRead (cfg : RoundConfig) (s s' : RoundState S) (more : Bool) : Prop where
  groupMsgs : s'.redis.groupMsgs =
    zrem s.redis.groupMsgs ((cfg.page s.redis.groupMsgs).map fun e => cString e.1)
  seen : s'.seen = s.seen + (cfg.page s.redis.groupMsgs).length
  read : s'.read = s.read ++ (cfg.page s.redis.groupMsgs).map Prod.fst
  more : more = decide (offlineGroupMessageScanSize ≤ (cfg.page s.redis.groupMsgs).length)
  pageOk : (∀ e ∈ cfg.page s.redis.groupMsgs, 0 ∉ e.1) → cfg.PageOk s

theorem pageRead {more : Bool} (hreplies : cfg.replies s.pages = .all)
    (hmax : 0 ≤ cfg.maxTimeStamp) (h : cfg.onePage s = .ok (s', more)) :
    cfg.PageRead s s' more := by
  have hguard : (!PageReplies.all.range || decide (cfg.maxTimeStamp < 0)) = false := by
    simpa [PageReplies.all] using hmax
  simp only [onePage, hreplies, hguard, Bool.false_eq_true, if_false] at h
  obtain ⟨gs, hgs, h⟩ := bind_eq_ok.mp h
  obtain ⟨hscores, rfl⟩ := mapM_readMember.mp hgs
  obtain ⟨p, hp, h⟩ := bind_eq_ok.mp h
  have hzrem : (!p.cleanGroupMsg.isEmpty && !PageReplies.all.zrem) = false := by
    simp [PageReplies.all]
  rw [hzrem, if_neg Bool.false_ne_true] at h
  obtain ⟨r, hr, h⟩ := bind_eq_ok.mp h
  -- what the page has been judged to be gives the names that are removed and asked for
  have hjudge := judge_of_page hp
  obtain ⟨p', hp', -, hmulti, hclean, hseen⟩ := page_eq hjudge
  rw [hp] at hp'
  cases hp'
  dsimp only at hmulti hclean hseen hjudge
  rw [List.nil_append] at hmulti hclean
  rw [List.length_map] at hseen
  rw [hmulti] at hr
  have hwords := oneWord_of_multi hr
  cases h
  refine ⟨?_, hseen, rfl, by rw [List.length_map], fun hzero j e hj => ?_⟩
  · show zrem s.redis.groupMsgs p.cleanGroupMsg = _
    rw [hclean, List.map_map]
    rfl
  · have he : e ∈ cfg.page s.redis.groupMsgs := List.mem_of_getElem? hj
    have hj' : ((cfg.page s.redis.groupMsgs).map asMember)[j]? = some (asMember e) := by
      rw [List.getElem?_map, hj, Option.map_some]
    obtain ⟨v, hv⟩ := hjudge j _ hj'
    refine admissible_iff.mpr ⟨hzero e he, hscores e he, v, hv, fun k hk hm => ?_⟩
    subst hk
    obtain ⟨_, _, _, -, -, -, hkey, -⟩ := judge_kept hv
    have hname : k.2.dbKey = e.1 := by
      rw [hkey, asMember, cString_self (hzero e he)]
    rw [← hname]
    exact hwords _ (List.mem_map.mpr ⟨k, List.mem_filter.mpr ⟨mem_keptOf hj' hv, hm⟩, rfl⟩)

/-- A name with a zero in it is not removed, and what has been read stays read. -/
theorem PageRead.kept {more : Bool} (h : cfg.PageRead s s' more) :
    (∀ m ∈ s.read, m ∈ s'.read) ∧
      ∀ e ∈ s.redis.groupMsgs, 0 ∈ e.1 → e ∈ s'.redis.groupMsgs := by
  refine ⟨fun m hm => ?_, fun e he hzero => ?_⟩
  · rw [h.read]
    exact List.mem_append_left _ hm
  · rw [h.groupMsgs, zrem, List.mem_filter]
    refine ⟨he, decide_eq_true fun hmem => ?_⟩
    obtain ⟨e', -, heq⟩ := List.mem_map.mp hmem
    rw [← heq] at hzero
    exact zero_notMem_cString _ hzero

theorem loop_kept (hreplies : ∀ k, cfg.replies k = .all) {n : ℕ}
    (h : cfg.loop n s = some (.ok s')) : (∀ m ∈ s.read, m ∈ s'.read) ∧
      ∀ e ∈ s.redis.groupMsgs, 0 ∈ e.1 → e ∈ s'.redis.groupMsgs := by
  induction n generalizing s with
  | zero => cases h
  | succ n ih =>
      rw [loop] at h
      by_cases hmax : cfg.maxTimeStamp < 0
      · rw [onePage_of_maxTimeStamp_neg hmax] at h
        cases h
        exact ⟨fun m hm => hm, fun e he _ => he⟩
      · split at h
        · cases h
        · next s₁ hpage =>
          cases h
          exact (pageRead (hreplies _) (by omega) hpage).kept
        · next s₁ hpage =>
          obtain ⟨hread, hzero⟩ := (pageRead (hreplies _) (by omega) hpage).kept
          obtain ⟨hread', hzero'⟩ := ih h
          exact ⟨fun m hm => hread' m (hread m hm),
            fun e he h0 => hzero' e (hzero e he h0) h0⟩

/-- A page that is removed has only C strings for names. -/
theorem PageRead.zero_notMem {more : Bool} (h : cfg.PageRead s s' more)
    (hread : ∀ m ∈ s'.read, m ∈ s''.read)
    (hkept : ∀ e ∈ s'.redis.groupMsgs, 0 ∈ e.1 → e ∈ s''.redis.groupMsgs)
    (hgone : ∀ m ∈ s''.read, m ∉ s''.redis.groupMsgs.map Prod.fst) :
    ∀ e ∈ cfg.page s.redis.groupMsgs, 0 ∉ e.1 := by
  intro e he hzero
  have hmem : e ∈ s'.redis.groupMsgs := h.kept.2 e ((page_sublist _).subset he) hzero
  have hin : e.1 ∈ s'.read := by
    rw [h.read]
    exact List.mem_append_right _ (List.mem_map_of_mem he)
  exact hgone _ (hread _ hin) (List.mem_map_of_mem (hkept e hmem hzero))

/-- If a call ends and has removed what it has read, every entry was admissible. -/
theorem loop_rangeOk (hreplies : ∀ k, cfg.replies k = .all) {n : ℕ}
    (hd : Distinct s.redis.groupMsgs) (h : cfg.loop n s = some (.ok s'))
    (hgone : ∀ m ∈ s'.read, m ∉ s'.redis.groupMsgs.map Prod.fst) : cfg.RangeOk s := by
  induction n generalizing s with
  | zero => cases h
  | succ n ih =>
      by_cases hmax : cfg.maxTimeStamp < 0
      · intro j e hj
        rw [inRange, if_pos hmax] at hj
        simp at hj
      · rw [loop] at h
        cases hpage : cfg.onePage s with
        | error e => simp [hpage] at h
        | ok r =>
            obtain ⟨s₁, more⟩ := r
            have hr := pageRead (hreplies _) (by omega) hpage
            -- the rest of the loop keeps what it has read, and the names with a zero
            have hlater : (∀ m ∈ s₁.read, m ∈ s'.read) ∧
                ∀ e ∈ s₁.redis.groupMsgs, 0 ∈ e.1 → e ∈ s'.redis.groupMsgs := by
              cases more with
              | false =>
                  simp only [hpage, Option.some.injEq, Except.ok.injEq] at h
                  subst h
                  exact ⟨fun m hm => hm, fun e he _ => he⟩
              | true =>
                  simp only [hpage] at h
                  exact loop_kept hreplies h
            have hzero := hr.zero_notMem hlater.1 hlater.2 hgone
            have hpageOk := hr.pageOk hzero
            have hnames : s₁.redis.groupMsgs =
                zrem s.redis.groupMsgs ((cfg.page s.redis.groupMsgs).map Prod.fst) := by
              rw [hr.groupMsgs]
              congr 1
              exact List.map_congr_left fun e he => cString_self (hzero e he)
            have hd₁ : Distinct s₁.redis.groupMsgs := by
              rw [hnames]
              exact hd.zrem _
            have hrest : cfg.RangeOk s₁ := by
              cases more with
              | false =>
                  -- a short page is all there is
                  have hshort := of_decide_eq_false hr.more.symm
                  intro j e hj
                  rw [hnames, inRange_after hd, List.drop_eq_nil_of_le] at hj
                  · simp at hj
                  · have hlength : (cfg.page s.redis.groupMsgs).length =
                        min offlineGroupMessageScanSize (cfg.inRange s.redis.groupMsgs).length :=
                      List.length_take
                    omega
              | true =>
                  simp only [hpage] at h
                  exact ih hd₁ h
            intro j e hj
            rw [← page_append_inRange hd, ← hnames] at hj
            by_cases hlt : j < (cfg.page s.redis.groupMsgs).length
            · rw [List.getElem?_append_left hlt] at hj
              exact hpageOk j e hj
            · rw [List.getElem?_append_right (by omega)] at hj
              have hadm := hrest _ e hj
              rwa [hr.seen, show s.seen + (cfg.page s.redis.groupMsgs).length +
                (j - (cfg.page s.redis.groupMsgs).length) = s.seen + j by omega] at hadm

/-- A call ends without an exception and has removed every member it has read. -/
def Drains (cfg : RoundConfig) (redis : OfflineRedis S) (newGroupMsg : GroupTasks) : Prop :=
  ∃ n s, cfg.dbGetAndDeleteOneRedisGroupMsg n redis newGroupMsg = some (.ok s) ∧
    ∀ m ∈ s.read, m ∉ s.redis.groupMsgs.map Prod.fst

theorem Drained.gone (h : cfg.Drained s s' base ks) (hread : s.read = []) :
    ∀ m ∈ s'.read, m ∉ s'.redis.groupMsgs.map Prod.fst := by
  intro m hm hmem
  rw [h.read, hread, List.nil_append] at hm
  rw [h.groupMsgs] at hmem
  obtain ⟨e, he, rfl⟩ := List.mem_map.mp hmem
  exact of_decide_eq_true (List.mem_filter.mp he).2 hm

end RoundConfig

namespace RoundConfig

/-- The clock stands at 10000, nothing has been pushed, and no value of the hash
is JSON. -/
def tenThousand : RoundConfig where
  redisId := 0
  pushInfo := fun _ => none
  parse := fun _ => .error .parseError
  start := 10000
  clock := fun _ => 10000
  replies := fun _ => .all

/-- A message to all, and a name without parts -/
def twoNames : OfflineRedis ℤ where
  groupMsgs := [(groupField 7 5 .toAll, 9000), (ascii ['x'], 9990)]
  multiMsgs := ∅

end RoundConfig

end BcmServer.Offline
