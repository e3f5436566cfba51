import BcmServer.Lts.Run
import BcmServer.Offline.PushFlag
import BcmServer.Offline.PushOrder
import BcmServer.Util.Ascending

/-!
# BcmServer.Offline.LastMid — two servers write the records of a group

When a message has been delivered to the users who are online, an online server
writes their records with the id of the message. The offline server reads the
records, finds out whom to push the messages of its task to, and writes their
records when they are pushed to. Neither looks at what the other has written in the
meantime. There is one task for a group at a time: a round begins when the last one
is finished.

* `delivered_overwritten`: a user comes online and gets a message while an older one
  is being pushed; the record goes back to the older one.
* `last_mid_ascends`: in every run whose steps are `Unhurried` no record goes back,
  and nobody is pushed a message twice.

What a task has still to write is ascending for each user (`Ascending`), above what
is stored, and what has been pushed is stored or still to be written (`Inv`).
-/

namespace BcmServer.Offline

open BcmServer.Lts BcmServer.Util BcmServer.Redis
open BcmServer.Group (Gid)

/-- Where the task of the group is. -/
inductive TaskPhase where
  /-- there is none -/
  | idle
  /-- between the commands that read the records; `unread` are the users who had one
  when it began and have not been read since -/
  | reading (gmt : GroupMessageInfoTask) (members : Option UidSet)
      (groupUserMsgId : GroupUserMsgs) (unread : Finset Bytes)
  /-- what is still to be done -/
  | acting (todo : List PushAction)

def TaskPhase.todo : TaskPhase → List PushAction
  | idle => []
  | reading _ _ _ _ => []
  | acting todo => todo

/-- A group: its hash in redis, its task, and the notifications sent so far, with
the user and the message id -/
structure GroupPush where
  stored : GroupUserMsgs
  phase : TaskPhase
  pushed : List (Bytes × Bytes)

/-- What the servers do next. -/
inductive PushLabel where
  /-- an online server writes the records of the users a message was delivered to -/
  | deliver (mid : UInt64) (uids : List Bytes) (res : Bool)
  /-- a task begins, with the members it has loaded -/
  | start (gmt : GroupMessageInfoTask) (members : Option UidSet)
  /-- it reads the records of some users: a page of the scan, or HMGET -/
  | read (uids : List Bytes)
  /-- it has read enough and goes through its messages -/
  | process (answers : ℕ → PushAnswers) (roles : Option (Finset Bytes))
  /-- it executes the next action, or ends -/
  | act

/-- What an action does to the hash -/
def PushAction.store (redis : UInt32) (stored : GroupUserMsgs) : PushAction → GroupUserMsgs
  | .sendNotification _ _ _ => stored
  | .postGroupMessage _ _ _ _ => stored
  | .hdel redisId _ uids => if redisId = redis.toInt32 then stored.eraseAll uids else stored
  | .hmset redisId gid values res =>
      if res then stored.insertAll (hmset redisId gid values res).records else stored

/-- The record an online server writes -/
def delivered (mid : UInt64) : GroupUserMessageIdInfo :=
  { GroupUserMessageIdInfo.initial with lastMid := mid }

/-- Records that are read -/
def readRecords (stored : GroupUserMsgs) (uids : List Bytes) (groupUserMsgId : GroupUserMsgs) :
    GroupUserMsgs :=
  uids.foldl (fun m uid =>
    match stored.lookup uid with
    | none => m
    | some gu => m.keepNewest GroupUserMessageIdInfo.version uid gu) groupUserMsgId

namespace GroupPush

variable (srv : PushServer) (redis : UInt32) (gid : Gid)

def initial (stored : GroupUserMsgs) : GroupPush := ⟨stored, .idle, []⟩

def step (s : GroupPush) : PushLabel → Option GroupPush
  | .deliver mid uids res =>
      some { s with
        stored := if res then s.stored.insertAll (uids.map fun uid => (uid, delivered mid))
          else s.stored }
  | .start gmt members =>
      match s.phase with
      | .idle => some { s with phase := .reading gmt members ∅ s.stored.keys.toFinset }
      | .reading _ _ _ _ | .acting _ => none
  | .read uids =>
      match s.phase with
      | .reading gmt members m unread => some { s with
          phase := .reading gmt members (readRecords s.stored uids m) (unread \ uids.toFinset) }
      | .idle | .acting _ => none
  | .process answers roles =>
      match s.phase with
      | .reading gmt members m _ => some { s with
          phase := .acting
            (srv.handleOfflineGroupMessage answers [redis] gid members m roles gmt) }
      | .idle | .acting _ => none
  | .act =>
      match s.phase with
      | .acting [] => some { s with phase := .idle }
      | .acting (action :: todo) => some {
          stored := action.store redis s.stored
          phase := .acting todo
          pushed := s.pushed ++ action.pushed }
      | .idle | .reading _ _ _ _ => none

def machine : Machine GroupPush PushLabel := ⟨step srv redis gid⟩

end GroupPush

/-- A message that is delivered to a user now is not later than one the task has
still to push to the user. -/
def TaskPhase.Follows (mid : UInt64) (uid : Bytes) : TaskPhase → Prop
  | idle => True
  | reading gmt members m unread => uid ∈ unread ∨
      ∀ gm ∈ gmt.gms, uid ∈ gm.recipients (members.getD ∅) →
        (selected gm (m.lookup uid)).isSome = true → mid.toNat ≤ gm.lastMid.toNat
  | acting todo => ∀ action ∈ todo, ∀ e ∈ action.records, e.1 = uid →
      mid.toNat ≤ e.2.lastMid.toNat

/-- The condition on a step. Online servers write in the order of the messages, and do
not overtake the task; the messages of a task are in order; all records there are
have been read before the task goes through them; none is deleted, and redis takes
those that the task writes. -/
def Unhurried (redis : UInt32) (s : GroupPush) : PushLabel → Prop
  | .deliver mid uids res => res = true →
      ∀ uid ∈ uids, versions s.stored uid ≤ mid.toNat + 1 ∧ s.phase.Follows mid uid
  | .start gmt _ => AscendingMids gmt.gms
  | .read _ => True
  | .process _ _ =>
      match s.phase with
      | .reading gmt members _ unread =>
          ∀ gm ∈ gmt.gms, ∀ uid ∈ gm.recipients (members.getD ∅), uid ∉ unread
      | .idle | .acting _ => True
  | .act =>
      match s.phase with
      | .acting (.hdel redisId _ uids :: _) =>
          redisId = redis.toInt32 → ∀ uid ∈ uids, s.stored.lookup uid = none
      | .acting (.hmset _ _ _ res :: _) => res = true
      | _ => True

instance (mid : UInt64) (uid : Bytes) : ∀ phase, Decidable (TaskPhase.Follows mid uid phase)
  | .idle => isTrue trivial
  | .reading gmt members m unread => inferInstanceAs (Decidable (uid ∈ unread ∨
      ∀ gm ∈ gmt.gms, uid ∈ gm.recipients (members.getD ∅) →
        (selected gm (m.lookup uid)).isSome = true → mid.toNat ≤ gm.lastMid.toNat))
  | .acting todo => inferInstanceAs (Decidable (∀ action ∈ todo, ∀ e ∈ action.records,
      e.1 = uid → mid.toNat ≤ e.2.lastMid.toNat))

instance (redis : UInt32) (s : GroupPush) : ∀ l, Decidable (Unhurried redis s l)
  | .deliver mid uids res => inferInstanceAs (Decidable (res = true →
      ∀ uid ∈ uids, versions s.stored uid ≤ mid.toNat + 1 ∧ s.phase.Follows mid uid))
  | .start gmt _ => inferInstanceAs (Decidable (AscendingMids gmt.gms))
  | .read _ => isTrue trivial
  | .process _ _ =>
      match h : s.phase with
      | .reading gmt members _ unread =>
          decidable_of_iff (∀ gm ∈ gmt.gms, ∀ uid ∈ gm.recipients (members.getD ∅), uid ∉ unread)
            (by simp only [Unhurried, h])
      | .idle => isTrue (by simp only [Unhurried, h])
      | .acting _ => isTrue (by simp only [Unhurried, h])
  | .act =>
      match h : s.phase with
      | .acting (.hdel redisId _ uids :: _) =>
          decidable_of_iff (redisId = redis.toInt32 → ∀ uid ∈ uids, s.stored.lookup uid = none)
            (by simp only [Unhurried, h])
      | .acting (.hmset _ _ _ res :: _) =>
          decidable_of_iff (res = true) (by simp only [Unhurried, h])
      | .acting (.sendNotification _ _ _ :: _) => isTrue (by simp only [Unhurried, h])
      | .acting (.postGroupMessage _ _ _ _ :: _) => isTrue (by simp only [Unhurried, h])
      | .acting [] => isTrue (by simp only [Unhurried, h])
      | .idle => isTrue (by simp only [Unhurried, h])
      | .reading _ _ _ _ => isTrue (by simp only [Unhurried, h])

/-- The database gives the tasks the accounts they ask for. -/
def AllAsked (ls : List PushLabel) : Prop :=
  ∀ answers roles, PushLabel.process answers roles ∈ ls → ∀ i, (answers i).Asked

/-! ## Versions -/

/-- What a record that is written makes of the versions -/
def writes (rows : List (Bytes × GroupUserMessageIdInfo)) : List (Bytes × ℕ) :=
  rows.map fun e => (e.1, e.2.lastMid.toNat + 1)

theorem versions_insertAll (t : GroupUserMsgs) (rows : List (Bytes × GroupUserMessageIdInfo)) :
    versions (t.insertAll rows) = writeAll (versions t) (writes rows) := by
  unfold Table.insertAll writeAll writes
  induction rows generalizing t with
  | nil => rfl
  | cons e rows ih =>
      have hone : versions (t.insert e.1 e.2) =
          Function.update (versions t) e.1 (e.2.lastMid.toNat + 1) := by
        funext uid
        unfold versions
        by_cases hu : uid = e.1
        · rw [hu, AList.lookup_insert, Function.update_self]
          rfl
        · rw [AList.lookup_insert_ne hu, Function.update_of_ne hu]
      rw [List.foldl_cons, ih, hone]
      rfl

theorem versions_delivered (t : GroupUserMsgs) (mid : UInt64) (uids : List Bytes) (uid : Bytes) :
    versions (t.insertAll (uids.map fun uid => (uid, delivered mid))) uid =
      if uid ∈ uids then mid.toNat + 1 else versions t uid := by
  split
  · next hmem =>
    have hkey : uid ∈ (uids.map fun uid => (uid, delivered mid)).map Prod.fst := by
      simpa using hmem
    obtain ⟨v, hv, hlookup⟩ := Table.lookup_insertAll_of_mem t _ hkey
    obtain ⟨_, -, heq⟩ := List.mem_map.mp hv
    cases heq
    rw [versions, hlookup]
    rfl
  · next hmem =>
    rw [versions, Table.lookup_insertAll_of_notMem _ _ (by simpa using hmem)]
    rfl

theorem versions_eraseAll (t : GroupUserMsgs) {uids : List Bytes}
    (h : ∀ uid ∈ uids, t.lookup uid = none) : versions (t.eraseAll uids) = versions t := by
  funext uid
  rw [versions, Table.lookup_eraseAll]
  split
  · next hmem => rw [versions, h uid hmem]
  · rfl

theorem versions_keepNewest (m : GroupUserMsgs) (u uid : Bytes) (gu : GroupUserMessageIdInfo) :
    versions m uid ≤ versions (m.keepNewest GroupUserMessageIdInfo.version u gu) uid ∧
      (uid = u →
        version (some gu) ≤ versions (m.keepNewest GroupUserMessageIdInfo.version u gu) uid) := by
  by_cases hu : uid = u
  · subst hu
    simp only [versions, Table.lookup_keepNewest_self, forall_const]
    cases m.lookup uid with
    | none => exact ⟨Nat.zero_le _, Nat.le_refl _⟩
    | some old =>
        dsimp only
        split
        · next hle => exact ⟨Nat.le_refl _, Nat.succ_le_succ hle⟩
        · next hlt => exact ⟨Nat.succ_le_succ (Nat.le_of_lt (Nat.not_le.mp hlt)), Nat.le_refl _⟩
  · refine ⟨?_, fun h => absurd h hu⟩
    rw [versions, versions, Table.lookup_keepNewest_ne m hu]

/-- What reading does to the map of a task -/
theorem readRecords_spec (stored : GroupUserMsgs) (uids : List Bytes) (uid : Bytes)
    (m : GroupUserMsgs) :
    (uid ∉ uids → (readRecords stored uids m).lookup uid = m.lookup uid) ∧
      versions m uid ≤ versions (readRecords stored uids m) uid ∧
      (uid ∈ uids → versions stored uid ≤ versions (readRecords stored uids m) uid) := by
  induction uids generalizing m with
  | nil => exact ⟨fun _ => rfl, Nat.le_refl _, fun h => absurd h List.not_mem_nil⟩
  | cons u uids ih =>
      cases hu : stored.lookup u with
      | none =>
          have hfold : readRecords stored (u :: uids) m = readRecords stored uids m := by
            unfold readRecords
            rw [List.foldl_cons, hu]
          obtain ⟨hsame, hup, hread⟩ := ih m
          rw [hfold]
          refine ⟨fun h => hsame fun hmem => h (List.mem_cons_of_mem u hmem), hup, fun h => ?_⟩
          rcases List.mem_cons.mp h with rfl | h
          · rw [versions, hu]
            exact Nat.zero_le _
          · exact hread h
      | some gu =>
          have hfold : readRecords stored (u :: uids) m = readRecords stored uids
              (m.keepNewest GroupUserMessageIdInfo.version u gu) := by
            unfold readRecords
            rw [List.foldl_cons, hu]
          obtain ⟨hsame, hup, hread⟩ := ih (m.keepNewest GroupUserMessageIdInfo.version u gu)
          obtain ⟨hone, hthis⟩ := versions_keepNewest m u uid gu
          rw [hfold]
          refine ⟨fun h => ?_, hone.trans hup, fun h => ?_⟩
          · rw [List.mem_cons, not_or] at h
            rw [hsame h.2, Table.lookup_keepNewest_ne m h.1]
          · rcases List.mem_cons.mp h with rfl | h
            · rw [versions, hu]
              exact (hthis rfl).trans hup
            · exact hread h

/-! ## What is kept -/

namespace GroupPush

/-- Between the reads of a task: whoever has been read, or had no record, is not ahead
of a message that is to be pushed to the user, and what has been pushed to users is
known of them. -/
structure Reading (s : GroupPush) (gmt : GroupMessageInfoTask) (members : Option UidSet)
    (m : GroupUserMsgs) (unread : Finset Bytes) : Prop where
  mids : AscendingMids gmt.gms
  behind : ∀ uid, uid ∉ unread → ∀ gm ∈ gmt.gms, uid ∈ gm.recipients (members.getD ∅) →
    (selected gm (m.lookup uid)).isSome = true → versions s.stored uid ≤ gm.lastMid.toNat + 1
  known : ∀ e ∈ s.pushed, e.1 ∈ unread ∨
    ∃ mid : UInt64, e.2 = decimal mid.toNat ∧ mid.toNat + 1 ≤ versions m e.1

structure Inv (s : GroupPush) : Prop where
  /-- Nobody has been or will be pushed a message twice. -/
  once : (s.pushed ++ s.phase.todo.flatMap PushAction.pushed).Nodup
  /-- Who is pushed to is written, then or later. -/
  covered : ∀ e ∈ s.pushed ++ s.phase.todo.flatMap PushAction.pushed, ∃ mid : UInt64,
    e.2 = decimal mid.toNat ∧ (mid.toNat + 1 ≤ versions s.stored e.1 ∨
      (e.1, mid.toNat + 1) ∈ writes (s.phase.todo.flatMap PushAction.records))
  reading : ∀ gmt members m unread, s.phase = .reading gmt members m unread →
    s.Reading gmt members m unread
  ascending : Ascending (versions s.stored) (writes (s.phase.todo.flatMap PushAction.records))

variable {srv : PushServer} {redis : UInt32} {gid : Gid} {s s' : GroupPush}

theorem inv_initial (stored : GroupUserMsgs) : Inv (initial stored) where
  once := List.nodup_nil
  covered := by simp [initial, TaskPhase.todo]
  reading := fun _ _ _ _ h => nomatch h
  ascending := ⟨by simp [initial, TaskPhase.todo, writes], List.Pairwise.nil⟩

/-! ## The steps -/

theorem inv_deliver (h : Inv s) {mid : UInt64} {uids : List Bytes}
    (hok : ∀ uid ∈ uids, versions s.stored uid ≤ mid.toNat + 1 ∧ s.phase.Follows mid uid) :
    Inv { s with stored := s.stored.insertAll (uids.map fun uid => (uid, delivered mid)) } ∧
      ∀ uid, versions s.stored uid ≤
        versions (s.stored.insertAll (uids.map fun uid => (uid, delivered mid))) uid := by
  have hup : ∀ uid, versions s.stored uid ≤
      versions (s.stored.insertAll (uids.map fun uid => (uid, delivered mid))) uid := by
    intro uid
    rw [versions_delivered]
    split
    · next hmem => exact (hok uid hmem).1
    · exact Nat.le_refl _
  refine ⟨⟨h.once, fun e he => ?_, fun gmt members m unread hphase => ?_, ?_⟩, hup⟩
  · obtain ⟨mid', hmid, hle | hwrite⟩ := h.covered e he
    · exact ⟨mid', hmid, Or.inl (hle.trans (hup e.1))⟩
    · exact ⟨mid', hmid, Or.inr hwrite⟩
  · have hreading := h.reading gmt members m unread hphase
    refine ⟨hreading.mids, fun uid hread gm hgm hrec hsel => ?_, hreading.known⟩
    -- the task has read the user, so the condition bounds what is delivered
    dsimp only
    rw [versions_delivered]
    split
    · next hmem =>
      have hfollows := (hok uid hmem).2
      rw [hphase] at hfollows
      have hle := hfollows.resolve_left hread gm hgm hrec hsel
      omega
    · exact hreading.behind uid hread gm hgm hrec hsel
  · refine ⟨fun w hw => ?_, h.ascending.ordered⟩
    dsimp only at hw ⊢
    rw [versions_delivered]
    split
    · next hmem =>
      obtain ⟨e, he, rfl⟩ := List.mem_map.mp hw
      have hfollows := (hok e.1 hmem).2
      cases hphase : s.phase with
      | idle => simp [hphase, TaskPhase.todo] at he
      | reading gmt members m unread => simp [hphase, TaskPhase.todo] at he
      | acting todo =>
          rw [hphase] at he hfollows
          obtain ⟨action, haction, hrecord⟩ := List.mem_flatMap.mp he
          have hle := hfollows action haction e hrecord rfl
          exact Nat.succ_le_succ hle
    · exact h.ascending.le w hw

theorem inv_start (h : Inv s) (hphase : s.phase = .idle) {gmt : GroupMessageInfoTask}
    (hmids : AscendingMids gmt.gms) (members : Option UidSet) :
    Inv { s with phase := .reading gmt members ∅ s.stored.keys.toFinset } := by
  obtain ⟨honce, hcovered, -, hascending⟩ := h
  rw [hphase] at honce hcovered hascending
  refine ⟨honce, hcovered, fun gmt' members' m' unread' heq => ?_, hascending⟩
  cases heq
  -- a user without a record has version 0
  have hkey : ∀ uid, uid ∉ s.stored.keys.toFinset → versions s.stored uid = 0 := by
    intro uid hnot
    have hnone : s.stored.lookup uid = none := by
      rw [AList.lookup_eq_none]
      intro hmem
      exact hnot (List.mem_toFinset.mpr (AList.mem_keys.mp hmem))
    rw [versions, hnone]
    rfl
  refine ⟨hmids, fun uid hread gm _ _ _ => ?_, fun e he => Or.inl ?_⟩
  · rw [hkey uid hread]
    exact Nat.zero_le _
  · by_contra hnot
    obtain ⟨mid, -, hle | hwrite⟩ := hcovered e (List.mem_append_left _ he)
    · rw [hkey e.1 hnot] at hle
      omega
    · cases hwrite

theorem inv_read (h : Inv s) {gmt : GroupMessageInfoTask} {members : Option UidSet}
    {m : GroupUserMsgs} {unread : Finset Bytes} (hphase : s.phase = .reading gmt members m unread)
    (uids : List Bytes) : Inv { s with
      phase := .reading gmt members (readRecords s.stored uids m) (unread \ uids.toFinset) } := by
  have hreading := h.reading gmt members m unread hphase
  obtain ⟨honce, hcovered, -, hascending⟩ := h
  rw [hphase] at honce hcovered hascending
  refine ⟨honce, hcovered, fun gmt' members' m' unread' heq => ?_, hascending⟩
  cases heq
  refine ⟨hreading.mids, fun uid hread gm hgm hrec hsel => ?_, fun e he => ?_⟩
  · obtain ⟨hsame, -, hnew⟩ := readRecords_spec s.stored uids uid m
    by_cases hmem : uid ∈ uids
    · -- a message the user is selected for is later than the record just read
      have hle := (hnew hmem).trans (PushServer.version_le_of_selected hsel)
      exact hle.trans (Nat.le_succ _)
    · rw [hsame hmem] at hsel
      refine hreading.behind uid (fun hunread => hread ?_) gm hgm hrec hsel
      exact Finset.mem_sdiff.mpr ⟨hunread, by simpa using hmem⟩
  · obtain ⟨-, hup, hnew⟩ := readRecords_spec s.stored uids e.1 m
    rcases hreading.known e he with hunread | ⟨mid, hmid, hle⟩
    · by_cases hmem : e.1 ∈ uids
      · obtain ⟨mid, hmid, hle | hwrite⟩ := hcovered e (List.mem_append_left _ he)
        · exact Or.inr ⟨mid, hmid, hle.trans (hnew hmem)⟩
        · cases hwrite
      · exact Or.inl (Finset.mem_sdiff.mpr ⟨hunread, by simpa using hmem⟩)
    · exact Or.inr ⟨mid, hmid, hle.trans hup⟩

theorem inv_process (h : Inv s) {gmt : GroupMessageInfoTask} {members : Option UidSet}
    {m : GroupUserMsgs} {unread : Finset Bytes} (hphase : s.phase = .reading gmt members m unread)
    (hread : ∀ gm ∈ gmt.gms, ∀ uid ∈ gm.recipients (members.getD ∅), uid ∉ unread)
    {answers : ℕ → PushAnswers} (hask : ∀ i, (answers i).Asked) (roles : Option (Finset Bytes)) :
    Inv { s with
      phase := .acting
        (srv.handleOfflineGroupMessage answers [redis] gid members m roles gmt) } := by
  have hreading := h.reading gmt members m unread hphase
  obtain ⟨honce, hcovered, -, -⟩ := h
  rw [hphase] at honce hcovered
  have hordered : PushServer.Ordered gmt.gms (members.getD ∅) m
      (srv.handleOfflineGroupMessage answers [redis] gid members m roles gmt) :=
    PushServer.ordered_handleOfflineGroupMessage hask hreading.mids members roles m
  have hpushed : s.pushed.Nodup := (List.nodup_append.mp honce).1
  refine ⟨?_, fun e he => ?_, fun _ _ _ _ heq => (nomatch heq), ?_⟩
  · refine List.nodup_append.mpr ⟨hpushed, hordered.once, ?_⟩
    rintro e he _ he' rfl
    -- what was pushed before is known, and the task pushes what is later
    obtain ⟨x, hx, heq⟩ := hordered.covered e he'
    obtain ⟨gm, hgm, hmid, hrec, hsel⟩ := hordered.new x hx
    rcases hreading.known e he with hunread | ⟨mid, hmid', hle⟩
    · rw [heq] at hunread
      exact hread gm hgm x.1 hrec hunread
    · rw [heq] at hmid' hle
      have hsame : x.2.lastMid.toNat = mid.toNat := decimal_injective hmid'
      have hlt : versions m x.1 ≤ gm.lastMid.toNat := PushServer.version_le_of_selected hsel
      rw [hmid] at hsame
      dsimp only at hle
      omega
  · rcases List.mem_append.mp he with he | he
    · obtain ⟨mid, hmid, hle | hwrite⟩ := hcovered e (List.mem_append_left _ he)
      · exact ⟨mid, hmid, Or.inl hle⟩
      · cases hwrite
    · obtain ⟨x, hx, rfl⟩ := hordered.covered e he
      exact ⟨x.2.lastMid, rfl, Or.inr (List.mem_map.mpr ⟨x, hx, rfl⟩)⟩
  · refine ⟨fun w hw => ?_, ?_⟩
    · obtain ⟨x, hx, rfl⟩ := List.mem_map.mp hw
      obtain ⟨gm, hgm, hmid, hrec, hsel⟩ := hordered.new x hx
      dsimp only
      rw [hmid]
      exact hreading.behind x.1 (hread gm hgm x.1 hrec) gm hgm hrec hsel
    · refine List.pairwise_map.mpr (hordered.ascending.imp fun hle _ => ?_)
      exact Nat.succ_le_succ hle

/-- What an action that is executed does to the versions -/
theorem versions_store {action : PushAction} {todo : List PushAction}
    (hphase : s.phase = .acting (action :: todo)) (hok : Unhurried redis s .act) :
    versions (action.store redis s.stored) =
      writeAll (versions s.stored) (writes action.records) := by
  unfold Unhurried at hok
  rw [hphase] at hok
  cases action with
  | sendNotification uid pushType notification => rfl
  | postGroupMessage addr gid mid destinations => rfl
  | hdel redisId gid uids =>
      rw [PushAction.store]
      split
      · next heq => exact versions_eraseAll s.stored (hok heq)
      · rfl
  | hmset redisId gid values res =>
      have hres : res = true := hok
      rw [PushAction.store, if_pos hres]
      exact versions_insertAll s.stored _

theorem inv_act (h : Inv s) {action : PushAction} {todo : List PushAction}
    (hphase : s.phase = .acting (action :: todo)) (hok : Unhurried redis s .act) :
    Inv ⟨action.store redis s.stored, .acting todo, s.pushed ++ action.pushed⟩ ∧
      ∀ uid, versions s.stored uid ≤ versions (action.store redis s.stored) uid := by
  have hversions := versions_store hphase hok
  obtain ⟨honce, hcovered, -, hascending⟩ := h
  have hwrites : writes (s.phase.todo.flatMap PushAction.records) =
      writes action.records ++ writes (todo.flatMap PushAction.records) := by
    rw [hphase, TaskPhase.todo, List.flatMap_cons, writes, List.map_append]
    rfl
  have hpushed : s.pushed ++ s.phase.todo.flatMap PushAction.pushed =
      (s.pushed ++ action.pushed) ++ todo.flatMap PushAction.pushed := by
    rw [hphase, TaskPhase.todo, List.flatMap_cons, List.append_assoc]
  rw [hwrites] at hascending hcovered
  rw [hpushed] at honce hcovered
  -- the writes of this action come first among those to be done
  obtain ⟨hup, hwritten, hrest⟩ := hascending.writeAll
  rw [← hversions] at hup hwritten hrest
  refine ⟨⟨honce, fun e he => ?_, fun _ _ _ _ heq => (nomatch heq), hrest⟩, hup⟩
  obtain ⟨mid, hmid, hle | hwrite⟩ := hcovered e he
  · exact ⟨mid, hmid, Or.inl (hle.trans (hup e.1))⟩
  · rcases List.mem_append.mp hwrite with hnow | hlater
    · exact ⟨mid, hmid, Or.inl (hwritten _ hnow)⟩
    · exact ⟨mid, hmid, Or.inr hlater⟩

/-- The end of a task -/
theorem inv_finish (h : Inv s) (hphase : s.phase = .acting []) : Inv { s with phase := .idle } := by
  obtain ⟨honce, hcovered, -, hascending⟩ := h
  rw [hphase] at honce hcovered hascending
  exact ⟨honce, hcovered, fun _ _ _ _ heq => (nomatch heq), hascending⟩

theorem inv_step {l : PushLabel} (h : Inv s) (hok : Unhurried redis s l)
    (hask : ∀ answers roles, l = .process answers roles → ∀ i, (answers i).Asked)
    (hstep : step srv redis gid s l = some s') :
    Inv s' ∧ ∀ uid, versions s.stored uid ≤ versions s'.stored uid := by
  cases l with
  | deliver mid uids res =>
      cases hstep
      cases res with
      | false => exact ⟨h, fun uid => Nat.le_refl _⟩
      | true => exact inv_deliver h (hok rfl)
  | start gmt members =>
      simp only [step] at hstep
      split at hstep
      · next hphase =>
        cases hstep
        exact ⟨inv_start h hphase hok members, fun uid => Nat.le_refl _⟩
      · cases hstep
      · cases hstep
  | read uids =>
      simp only [step] at hstep
      split at hstep
      · next hphase =>
        cases hstep
        exact ⟨inv_read h hphase uids, fun uid => Nat.le_refl _⟩
      · cases hstep
      · cases hstep
  | process answers roles =>
      simp only [step] at hstep
      split at hstep
      · next hphase =>
        cases hstep
        simp only [Unhurried, hphase] at hok
        exact ⟨inv_process h hphase hok (hask answers roles rfl) roles, fun uid => Nat.le_refl _⟩
      · cases hstep
      · cases hstep
  | act =>
      simp only [step] at hstep
      split at hstep
      · next hphase =>
        cases hstep
        exact ⟨inv_finish h hphase, fun uid => Nat.le_refl _⟩
      · next hphase =>
        cases hstep
        exact inv_act h hphase hok
      · cases hstep
      · cases hstep

/-- A run from a state where this holds -/
theorem inv_run {ls : List PushLabel} (h : Inv s) (hask : AllAsked ls)
    (hok : (machine srv redis gid).Meets (Unhurried redis) s ls)
    (hrun : (machine srv redis gid).run s ls = some s') :
    Inv s' ∧ ∀ uid, versions s.stored uid ≤ versions s'.stored uid := by
  have hasked : (machine srv redis gid).Meets (fun _ l => ∀ answers roles,
      l = .process answers roles → ∀ i, (answers i).Asked) s ls := by
    refine (machine srv redis gid).meets_of_mem (fun l hl answers roles heq => ?_) s
    exact hask answers roles (heq ▸ hl)
  refine (machine srv redis gid).run_invariant
    (fun t => Inv t ∧ ∀ uid, versions s.stored uid ≤ versions t.stored uid) ?_
    ⟨h, fun uid => Nat.le_refl _⟩ ((machine srv redis gid).meets_and hok hasked) hrun
  rintro t l u ⟨ht, hup⟩ ⟨hokl, haskl⟩ hstep
  obtain ⟨hu, hup'⟩ := inv_step ht hokl haskl hstep
  exact ⟨hu, fun uid => (hup uid).trans (hup' uid)⟩

end GroupPush

open GroupPush in
/-- From one state of a run to a later one no record goes back, and nobody has been
pushed a message twice. -/
theorem last_mid_ascends {srv : PushServer} {redis : UInt32} {gid : Gid} {stored : GroupUserMsgs}
    {ls ls' : List PushLabel} {s s' : GroupPush} (hask : AllAsked (ls ++ ls'))
    (hok : (machine srv redis gid).Meets (Unhurried redis) (.initial stored) (ls ++ ls'))
    (hrun : (machine srv redis gid).run (.initial stored) ls = some s)
    (hrun' : (machine srv redis gid).run s ls' = some s') :
    (∀ uid, versions s.stored uid ≤ versions s'.stored uid) ∧ s'.pushed.Nodup := by
  obtain ⟨hfirst, hrest⟩ := ((machine srv redis gid).meets_append hrun).mp hok
  have hs : Inv s := (inv_run (inv_initial stored)
    (fun answers roles hl => hask answers roles (List.mem_append_left ls' hl)) hfirst hrun).1
  obtain ⟨hs', hup⟩ := inv_run hs
    (fun answers roles hl => hask answers roles (List.mem_append_right ls hl)) hrest hrun'
  exact ⟨hup, (List.nodup_append.mp hs'.once).1⟩

namespace GroupPush

/-- The record of the user "u", who has a token, after a message -/
def apnRecord (mid : UInt64) : GroupUserMsgs :=
  AList.insert [117]
    { delivered mid with osType := 1, osVersion := [49], apnId := [65], apnType := [66] } ∅

/-- Nobody has to be looked up. -/
def silent : PushAnswers where
  accounts := fun _ => none
  now := fun _ => 0
  offlineServer := fun _ => []
  hmset := fun _ => true

theorem silent_asked : silent.Asked := fun _ _ h => nomatch h

theorem allAsked_silent {ls : List PushLabel} (h : ∀ answers roles,
    PushLabel.process answers roles ∈ ls → answers = fun _ => silent) : AllAsked ls := by
  intro answers roles hl i
  rw [h answers roles hl]
  exact silent_asked

def taskOfOne (mid : UInt64) : GroupMessageInfoTask :=
  ⟨0, 0, 1, 0, [PushServer.messageToAll mid], ∅⟩

def processSilent : PushLabel := .process (fun _ => silent) none

/-- Before 7 is pushed to the user, and until it is being pushed -/
def pushing : List PushLabel :=
  [.start (taskOfOne 7) (some {[117]}), .read [[117]], processSilent, .act]

theorem last_mid_ascends_pushing : ∃ s s',
    (machine PushServer.apnsServer 0 7).run (.initial (apnRecord 5)) pushing = some s ∧
    (machine PushServer.apnsServer 0 7).run s [.act, .act, .deliver 9 [[117]] true] = some s' ∧
    (versions s.stored [117], versions s'.stored [117]) = (6, 10) ∧ s'.pushed.Nodup := by
  have hview : ((machine PushServer.apnsServer 0 7).run (.initial (apnRecord 5)) pushing).map
      (fun s => versions s.stored [117]) = some 6 := by
    decide +kernel
  have hview' : ((machine PushServer.apnsServer 0 7).run (.initial (apnRecord 5))
      (pushing ++ [.act, .act, .deliver 9 [[117]] true])).map
        (fun s => versions s.stored [117]) = some 10 := by
    decide +kernel
  obtain ⟨s, hs, hv⟩ := Option.map_eq_some_iff.mp hview
  rw [(machine PushServer.apnsServer 0 7).run_append hs] at hview'
  obtain ⟨s', hs', hv'⟩ := Option.map_eq_some_iff.mp hview'
  refine ⟨s, s', hs, hs', by rw [hv, hv'], (last_mid_ascends ?_ (by decide +kernel) hs hs').2⟩
  refine allAsked_silent fun answers roles hl => ?_
  simp [pushing, processSilent] at hl
  exact hl.1

end GroupPush

open GroupPush in
/-- While 7 is being pushed to the user, who was offline, 9 is delivered; then the
record goes back to 7. -/
theorem delivered_overwritten :
    ¬ ∀ (srv : PushServer) (redis : UInt32) (gid : Gid) (stored : GroupUserMsgs)
      (ls ls' : List PushLabel) (s s' : GroupPush), AllAsked (ls ++ ls') →
      (machine srv redis gid).run (.initial stored) ls = some s →
      (machine srv redis gid).run s ls' = some s' →
      (∀ uid, versions s.stored uid ≤ versions s'.stored uid) ∧ s'.pushed.Nodup := by
  intro h
  have hview : ((machine PushServer.apnsServer 0 7).run (.initial (apnRecord 5))
      (pushing ++ [.deliver 9 [[117]] true])).map (fun s => versions s.stored [117]) =
        some 10 := by
    decide +kernel
  have hview' : ((machine PushServer.apnsServer 0 7).run (.initial (apnRecord 5))
      ((pushing ++ [.deliver 9 [[117]] true]) ++ [.act])).map
        (fun s => versions s.stored [117]) = some 8 := by
    decide +kernel
  obtain ⟨s, hs, hv⟩ := Option.map_eq_some_iff.mp hview
  rw [(machine PushServer.apnsServer 0 7).run_append hs] at hview'
  obtain ⟨s', hs', hv'⟩ := Option.map_eq_some_iff.mp hview'
  have hasked : AllAsked ((pushing ++ [.deliver 9 [[117]] true]) ++ [.act]) := by
    refine allAsked_silent fun answers roles hl => ?_
    simp [pushing, processSilent] at hl
    exact hl.1
  have hle := (h _ _ _ _ _ _ s s' hasked hs hs').1 [117]
  rw [hv, hv'] at hle
  omega

end BcmServer.Offline
