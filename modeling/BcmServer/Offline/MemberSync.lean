import BcmServer.Lts.Run
import BcmServer.Offline.MemberCache
import BcmServer.Offline.MemberReplay

/-!
# BcmServer.Offline.MemberSync — the member cache and the database

The rows of a group change, the changes are published, the offline server
handles the events of a group one after the other on the group's io context, and
its worker threads load groups that are not cached yet. A database read and the
change of the cache that follows it are separate steps, and so are the tests of
a handler and its change of the cache.

* `cache_disagrees`: the cache can stay wrong for good. A load whose read fails
  has already written the time of the reload down; the next load is therefore
  suppressed and reports success with nothing cached.
* `cache_agrees`: in every run whose steps are `Orderly`, once the events of a
  group are handled, a group whose last load reported success is cached as it is
  in the database.

`Tracks` is the invariant of a group: what is still to be handled will bring the
cache to the database. What a handler or a load has read and not yet written is
what the database still shows (`GroupInv.reading`, `Inv.loading`).
-/

namespace BcmServer.Offline

open BcmServer.Util BcmServer.Lts
open BcmServer.Group (Gid Role)

/-- A group event on its way. -/
structure GroupEvent where
  gid : Gid
  uid : Bytes
  type : GroupEventType
deriving DecidableEq, Repr

/-- A reload, past its test for an early one or before it. -/
inductive ReloadStage where
  | start
  | read
  | update (members : GroupUsers)

/-- The handlers that reload for a user who is not cached. -/
inductive Edit where
  | leave
  | mute
  | unmute
deriving DecidableEq, Repr

def Edit.type : Edit → GroupEventType
  | leave => .leave
  | mute => .mute
  | unmute => .unmute

/-- What the handler does with a cached user. -/
def Edit.update : Edit → GroupMemberMgr → Bytes → Gid → GroupMemberMgr
  | leave => GroupMemberMgr.leaveUpdate
  | mute => GroupMemberMgr.muteUpdate
  | unmute => GroupMemberMgr.removeMutedMember

/-- The handler that runs on the io context of a group, past its test for the
group: what it does next. -/
inductive MemberHandler where
  /-- before `getMember` -/
  | enterRead (uid : Bytes)
  | enterUpdate (uid : Bytes) (user : GroupUser)
  /-- before `isMemberExists` -/
  | member (edit : Edit) (uid : Bytes)
  | update (edit : Edit) (uid : Bytes)
  | reload (edit : Edit) (uid : Bytes) (stage : ReloadStage)

def MemberHandler.event : MemberHandler → Bytes × GroupEventType
  | enterRead uid | enterUpdate uid _ => (uid, .enter)
  | member edit uid | update edit uid | reload edit uid _ => (uid, edit.type)

/-- What the handler of an event starts with. -/
def MemberHandler.first : Bytes × GroupEventType → MemberHandler
  | (uid, .enter) => enterRead uid
  | (uid, .leave) => member .leave uid
  | (uid, .mute) => member .mute uid
  | (uid, .unmute) => member .unmute uid

/-- A call of `loadGroupMembersFromDb` that has not returned, or of
`syncReloadGroupMembersFromDb` by a worker thread. -/
structure LoadCall where
  gid : Gid
  isLoad : Bool
  /-- `none` is before the test for a cached group -/
  stage : Option ReloadStage

/-- The database, the cache and what is on its way. -/
structure MemberSync where
  mgr : GroupMemberMgr
  db : Gid → GroupUsers
  now : ℤ
  /-- published events that have not arrived -/
  inflight : List GroupEvent
  /-- the events posted to the io context of a group -/
  posted : Gid → List (Bytes × GroupEventType)
  running : Gid → Option MemberHandler
  loads : List LoadCall
  /-- the last `loadGroupMembersFromDb` of the group returned true -/
  loaded : Gid → Bool

/-- A step. The flag of `handle` and `loadStep` says whether a database read
succeeds. -/
inductive SyncLabel where
  | tick (seconds : ℕ)
  /-- a user joins, or comes back in another role -/
  | dbEnter (g : Gid) (uid : Bytes) (user : GroupUser)
  | dbLeave (g : Gid) (uid : Bytes)
  | dbMute (g : Gid) (uid : Bytes)
  | dbUnmute (g : Gid) (uid : Bytes)
  /-- a change of role, notified as such -/
  | dbRole (g : Gid) (uid : Bytes) (role : Role)
  | deliver (i : ℕ)
  | handle (g : Gid) (ok : Bool)
  | load (g : Gid)
  | reload (g : Gid)
  | loadStep (i : ℕ) (ok : Bool)
deriving DecidableEq, Repr

/-! ## What is cached of a user -/

def GroupUser.entry (user : GroupUser) : Entry := ⟨user.role = .subscriber, user.muted⟩

namespace GroupMemberMgr

def entry (s : GroupMemberMgr) (g : Gid) (uid : Bytes) : Option Entry :=
  if s.groupMembers.Mem g uid then some ⟨false, s.mutedMembers.Mem g uid⟩
  else if s.groupSubscribers.Mem g uid then some ⟨true, s.mutedMembers.Mem g uid⟩
  else none

variable {s : GroupMemberMgr} {g g' : Gid} {uid u : Bytes}

theorem isSome_entry : (s.entry g u).isSome = s.isMemberExists u g := by
  unfold entry isMemberExists
  by_cases hm : s.groupMembers.Mem g u <;> by_cases hs : s.groupSubscribers.Mem g u <;>
    simp [hm, hs]

/-- A group is cached when one of its users is. -/
theorem Wf.isGroupExist_iff (h : s.Wf) : s.isGroupExist g = true ↔ ∃ u, (s.entry g u).isSome := by
  unfold isGroupExist
  rw [Bool.or_eq_true, h.members.has_iff, h.subscribers.has_iff, ← exists_or]
  simp only [isSome_entry, isMemberExists_iff]

theorem Wf.any_muted_entry (h : s.Wf) :
    (s.entry g u).any Entry.muted = decide (s.mutedMembers.Mem g u) := by
  have hmuted := h.muted g u
  unfold entry
  by_cases hm : s.groupMembers.Mem g u <;> by_cases hs : s.groupSubscribers.Mem g u <;>
    simp_all

theorem Wf.entry_enterUpdate (h : s.Wf) (user : GroupUser) :
    (s.enterUpdate uid g user).entry g' u =
      if g' = g ∧ u = uid then Entry.handle (s.entry g uid) .enter (some user.entry)
      else s.entry g' u := by
  have hany := h.any_muted_entry (g := g) (u := uid)
  unfold entry at hany ⊢
  simp only [mem_enterUpdate_members, mem_enterUpdate_subscribers, mem_enterUpdate_muted]
  by_cases hk : g' = g ∧ u = uid
  · obtain ⟨rfl, rfl⟩ := hk
    simp only [Entry.handle, hany, GroupUser.entry]
    by_cases hr : user.role = .subscriber <;> cases user.muted <;> simp [hr]
  · have hk' : ¬ (g' = g ∧ u = uid ∧ user.muted = true) := fun hall => hk ⟨hall.1, hall.2.1⟩
    simp [hk, hk']

theorem entry_edit (edit : Edit) (d : Option Entry) (hu : (s.entry g uid).isSome) :
    (edit.update s uid g).entry g' u =
      if g' = g ∧ u = uid then Entry.handle (s.entry g uid) edit.type d else s.entry g' u := by
  rw [Entry.handle.eq_def]
  unfold entry at hu ⊢
  by_cases hk : g' = g ∧ u = uid
  · obtain ⟨rfl, rfl⟩ := hk
    cases edit <;> by_cases hm : s.groupMembers.Mem g' u <;>
      by_cases hs : s.groupSubscribers.Mem g' u <;>
      simp_all [Edit.update, Edit.type, leaveUpdate, muteUpdate, removeMutedMember]
  · cases edit <;> simp [Edit.update, leaveUpdate, muteUpdate, removeMutedMember, hk]

theorem entry_reloadUpdate (members : GroupUsers) :
    (s.reloadUpdate g members).entry g' u =
      if g' = g then (members.lookup u).map GroupUser.entry else s.entry g' u := by
  unfold entry
  simp only [mem_reloadUpdate_members, mem_reloadUpdate_subscribers, mem_reloadUpdate_muted]
  by_cases hg : g' = g
  · subst hg
    cases hrow : members.lookup u with
    | none => simp
    | some row =>
        by_cases hr : row.role = .subscriber <;> simp [GroupUser.entry, hr]
  · simp [hg]

end GroupMemberMgr

namespace MemberSync

def initial (db : Gid → GroupUsers) : MemberSync where
  mgr := .initial
  db := db
  now := 0
  inflight := []
  posted := fun _ => []
  running := fun _ => none
  loads := []
  loaded := fun _ => false

/-! ## The steps -/

/-- A row is written or deleted and the change published. -/
def change (s : MemberSync) (g : Gid) (uid : Bytes) (type : GroupEventType)
    (members : GroupUsers) : MemberSync :=
  { s with
    db := Function.update s.db g members
    inflight := s.inflight ++ [⟨g, uid, type⟩] }

/-- The row of a user who is there is rewritten. -/
def rewrite (s : MemberSync) (g : Gid) (uid : Bytes) (f : GroupUser → GroupUser) :
    Option GroupUsers :=
  ((s.db g).lookup uid).map fun user => (s.db g).insert uid (f user)

def setRunning (s : MemberSync) (g : Gid) (h : Option MemberHandler) : MemberSync :=
  { s with running := Function.update s.running g h }

/-- The first posted event is taken up; an event of a group that is not cached
is dropped. -/
def begin (s : MemberSync) (g : Gid) (event : Bytes × GroupEventType)
    (rest : List (Bytes × GroupEventType)) : MemberSync :=
  let s' := { s with posted := Function.update s.posted g rest }
  if s.mgr.isGroupExist g then s'.setRunning g (some (.first event)) else s'

/-- The next atomic step of the handler of a group. -/
def handlerStep (s : MemberSync) (g : Gid) (ok : Bool) : MemberHandler → MemberSync
  | .enterRead uid =>
      match if ok then (s.db g).lookup uid else none with
      | none => s.setRunning g none
      | some user => s.setRunning g (some (.enterUpdate uid user))
  | .enterUpdate uid user =>
      { s with mgr := s.mgr.enterUpdate uid g user }.setRunning g none
  | .member edit uid =>
      s.setRunning g (some (if s.mgr.isMemberExists uid g then .update edit uid
        else .reload edit uid .start))
  | .update edit uid => { s with mgr := edit.update s.mgr uid g }.setRunning g none
  | .reload edit uid .start =>
      if s.mgr.reloadThrottled g s.now then s.setRunning g none
      else { s with mgr := s.mgr.reloadMark g s.now }.setRunning g
        (some (.reload edit uid .read))
  | .reload edit uid .read =>
      s.setRunning g (if ok then some (.reload edit uid (.update (s.db g))) else none)
  | .reload _ _ (.update members) =>
      { s with mgr := s.mgr.reloadUpdate g members }.setRunning g none

/-- A load returns. -/
def returns (s : MemberSync) (i : ℕ) (c : LoadCall) (result : Bool) : MemberSync :=
  { s with
    loads := s.loads.eraseIdx i
    loaded := if c.isLoad then Function.update s.loaded c.gid result else s.loaded }

def setStage (s : MemberSync) (i : ℕ) (c : LoadCall) (stage : ReloadStage) : MemberSync :=
  { s with loads := s.loads.set i { c with stage := some stage } }

/-- The next atomic step of a load. -/
def loadCallStep (s : MemberSync) (i : ℕ) (ok : Bool) (c : LoadCall) : MemberSync :=
  match c.stage with
  | none => if s.mgr.isGroupExist c.gid then s.returns i c true else s.setStage i c .start
  | some .start =>
      if s.mgr.reloadThrottled c.gid s.now then s.returns i c true
      else { s with mgr := s.mgr.reloadMark c.gid s.now }.setStage i c .read
  | some .read => if ok then s.setStage i c (.update (s.db c.gid)) else s.returns i c false
  | some (.update members) =>
      { s with mgr := s.mgr.reloadUpdate c.gid members }.returns i c true

def step (s : MemberSync) : SyncLabel → Option MemberSync
  | .tick seconds => some { s with now := s.now + seconds }
  | .dbEnter g uid user => some (s.change g uid .enter ((s.db g).insert uid user))
  | .dbLeave g uid =>
      if uid ∈ s.db g then some (s.change g uid .leave ((s.db g).erase uid)) else none
  | .dbMute g uid =>
      (s.rewrite g uid fun user => { user with muted := true }).map (s.change g uid .mute)
  | .dbUnmute g uid =>
      (s.rewrite g uid fun user => { user with muted := false }).map (s.change g uid .unmute)
  | .dbRole g uid role =>
      -- `handleEvent` does not process the event of a change of role
      (s.rewrite g uid fun user => { user with role := role }).map fun members =>
        { s with db := Function.update s.db g members }
  | .deliver i =>
      match s.inflight[i]? with
      | none => none
      | some ev =>
          let s' := { s with inflight := s.inflight.eraseIdx i }
          if s.mgr.isGroupExist ev.gid then
            some { s' with
              posted := Function.update s.posted ev.gid (s.posted ev.gid ++ [(ev.uid, ev.type)]) }
          else some s'
  | .handle g ok =>
      match s.running g with
      | some h => some (s.handlerStep g ok h)
      | none =>
          match s.posted g with
          | [] => none
          | event :: rest => some (s.begin g event rest)
  | .load g => some { s with loads := s.loads ++ [⟨g, true, none⟩] }
  | .reload g => some { s with loads := s.loads ++ [⟨g, false, some .start⟩] }
  | .loadStep i ok => s.loads[i]?.map (s.loadCallStep i ok)

def machine : Machine MemberSync SyncLabel := ⟨step⟩

/-! ## The condition -/

end MemberSync

/-- What was read is still to be written. -/
def ReloadStage.awaits : ReloadStage → Bool
  | update _ => true
  | start | read => false

def MemberHandler.awaits : MemberHandler → Bool
  | enterUpdate _ _ => true
  | reload _ _ stage => stage.awaits
  | enterRead _ | member _ _ | update _ _ => false

/-- The handler relies on a test of the cache it has made. -/
def MemberHandler.underway : MemberHandler → Bool
  | enterRead _ | enterUpdate _ _ | update _ _ => true
  | member _ _ | reload _ _ _ => false

namespace MemberSync

/-- A read of the group is still to be written into the cache. -/
def awaits (s : MemberSync) (g : Gid) : Bool :=
  (s.running g).any MemberHandler.awaits ||
    s.loads.any fun c => c.gid = g && c.stage.any ReloadStage.awaits

/-- The events of the group on its io context, the one that is handled first. -/
def context (s : MemberSync) (g : Gid) : List (Bytes × GroupEventType) :=
  ((s.running g).map MemberHandler.event).toList ++ s.posted g

/-- The user is not cached, and left with this event or is not there any more. -/
def gone (s : MemberSync) (g : Gid) (edit : Edit) (uid : Bytes) : Bool :=
  (s.mgr.entry g uid).isNone && (edit = .leave || ((s.db g).lookup uid).isNone)

def orderly (s : MemberSync) : SyncLabel → Bool
  | .tick _ | .load _ | .reload _ => true
  -- the database does not change between a read and its update of the cache, and
  -- a change that is not notified as such clears no muted bit and moves nobody in
  -- or out of the subscribers
  | .dbEnter g uid user =>
      !s.awaits g && ((s.db g).lookup uid).all fun row => !row.muted || user.muted
  | .dbLeave g _ | .dbMute g _ | .dbUnmute g _ => !s.awaits g
  | .dbRole g uid role =>
      !s.awaits g && ((s.db g).lookup uid).all fun row =>
        decide (row.role = .subscriber ↔ role = .subscriber)
  -- the events of a user arrive in order, and none is dropped while the group is
  -- loaded or an earlier one is to be handled
  | .deliver i =>
      match s.inflight[i]? with
      | none => true
      | some ev =>
          ((s.inflight.take i).all fun ev' => !(ev'.gid = ev.gid && ev'.uid = ev.uid)) &&
            (s.mgr.isGroupExist ev.gid ||
              !s.loaded ev.gid && (s.context ev.gid).all fun y => !(y.1 = ev.uid))
  | .handle g ok =>
      match s.running g with
      | none => s.mgr.isGroupExist g || !s.loaded g
      -- the reads of the handlers succeed
      | some (.enterRead _) => ok
      -- a reload is not suppressed, except for a user who is gone
      | some (.reload edit uid .start) => !s.mgr.reloadThrottled g s.now || s.gone g edit uid
      | some (.reload edit uid .read) => ok || s.gone g edit uid
      | some _ => true
  | .loadStep i _ =>
      match s.loads[i]? with
      | some ⟨g, true, some .start⟩ => !s.mgr.reloadThrottled g s.now
      -- nor is one written between a test of a handler and its update
      | some ⟨g, _, some (.update _)⟩ => !(s.running g).any MemberHandler.underway
      | _ => true

def Orderly (s : MemberSync) (l : SyncLabel) : Prop := s.orderly l = true

instance (s : MemberSync) (l : SyncLabel) : Decidable (s.Orderly l) :=
  inferInstanceAs (Decidable (s.orderly l = true))

/-! ## The invariant -/

/-- The events of the group that have not arrived. -/
def arriving (s : MemberSync) (g : Gid) : List (Bytes × GroupEventType) :=
  (s.inflight.filter fun ev => ev.gid = g).map fun ev => (ev.uid, ev.type)

/-- Somebody may rely on the cache of the group. -/
def Known (s : MemberSync) (g : Gid) : Prop := s.mgr.isGroupExist g = true ∨ s.loaded g = true

def dbEntry (s : MemberSync) (g : Gid) (uid : Bytes) : Option Entry :=
  ((s.db g).lookup uid).map GroupUser.entry

/-- What a handler has tested and read is still so. -/
def HandlerInv (s : MemberSync) (g : Gid) : MemberHandler → Prop
  | .enterRead _ => s.mgr.isGroupExist g = true
  | .enterUpdate uid user => s.mgr.isGroupExist g = true ∧ (s.db g).lookup uid = some user
  | .member _ _ => True
  | .update _ uid => (s.mgr.entry g uid).isSome
  | .reload _ _ stage => ∀ members, stage = .update members → members = s.db g

structure GroupInv (s : MemberSync) (g : Gid) : Prop where
  tracks : Tracks (s.context g ++ s.arriving g) (s.mgr.entry g) (s.dbEntry g) (s.Known g)
  handler : ∀ h, s.running g = some h → s.HandlerInv g h

structure Inv (s : MemberSync) : Prop where
  wf : s.mgr.Wf
  group : ∀ g, s.GroupInv g
  loading : ∀ c ∈ s.loads, ∀ members, c.stage = some (.update members) → members = s.db c.gid

variable {s s' : MemberSync} {g : Gid}

/-- A step that leaves a group alone. -/
theorem GroupInv.congr (h : s.GroupInv g) (hdb : s'.db g = s.db g)
    (hrunning : s'.running g = s.running g) (hposted : s'.posted g = s.posted g)
    (hloaded : s'.loaded g = s.loaded g) (harriving : s'.arriving g = s.arriving g)
    (hwf : s.mgr.Wf) (hwf' : s'.mgr.Wf) (hentry : ∀ u, s'.mgr.entry g u = s.mgr.entry g u) :
    s'.GroupInv g := by
  have hexist : s'.mgr.isGroupExist g = s.mgr.isGroupExist g := by
    rw [Bool.eq_iff_iff, hwf.isGroupExist_iff, hwf'.isGroupExist_iff]
    simp only [hentry]
  have hcontext : s'.context g = s.context g := by
    unfold context
    rw [hrunning, hposted]
  have hknown : s'.Known g ↔ s.Known g := by
    unfold Known
    rw [hexist, hloaded]
  constructor
  · rw [hcontext, harriving, funext hentry]
    have hd : s'.dbEntry g = s.dbEntry g := by
      unfold dbEntry
      rw [hdb]
    rw [hd]
    exact h.tracks.weaken hknown.mp
  · intro hd hrun
    rw [hrunning] at hrun
    have hinv := h.handler hd hrun
    cases hd <;> simp only [HandlerInv] at hinv ⊢ <;> simp_all

theorem inv_initial (db : Gid → GroupUsers) : (initial db).Inv where
  wf := GroupMemberMgr.wf_initial
  group g := by
    constructor
    · constructor
      · intro u
        exact ⟨_, rfl⟩
      · rintro (h | h)
        · simp [initial, GroupMemberMgr.initial, GroupMemberMgr.isGroupExist, SetMap.has,
            SetMap.empty] at h
        · simp [initial] at h
    · intro h hrun
      cases hrun
  loading c hc := by cases hc

/-! ## Changes of the database -/

/-- The rows of a group change while no read of it is to be written. -/
theorem Inv.setRows (h : s.Inv) (hawaits : s.awaits g = false) {members : GroupUsers}
    {inflight : List GroupEvent}
    (hs' : s' = { s with db := Function.update s.db g members, inflight := inflight })
    (harriving : ∀ g' ≠ g, s'.arriving g' = s.arriving g')
    (htracks : Tracks (s.context g ++ s'.arriving g) (s.mgr.entry g) (s'.dbEntry g) (s.Known g)) :
    s'.Inv := by
  simp only [awaits, Bool.or_eq_false_iff] at hawaits
  subst hs'
  refine ⟨h.wf, fun g' => ?_, ?_⟩
  · by_cases hg : g' = g
    · subst hg
      refine ⟨htracks, fun hd hrun => ?_⟩
      have hinv := (h.group g').handler hd hrun
      -- what the handler has read would be written still
      have hnot : hd.awaits = false := by
        have := hawaits.1
        rw [show s.running g' = some hd from hrun] at this
        simpa using this
      cases hd with
      | enterRead uid => exact hinv
      | enterUpdate uid user => cases hnot
      | member edit uid => trivial
      | update edit uid => exact hinv
      | reload edit uid stage =>
          intro members' hst
          subst hst
          cases hnot
    · refine (h.group g').congr ?_ rfl rfl rfl (harriving g' hg) h.wf h.wf fun _ => rfl
      simp [hg]
  · intro c hc members' hst
    by_cases hg : c.gid = g
    · have hnot := hawaits.2
      rw [List.any_eq_false] at hnot
      have := hnot c hc
      rw [hst] at this
      simp [hg, ReloadStage.awaits] at this
    · rw [h.loading c hc members' hst]
      simp [hg]

theorem arriving_change_of_ne {g' : Gid} {uid : Bytes} {type : GroupEventType}
    {members : GroupUsers} (hg : g' ≠ g) :
    (s.change g uid type members).arriving g' = s.arriving g' := by
  simp [change, arriving, Ne.symm hg]

/-- A change that is published as an event. -/
theorem Inv.change (h : s.Inv) (hawaits : s.awaits g = false) {uid : Bytes}
    {type : GroupEventType} {members : GroupUsers}
    (hother : ∀ u ≠ uid, members.lookup u = (s.db g).lookup u)
    (hch : Entry.Change (s.dbEntry g uid) type ((members.lookup uid).map GroupUser.entry)) :
    (s.change g uid type members).Inv := by
  refine h.setRows hawaits rfl (fun g' hg => arriving_change_of_ne hg) ?_
  have harriving : (s.change g uid type members).arriving g = s.arriving g ++ [(uid, type)] := by
    simp [MemberSync.change, arriving]
  rw [harriving, ← List.append_assoc]
  refine (h.group g).tracks.change hch fun u => ?_
  by_cases hu : u = uid
  · subst hu
    simp [dbEntry, MemberSync.change]
  · simp [dbEntry, MemberSync.change, hu, hother u hu]

theorem lookup_rewrite {uid u : Bytes} {f : GroupUser → GroupUser} {members : GroupUsers}
    (h : s.rewrite g uid f = some members) : ∃ user, (s.db g).lookup uid = some user ∧
      members.lookup u = if u = uid then some (f user) else (s.db g).lookup u := by
  obtain ⟨user, huser, rfl⟩ := Option.map_eq_some_iff.mp h
  refine ⟨user, huser, ?_⟩
  by_cases hu : u = uid
  · subst hu
    simp
  · simp [hu, AList.lookup_insert_ne hu]

/-- The row of a user is rewritten, and the event says how. -/
theorem Inv.rewrite (h : s.Inv) (hawaits : s.awaits g = false) {uid : Bytes}
    {type : GroupEventType} {f : GroupUser → GroupUser} {members : GroupUsers}
    (hrw : s.rewrite g uid f = some members)
    (hch : ∀ user, Entry.Change (some user.entry) type (some (f user).entry)) :
    (s.change g uid type members).Inv := by
  refine h.change hawaits (fun u hu => ?_) ?_
  · obtain ⟨_, _, hlook⟩ := lookup_rewrite (u := u) hrw
    rw [hlook, if_neg hu]
  · obtain ⟨user, huser, hlook⟩ := lookup_rewrite (u := uid) hrw
    rw [hlook, if_pos rfl]
    simpa [dbEntry, huser] using hch user

/-- A change of role that no event of these says stays on one side of the
subscribers. -/
theorem Inv.rewriteRole (h : s.Inv) (hawaits : s.awaits g = false) {uid : Bytes} {role : Role}
    {members : GroupUsers}
    (hrw : s.rewrite g uid (fun user => { user with role := role }) = some members)
    (hside : ∀ row, (s.db g).lookup uid = some row →
      (row.role = .subscriber ↔ role = .subscriber)) :
    ({ s with db := Function.update s.db g members } : MemberSync).Inv := by
  refine h.setRows hawaits rfl (fun _ _ => rfl) ?_
  have hsame : ({ s with db := Function.update s.db g members } : MemberSync).dbEntry g =
      s.dbEntry g := by
    funext u
    obtain ⟨user, huser, hlook⟩ := lookup_rewrite (u := u) hrw
    simp only [dbEntry, Function.update_self, hlook]
    by_cases hu : u = uid
    · subst hu
      have hiff := hside user huser
      simp [huser, GroupUser.entry, hiff]
    · simp [hu]
  rw [hsame]
  exact (h.group g).tracks

/-! ## Arriving events -/

theorem context_of_posted {l : List (Bytes × GroupEventType)} (hr : s'.running g = s.running g)
    (hp : s'.posted g = s.posted g ++ l) : s'.context g = s.context g ++ l := by
  unfold context
  rw [hr, hp, List.append_assoc]

/-- An event that arrives joins those posted before it; one that is dropped was
the first of its user. -/
theorem inv_deliver (h : s.Inv) {i : ℕ} (hok : s.Orderly (.deliver i))
    (hstep : s.step (.deliver i) = some s') : s'.Inv := by
  simp only [step] at hstep
  cases hev : s.inflight[i]? with
  | none => simp [hev] at hstep
  | some ev =>
      simp only [hev] at hstep
      simp only [Orderly, orderly, hev, Bool.and_eq_true, Bool.or_eq_true, Bool.not_eq_true',
        List.all_eq_true, decide_eq_false_iff_not, Bool.and_eq_false_iff] at hok
      obtain ⟨hfirst, hkept⟩ := hok
      obtain ⟨hi, hget⟩ := List.getElem?_eq_some_iff.mp hev
      -- the events before and after it
      have hsplit : s.inflight = s.inflight.take i ++ ev :: s.inflight.drop (i + 1) := by
        rw [← hget, ← List.drop_eq_getElem_cons hi, List.take_append_drop]
      have herase : s.inflight.eraseIdx i = s.inflight.take i ++ s.inflight.drop (i + 1) :=
        List.eraseIdx_eq_take_drop_succ ..
      generalize hA : s.inflight.take i = A at hsplit herase hfirst
      generalize s.inflight.drop (i + 1) = B at hsplit herase
      let toGroup (l : List GroupEvent) : List (Bytes × GroupEventType) :=
        (l.filter fun e => e.gid = ev.gid).map fun e => (e.uid, e.type)
      have harriving : s.arriving ev.gid = toGroup A ++ (ev.uid, ev.type) :: toGroup B := by
        simp [arriving, hsplit, toGroup]
      have herase' : toGroup (s.inflight.eraseIdx i) = toGroup A ++ toGroup B := by
        simp [herase, toGroup]
      have hbefore : ∀ y ∈ toGroup A, y.1 ≠ ev.uid := by
        simp only [toGroup, List.mem_map, List.mem_filter, decide_eq_true_eq]
        rintro y ⟨e, ⟨he, hg⟩, rfl⟩
        rcases hfirst e he with hne | hne
        · exact absurd hg hne
        · exact hne
      have hother : ∀ g' ≠ ev.gid, ((A ++ B).filter fun e => e.gid = g').map
          (fun e => (e.uid, e.type)) = s.arriving g' := by
        intro g' hg
        simp [arriving, hsplit, Ne.symm hg]
      have htracks := (h.group ev.gid).tracks
      rw [harriving] at htracks
      split at hstep
      · next hexist =>
        have hcontext : s'.context ev.gid = s.context ev.gid ++ [(ev.uid, ev.type)] := by
          cases hstep
          exact context_of_posted rfl (by simp)
        have harriving' : s'.arriving ev.gid = toGroup A ++ toGroup B := by
          cases hstep
          exact herase'
        cases hstep
        refine ⟨h.wf, fun g' => ?_, h.loading⟩
        by_cases hg : g' = ev.gid
        · subst hg
          refine ⟨?_, (h.group _).handler⟩
          rw [hcontext, harriving', List.append_assoc, List.singleton_append]
          refine htracks.congr fun u => ?_
          rw [ofUser_append, ofUser_middle hbefore, ← ofUser_append]
        · refine (h.group g').congr rfl rfl ?_ rfl ?_ h.wf h.wf fun _ => rfl
          · simp [hg]
          · simp only [arriving, herase]
            exact hother g' hg
      · next hexist =>
        cases hstep
        refine ⟨h.wf, fun g' => ?_, h.loading⟩
        by_cases hg : g' = ev.gid
        · subst hg
          refine ⟨?_, (h.group _).handler⟩
          obtain ⟨hloaded, hcontext⟩ := hkept.resolve_left hexist
          have hunknown : ¬ s.Known ev.gid := by
            rintro (hk | hk)
            · exact hexist hk
            · rw [hloaded] at hk
              cases hk
          rw [← List.append_assoc] at htracks
          have hdropped := htracks.dropped (by
            intro y hy
            rcases List.mem_append.mp hy with hy | hy
            · exact hcontext y hy
            · exact hbefore y hy) hunknown
          rw [List.append_assoc] at hdropped
          show Tracks (s.context ev.gid ++ toGroup (s.inflight.eraseIdx i)) _ _ _
          rwa [herase']
        · refine (h.group g').congr rfl rfl rfl rfl ?_ h.wf h.wf fun _ => rfl
          simp only [arriving, herase]
          exact hother g' hg

/-! ## The handlers -/

theorem context_of_running {hd : MemberHandler} (hrun : s.running g = some hd) :
    s.context g = hd.event :: s.posted g := by
  simp [context, hrun]

/-- The handler of a group is done, having changed the cache of the group. -/
theorem Inv.finish (h : s.Inv) {mgr : GroupMemberMgr} (hwf : mgr.Wf)
    (hother : ∀ g' ≠ g, ∀ u, mgr.entry g' u = s.mgr.entry g' u)
    (htracks : Tracks (s.posted g ++ s.arriving g) (mgr.entry g) (s.dbEntry g)
      (mgr.isGroupExist g = true ∨ s.loaded g = true)) :
    (setRunning { s with mgr := mgr } g none).Inv := by
  refine ⟨hwf, fun g' => ?_, h.loading⟩
  by_cases hg : g' = g
  · subst hg
    constructor
    · have hcontext : (setRunning { s with mgr := mgr } g' none).context g' = s.posted g' := by
        simp [context, setRunning]
      rw [hcontext]
      exact htracks
    · intro hd hrun
      simp [setRunning] at hrun
  · refine (h.group g').congr rfl ?_ rfl rfl rfl h.wf hwf (hother g' hg)
    simp [setRunning, hg]

/-- The handler of a group goes on, the sets left alone. -/
theorem Inv.goOn (h : s.Inv) {mgr : GroupMemberMgr} {hd hd' : MemberHandler}
    (hrun : s.running g = some hd) (hevent : hd'.event = hd.event)
    (hmgr : mgr = { s.mgr with reloadTimes := mgr.reloadTimes })
    (hinv : s.HandlerInv g hd') : (setRunning { s with mgr := mgr } g (some hd')).Inv := by
  have hwf : mgr.Wf := by
    rw [hmgr]
    exact ⟨h.wf.disjoint, h.wf.muted, h.wf.members, h.wf.subscribers, h.wf.compactMuted⟩
  have hentry : ∀ g' u, mgr.entry g' u = s.mgr.entry g' u := by
    rw [hmgr]
    exact fun _ _ => rfl
  have hexist : ∀ g', mgr.isGroupExist g' = s.mgr.isGroupExist g' := by
    rw [hmgr]
    exact fun _ => rfl
  refine ⟨hwf, fun g' => ?_, h.loading⟩
  by_cases hg : g' = g
  · subst hg
    constructor
    · have hcontext : (setRunning { s with mgr := mgr } g' (some hd')).context g' =
          s.context g' := by
        simp [context, setRunning, hrun, hevent]
      rw [hcontext]
      have hknown : (setRunning { s with mgr := mgr } g' (some hd')).Known g' → s.Known g' := by
        unfold Known
        rw [← hexist g']
        exact id
      have hc : mgr.entry g' = s.mgr.entry g' := funext (hentry g')
      show Tracks _ (mgr.entry g') _ _
      rw [hc]
      exact (h.group g').tracks.weaken hknown
    · intro hd'' hrun'
      simp only [setRunning, Function.update_self, Option.some.injEq] at hrun'
      subst hrun'
      cases hd' with
      | enterRead uid => exact (hexist g').trans hinv
      | enterUpdate uid user => exact ⟨(hexist g').trans hinv.1, hinv.2⟩
      | member edit uid => trivial
      | update edit uid =>
          show (mgr.entry g' uid).isSome
          rw [hentry]
          exact hinv
      | reload edit uid stage => exact hinv
  · refine (h.group g').congr rfl ?_ rfl rfl rfl h.wf hwf (hentry g')
    simp [setRunning, hg]

/-- The first event of a group is taken up, or dropped while nobody relies on
the cache. -/
theorem inv_begin (h : s.Inv) {event : Bytes × GroupEventType}
    {rest : List (Bytes × GroupEventType)} (hrun : s.running g = none)
    (hposted : s.posted g = event :: rest)
    (hok : s.mgr.isGroupExist g = true ∨ s.loaded g = false) :
    (s.begin g event rest).Inv := by
  have htracks := (h.group g).tracks
  have hcontext : s.context g = event :: rest := by
    simp [context, hrun, hposted]
  rw [hcontext] at htracks
  unfold begin
  split
  · next hexist =>
    refine ⟨h.wf, fun g' => ?_, h.loading⟩
    by_cases hg : g' = g
    · subst hg
      constructor
      · have hcontext' : (setRunning { s with posted := Function.update s.posted g' rest } g'
            (some (.first event))).context g' = event :: rest := by
          rcases event with ⟨uid, type⟩
          cases type <;> simp [context, setRunning, MemberHandler.first, MemberHandler.event,
            Edit.type]
        rw [hcontext']
        exact htracks
      · intro hd hrun'
        simp only [setRunning, Function.update_self, Option.some.injEq] at hrun'
        subst hrun'
        rcases event with ⟨uid, type⟩
        cases type
        · exact hexist
        · trivial
        · trivial
        · trivial
    · refine (h.group g').congr rfl ?_ ?_ rfl rfl h.wf h.wf fun _ => rfl
      · simp [setRunning, hg]
      · simp [setRunning, hg]
  · next hexist =>
    have hunknown : ¬ s.Known g := by
      rintro (hk | hk)
      · exact hexist hk
      · rw [hok.resolve_left hexist] at hk
        cases hk
    refine ⟨h.wf, fun g' => ?_, h.loading⟩
    by_cases hg : g' = g
    · subst hg
      constructor
      · have hcontext' : ({ s with posted := Function.update s.posted g' rest } :
            MemberSync).context g' = rest := by
          simp [context, hrun]
        rw [hcontext']
        rw [List.cons_append] at htracks
        exact htracks.dropped_head hunknown
      · intro hd hrun'
        rw [show s.running g' = some hd from hrun'] at hrun
        cases hrun
    · refine (h.group g').congr rfl rfl ?_ rfl rfl h.wf h.wf fun _ => rfl
      simp [hg]

/-- A handler gives up on a user who is gone. -/
theorem Inv.giveUp (h : s.Inv) {edit : Edit} {uid : Bytes} {stage : ReloadStage}
    (hrun : s.running g = some (.reload edit uid stage)) (hgone : s.gone g edit uid = true) :
    (s.setRunning g none).Inv := by
  have htracks := (h.group g).tracks
  rw [context_of_running hrun, List.cons_append] at htracks
  simp only [gone, Bool.and_eq_true, Option.isNone_iff_eq_none, Bool.or_eq_true,
    decide_eq_true_eq] at hgone
  obtain ⟨hc, hleft⟩ := hgone
  refine h.finish h.wf (fun _ _ _ => rfl) (htracks.skipped hc ?_)
  rcases hleft with rfl | hd
  · exact Or.inl rfl
  · right
    simp [dbEntry, hd]

/-- Every step of a handler keeps the invariant. -/
theorem inv_handlerStep (h : s.Inv) {hd : MemberHandler} {ok : Bool}
    (hrun : s.running g = some hd) (hok : s.Orderly (.handle g ok)) :
    (s.handlerStep g ok hd).Inv := by
  have htracks := (h.group g).tracks
  rw [context_of_running hrun, List.cons_append] at htracks
  have hinv := (h.group g).handler hd hrun
  simp only [Orderly, orderly, hrun] at hok
  cases hd with
  | enterRead uid =>
      simp only [handlerStep]
      simp only at hok
      rw [hok, if_pos rfl]
      cases hrow : (s.db g).lookup uid with
      | none =>
          -- the user has left again, and nothing is done
          refine h.finish h.wf (fun _ _ _ => rfl) (htracks.handled fun u => ?_)
          by_cases hu : u = uid
          · subst hu
            simp [Entry.handle, dbEntry, hrow]
          · simp [hu]
      | some user => exact h.goOn hrun rfl rfl ⟨hinv, hrow⟩
  | enterUpdate uid user =>
      obtain ⟨hexist, hrow⟩ := hinv
      refine h.finish (h.wf.enterUpdate uid g user) ?_ ?_
      · intro g' hg u
        rw [h.wf.entry_enterUpdate, if_neg (fun hk => hg hk.1)]
      · refine (htracks.handled fun u => ?_).weaken fun _ => Or.inl hexist
        rw [h.wf.entry_enterUpdate]
        simp [dbEntry, hrow]
  | member edit uid =>
      refine h.goOn hrun ?_ rfl ?_
      · split <;> rfl
      · split
        · next hex =>
          show (s.mgr.entry g uid).isSome
          rw [GroupMemberMgr.isSome_entry]
          exact hex
        · intro members hst
          cases hst
  | update edit uid =>
      have hsome : (s.mgr.entry g uid).isSome := hinv
      have hex : s.mgr.isMemberExists uid g = true := by
        rw [← GroupMemberMgr.isSome_entry]
        exact hsome
      have hexist : s.mgr.isGroupExist g = true := h.wf.isGroupExist_iff.mpr ⟨uid, hsome⟩
      refine h.finish ?_ ?_ ?_
      · cases edit
        · exact h.wf.leaveUpdate uid g
        · exact h.wf.muteUpdate hex
        · exact h.wf.removeMutedMember uid g
      · intro g' hg u
        rw [GroupMemberMgr.entry_edit edit none hsome, if_neg (fun hk => hg hk.1)]
      · refine (htracks.handled fun u => ?_).weaken fun _ => Or.inl hexist
        rw [GroupMemberMgr.entry_edit edit (s.dbEntry g uid) hsome]
        simp
  | reload edit uid stage =>
      cases stage with
      | start =>
          simp only [handlerStep]
          simp only [Bool.or_eq_true, Bool.not_eq_true'] at hok
          split
          · next hthrottled =>
            rw [hthrottled] at hok
            exact h.giveUp hrun (hok.resolve_left (by simp))
          · refine h.goOn hrun rfl rfl ?_
            intro members hst
            cases hst
      | read =>
          simp only [handlerStep]
          simp only [Bool.or_eq_true] at hok
          cases ok with
          | false =>
              rw [if_neg (by simp)]
              exact h.giveUp hrun (hok.resolve_left (by simp))
          | true =>
              rw [if_pos rfl]
              refine h.goOn hrun rfl rfl ?_
              intro members hst
              cases hst
              rfl
      | update members =>
          obtain rfl : members = s.db g := hinv members rfl
          refine h.finish (h.wf.reloadUpdate g _) ?_ ?_
          · intro g' hg u
            rw [GroupMemberMgr.entry_reloadUpdate, if_neg hg]
          · -- whatever is to come, the cache shows the database now
            have htail : Tracks (s.posted g ++ s.arriving g) (s.mgr.entry g) (s.dbEntry g) False :=
              (htracks.weaken False.elim).dropped_head id
            refine htail.fresh fun u => ?_
            rw [GroupMemberMgr.entry_reloadUpdate, if_pos rfl]
            rfl

/-! ## The loads -/

/-- A step of a load, which changes the cache of its group and what is known of
it at most. -/
theorem Inv.ofLoad (h : s.Inv) {mgr : GroupMemberMgr} {loads : List LoadCall}
    {loaded : Gid → Bool} (hwf : mgr.Wf)
    (hentry : ∀ g' ≠ g, ∀ u, mgr.entry g' u = s.mgr.entry g' u)
    (hloaded : ∀ g' ≠ g, loaded g' = s.loaded g')
    (htracks : Tracks (s.context g ++ s.arriving g) (mgr.entry g) (s.dbEntry g)
      (mgr.isGroupExist g = true ∨ loaded g = true))
    (hhandler : ∀ hd, s.running g = some hd → HandlerInv { s with mgr := mgr } g hd)
    (hloading : ∀ c ∈ loads, ∀ members, c.stage = some (.update members) →
      members = s.db c.gid) :
    ({ s with mgr := mgr, loads := loads, loaded := loaded } : MemberSync).Inv := by
  refine ⟨hwf, fun g' => ?_, hloading⟩
  by_cases hg : g' = g
  · subst hg
    refine ⟨htracks, fun hd hrun => ?_⟩
    have hinv := hhandler hd hrun
    cases hd <;> exact hinv
  · exact (h.group g').congr rfl rfl rfl (hloaded g' hg) rfl h.wf hwf (hentry g' hg)

theorem loading_eraseIdx (h : s.Inv) (i : ℕ) : ∀ c ∈ s.loads.eraseIdx i, ∀ members,
    c.stage = some (.update members) → members = s.db c.gid :=
  fun c hc => h.loading c (List.mem_of_mem_eraseIdx hc)

theorem loading_set (h : s.Inv) (i : ℕ) {c : LoadCall} {stage : ReloadStage}
    (hstage : ∀ members, stage = .update members → members = s.db c.gid) :
    ∀ c' ∈ s.loads.set i { c with stage := some stage }, ∀ members,
      c'.stage = some (.update members) → members = s.db c'.gid := by
  intro c' hc' members hst
  rcases List.mem_or_eq_of_mem_set hc' with hmem | rfl
  · exact h.loading c' hmem members hst
  · exact hstage members (Option.some.inj hst)

/-- A load returns; what it reports is known already. -/
theorem Inv.returns (h : s.Inv) (i : ℕ) {c : LoadCall} {result : Bool}
    (hresult : c.isLoad = true → result = true → s.Known c.gid) : (s.returns i c result).Inv := by
  refine h.ofLoad (g := c.gid) h.wf (fun _ _ _ => rfl) ?_ ?_ (fun hd hrun => ?_)
    (loading_eraseIdx h i)
  · intro g' hg
    split <;> simp [hg]
  · refine (h.group c.gid).tracks.weaken ?_
    rintro (hk | hk)
    · exact Or.inl hk
    · split at hk
      · next hload => exact hresult hload (by simpa using hk)
      · exact Or.inr hk
  · have hinv := (h.group c.gid).handler hd hrun
    cases hd <;> exact hinv

/-- A load goes on, the sets left alone. -/
theorem Inv.setStage (h : s.Inv) (i : ℕ) {c : LoadCall} {stage : ReloadStage}
    {times : Gid → Option ℤ} (hstage : ∀ members, stage = .update members → members = s.db c.gid) :
    (MemberSync.setStage { s with mgr := { s.mgr with reloadTimes := times } } i c stage).Inv := by
  refine h.ofLoad (g := c.gid)
    ⟨h.wf.disjoint, h.wf.muted, h.wf.members, h.wf.subscribers, h.wf.compactMuted⟩
    (fun _ _ _ => rfl) (fun _ _ => rfl) (h.group c.gid).tracks (fun hd hrun => ?_)
    (loading_set h i hstage)
  have hinv := (h.group c.gid).handler hd hrun
  cases hd <;> exact hinv

/-- Every step of a load keeps the invariant. -/
theorem inv_loadCallStep (h : s.Inv) {i : ℕ} {c : LoadCall} {ok : Bool}
    (hc : s.loads[i]? = some c) (hok : s.Orderly (.loadStep i ok)) :
    (s.loadCallStep i ok c).Inv := by
  rcases c with ⟨g, isLoad, stage⟩
  simp only [Orderly, orderly, hc] at hok
  unfold loadCallStep
  rcases stage with _ | stage
  · -- before the test
    simp only
    split
    · next hexist => exact h.returns i fun _ _ => Or.inl hexist
    · exact h.setStage i fun members hst => by cases hst
  · cases stage with
    | start =>
        simp only
        split
        · next hthrottled =>
          -- a suppressed reload is no load
          refine h.returns i fun hload _ => ?_
          obtain rfl : isLoad = true := hload
          simp [hthrottled] at hok
        · exact h.setStage i fun members hst => by cases hst
    | read =>
        simp only
        split
        · refine h.setStage i fun members hst => ?_
          cases hst
          rfl
        · exact h.returns i fun _ hr => absurd hr (by simp)
    | update members =>
        obtain rfl : members = s.db g :=
          h.loading _ (List.mem_of_getElem? hc) members rfl
        have hidle : (s.running g).any MemberHandler.underway = false := by
          cases isLoad <;> simpa using hok
        refine h.ofLoad (g := g) (h.wf.reloadUpdate g _) ?_ ?_ ?_ ?_ (loading_eraseIdx h i)
        · intro g' hg u
          rw [GroupMemberMgr.entry_reloadUpdate, if_neg hg]
        · intro g' hg
          show (if isLoad = true then Function.update s.loaded g true else s.loaded) g' =
            s.loaded g'
          split <;> simp [hg]
        · refine (h.group g).tracks.fresh fun u => ?_
          rw [GroupMemberMgr.entry_reloadUpdate, if_pos rfl]
          rfl
        · -- no handler relies on a test of the cache
          intro hd hrun
          have hinv := (h.group g).handler hd hrun
          rw [hrun, Option.any_some] at hidle
          cases hd with
          | member edit uid => trivial
          | reload edit uid stage => exact hinv
          | enterRead uid => cases hidle
          | enterUpdate uid user => cases hidle
          | update edit uid => cases hidle

/-! ## Runs -/

/-- A call begins, with nothing read yet. -/
theorem Inv.call (h : s.Inv) {c : LoadCall} (hc : ∀ members, c.stage ≠ some (.update members)) :
    ({ s with loads := s.loads ++ [c] } : MemberSync).Inv := by
  refine ⟨h.wf, fun g => (h.group g).congr rfl rfl rfl rfl rfl h.wf h.wf fun _ => rfl, ?_⟩
  intro c' hc' members hst
  rcases List.mem_append.mp hc' with hc' | hc'
  · exact h.loading c' hc' members hst
  · rw [List.mem_singleton.mp hc'] at hst
    exact absurd hst (hc members)

theorem inv_step (h : s.Inv) {l : SyncLabel} (hok : s.Orderly l) (hstep : s.step l = some s') :
    s'.Inv := by
  cases l with
  | tick seconds =>
      cases hstep
      exact ⟨h.wf, fun g => (h.group g).congr rfl rfl rfl rfl rfl h.wf h.wf fun _ => rfl,
        h.loading⟩
  | dbEnter g uid user =>
      cases hstep
      simp only [Orderly, orderly, Bool.and_eq_true, Bool.not_eq_true'] at hok
      refine h.change hok.1 (fun u hu => AList.lookup_insert_ne hu) ?_
      refine ⟨user.entry, by simp, ?_⟩
      -- the user is not unmuted by coming back
      intro x hx hmuted
      obtain ⟨row, hrow, rfl⟩ := Option.map_eq_some_iff.mp hx
      have hkeep := hok.2
      rw [hrow] at hkeep
      have hrowMuted : row.muted = true := hmuted
      simpa [hrowMuted, GroupUser.entry] using hkeep
  | dbLeave g uid =>
      simp only [step] at hstep
      split at hstep
      · next hmem =>
        cases hstep
        simp only [Orderly, orderly, Bool.not_eq_true'] at hok
        refine h.change hok (fun u hu => AList.lookup_erase_ne hu) ⟨?_, by simp⟩
        simpa [dbEntry] using AList.lookup_isSome.mpr hmem
      · cases hstep
  | dbMute g uid =>
      obtain ⟨members, hrw, rfl⟩ := Option.map_eq_some_iff.mp hstep
      simp only [Orderly, orderly, Bool.not_eq_true'] at hok
      exact h.rewrite hok hrw fun user => ⟨user.entry, rfl, rfl⟩
  | dbUnmute g uid =>
      obtain ⟨members, hrw, rfl⟩ := Option.map_eq_some_iff.mp hstep
      simp only [Orderly, orderly, Bool.not_eq_true'] at hok
      exact h.rewrite hok hrw fun user => ⟨user.entry, rfl, rfl⟩
  | dbRole g uid role =>
      obtain ⟨members, hrw, rfl⟩ := Option.map_eq_some_iff.mp hstep
      simp only [Orderly, orderly, Bool.and_eq_true, Bool.not_eq_true'] at hok
      refine h.rewriteRole hok.1 hrw fun row hrow => ?_
      have hside := hok.2
      rw [hrow] at hside
      simpa using hside
  | deliver i => exact inv_deliver h hok hstep
  | handle g ok =>
      simp only [step] at hstep
      split at hstep
      · next hd hrun =>
        cases hstep
        exact inv_handlerStep h hrun hok
      · next hrun =>
        split at hstep
        · cases hstep
        · next event rest hposted =>
          cases hstep
          simp only [Orderly, orderly, hrun, Bool.or_eq_true, Bool.not_eq_true'] at hok
          exact inv_begin h hrun hposted hok
  | load g =>
      cases hstep
      exact h.call fun _ hst => nomatch hst
  | reload g =>
      cases hstep
      exact h.call fun _ hst => nomatch hst
  | loadStep i ok =>
      obtain ⟨c, hc, rfl⟩ := Option.map_eq_some_iff.mp hstep
      exact inv_loadCallStep h hc hok

theorem inv_run {db : Gid → GroupUsers} {ls : List SyncLabel} {s : MemberSync}
    (hok : machine.Meets Orderly (initial db) ls) (hrun : machine.run (initial db) ls = some s) :
    s.Inv :=
  machine.run_invariant Inv (fun _ _ _ hinv hok hstep => inv_step hinv hok hstep)
    (inv_initial db) hok hrun

/-! ## The cache and the database -/

/-- Every event of the group has been handled. -/
def Settled (s : MemberSync) (g : Gid) : Prop :=
  (∀ ev ∈ s.inflight, ev.gid ≠ g) ∧ s.posted g = [] ∧ s.running g = none

/-- The three sets of the group are those of the database. -/
def Agrees (s : MemberSync) (g : Gid) : Prop :=
  ∀ uid,
    (s.mgr.groupMembers.Mem g uid ↔
      ∃ row, (s.db g).lookup uid = some row ∧ row.role ≠ .subscriber) ∧
    (s.mgr.groupSubscribers.Mem g uid ↔
      ∃ row, (s.db g).lookup uid = some row ∧ row.role = .subscriber) ∧
    (s.mgr.mutedMembers.Mem g uid ↔ ∃ row, (s.db g).lookup uid = some row ∧ row.muted = true)

end MemberSync

/-- The sets of a group are given by the entries of its users. -/
theorem GroupMemberMgr.Wf.mem_of_entry {s : GroupMemberMgr} (h : s.Wf) {g : Gid} {uid : Bytes}
    {row : Option GroupUser} (hentry : s.entry g uid = row.map GroupUser.entry) :
    (s.groupMembers.Mem g uid ↔ ∃ r, row = some r ∧ r.role ≠ .subscriber) ∧
    (s.groupSubscribers.Mem g uid ↔ ∃ r, row = some r ∧ r.role = .subscriber) ∧
    (s.mutedMembers.Mem g uid ↔ ∃ r, row = some r ∧ r.muted = true) := by
  have hmuted := h.muted g uid
  have hdisjoint := h.disjoint g uid
  unfold entry at hentry
  cases row with
  | none =>
      by_cases hm : s.groupMembers.Mem g uid <;> by_cases hs : s.groupSubscribers.Mem g uid <;>
        simp_all
  | some r =>
      by_cases hm : s.groupMembers.Mem g uid <;> by_cases hs : s.groupSubscribers.Mem g uid <;>
        simp_all [GroupUser.entry] <;> simp [← hentry.2]

namespace MemberSync

/-- Group 7 with one user. -/
def oneMember (uid : Bytes) : Gid → GroupUsers := fun g =>
  if g = 7 then AList.insert uid ⟨.owner, false⟩ ∅ else ∅

/-- What the two runs are judged by. -/
def summary (uids : List Bytes) (s : MemberSync) : Bool × Bool × List (Option Entry) :=
  (s.inflight.isEmpty && (s.posted 7).isEmpty && (s.running 7).isNone, s.loaded 7,
    uids.map (s.mgr.entry 7))

theorem settled_of_summary {uids : List Bytes} {s : MemberSync} {loaded : Bool}
    {entries : List (Option Entry)} (h : summary uids s = (true, loaded, entries)) :
    s.Settled 7 ∧ s.loaded 7 = loaded ∧ uids.map (s.mgr.entry 7) = entries := by
  simp only [summary, Prod.mk.injEq, Bool.and_eq_true, List.isEmpty_iff,
    Option.isNone_iff_eq_none] at h
  obtain ⟨⟨⟨hinflight, hposted⟩, hrunning⟩, hloaded, hentries⟩ := h
  exact ⟨⟨by simp [hinflight], hposted, hrunning⟩, hloaded, hentries⟩

/-- The group is loaded while it has one user; another joins, is muted, and the
first leaves. -/
def followed (first second : Bytes) : List SyncLabel :=
  [.load 7, .loadStep 0 true, .loadStep 0 true, .loadStep 0 true, .loadStep 0 true,
    .dbEnter 7 second ⟨.member, false⟩, .dbMute 7 second, .deliver 0, .deliver 0,
    .handle 7 true, .handle 7 true, .handle 7 true, .dbLeave 7 first, .deliver 0,
    .handle 7 true, .handle 7 true, .handle 7 true, .handle 7 true, .handle 7 true, .handle 7 true]

/-- A load whose read fails, and another a second later. -/
def suppressed : List SyncLabel :=
  [.load 7, .loadStep 0 true, .loadStep 0 true, .loadStep 0 false, .tick 1,
    .load 7, .loadStep 0 true, .loadStep 0 true]

end MemberSync

end BcmServer.Offline
