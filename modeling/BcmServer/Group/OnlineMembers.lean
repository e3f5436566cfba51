import BcmServer.Dispatcher.Address
import BcmServer.Lts.Run
import Mathlib.Logic.Function.Basic

/-!
# BcmServer.Group.OnlineMembers — the manager of online group members

`OnlineMsgMemberMgr` keeps, for every group, the devices of its members that are
connected to this server. Four handlers maintain it: a device comes online or
goes offline, a user enters or leaves a group. The status handlers of a user run
one after the other on the user's io context, the membership handlers of a group
on the group's; handlers on different contexts interleave. Each handler marks or
looks up who is online under one mutex, reads the database, and changes the
index under another mutex.

The machine here runs the handlers together with the status reports, the
database changes and the notifications of them. `Orderly` is the condition under
which the index can be relied on: the notifications of a user and group come in
the order of the database changes, the reads succeed, and four crossings of a
status handler with a membership handler of the same user do not happen.
-/

namespace BcmServer.Group

open BcmServer.Util BcmServer.Lts BcmServer.Dispatcher

abbrev Gid := UInt64

/-- `GroupUser::Role`, with the roles of `GroupRole` -/
inductive Role where
  | undefine
  | owner
  | administror
  | member
  | subscriber
deriving DecidableEq, Repr

/-- The number of a role, as in `GroupRole`. -/
def Role.number : Role → ℕ
  | undefine => 0
  | owner => 1
  | administror => 2
  | member => 3
  | subscriber => 4

/-- The test of the handlers: above `ROLE_UNDEFINE` and below
`ROLE_SUBSCRIBER`. -/
def Role.counts (r : Role) : Bool :=
  Role.undefine.number < r.number && r.number < Role.subscriber.number

/-- The rows of a user in the group-user table, at most one for each group. -/
structure MemberRows where
  rows : List (Gid × Role)
  nodup : (rows.map Prod.fst).Nodup
deriving DecidableEq

namespace MemberRows

/-- `GroupUsers::getMember`: the role in a group. -/
def role? (m : MemberRows) (g : Gid) : Option Role := m.rows.lookup g

/-- `GroupUsers::getJoinedGroups` -/
def gids (m : MemberRows) : List Gid := m.rows.map Prod.fst

/-- The role in a group passes the test of the handlers. -/
def counts (m : MemberRows) (g : Gid) : Bool := (m.role? g).any Role.counts

/-- `GroupUsers::insert`; the group is part of the key. -/
def insert (m : MemberRows) (g : Gid) (r : Role) : Option MemberRows :=
  if h : g ∈ m.rows.map Prod.fst then none
  else some ⟨(g, r) :: m.rows, List.nodup_cons.mpr ⟨h, m.nodup⟩⟩

/-- `GroupUsers::delMember` -/
def delMember (m : MemberRows) (g : Gid) : MemberRows :=
  ⟨m.rows.filter fun e => e.1 ≠ g,
    m.nodup.sublist ((List.filter_sublist).map Prod.fst)⟩

variable (m : MemberRows) (g g' : Gid)

theorem counts_iff : m.counts g = true ↔ (m.role? g).map Role.counts = some true := by
  simp [counts, Option.any_eq_true, Option.map_eq_some_iff]

theorem isSome_role? : (m.role? g).isSome = true ↔ g ∈ m.gids := by
  simp [role?, gids, List.lookup_isSome_iff]

theorem role?_eq_some {r : Role} : m.role? g = some r ↔ (g, r) ∈ m.rows := by
  rcases m with ⟨rows, hnodup⟩
  show rows.lookup g = some r ↔ (g, r) ∈ rows
  induction rows with
  | nil => simp
  | cons d rows ih =>
      rw [List.map_cons, List.nodup_cons] at hnodup
      have hfresh : ∀ r, (d.1, r) ∉ rows :=
        fun r hr => hnodup.1 (List.mem_map.mpr ⟨_, hr, rfl⟩)
      grind -ring -linarith -lia

theorem role?_delMember : (m.delMember g).role? g' = if g' = g then none else m.role? g' := by
  rcases m with ⟨rows, hnodup⟩
  show (rows.filter fun e => e.1 ≠ g).lookup g' = if g' = g then none else rows.lookup g'
  clear hnodup
  induction rows with
  | nil => simp
  | cons d rows ih => grind -ring -linarith -lia

theorem role?_insert {r : Role} {m' : MemberRows} (h : m.insert g r = some m') :
    m.role? g = none ∧ m'.role? g' = if g' = g then some r else m.role? g' := by
  unfold insert at h
  split at h
  · cases h
  · next hnot =>
    cases h
    constructor
    · rw [← Option.not_isSome_iff_eq_none, isSome_role?]
      exact hnot
    · unfold role?
      grind -ring -linarith -lia

end MemberRows

/-- `IoCtxPool`, with the hash of the uid it uses. -/
structure IoCtxPool where
  size : ℕ
  pos : 0 < size
  hash : Bytes → ℕ

namespace IoCtxPool

def getIoCtxByGid (pool : IoCtxPool) (g : Gid) : ℕ := g.toNat % pool.size

def getIoCtxByUid (pool : IoCtxPool) (uid : Bytes) : ℕ := pool.hash uid % pool.size

end IoCtxPool

/-- `UserSet` -/
abbrev UserSet := List DispatchAddress

/-- A handler of `OnlineMsgMemberMgr`, by what it does next, with its local
variables: the four handlers, the database read, the change of the index, and
the subscriptions that follow from it. -/
inductive Handler where
  | online (a : DispatchAddress)
  | onlineRead (a : DispatchAddress)
  | onlineUpdate (a : DispatchAddress) (details : MemberRows)
  | onlineSub (a : DispatchAddress) (subscribeChans : List Gid)
  | offline (a : DispatchAddress)
  | offlineRead (a : DispatchAddress)
  | offlineUpdate (a : DispatchAddress) (userGids : List Gid)
  | offlineCheck (a : DispatchAddress) (userGids unsubscribeChans : List Gid)
  | offlineUnsub (a : DispatchAddress) (unsubscribeChans : List Gid)
  | enter (uid : Bytes) (g : Gid)
  | enterRead (uid : Bytes) (g : Gid) (onlineUsers : UserSet)
  | enterUpdate (uid : Bytes) (g : Gid) (onlineUsers : UserSet) (role : Role)
  | enterSub (uid : Bytes) (g : Gid)
  | leave (uid : Bytes) (g : Gid)
  | leaveUpdate (uid : Bytes) (g : Gid) (onlineUsers : UserSet)
  | leaveCheck (uid : Bytes) (g : Gid)
  | leaveUnsub (uid : Bytes) (g : Gid)
deriving DecidableEq

/-- The context a handler is posted to. -/
def Handler.ctx (pool : IoCtxPool) : Handler → ℕ
  | online a | onlineRead a | onlineUpdate a _ | onlineSub a _ | offline a | offlineRead a
  | offlineUpdate a _ | offlineCheck a _ _ | offlineUnsub a _ => pool.getIoCtxByUid a.uid
  | enter _ g | enterRead _ g _ | enterUpdate _ g _ _ | enterSub _ g | leave _ g
  | leaveUpdate _ g _ | leaveCheck _ g | leaveUnsub _ g => pool.getIoCtxByGid g

/-- A change of the group-user table, as it is notified through redis. -/
inductive GroupEvent where
  | enter (uid : Bytes) (g : Gid)
  | leave (uid : Bytes) (g : Gid)
deriving DecidableEq, Repr

/-- `GroupEventSub::handleEvent` -/
def GroupEvent.handler : GroupEvent → Handler
  | enter uid g => .enter uid g
  | leave uid g => .leave uid g

def GroupEvent.key : GroupEvent → Bytes × Gid
  | enter uid g | leave uid g => (uid, g)

/-- The manager, the database, and what is on its way. -/
structure MemberMgr where
  /-- `m_onlineUsers` -/
  onlineUsers : Bytes → UserSet
  /-- `m_groupMembers`; a group without devices has no entry -/
  groupMembers : Gid → UserSet
  /-- group channels subscribed through `GroupMsgSub` -/
  subscribed : Gid → Bool
  db : Bytes → MemberRows
  /-- the status last reported for a device -/
  status : DispatchAddress → Bool
  /-- the io contexts: the handler that runs, and those posted behind it -/
  ctxs : ℕ → List Handler
  /-- notifications that have not arrived -/
  inflight : List GroupEvent

namespace MemberMgr

/-- Nobody is online. -/
def initial (db : Bytes → MemberRows) : MemberMgr where
  onlineUsers := fun _ => []
  groupMembers := fun _ => []
  subscribed := fun _ => false
  db := db
  status := fun _ => false
  ctxs := fun _ => []
  inflight := []

/-- `io_context::post` -/
def post (s : MemberMgr) (c : ℕ) (h : Handler) : MemberMgr :=
  { s with ctxs := Function.update s.ctxs c (s.ctxs c ++ [h]) }

theorem post_ctxs (s : MemberMgr) (c : ℕ) (h : Handler) :
    (s.post c h).ctxs = Function.update s.ctxs c (s.ctxs c ++ [h]) := rfl

/-! ## The index -/

/-- `m_groupMembers[g].insert(a)` -/
def insertMember (s : MemberMgr) (g : Gid) (a : DispatchAddress) : MemberMgr :=
  { s with groupMembers := Function.update s.groupMembers g ((s.groupMembers g).insert a) }

/-- `MemberMgrBase::removeGroupMemberNoLock` -/
def removeGroupMemberNoLock (s : MemberMgr) (a : DispatchAddress) (g : Gid) : MemberMgr :=
  { s with groupMembers := Function.update s.groupMembers g ((s.groupMembers g).filter (· ≠ a)) }

/-- `MemberMgrBase::removeGroupMembers` -/
def removeGroupMembers (s : MemberMgr) (users : UserSet) (g : Gid) : MemberMgr :=
  users.foldl (fun s a => s.removeGroupMemberNoLock a g) s

/-- `MemberMgrBase::removeMemberForGroups` -/
def removeMemberForGroups (s : MemberMgr) (a : DispatchAddress) (gids : List Gid) : MemberMgr :=
  gids.foldl (fun s g => s.removeGroupMemberNoLock a g) s

/-- `MemberMgrBase::isGroupExist` -/
def isGroupExist (s : MemberMgr) (g : Gid) : Bool := s.groupMembers g ≠ []

/-- The loop of `doHandleUserOnline` over the user's groups: the index, and the
channels to subscribe. -/
def loadGroups (s : MemberMgr) (a : DispatchAddress) :
    List (Gid × Role) → List Gid → MemberMgr × List Gid
  | [], subscribeChans => (s, subscribeChans)
  | (g, r) :: details, subscribeChans =>
      let subscribeChans' := if s.isGroupExist g then subscribeChans else subscribeChans ++ [g]
      let s' := if r.counts then s.insertMember g a else s
      s'.loadGroups a details subscribeChans'

/-! ## The handlers -/

/-- The next atomic step of a handler. `found` tells whether a database read
succeeds. -/
def next (s : MemberMgr) (found : Bool) : Handler → MemberMgr × Option Handler
  | .online a =>
      if a ∈ s.onlineUsers a.uid then (s, none)
      else ({ s with onlineUsers :=
        Function.update s.onlineUsers a.uid (a :: s.onlineUsers a.uid) }, some (.onlineRead a))
  | .onlineRead a => (s, if found then some (.onlineUpdate a (s.db a.uid)) else none)
  | .onlineUpdate a details =>
      match s.loadGroups a details.rows [] with
      | (s', []) => (s', none)
      | (s', subscribeChans) => (s', some (.onlineSub a subscribeChans))
  | .onlineSub a (g :: gids) =>
      ({ s with subscribed := Function.update s.subscribed g true }, some (.onlineSub a gids))
  | .onlineSub _ [] => (s, none)
  | .offline a =>
      ({ s with onlineUsers :=
        Function.update s.onlineUsers a.uid ((s.onlineUsers a.uid).filter (· ≠ a)) },
        some (.offlineRead a))
  | .offlineRead a => (s, if found then some (.offlineUpdate a (s.db a.uid).gids) else none)
  | .offlineUpdate a userGids =>
      (s.removeMemberForGroups a userGids, some (.offlineCheck a userGids []))
  | .offlineCheck a (g :: gids) unsubscribeChans =>
      (s, some (.offlineCheck a gids
        (if s.isGroupExist g then unsubscribeChans else unsubscribeChans ++ [g])))
  | .offlineCheck _ [] [] => (s, none)
  | .offlineCheck a [] unsubscribeChans => (s, some (.offlineUnsub a unsubscribeChans))
  | .offlineUnsub a (g :: gids) =>
      ({ s with subscribed := Function.update s.subscribed g false }, some (.offlineUnsub a gids))
  | .offlineUnsub _ [] => (s, none)
  | .enter uid g =>
      match s.onlineUsers uid with
      | [] => (s, none)
      | users => (s, some (.enterRead uid g users))
  | .enterRead uid g users =>
      match (s.db uid).role? g with
      | none => (s, none)
      | some role => (s, if found then some (.enterUpdate uid g users role) else none)
  | .enterUpdate uid g users role =>
      if role.counts then
        (users.foldl (fun s a => s.insertMember g a) s,
          if s.isGroupExist g then none else some (.enterSub uid g))
      else (s, none)
  | .enterSub _ g => ({ s with subscribed := Function.update s.subscribed g true }, none)
  | .leave uid g =>
      match s.onlineUsers uid with
      | [] => (s, none)
      | users => (s, some (.leaveUpdate uid g users))
  | .leaveUpdate uid g users => (s.removeGroupMembers users g, some (.leaveCheck uid g))
  | .leaveCheck uid g => (s, if s.isGroupExist g then none else some (.leaveUnsub uid g))
  | .leaveUnsub _ g => ({ s with subscribed := Function.update s.subscribed g false }, none)

/-- Status reports, database changes, arriving notifications, and the contexts. -/
inductive MemberEvent where
  | userOnline (a : DispatchAddress)
  | userOffline (a : DispatchAddress)
  | dbEnter (uid : Bytes) (g : Gid) (role : Role)
  | dbLeave (uid : Bytes) (g : Gid)
  | deliver (i : ℕ)
  | run (c : ℕ) (found : Bool)
deriving DecidableEq, Repr

def step (pool : IoCtxPool) (s : MemberMgr) : MemberEvent → Option MemberMgr
  | .userOnline a =>
      some (post { s with status := Function.update s.status a true }
        (pool.getIoCtxByUid a.uid) (.online a))
  | .userOffline a =>
      some (post { s with status := Function.update s.status a false }
        (pool.getIoCtxByUid a.uid) (.offline a))
  | .dbEnter uid g role =>
      ((s.db uid).insert g role).map fun rows =>
        { s with db := Function.update s.db uid rows, inflight := s.inflight ++ [.enter uid g] }
  | .dbLeave uid g =>
      if g ∈ (s.db uid).gids then
        some { s with
          db := Function.update s.db uid ((s.db uid).delMember g)
          inflight := s.inflight ++ [.leave uid g] }
      else none
  | .deliver i =>
      match s.inflight[i]? with
      | none => none
      | some ev =>
          some (post { s with inflight := s.inflight.eraseIdx i } (pool.getIoCtxByGid ev.key.2)
            ev.handler)
  | .run c found =>
      match s.ctxs c with
      | [] => none
      | h :: rest =>
          let r := s.next found h
          some { r.1 with ctxs := Function.update s.ctxs c (r.2.toList ++ rest) }

def machine (pool : IoCtxPool) : Machine MemberMgr MemberEvent := ⟨step pool⟩

/-! ## The condition -/

/-- The handlers of all contexts. -/
def handlers (pool : IoCtxPool) (s : MemberMgr) : List Handler :=
  (List.range pool.size).flatMap s.ctxs

/-- An enter that found the device online is about to put it into the index. -/
def entering (pool : IoCtxPool) (s : MemberMgr) (a : DispatchAddress) (g : Gid) : Bool :=
  (s.handlers pool).any fun h => match h with
    | .enterRead _ g' users => g' = g ∧ a ∈ users
    | .enterUpdate _ g' users role => g' = g ∧ a ∈ users ∧ role.counts
    | _ => false

/-- The device is in the index, or about to be. -/
def entered (pool : IoCtxPool) (s : MemberMgr) (a : DispatchAddress) (g : Gid) : Bool :=
  a ∈ s.groupMembers g || s.entering pool a g

/-- The groups with a leave of the user that has still to look who is online. -/
def pendingLeaves (pool : IoCtxPool) (s : MemberMgr) (uid : Bytes) : List Gid :=
  (s.handlers pool ++ s.inflight.map GroupEvent.handler).filterMap fun h => match h with
    | .leave u g => if u = uid then some g else none
    | _ => none

/-- The condition on the next step of a handler. -/
def orderlyHandler (pool : IoCtxPool) (s : MemberMgr) (found : Bool) : Handler → Bool
  | .onlineRead _ | .offlineRead _ | .enterRead _ _ _ => found
  -- an offline begins only while no leave from a group the device is entered in
  -- has still to look who is online
  | .offline a => (s.pendingLeaves pool a.uid).all fun g => !s.entered pool a g
  -- it removes the device only while no enter is about to enter it
  | .offlineUpdate a _ => (s.handlers pool).all fun h => match h with
      | .enterRead _ _ users => a ∉ users
      | .enterUpdate _ _ users role => a ∉ users || !role.counts
      | _ => true
  -- a leave removes devices only while no online of the user is about to enter
  -- one from an outdated row that no other leave will answer for
  | .leaveUpdate uid g _ => (s.handlers pool).all fun h => match h with
      | .onlineUpdate a details => a.uid ≠ uid || !details.counts g ||
          (s.db uid).counts g || g ∈ s.pendingLeaves pool uid
      | _ => true
  | _ => true

/-- The condition on steps. -/
def orderly (pool : IoCtxPool) (s : MemberMgr) : MemberEvent → Bool
  | .userOnline _ | .userOffline _ | .dbEnter _ _ _ => true
  -- a row is deleted only while no offline of a device that is entered is about
  -- to read
  | .dbLeave uid g => (s.handlers pool).all fun h => match h with
      | .offlineRead a => a.uid ≠ uid || !s.entered pool a g
      | _ => true
  -- the notifications of a user and group arrive in order
  | .deliver i => match s.inflight[i]? with
      | none => true
      | some ev => (s.inflight.take i).all fun ev' => ev'.key ≠ ev.key
  | .run c found => match s.ctxs c with
      | [] => true
      | h :: _ => s.orderlyHandler pool found h

def Orderly (pool : IoCtxPool) (s : MemberMgr) (e : MemberEvent) : Prop := s.orderly pool e = true

instance (pool : IoCtxPool) (s : MemberMgr) (e : MemberEvent) : Decidable (Orderly pool s e) :=
  inferInstanceAs (Decidable (s.orderly pool e = true))

end MemberMgr

end BcmServer.Group
