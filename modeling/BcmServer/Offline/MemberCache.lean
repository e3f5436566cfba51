import BcmServer.Group.OnlineMembers
import BcmServer.Util.SetMap
import BcmServer.Util.Table

/-!
# BcmServer.Offline.MemberCache — the member cache of the offline server

`GroupMemberMgr` caches three sets for a group: its members, its subscribers and
who of them is muted. Four handlers follow the group events, and a reload
replaces the sets by the rows of the database. A reload is not made when the
last one is less than `DB_RELOAD_GROUPUSER_INTERVAL` old.

* `GroupMemberMgr.Wf` is the representation invariant: nobody is both a member
  and a subscriber, only one of them is muted, and no set is stored empty.
* `cache_wf`: it holds after every sequence of the operations, whatever rows the
  database gives at each read; so the unmuted members and the unmuted
  subscribers of a group have nobody in common.

The handlers are put together from the parts between which other threads can
run; here they run as a whole.
-/

namespace BcmServer.Offline

open BcmServer.Util
open BcmServer.Group (Gid Role)

/-- What the manager reads of a row: the role, and the muted bit of the status. -/
structure GroupUser where
  role : Role
  muted : Bool
deriving DecidableEq, Repr

/-- The rows of a group, at most one for each user. -/
abbrev GroupUsers := Table Bytes GroupUser

/-- `UidSet` -/
abbrev UidSet := Finset Bytes

structure GroupMemberMgr where
  /-- `m_groupMembers` -/
  groupMembers : SetMap Gid Bytes
  /-- `m_groupSubscribers` -/
  groupSubscribers : SetMap Gid Bytes
  /-- `m_mutedMembers` -/
  mutedMembers : SetMap Gid Bytes
  /-- `m_reloadTimes` -/
  reloadTimes : Gid → Option ℤ

/-- `DB_RELOAD_GROUPUSER_INTERVAL`, in seconds -/
def dbReloadGroupuserInterval : ℤ := 10

namespace GroupMemberMgr

def initial : GroupMemberMgr where
  groupMembers := .empty
  groupSubscribers := .empty
  mutedMembers := .empty
  reloadTimes := fun _ => none

/-! ## The parts of the handlers -/

/-- `OfflineMemberMgrBase::isGroupExist` -/
def isGroupExist (s : GroupMemberMgr) (g : Gid) : Bool :=
  s.groupMembers.has g || s.groupSubscribers.has g

def isMemberExists (s : GroupMemberMgr) (uid : Bytes) (g : Gid) : Bool :=
  decide (s.groupMembers.Mem g uid) || decide (s.groupSubscribers.Mem g uid)

/-- What `doHandleUserEnterGroup` does with the row it has read. -/
def enterUpdate (s : GroupMemberMgr) (uid : Bytes) (g : Gid) (user : GroupUser) :
    GroupMemberMgr :=
  let s' :=
    if user.role = .subscriber then
      { s with
        groupSubscribers := s.groupSubscribers.insert g uid
        groupMembers := s.groupMembers.remove g uid }
    else
      { s with
        groupMembers := s.groupMembers.insert g uid
        groupSubscribers := s.groupSubscribers.remove g uid }
  if user.muted then { s' with mutedMembers := s'.mutedMembers.insert g uid } else s'

/-- What `doHandleUserLeaveGroup` does with a cached user. -/
def leaveUpdate (s : GroupMemberMgr) (uid : Bytes) (g : Gid) : GroupMemberMgr :=
  { s with
    groupMembers := s.groupMembers.remove g uid
    groupSubscribers := s.groupSubscribers.remove g uid
    mutedMembers := s.mutedMembers.remove g uid }

/-- What `doHandleUserMuteGroup` does with a cached user. -/
def muteUpdate (s : GroupMemberMgr) (uid : Bytes) (g : Gid) : GroupMemberMgr :=
  { s with mutedMembers := s.mutedMembers.insert g uid }

/-- `GroupMemberMgr::removeMutedMember` -/
def removeMutedMember (s : GroupMemberMgr) (uid : Bytes) (g : Gid) : GroupMemberMgr :=
  { s with mutedMembers := s.mutedMembers.remove g uid }

/-- The reload would come too soon after the last one. -/
def reloadThrottled (s : GroupMemberMgr) (g : Gid) (now : ℤ) : Bool :=
  (s.reloadTimes g).any fun t => now - t < dbReloadGroupuserInterval

def reloadMark (s : GroupMemberMgr) (g : Gid) (now : ℤ) : GroupMemberMgr :=
  { s with reloadTimes := Function.update s.reloadTimes g (some now) }

/-- The body of the loop over the rows. -/
def insertRow (s : GroupMemberMgr) (g : Gid) (uid : Bytes) (user : GroupUser) : GroupMemberMgr :=
  let s' := if user.muted then { s with mutedMembers := s.mutedMembers.insert g uid } else s
  if user.role = .subscriber then
    { s' with groupSubscribers := s'.groupSubscribers.insert g uid }
  else
    { s' with groupMembers := s'.groupMembers.insert g uid }

def insertRows (s : GroupMemberMgr) (g : Gid) (rows : List ((_ : Bytes) × GroupUser)) :
    GroupMemberMgr :=
  rows.foldl (fun s e => s.insertRow g e.1 e.2) s

/-- What a reload does with the rows it has read. -/
def reloadUpdate (s : GroupMemberMgr) (g : Gid) (members : GroupUsers) : GroupMemberMgr :=
  insertRows
    { s with
      groupMembers := s.groupMembers.erase g
      groupSubscribers := s.groupSubscribers.erase g
      mutedMembers := s.mutedMembers.erase g }
    g members.entries

/-! ## The operations -/

/-- `GroupMemberMgr::syncReloadGroupMembersFromDb`. `members` is what the
database gives, if the read succeeds. -/
def syncReloadGroupMembersFromDb (s : GroupMemberMgr) (g : Gid) (now : ℤ)
    (members : Option GroupUsers) : GroupMemberMgr × Bool :=
  if s.reloadThrottled g now then (s, true)
  else
    match members with
    | none => (s.reloadMark g now, false)
    | some members => ((s.reloadMark g now).reloadUpdate g members, true)

/-- `GroupMemberMgr::loadGroupMembersFromDb` -/
def loadGroupMembersFromDb (s : GroupMemberMgr) (g : Gid) (now : ℤ)
    (members : Option GroupUsers) : GroupMemberMgr × Bool :=
  if s.isGroupExist g then (s, true) else s.syncReloadGroupMembersFromDb g now members

/-- `GroupMemberMgr::doHandleUserEnterGroup`; `user` is the row `getMember`
gives, if there is one and the read succeeds. -/
def doHandleUserEnterGroup (s : GroupMemberMgr) (uid : Bytes) (g : Gid)
    (user : Option GroupUser) : GroupMemberMgr :=
  if s.isGroupExist g then
    match user with
    | none => s
    | some user => s.enterUpdate uid g user
  else s

/-- The handlers of the other events: a user who is not cached makes them reload
the group. -/
def handleCached (update : GroupMemberMgr → Bytes → Gid → GroupMemberMgr) (s : GroupMemberMgr)
    (uid : Bytes) (g : Gid) (now : ℤ) (members : Option GroupUsers) : GroupMemberMgr :=
  if s.isGroupExist g then
    if s.isMemberExists uid g then update s uid g
    else (s.syncReloadGroupMembersFromDb g now members).1
  else s

def doHandleUserLeaveGroup := handleCached leaveUpdate

def doHandleUserMuteGroup := handleCached muteUpdate

def doHandleUserUnmuteGroup := handleCached removeMutedMember

/-- The users of a set of the group who are not muted. -/
def unmuted (s : GroupMemberMgr) (m : SetMap Gid Bytes) (g : Gid) : UidSet :=
  ((m g).getD ∅).filter fun uid => ¬ s.mutedMembers.Mem g uid

def getUnmuteGroupMembers (s : GroupMemberMgr) (g : Gid) : UidSet := s.unmuted s.groupMembers g

def getUnmuteGroupSubscribers (s : GroupMemberMgr) (g : Gid) : UidSet :=
  s.unmuted s.groupSubscribers g

/-! ## What the parts do to the three sets -/

section Sets

variable (s : GroupMemberMgr) {g g' : Gid} {uid u : Bytes} {user : GroupUser}

theorem isMemberExists_iff : s.isMemberExists u g = true ↔
    s.groupMembers.Mem g u ∨ s.groupSubscribers.Mem g u := by
  simp [isMemberExists]

theorem mem_unmuted {m : SetMap Gid Bytes} :
    u ∈ s.unmuted m g ↔ m.Mem g u ∧ ¬ s.mutedMembers.Mem g u := by
  unfold unmuted
  cases h : m g <;> simp [SetMap.Mem, h]

theorem mem_enterUpdate_members : (s.enterUpdate uid g user).groupMembers.Mem g' u ↔
    if g' = g ∧ u = uid then user.role ≠ .subscriber else s.groupMembers.Mem g' u := by
  unfold enterUpdate
  by_cases hr : user.role = .subscriber <;> cases user.muted <;>
    by_cases hk : g' = g ∧ u = uid <;> simp [hr, hk]

theorem mem_enterUpdate_subscribers : (s.enterUpdate uid g user).groupSubscribers.Mem g' u ↔
    if g' = g ∧ u = uid then user.role = .subscriber else s.groupSubscribers.Mem g' u := by
  unfold enterUpdate
  by_cases hr : user.role = .subscriber <;> cases user.muted <;>
    by_cases hk : g' = g ∧ u = uid <;> simp [hr, hk]

theorem mem_enterUpdate_muted : (s.enterUpdate uid g user).mutedMembers.Mem g' u ↔
    (g' = g ∧ u = uid ∧ user.muted = true) ∨ s.mutedMembers.Mem g' u := by
  unfold enterUpdate
  by_cases hr : user.role = .subscriber <;> cases hm : user.muted <;> simp [hr]

theorem insertRows_cons (e : (_ : Bytes) × GroupUser) (l : List ((_ : Bytes) × GroupUser)) :
    s.insertRows g (e :: l) = (s.insertRow g e.1 e.2).insertRows g l := rfl

theorem mem_insertRow_members : (s.insertRow g uid user).groupMembers.Mem g' u ↔
    s.groupMembers.Mem g' u ∨ (g' = g ∧ u = uid ∧ user.role ≠ .subscriber) := by
  unfold insertRow
  by_cases hr : user.role = .subscriber <;> cases user.muted <;> simp [hr, or_comm]

theorem mem_insertRow_subscribers : (s.insertRow g uid user).groupSubscribers.Mem g' u ↔
    s.groupSubscribers.Mem g' u ∨ (g' = g ∧ u = uid ∧ user.role = .subscriber) := by
  unfold insertRow
  by_cases hr : user.role = .subscriber <;> cases user.muted <;> simp [hr, or_comm]

theorem mem_insertRow_muted : (s.insertRow g uid user).mutedMembers.Mem g' u ↔
    s.mutedMembers.Mem g' u ∨ (g' = g ∧ u = uid ∧ user.muted = true) := by
  unfold insertRow
  by_cases hr : user.role = .subscriber <;> cases hm : user.muted <;> simp [hr, or_comm]

/-- What the loop puts into one of the sets, if each row that satisfies `p` puts
its user there. -/
theorem mem_insertRows {f : GroupMemberMgr → SetMap Gid Bytes} {p : GroupUser → Prop}
    (hrow : ∀ (s : GroupMemberMgr) (uid : Bytes) (user : GroupUser),
      (f (s.insertRow g uid user)).Mem g' u ↔ (f s).Mem g' u ∨ (g' = g ∧ u = uid ∧ p user))
    (l : List ((_ : Bytes) × GroupUser)) :
    (f (s.insertRows g l)).Mem g' u ↔
      (f s).Mem g' u ∨ (g' = g ∧ ∃ row, ⟨u, row⟩ ∈ l ∧ p row) := by
  induction l generalizing s with
  | nil => simp [insertRows]
  | cons e l ih =>
      obtain ⟨uid, row⟩ := e
      rw [insertRows_cons, ih, hrow, or_assoc, ← and_or_left]
      have hiff : (u = uid ∧ p row ∨ ∃ row', (⟨u, row'⟩ : (_ : Bytes) × GroupUser) ∈ l ∧ p row') ↔
          ∃ row', (⟨u, row'⟩ : (_ : Bytes) × GroupUser) ∈ (⟨uid, row⟩ :: l) ∧ p row' := by
        constructor
        · rintro (⟨rfl, hp⟩ | ⟨row', hmem, hp⟩)
          · exact ⟨row, List.mem_cons_self, hp⟩
          · exact ⟨row', List.mem_cons_of_mem _ hmem, hp⟩
        · rintro ⟨row', hmem, hp⟩
          rcases List.mem_cons.mp hmem with heq | hmem
          · cases heq
            exact Or.inl ⟨rfl, hp⟩
          · exact Or.inr ⟨row', hmem, hp⟩
      rw [hiff]

variable {members : GroupUsers}

theorem mem_reloadUpdate_members : (s.reloadUpdate g members).groupMembers.Mem g' u ↔
    if g' = g then ∃ row, members.lookup u = some row ∧ row.role ≠ .subscriber
    else s.groupMembers.Mem g' u := by
  unfold reloadUpdate
  rw [mem_insertRows (f := groupMembers) _ fun s uid user => s.mem_insertRow_members]
  by_cases hg : g' = g <;> simp [hg, ← AList.mem_lookup_iff]

theorem mem_reloadUpdate_subscribers : (s.reloadUpdate g members).groupSubscribers.Mem g' u ↔
    if g' = g then ∃ row, members.lookup u = some row ∧ row.role = .subscriber
    else s.groupSubscribers.Mem g' u := by
  unfold reloadUpdate
  rw [mem_insertRows (f := groupSubscribers) _ fun s uid user => s.mem_insertRow_subscribers]
  by_cases hg : g' = g <;> simp [hg, ← AList.mem_lookup_iff]

theorem mem_reloadUpdate_muted : (s.reloadUpdate g members).mutedMembers.Mem g' u ↔
    if g' = g then ∃ row, members.lookup u = some row ∧ row.muted = true
    else s.mutedMembers.Mem g' u := by
  unfold reloadUpdate
  rw [mem_insertRows (f := mutedMembers) _ fun s uid user => s.mem_insertRow_muted]
  by_cases hg : g' = g <;> simp [hg, ← AList.mem_lookup_iff]

end Sets

/-! ## The representation invariant -/

structure Wf (s : GroupMemberMgr) : Prop where
  disjoint : ∀ g uid, s.groupMembers.Mem g uid → ¬ s.groupSubscribers.Mem g uid
  muted : ∀ g uid, s.mutedMembers.Mem g uid →
    s.groupMembers.Mem g uid ∨ s.groupSubscribers.Mem g uid
  members : s.groupMembers.Compact
  subscribers : s.groupSubscribers.Compact
  compactMuted : s.mutedMembers.Compact

theorem wf_initial : initial.Wf where
  disjoint _ _ h := absurd h SetMap.not_mem_empty
  muted _ _ h := absurd h SetMap.not_mem_empty
  members := SetMap.compact_empty
  subscribers := SetMap.compact_empty
  compactMuted := SetMap.compact_empty

variable {s : GroupMemberMgr}

/-- An entering user moves into one of the two sets and out of the other. -/
theorem Wf.enterUpdate (h : s.Wf) (uid : Bytes) (g : Gid) (user : GroupUser) :
    (s.enterUpdate uid g user).Wf where
  disjoint g' u := by
    rw [mem_enterUpdate_members, mem_enterUpdate_subscribers]
    split
    · exact id
    · exact h.disjoint g' u
  muted g' u := by
    rw [mem_enterUpdate_members, mem_enterUpdate_subscribers, mem_enterUpdate_muted]
    split
    · intro _
      exact ne_or_eq _ _
    · next hne =>
      rintro (⟨hg, hu, -⟩ | hm)
      · exact absurd ⟨hg, hu⟩ hne
      · exact h.muted g' u hm
  members := by
    unfold GroupMemberMgr.enterUpdate
    have hi := h.members.insert (k := g) (a := uid)
    have hr := h.members.remove (k := g) (a := uid)
    split <;> split <;> assumption
  subscribers := by
    unfold GroupMemberMgr.enterUpdate
    have hi := h.subscribers.insert (k := g) (a := uid)
    have hr := h.subscribers.remove (k := g) (a := uid)
    split <;> split <;> assumption
  compactMuted := by
    unfold GroupMemberMgr.enterUpdate
    have hi := h.compactMuted.insert (k := g) (a := uid)
    have hn := h.compactMuted
    split <;> split <;> assumption

/-- A user who leaves is removed from all three sets. -/
theorem Wf.leaveUpdate (h : s.Wf) (uid : Bytes) (g : Gid) : (s.leaveUpdate uid g).Wf where
  disjoint g' u := by
    simp only [GroupMemberMgr.leaveUpdate, SetMap.mem_remove]
    rintro ⟨hm, -⟩ ⟨hs, -⟩
    exact h.disjoint g' u hm hs
  muted g' u := by
    simp only [GroupMemberMgr.leaveUpdate, SetMap.mem_remove]
    rintro ⟨hm, hne⟩
    rcases h.muted g' u hm with hm | hs
    · exact Or.inl ⟨hm, hne⟩
    · exact Or.inr ⟨hs, hne⟩
  members := h.members.remove
  subscribers := h.subscribers.remove
  compactMuted := h.compactMuted.remove

/-- Only a cached user is muted. -/
theorem Wf.muteUpdate (h : s.Wf) {uid : Bytes} {g : Gid} (hex : s.isMemberExists uid g = true) :
    (s.muteUpdate uid g).Wf where
  disjoint := h.disjoint
  muted g' u := by
    simp only [GroupMemberMgr.muteUpdate, SetMap.mem_insert]
    rintro (⟨rfl, rfl⟩ | hm)
    · exact s.isMemberExists_iff.mp hex
    · exact h.muted g' u hm
  members := h.members
  subscribers := h.subscribers
  compactMuted := h.compactMuted.insert

theorem Wf.removeMutedMember (h : s.Wf) (uid : Bytes) (g : Gid) :
    (s.removeMutedMember uid g).Wf where
  disjoint := h.disjoint
  muted g' u := by
    simp only [GroupMemberMgr.removeMutedMember, SetMap.mem_remove]
    rintro ⟨hm, -⟩
    exact h.muted g' u hm
  members := h.members
  subscribers := h.subscribers
  compactMuted := h.compactMuted.remove

/-- What a row does to the entries of the three maps. -/
theorem compact_insertRow (hm : s.groupMembers.Compact) (hs : s.groupSubscribers.Compact)
    (hmu : s.mutedMembers.Compact) (g : Gid) (uid : Bytes) (user : GroupUser) :
    (s.insertRow g uid user).groupMembers.Compact ∧
      (s.insertRow g uid user).groupSubscribers.Compact ∧
      (s.insertRow g uid user).mutedMembers.Compact := by
  have him := hm.insert (k := g) (a := uid)
  have his := hs.insert (k := g) (a := uid)
  have himu := hmu.insert (k := g) (a := uid)
  unfold insertRow
  split <;> split <;> exact ⟨by assumption, by assumption, by assumption⟩

theorem compact_insertRows (hm : s.groupMembers.Compact) (hs : s.groupSubscribers.Compact)
    (hmu : s.mutedMembers.Compact) (g : Gid) (l : List ((_ : Bytes) × GroupUser)) :
    (s.insertRows g l).groupMembers.Compact ∧ (s.insertRows g l).groupSubscribers.Compact ∧
      (s.insertRows g l).mutedMembers.Compact := by
  induction l generalizing s with
  | nil => exact ⟨hm, hs, hmu⟩
  | cons e l ih =>
      obtain ⟨him, his, himu⟩ := compact_insertRow hm hs hmu g e.1 e.2
      rw [insertRows_cons]
      exact ih him his himu

/-- The rows of a group have one role for each user, so the sets they make are
disjoint. -/
theorem Wf.reloadUpdate (h : s.Wf) (g : Gid) (members : GroupUsers) :
    (s.reloadUpdate g members).Wf := by
  obtain ⟨hm, hs, hmu⟩ := compact_insertRows (s := { s with
    groupMembers := s.groupMembers.erase g
    groupSubscribers := s.groupSubscribers.erase g
    mutedMembers := s.mutedMembers.erase g })
    h.members.erase h.subscribers.erase h.compactMuted.erase g members.entries
  refine ⟨?_, ?_, hm, hs, hmu⟩
  · intro g' u
    rw [mem_reloadUpdate_members, mem_reloadUpdate_subscribers]
    split
    · rintro ⟨row, hrow, hne⟩ ⟨row', hrow', heq⟩
      rw [hrow, Option.some.injEq] at hrow'
      subst hrow'
      exact hne heq
    · exact h.disjoint g' u
  · intro g' u
    rw [mem_reloadUpdate_members, mem_reloadUpdate_subscribers, mem_reloadUpdate_muted]
    split
    · rintro ⟨row, hrow, -⟩
      rcases ne_or_eq row.role .subscriber with hne | heq
      · exact Or.inl ⟨row, hrow, hne⟩
      · exact Or.inr ⟨row, hrow, heq⟩
    · exact h.muted g' u

theorem Wf.syncReload (h : s.Wf) (g : Gid) (now : ℤ) (members : Option GroupUsers) :
    (s.syncReloadGroupMembersFromDb g now members).1.Wf := by
  have hmark : (s.reloadMark g now).Wf := ⟨h.disjoint, h.muted, h.members, h.subscribers,
    h.compactMuted⟩
  unfold syncReloadGroupMembersFromDb
  split
  · exact h
  · cases members with
    | none => exact hmark
    | some members => exact hmark.reloadUpdate g members

/-- A handler that reloads for users who are not cached keeps the invariant if
its update does for those who are. -/
theorem Wf.handleCached {update : GroupMemberMgr → Bytes → Gid → GroupMemberMgr} (h : s.Wf)
    {uid : Bytes} {g : Gid} (hupdate : s.isMemberExists uid g = true → (update s uid g).Wf)
    (now : ℤ) (members : Option GroupUsers) : (handleCached update s uid g now members).Wf := by
  unfold GroupMemberMgr.handleCached
  split
  · split
    · next hex => exact hupdate hex
    · exact h.syncReload g now members
  · exact h

end GroupMemberMgr

/-- A call of one of the operations, with what the database gives to it. -/
inductive MemberCall where
  | enter (uid : Bytes) (g : Gid) (user : Option GroupUser)
  | leave (uid : Bytes) (g : Gid) (now : ℤ) (members : Option GroupUsers)
  | mute (uid : Bytes) (g : Gid) (now : ℤ) (members : Option GroupUsers)
  | unmute (uid : Bytes) (g : Gid) (now : ℤ) (members : Option GroupUsers)
  | reload (g : Gid) (now : ℤ) (members : Option GroupUsers)
  | load (g : Gid) (now : ℤ) (members : Option GroupUsers)

namespace GroupMemberMgr

def call (s : GroupMemberMgr) : MemberCall → GroupMemberMgr
  | .enter uid g user => s.doHandleUserEnterGroup uid g user
  | .leave uid g now members => s.doHandleUserLeaveGroup uid g now members
  | .mute uid g now members => s.doHandleUserMuteGroup uid g now members
  | .unmute uid g now members => s.doHandleUserUnmuteGroup uid g now members
  | .reload g now members => (s.syncReloadGroupMembersFromDb g now members).1
  | .load g now members => (s.loadGroupMembersFromDb g now members).1

/-- Each operation keeps the invariant, whatever the database gives. -/
theorem Wf.call {s : GroupMemberMgr} (h : s.Wf) (c : MemberCall) : (s.call c).Wf := by
  cases c with
  | enter uid g user =>
      simp only [GroupMemberMgr.call, doHandleUserEnterGroup]
      split
      · cases user with
        | none => exact h
        | some user => exact h.enterUpdate uid g user
      · exact h
  | leave uid g now members =>
      exact h.handleCached (fun _ => h.leaveUpdate uid g) now members
  | mute uid g now members =>
      exact h.handleCached (fun hex => h.muteUpdate hex) now members
  | unmute uid g now members =>
      exact h.handleCached (fun _ => h.removeMutedMember uid g) now members
  | reload g now members => exact h.syncReload g now members
  | load g now members =>
      simp only [GroupMemberMgr.call, loadGroupMembersFromDb]
      split
      · exact h
      · exact h.syncReload g now members

/-- The state after a sequence of operations. -/
def calls (s : GroupMemberMgr) (cs : List MemberCall) : GroupMemberMgr := cs.foldl call s

theorem Wf.calls {s : GroupMemberMgr} (h : s.Wf) (cs : List MemberCall) : (s.calls cs).Wf := by
  induction cs generalizing s with
  | nil => exact h
  | cons c cs ih => exact ih (h.call c)

end GroupMemberMgr

/-- After every sequence of the operations the cached members and subscribers of
a group are disjoint, its muted users are among them, and no set is stored
empty; so nobody is an unmuted member and an unmuted subscriber. -/
theorem cache_wf (cs : List MemberCall) :
    (GroupMemberMgr.initial.calls cs).Wf ∧
      ∀ g, Disjoint ((GroupMemberMgr.initial.calls cs).getUnmuteGroupMembers g)
        ((GroupMemberMgr.initial.calls cs).getUnmuteGroupSubscribers g) := by
  have hwf : (GroupMemberMgr.initial.calls cs).Wf := GroupMemberMgr.wf_initial.calls cs
  refine ⟨hwf, fun g => ?_⟩
  rw [Finset.disjoint_left]
  intro uid hm hs
  rw [GroupMemberMgr.getUnmuteGroupMembers, GroupMemberMgr.mem_unmuted] at hm
  rw [GroupMemberMgr.getUnmuteGroupSubscribers, GroupMemberMgr.mem_unmuted] at hs
  exact hwf.disjoint g uid hm.1 hs.1

end BcmServer.Offline
