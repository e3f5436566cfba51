import BcmServer.Group.MemberCount

/-!
# BcmServer.Group.Admission — admissions leave the members alone

Invite, add-me and review each have a test of their own for users who are in the
group already: a map of roles, a single row, a list of rows. All three end with
an insertion that replaces the rows of the same users.

`OnlyAdmits` says what such a request may do to the tables. It is closed under
one request after the other, so `admissions_keep_members` is about any sequence
of them, as long as no DAO call fails.
-/

namespace BcmServer.Group

open BcmServer.Util BcmServer.Lts GroupManagerController

namespace RequestEvent

/-- An invitation, add-me or review during which no call fails, or time that
passes. -/
def Admission : RequestEvent → Prop
  | request _ (.inviteV3 _) plan => plan = .clean
  | request _ (.addMeV3 _) plan => plan = .clean
  | request _ (.reviewV3 _) plan => plan = .clean
  | request _ _ _ => False
  | tick _ => True

/-- The event is a request about the group. -/
def About (gid : Gid) : RequestEvent → Prop
  | request ctx req _ => req.gid ctx = gid
  | tick _ => False

/-- The user is invited, is accepted in a review, or asks for an add-me. -/
def Names (gid : Gid) (uid : Bytes) : RequestEvent → Prop
  | request _ (.inviteV3 req) _ => req.gid = gid ∧ uid ∈ req.members
  | request _ (.reviewV3 req) _ =>
      req.gid = gid ∧ ∃ item ∈ req.list, item.accepted = true ∧ item.uid = uid
  | request ctx (.addMeV3 req) _ => req.gid = gid ∧ ctx.uid = uid
  | _ => False

end RequestEvent

/-- Rows of members are kept, other groups too, and a row that is new is one of a
member whom an event names. -/
structure OnlyAdmits (events : List RequestEvent) (s t : Store) : Prop where
  kept : ∀ gid uid row, s.row gid uid = some row → row.counts = true → t.row gid uid = some row
  others : ∀ gid, (∀ e ∈ events, ¬ e.About gid) → t.users gid = s.users gid
  new : ∀ gid uid row, t.row gid uid = some row → s.row gid uid = some row ∨
    row.role = .member ∧ ∃ e ∈ events, e.Names gid uid

namespace OnlyAdmits

variable {events : List RequestEvent} {s t u : Store}

theorem same (h : t.users = s.users) : OnlyAdmits events s t := by
  have hrow : ∀ gid uid, t.row gid uid = s.row gid uid := by
    intro gid uid
    rw [Store.row, h]
    rfl
  constructor
  · intro gid uid row hs _
    rw [hrow]
    exact hs
  · intro gid _
    rw [h]
  · intro gid uid row ht
    rw [hrow] at ht
    exact Or.inl ht

theorem trans (h : OnlyAdmits events s t) (h' : OnlyAdmits events t u) :
    OnlyAdmits events s u := by
  constructor
  · intro gid uid row hs hcounts
    exact h'.kept gid uid row (h.kept gid uid row hs hcounts) hcounts
  · intro gid hevents
    exact (h'.others gid hevents).trans (h.others gid hevents)
  · intro gid uid row hu
    rcases h'.new gid uid row hu with ht | hnew
    · exact h.new gid uid row ht
    · exact Or.inr hnew

/-- Rows of new members are put in, for users who are none. -/
theorem insertAll {event : RequestEvent} (gid : Gid) (rows : List (Bytes × GroupUser))
    (hmem : event ∈ events) (habout : event.About gid)
    (husers : t.users = Function.update s.users gid ((s.users gid).insertAll rows))
    (hroles : ∀ r ∈ rows, r.2.role = .member)
    (hnew : ∀ uid ∈ rows.map Prod.fst, s.isMember gid uid = false)
    (hnames : ∀ uid ∈ rows.map Prod.fst, event.Names gid uid) : OnlyAdmits events s t := by
  have hsame : ∀ g, g ≠ gid → t.users g = s.users g := by
    intro g hg
    rw [husers, Function.update_of_ne hg]
  have hrow : ∀ uid, t.row gid uid = ((s.users gid).insertAll rows).lookup uid := by
    intro uid
    rw [Store.row, husers, Function.update_self]
  constructor
  · intro g uid row hs hcounts
    by_cases hg : g = gid
    · subst hg
      -- a user whose row counts is not among the new ones
      have hnot : uid ∉ rows.map Prod.fst := by
        intro huid
        have hnone := hnew uid huid
        rw [Store.isMember, hs, Option.any_some, hcounts] at hnone
        cases hnone
      rw [hrow, Table.lookup_insertAll_of_notMem _ _ hnot]
      exact hs
    · rw [Store.row, hsame g hg]
      exact hs
  · intro g hevents
    apply hsame
    rintro rfl
    exact hevents event hmem habout
  · intro g uid row ht
    by_cases hg : g = gid
    · subst hg
      rw [hrow] at ht
      rcases Table.lookup_insertAll (s.users g) rows uid with hold | ⟨v, hv, hlook⟩
      · rw [hold] at ht
        exact Or.inl ht
      · have hsome : row = v := Option.some.inj (ht.symm.trans hlook)
        subst hsome
        exact Or.inr ⟨hroles _ hv, event, hmem, hnames uid (List.mem_map.mpr ⟨_, hv, rfl⟩)⟩
    · rw [Store.row, hsame g hg] at ht
      exact Or.inl ht

end OnlyAdmits

/-! ## One request -/

section Requests

variable {events : List RequestEvent} {ctx : Context} {plan : Plan ℕ} {s t : Store} {r : Reply}

theorem invite_onlyAdmits {req : InviteGroupMemberRequestV3}
    (hmem : .request ctx (.inviteV3 req) plan ∈ events) (h : InviteOutcome ctx req s r t) :
    OnlyAdmits events s t := by
  cases h with
  | quiet _ pending hstore =>
      apply OnlyAdmits.same
      rw [hstore]
  | invited rows h _ _ hstore =>
      apply OnlyAdmits.insertAll req.gid rows hmem rfl
      · rw [hstore]
        rfl
      · exact h.roles
      · intro uid huid
        rw [h.uids] at huid
        simpa using (List.mem_filter.mp huid).2
      · intro uid huid
        rw [h.uids] at huid
        exact ⟨rfl, (List.mem_filter.mp huid).1⟩

theorem review_onlyAdmits {req : ReviewJoinResultRequestV3}
    (hmem : .request ctx (.reviewV3 req) plan ∈ events) (h : ReviewOutcome ctx req s r t) :
    OnlyAdmits events s t := by
  cases h with
  | quiet _ pending hstore =>
      apply OnlyAdmits.same
      rw [hstore]
  | reviewed _ rows huids hroles _ _ pending hstore =>
      apply OnlyAdmits.insertAll req.gid rows hmem rfl
      · rw [hstore]
        rfl
      · exact hroles
      · intro uid huid
        rw [huids] at huid
        have hnone := (List.mem_filter.mp huid).2
        rw [Option.isNone_iff_eq_none] at hnone
        rw [Store.isMember, hnone]
        rfl
      · intro uid huid
        rw [huids] at huid
        obtain ⟨item, hitem, rfl⟩ := List.mem_map.mp (List.mem_filter.mp huid).1
        obtain ⟨hitem, haccepted⟩ := List.mem_filter.mp hitem
        exact ⟨rfl, item, hitem, haccepted, rfl⟩

theorem addMe_onlyAdmits {req : AddMeRequestV3}
    (hmem : .request ctx (.addMeV3 req) .clean ∈ events) (h : AddedMe ctx req .clean s r t) :
    OnlyAdmits events s t := by
  obtain ⟨user, hrole, hstore⟩ := h.store
  -- the row was read, as no call fails
  have hnone : s.row req.gid ctx.uid = none := by
    rcases h.valid.row with hnone | hfault
    · exact hnone
    · cases hfault
  apply OnlyAdmits.insertAll req.gid [(ctx.uid, user)] hmem rfl
  · rw [hstore]
    rfl
  · simpa using hrole
  · intro uid huid
    rw [List.map_cons, List.map_nil, List.mem_singleton] at huid
    rw [huid, Store.isMember, hnone]
    rfl
  · intro uid huid
    rw [List.map_cons, List.map_nil, List.mem_singleton] at huid
    exact ⟨rfl, huid.symm⟩

end Requests

theorem step_onlyAdmits {env : Env} {events : List RequestEvent} {event : RequestEvent}
    (s : Store) (hmem : event ∈ events) (hkind : event.Admission) :
    OnlyAdmits events s (event.apply env s) := by
  cases event with
  | tick seconds => exact OnlyAdmits.same rfl
  | request ctx req plan =>
      cases req with
      | inviteV3 req =>
          exact invite_onlyAdmits hmem (Dao.run_of_wp (invite_outcome env ctx req plan s))
      | reviewV3 req =>
          exact review_onlyAdmits hmem (Dao.run_of_wp (review_outcome env ctx req plan s))
      | addMeV3 req =>
          have hclean : plan = .clean := hkind
          subst hclean
          rcases Dao.run_of_wp (addMe_outcome env ctx req .clean s) with h | h
          · exact OnlyAdmits.same (congrArg Store.users h.store)
          · exact addMe_onlyAdmits hmem h
      | createV3 | leaveV3 | kickV3 | joinV3 | updateV3 | join | review | uploadPassword
      | inviteV2 | updateV2 => exact hkind.elim

/-! ## Runs -/

/-- Any sequence of invitations, add-mes and reviews without failing calls, from
any tables, keeps the rows of members and the other groups; what is new are rows
of members whom a request names. -/
theorem admissions_keep_members (env : Env) (s t : Store) (events : List RequestEvent)
    (hkind : ∀ e ∈ events, e.Admission)
    (hrun : (groupMachine env).run s events = some t) : OnlyAdmits events s t := by
  refine (groupMachine env).run_invariant (OnlyAdmits events s) ?_ (OnlyAdmits.same rfl)
    ((groupMachine env).meets_of_mem (fun e he => he) s) hrun
  intro t event u ht hmem hstep
  cases hstep
  exact ht.trans (step_onlyAdmits t hmem (hkind event hmem))

/-- An invitation of `[2]`, who is a member, and `[4]` -/
def inviteTwo : InviteGroupMemberRequestV3 where
  gid := 7
  members := [[2], [4]]
  memberGroupInfoSecrets := [[8], [8]]
  memberProofs := [[8], [8]]

/-- The owner `[1]` invites. -/
def inviteFour : RequestEvent := .request (plainContext [1]) (.inviteV3 inviteTwo) .clean

theorem admissions_keep_members_invite :
    OnlyAdmits [inviteFour] (threeMembers 0) (inviteFour.apply plainEnv (threeMembers 0)) ∧
      (inviteFour.apply plainEnv (threeMembers 0)).isMember 7 [4] = true := by
  constructor
  · apply admissions_keep_members plainEnv (threeMembers 0) _ [inviteFour] _ rfl
    intro e he
    rw [List.mem_singleton] at he
    rw [he]
    exact rfl
  · decide

end BcmServer.Group
