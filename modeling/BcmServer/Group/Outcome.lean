import BcmServer.Group.Controller

/-!
# BcmServer.Group.Outcome — what a request of the third version can do

For each handler, everything that a run of it can do to the tables, with the
checks that have passed and the answers that were read: the request is refused
and nothing changes, or the tables change in one way that the structure of the
handler names. The results about whole runs use these and do not look into the
handlers again.
-/

namespace BcmServer.Group

open BcmServer.Util BcmServer.Lts GroupManagerController

/-! ## Parts of the handlers that change nothing -/

namespace Dao

variable {α β : Type} {Q : α → Plan ℕ → Store → Prop} {plan : Plan ℕ} {s : Store}

/-- The program leaves the tables as they are. -/
def Quiet (p : Dao α) : Prop :=
  ∀ (Q : α → Plan ℕ → Store → Prop) (plan : Plan ℕ) (s : Store),
    (∀ a plan, Q a plan s) → p.wp Q plan s

theorem quiet_pure (a : α) : Quiet (pure a) := by
  intro Q plan s h
  exact h a plan

theorem quiet_read {r : Read} {k : Except DaoError r.Res → Dao α} (h : ∀ a, Quiet (k a)) :
    Quiet (read r >>= k) := by
  intro Q plan s hQ
  apply wp_read
  · intro code _
    exact h _ Q _ s hQ
  · intro _
    exact h _ Q _ s hQ

theorem quiet_bind {p : Dao α} {k : α → Dao β} (hp : Quiet p) (hk : ∀ a, Quiet (k a)) :
    Quiet (p >>= k) := by
  intro Q plan s hQ
  apply Program.wp_bind
  apply hp
  intro a plan
  exact hk a Q plan s hQ

/-- A quiet part of a handler is passed over. -/
theorem wp_quiet {p : Dao β} {k : β → Dao α} (hp : Quiet p)
    (hk : ∀ b plan, (k b).wp Q plan s) : (p >>= k).wp Q plan s :=
  Program.wp_bind (hp _ plan s hk)

end Dao

open Dao

theorem quiet_pubGroupSystemMessage (uid : Bytes) (gid : Gid) (type : SystemMessage) :
    Quiet (pubGroupSystemMessage uid gid type) := by
  intro Q plan s h
  apply wp_write
  · intro e _
    exact h false _
  · intro t _ ht
    cases ht
    exact h true _

theorem quiet_pubWithRetry (uid : Bytes) (gid : Gid) (type : SystemMessage) (n : ℕ) :
    Quiet (pubWithRetry uid gid type n) := by
  induction n with
  | zero => exact quiet_pure false
  | succ n ih =>
      apply quiet_bind (quiet_pubGroupSystemMessage uid gid type)
      intro b
      cases b with
      | true => exact quiet_pure true
      | false => exact ih

theorem quiet_pubForEach (gid : Gid) (inviters : List Bytes) : Quiet (pubForEach gid inviters) := by
  induction inviters with
  | nil => exact quiet_pure ()
  | cons inviter inviters ih =>
      apply quiet_bind (quiet_pubGroupSystemMessage inviter gid .memberUpdate)
      intro _
      exact ih

theorem quiet_updateGroupKeys (env : Env) (uid : Bytes) (gid : Gid) (count : UInt32) :
    Quiet (updateGroupKeys env uid gid count) := by
  have hlatest : Quiet (latestMode env.groupConfig gid count) := by
    unfold latestMode
    split
    · apply quiet_read
      intro a
      cases a <;> exact quiet_pure _
    · exact quiet_pure none
  apply quiet_bind hlatest
  intro latest
  split
  · apply quiet_bind (quiet_pubWithRetry uid gid .updateGroupKeysRequest 3)
    intro b
    split
    · split
      · apply quiet_read
        intro a
        exact quiet_pure ()
      · exact quiet_pure ()
    · exact quiet_pure ()
  · exact quiet_pure ()
  · exact quiet_pure ()

theorem quiet_checkMembersFilters (env : Env) (account : Account) (members : List Bytes) :
    Quiet (checkMembersFilters env account members) := by
  induction members with
  | nil => exact quiet_pure none
  | cons m members ih =>
      apply quiet_read
      intro a
      cases a with
      | error e => exact quiet_pure _
      | ok memberAccount =>
          show Quiet (if _ then _ else _)
          split
          · exact quiet_pure _
          · exact ih

theorem quiet_checkBidirectionalRelationship (env : Env) (account : Account)
    (members : List Bytes) : Quiet (checkBidirectionalRelationship env account members) := by
  unfold checkBidirectionalRelationship
  split
  · exact quiet_pure _
  · exact quiet_checkMembersFilters env account members

theorem quiet_checkBidirectionalRelationshipBypassSubscribers (env : Env) (account : Account)
    (gid : Gid) (members : List Bytes) :
    Quiet (checkBidirectionalRelationshipBypassSubscribers env account gid members) := by
  have hroles : Quiet (memberRoles gid members) := by
    apply quiet_read
    intro a
    rcases a with (_ | _ | _) | _ <;> exact quiet_pure _
  apply quiet_bind hroles
  intro roles
  cases roles with
  | none => exact quiet_pure _
  | some roles =>
      show Quiet (if _ then _ else _)
      split
      · exact quiet_pure _
      · exact quiet_checkMembersFilters env account _

/-! ## What the helpers read -/

theorem Role.counts_iff (r : Role) :
    r.counts = true ↔ r = .owner ∨ r = .administror ∨ r = .member := by
  cases r <;> decide

theorem Store.isMember_eq (s : Store) (gid : Gid) (uid : Bytes) :
    s.isMember gid uid = (s.role gid uid).any Role.counts := by
  unfold isMember role
  rw [Option.any_map]
  rfl

/-- The owner that is read has the row of one. -/
theorem role_of_owner {s : Store} {gid : Gid} {uid : Bytes} (h : s.owner gid = some uid) :
    s.role gid uid = some .owner := by
  obtain ⟨entry, hfind, rfl⟩ := Option.map_eq_some_iff.mp h
  have hmem := List.mem_of_find?_eq_some hfind
  have howner := List.find?_some hfind
  rw [decide_eq_true_iff] at howner
  have hrow : s.row gid entry.1 = some entry.2 :=
    List.mem_dlookup (s.users gid).nodupKeys hmem
  rw [Store.role, hrow, Option.map_some, howner]

section Reads

variable {α : Type} {Q : α → Plan ℕ → Store → Prop} {plan : Plan ℕ} {s : Store}

theorem found_ok {o : Option α} {a : α} (h : found o = .ok a) : o = some a := by
  cases o with
  | none => cases h
  | some b =>
      cases h
      rfl

theorem counter_ok {n : ℕ} {c : UInt32} (h : counter n = .ok c) : c.toNat = n := by
  unfold counter at h
  split at h
  · cases h
    rename_i hn
    exact UInt32.toNat_ofNat_of_lt' hn
  · cases h

/-- The owner's account, as it is stored. -/
theorem wp_getGroupOwner {gid : Gid} {k : Option Account → Dao α}
    (hnone : ∀ plan, (k none).wp Q plan s)
    (hsome : ∀ uid owner plan, s.owner gid = some uid → s.accounts uid = some owner →
      (k (some owner)).wp Q plan s) : (getGroupOwner gid >>= k).wp Q plan s := by
  apply Program.wp_bind
  apply wp_read'
  · intro e
    exact hnone _
  · intro uid huid
    apply wp_read'
    · intro e
      exact hnone _
    · intro owner howner
      exact hsome uid owner _ (found_ok huid) (found_ok howner)

/-- The roles of the listed users, as they are stored. -/
theorem wp_memberRoles {gid : Gid} {uids : List Bytes} {k : Option (Bytes → Role) → Dao α}
    (hnone : ∀ plan, (k none).wp Q plan s)
    (hsome : ∀ roles plan, (∀ uid ∈ uids, roles uid = (s.role gid uid).getD .undefine) →
      (k (some roles)).wp Q plan s) : (memberRoles gid uids >>= k).wp Q plan s := by
  apply Program.wp_bind
  apply wp_read
  · intro code _
    exact hnone _
  · intro _
    have heval : Read.eval s (.getMemberRoles gid uids) =
        if uids.any fun uid => (s.row gid uid).isSome then
          .ok fun uid => (s.role gid uid).getD .undefine
        else .error .noSuchData := rfl
    rw [heval]
    by_cases hrows : uids.any fun uid => (s.row gid uid).isSome
    · rw [if_pos hrows]
      apply hsome
      intro uid _
      rfl
    · rw [if_neg hrows]
      apply hsome
      intro uid huid
      have hnorow : s.row gid uid = none := by
        rw [← Option.not_isSome_iff_eq_none]
        intro hrow
        exact hrows (List.any_eq_true.mpr ⟨uid, huid, hrow⟩)
      rw [Store.role, hnorow]
      rfl

/-- Who may invite: the backend manager, and the members. -/
theorem wp_checkInviter {env : Env} {ctx : Context} {gid : Gid} {members : List Bytes}
    {k : Option HttpStatus → Dao α}
    (hrefuse : ∀ status plan, (k (some status)).wp Q plan s)
    (hpass : ∀ plan, (ctx.uid = backendManager ∨ s.isMember gid ctx.uid = true) →
      (k none).wp Q plan s) : (checkInviter env ctx gid members >>= k).wp Q plan s := by
  apply Program.wp_bind
  unfold checkInviter
  split
  · rename_i hmanager
    exact hpass _ (Or.inl hmanager)
  · apply wp_read
    · intro code _
      exact hrefuse _ _
    · intro _
      have heval : Read.eval s (.getMemberRole gid ctx.uid) = found (s.role gid ctx.uid) := rfl
      rw [heval]
      cases hrole : s.role gid ctx.uid with
      | none => exact hrefuse _ _
      | some role =>
          show Dao.wp (if _ then _ else _) _ _ _
          split
          · exact hrefuse _ _
          · rename_i hmay
            have hmember : s.isMember gid ctx.uid = true := by
              rw [s.isMember_eq, hrole, Option.any_some, Role.counts_iff]
              tauto
            -- the rest looks at the contacts only
            apply quiet_checkBidirectionalRelationshipBypassSubscribers
            intro status plan
            cases status with
            | none => exact hpass plan (Or.inr hmember)
            | some status => exact hrefuse status plan

end Reads

/-! ## Kick -/

/-- The count a kick passes on, from the count before. -/
def KickGroupMemberBody.after (body : KickGroupMemberBody) (memberCnt : UInt32) : UInt32 :=
  if body.members.length ≤ memberCnt.toNat then memberCnt - UInt32.ofNat body.members.length
  else 0

/-- A kick that takes effect. -/
structure Kicked (ctx : Context) (body : KickGroupMemberBody) (s : Store) (r : Reply)
    (t : Store) : Prop where
  checked : body.check ctx.uid = none
  group : ∃ group, s.groups body.gid = some group
  owner : s.role body.gid ctx.uid = some .owner
  status : r.status = .noContent
  count : ∃ memberCnt : UInt32, memberCnt.toNat = s.memberCnt body.gid ∧
    r.keysCount = some (body.after memberCnt)
  store : t = s.setUsers body.gid ((s.users body.gid).eraseAll
    (body.members.filter fun m => (s.row body.gid m).isSome))

/-- The request is refused: nothing changes, and no keys are asked for. -/
structure Refused (s : Store) (r : Reply) (t : Store) : Prop where
  count : r.keysCount = none
  store : t = s

theorem refused_of (s : Store) (status : HttpStatus) : Refused s (.of status) s := ⟨rfl, rfl⟩

/-- A kick that is refused ends with an error. -/
structure KickRefused (s : Store) (r : Reply) (t : Store) : Prop extends Refused s r t where
  status : r.status.isError = true

theorem mem_filterMap_row {s : Store} {gid : Gid} {uids : List Bytes} {m : Bytes}
    (hm : m ∈ uids) :
    ((uids.filterMap fun uid => (s.row gid uid).map (uid, ·)).any fun u => u.1 = m) =
      (s.row gid m).isSome := by
  rw [Bool.eq_iff_iff, List.any_eq_true]
  constructor
  · rintro ⟨⟨uid, user⟩, hmem, huid⟩
    obtain ⟨uid', -, hrow⟩ := List.mem_filterMap.mp hmem
    obtain ⟨row, hrow, heq⟩ := Option.map_eq_some_iff.mp hrow
    cases heq
    rw [decide_eq_true_iff] at huid
    rw [← huid, hrow]
    rfl
  · intro hrow
    obtain ⟨row, hrow⟩ := Option.isSome_iff_exists.mp hrow
    refine ⟨(m, row), List.mem_filterMap.mpr ⟨m, hm, ?_⟩, decide_eq_true rfl⟩
    rw [hrow]
    rfl

theorem kick_outcome (env : Env) (ctx : Context) (body : KickGroupMemberBody) (plan : Plan ℕ)
    (s : Store) :
    (onKickGroupMemberV3 env ctx body).wp
      (fun r _ t => KickRefused s r t ∨ Kicked ctx body s r t) plan s := by
  have hrefuse : ∀ status plan, status.isError = true → Dao.wp (pure (.of status))
      (fun r _ t => KickRefused s r t ∨ Kicked ctx body s r t) plan s :=
    fun status plan herror => Or.inl ⟨refused_of s status, herror⟩
  unfold onKickGroupMemberV3
  split
  · exact hrefuse _ _ rfl
  rename_i hcheck
  apply wp_read' fun _ => hrefuse _ _ rfl
  intro group hgroup
  show Dao.wp (if _ then _ else _) _ _ _
  split
  · exact hrefuse _ _ rfl
  apply wp_read' fun _ => hrefuse _ _ rfl
  intro memberCnt hcnt
  apply wp_read' fun _ => hrefuse _ _ rfl
  intro role hrole
  show Dao.wp (if _ then _ else _) _ _ _
  split
  · exact hrefuse _ _ rfl
  rename_i howner
  apply wp_read' fun _ => hrefuse _ _ rfl
  intro users husers
  apply wp_write fun _ _ => hrefuse _ _ rfl
  intro t _ ht
  apply wp_quiet (quiet_pubGroupSystemMessage _ _ _)
  intro _ _
  apply wp_quiet (quiet_updateGroupKeys _ _ _ _)
  intro _ _
  right
  -- the rows found are those of the listed users
  have hfound : (body.members.filter fun m => users.any fun u => u.1 = m) =
      body.members.filter fun m => (s.row body.gid m).isSome := by
    apply List.filter_congr
    intro m hm
    simp only [Read.eval] at husers
    split at husers
    · cases husers
    · cases husers
      exact mem_filterMap_row hm
  refine ⟨?_, ⟨group, found_ok hgroup⟩, ?_, rfl, ⟨memberCnt, counter_ok hcnt, rfl⟩, ?_⟩
  · exact Option.not_isSome_iff_eq_none.mp hcheck
  · rw [← not_not.mp howner]
    exact found_ok hrole
  · rw [hfound] at ht
    exact (Except.ok.inj ht).symm

/-! ## Leave -/

/-- The row of the next owner, once promoted. -/
def GroupUser.promoted (u : GroupUser) : GroupUser := { u with role := .owner }

/-- A leave without a hand-over. -/
structure Left (ctx : Context) (body : LeaveGroupBody) (s : Store) (r : Reply) (t : Store) :
    Prop where
  role : s.role body.gid ctx.uid = some .member ∨
    s.role body.gid ctx.uid = some .owner ∧ s.memberCnt body.gid ≤ 1
  status : r.status = .noContent
  count : ∃ memberCnt : UInt32, memberCnt.toNat = s.memberCnt body.gid ∧
    r.keysCount = some (if 1 ≤ memberCnt then memberCnt - 1 else 0)
  store : t = s.setUsers body.gid ((s.users body.gid).erase ctx.uid)

/-- An owner who leaves other members behind names one of them, whose row is
`next`, as the next owner. -/
structure HandsOver (ctx : Context) (body : LeaveGroupBody) (s : Store) (next : GroupUser) :
    Prop where
  checked : body.check = none
  group : ∃ group, s.groups body.gid = some group ∧ group.version = groupV3
  fits : s.memberCnt body.gid < UInt32.size
  owner : s.role body.gid ctx.uid = some .owner
  others : 1 < s.memberCnt body.gid
  named : ¬ body.nextOwner.isEmpty
  ne : body.nextOwner ≠ ctx.uid
  row : s.row body.gid body.nextOwner = some next
  role : next.role = .owner ∨ next.role = .member

/-- What a leave can do. The hand-over is two writes: where the second fails,
there are two owners. -/
inductive LeaveOutcome (ctx : Context) (body : LeaveGroupBody) (plan : Plan ℕ) (s : Store)
    (r : Reply) (t : Store) : Prop where
  | refused (h : Refused s r t)
  | left (h : Left ctx body s r t)
  | handedOver (next : GroupUser) (h : HandsOver ctx body s next) (status : r.status = .noContent)
      (count : ∃ memberCnt : UInt32, memberCnt.toNat = s.memberCnt body.gid ∧
        r.keysCount = some (if 1 ≤ memberCnt then memberCnt - 1 else 0))
      (calls : ∀ n < 3, plan n = none)
      (store : t = s.setUsers body.gid
        (((s.users body.gid).insert body.nextOwner next.promoted).erase ctx.uid))
  | twoOwners (next : GroupUser) (h : HandsOver ctx body s next) (status : r.status.isError = true)
      (count : r.keysCount = none) (calls : ∀ n < 3, plan n = none) (fault : (plan 3).isSome)
      (store : t = s.setUsers body.gid
        ((s.users body.gid).insert body.nextOwner next.promoted))

/-- The deletion of the row, after a promotion or without one. -/
theorem deleteLeaver_outcome (env : Env) (ctx : Context) (gid : Gid) (memberCnt : UInt32)
    (promoted : Bool) (plan : Plan ℕ) (s : Store) {Q : Reply → Plan ℕ → Store → Prop}
    (herror : ∀ plan', (plan 0).isSome → Q (.of .internalServerError) plan' s)
    (hok : ∀ plan', Q
      { status := .noContent, keysCount := some (if 1 ≤ memberCnt then memberCnt - 1 else 0) }
      plan' (s.setUsers gid ((s.users gid).erase ctx.uid))) :
    (deleteLeaver env ctx gid memberCnt promoted).wp Q plan s := by
  unfold deleteLeaver
  apply wp_write
  · intro e he
    rcases he with hfault | happly
    · exact herror _ hfault
    · cases happly
  · intro t _ ht
    cases ht
    have htail : ∀ plan', Dao.wp (do
        let _ ← pubGroupSystemMessage ctx.uid gid .memberUpdate
        updateGroupKeys env ctx.uid gid (if 1 ≤ memberCnt then memberCnt - 1 else 0)
        return { status := .noContent,
                 keysCount := some (if 1 ≤ memberCnt then memberCnt - 1 else 0) })
        Q plan' (s.setUsers gid ((s.users gid).erase ctx.uid)) := by
      intro plan'
      apply wp_quiet (quiet_pubGroupSystemMessage _ _ _)
      intro _ _
      apply wp_quiet (quiet_updateGroupKeys _ _ _ _)
      intro _ _
      exact hok _
    cases promoted with
    | false => exact htail _
    | true =>
        apply wp_quiet (quiet_pubGroupSystemMessage _ _ _)
        intro _ _
        exact htail _

theorem setUsers_setUsers (s : Store) (gid : Gid) (rows rows' : Table Bytes GroupUser) :
    (s.setUsers gid rows).setUsers gid rows' = s.setUsers gid rows' := by
  unfold Store.setUsers
  simp

theorem users_setUsers (s : Store) (gid : Gid) (rows : Table Bytes GroupUser) :
    (s.setUsers gid rows).users gid = rows := by
  unfold Store.setUsers
  simp

/-- What the read with the two roles gives is what is stored. -/
theorem queryWithRoles_ok {s : Store} {gid : Gid} {querier nextOwner : Bytes} {memberCnt : UInt32}
    {role nextOwnerRole : Role}
    (h : (Read.queryGroupMemberInfoWithRoles gid querier nextOwner).eval s =
      .ok (memberCnt, role, nextOwnerRole)) :
    memberCnt.toNat = s.memberCnt gid ∧ role = (s.role gid querier).getD .undefine ∧
      nextOwnerRole = (s.role gid nextOwner).getD .undefine := by
  simp only [Read.eval, Except.map] at h
  split at h
  · cases h
  · rename_i n hn
    cases h
    exact ⟨counter_ok hn, rfl, rfl⟩

/-- A role that is read as another one than `ROLE_UNDEFINE` has a row. -/
theorem role_of_getD {s : Store} {gid : Gid} {uid : Bytes} {role : Role}
    (h : role = (s.role gid uid).getD .undefine) (hne : role ≠ .undefine) :
    s.role gid uid = some role := by
  cases hs : s.role gid uid with
  | none =>
      rw [hs] at h
      exact absurd h hne
  | some stored =>
      rw [hs] at h
      exact congrArg some h.symm

theorem row_of_role {s : Store} {gid : Gid} {uid : Bytes} {role : Role}
    (h : s.role gid uid = some role) :
    ∃ user, s.row gid uid = some user ∧ user.role = role :=
  Option.map_eq_some_iff.mp h

theorem leave_outcome (env : Env) (ctx : Context) (body : LeaveGroupBody) (plan : Plan ℕ)
    (s : Store) :
    (onLeaveGroupV3 env ctx body).wp (fun r _ t => LeaveOutcome ctx body plan s r t) plan s := by
  have hrefuse : ∀ status plan', Dao.wp (pure (.of status))
      (fun r _ t => LeaveOutcome ctx body plan s r t) plan' s :=
    fun status _ => .refused (refused_of s status)
  unfold onLeaveGroupV3
  split
  · exact hrefuse _ _
  rename_i hcheck
  apply wp_read_plan fun _ => hrefuse _ _
  intro group hplan₀ hgroup
  show Dao.wp (if _ then _ else _) _ _ _
  split
  · exact hrefuse _ _
  rename_i hversion
  apply wp_read_plan fun _ => hrefuse _ _
  rintro ⟨memberCnt, role, nextOwnerRole⟩ hplan₁ hinfo
  obtain ⟨hcnt, hrole, hnextRole⟩ := queryWithRoles_ok hinfo
  show Dao.wp (if _ then _ else _) _ _ _
  split
  · exact hrefuse _ _
  rename_i hmay
  have hknown : role ≠ .undefine := by
    rintro rfl
    exact hmay ⟨Role.noConfusion, Role.noConfusion⟩
  have hstored : s.role body.gid ctx.uid = some role := role_of_getD hrole hknown
  split
  · exact hrefuse _ _
  show Dao.wp (if decide (role = .owner ∧ 1 < memberCnt) = true then _ else _) _ _ _
  split
  · -- an owner leaves others behind
    rename_i hneed
    rw [decide_eq_true_iff] at hneed
    split
    · exact hrefuse _ _
    rename_i hnext
    rw [not_or, not_or] at hnext
    obtain ⟨hnamed, hne, hnext⟩ := hnext
    have hnextMay : nextOwnerRole = .owner ∨ nextOwnerRole = .member := by tauto
    have hnextKnown : nextOwnerRole ≠ .undefine := by
      rintro rfl
      rcases hnextMay with h | h <;> cases h
    obtain ⟨next, hrow, rfl⟩ := row_of_role (role_of_getD hnextRole hnextKnown)
    have hhands : HandsOver ctx body s next := by
      refine ⟨Option.not_isSome_iff_eq_none.mp hcheck,
        ⟨group, found_ok hgroup, not_not.mp hversion⟩, ?_,
        hneed.1 ▸ hstored, ?_, hnamed, hne, hrow, hnextMay⟩
      · rw [← hcnt]
        exact memberCnt.toNat_lt
      · rw [← hcnt]
        exact UInt32.lt_iff_toNat_lt.mp hneed.2
    apply wp_write fun _ _ => hrefuse _ _
    intro t hplan₂ ht
    have hpromoted : t = s.setUsers body.gid
        ((s.users body.gid).insert body.nextOwner next.promoted) := by
      simp only [Write.apply, hrow, found] at ht
      exact (Except.ok.inj ht).symm
    subst hpromoted
    have hcalls : ∀ n < 3, plan n = none := by
      intro n hn
      interval_cases n
      · exact hplan₀
      · exact hplan₁
      · exact hplan₂
    apply deleteLeaver_outcome
    · intro _ hfault
      exact .twoOwners next hhands rfl rfl hcalls hfault rfl
    · intro _
      refine .handedOver next hhands rfl ⟨memberCnt, hcnt, rfl⟩ hcalls ?_
      rw [setUsers_setUsers, users_setUsers]
  · rename_i hneed
    rw [decide_eq_true_iff] at hneed
    apply deleteLeaver_outcome
    · intro _ _
      exact .refused (refused_of s _)
    · intro _
      refine .left ⟨?_, rfl, ⟨memberCnt, hcnt, rfl⟩, rfl⟩
      have hone : ¬ 1 < memberCnt → s.memberCnt body.gid ≤ 1 := by
        intro hle
        rw [← hcnt]
        exact Nat.not_lt.mp fun hlt => hle (UInt32.lt_iff_toNat_lt.mpr hlt)
      by_cases howner : role = .owner
      · right
        exact ⟨howner ▸ hstored, hone fun hlt => hneed ⟨howner, hlt⟩⟩
      · left
        have hmember : role = .member := by tauto
        exact hmember ▸ hstored

/-! ## Add-me -/

/-- An add-me that goes through: the caller has a record that has not expired, and
there is no row of the caller, or it could not be read. -/
structure AddMeValid (ctx : Context) (req : AddMeRequestV3) (plan : Plan ℕ) (s : Store) :
    Prop where
  checked : req.check = true
  limiter : ctx.joinLimited (getMemberJoinLimiterId req.gid ctx.uid) = false
  group : ∃ group, s.groups req.gid = some group ∧ group.version = groupV3
  row : s.row req.gid ctx.uid = none ∨ (plan 1).isSome
  qrCode : s.hasQrCodeUser req.gid ctx.uid = true
  fits : s.memberCnt req.gid < UInt32.size
  calls : ∀ n < 5, n ≠ 1 → plan n = none

/-- An add-me that takes effect. -/
structure AddedMe (ctx : Context) (req : AddMeRequestV3) (plan : Plan ℕ) (s : Store) (r : Reply)
    (t : Store) : Prop where
  valid : AddMeValid ctx req plan s
  status : r.status = .ok
  count : ∃ memberCnt : UInt32, memberCnt.toNat = s.memberCnt req.gid ∧
    r.keysCount = some (memberCnt + 1)
  store : ∃ user : GroupUser, user.role = .member ∧
    t = s.setUsers req.gid ((s.users req.gid).insert ctx.uid user)

theorem addMe_outcome (env : Env) (ctx : Context) (req : AddMeRequestV3) (plan : Plan ℕ)
    (s : Store) :
    (onAddMeRequstV3 env ctx req).wp
      (fun r _ t => Refused s r t ∨ AddedMe ctx req plan s r t) plan s := by
  have hrefuse : ∀ status plan', Dao.wp (pure (.of status))
      (fun r _ t => Refused s r t ∨ AddedMe ctx req plan s r t) plan' s :=
    fun status _ => Or.inl (refused_of s status)
  unfold onAddMeRequstV3
  split
  · exact hrefuse _ _
  rename_i hcheck
  split
  · exact hrefuse _ _
  rename_i hlimiter
  apply wp_read_plan fun _ => hrefuse _ _
  intro group hplan₀ hgroup
  show Dao.wp (if _ then _ else _) _ _ _
  split
  · exact hrefuse _ _
  rename_i hversion
  -- only a row that was read keeps the handler from going on
  have hinsert : s.row req.gid ctx.uid = none ∨ (plan 1).isSome →
      (insertMe env ctx req group).wp
        (fun r _ t => Refused s r t ∨ AddedMe ctx req plan s r t) plan.tail.tail s := by
    intro hrow
    apply wp_read_plan fun _ => hrefuse _ _
    intro _ hplan₂ hqr
    apply wp_read_plan fun _ => hrefuse _ _
    intro memberCnt hplan₃ hcnt
    apply wp_write fun _ _ => hrefuse _ _
    intro t hplan₄ ht
    apply wp_quiet (quiet_pubGroupSystemMessage _ _ _)
    intro _ _
    apply wp_quiet (quiet_updateGroupKeys _ _ _ _)
    intro _ _
    right
    refine ⟨⟨?_, ?_, ⟨group, found_ok hgroup, not_not.mp hversion⟩, hrow, ?_, ?_, ?_⟩, rfl,
      ⟨memberCnt, counter_ok hcnt, rfl⟩, ⟨_, ?_, (Except.ok.inj ht).symm⟩⟩
    · simpa using hcheck
    · simpa using hlimiter
    · simp only [Read.eval] at hqr
      split at hqr
      · assumption
      · cases hqr
    · rw [← counter_ok hcnt]
      exact memberCnt.toNat_lt
    · intro n hn hne
      interval_cases n
      · exact hplan₀
      · exact absurd rfl hne
      · exact hplan₂
      · exact hplan₃
      · exact hplan₄
    · rfl
  apply wp_read
  · intro code hfault
    exact hinsert (Or.inr (Option.isSome_iff_exists.mpr ⟨code, hfault⟩))
  · intro _
    have heval : Read.eval s (.getMember req.gid ctx.uid) = found (s.row req.gid ctx.uid) := rfl
    rw [heval]
    cases hrow : s.row req.gid ctx.uid with
    | some _ => exact hrefuse _ _
    | none => exact hinsert (Or.inl hrow)

/-! ## Join -/

/-- A join request that is recorded carries the token of the group and a signature
of the one who joins. -/
structure JoinValid (env : Env) (ctx : Context) (req : GroupJoinRequest) (s : Store) : Prop where
  token : ∃ group, s.groups req.gid = some group ∧ req.qrCodeToken = group.shareSignature
  signature : verifyJoin env ctx.account req.qrCode req.qrCodeToken req.signature = true

/-- What a join request can do. -/
inductive JoinOutcome (env : Env) (ctx : Context) (req : GroupJoinRequest) (s : Store) (r : Reply)
    (t : Store) : Prop where
  | refused (count : r.keysCount = none) (store : t = s)
  | recorded (valid : JoinValid env ctx req s) (count : r.keysCount = none)
      (store : t = s.setQrCodeUsers req.gid (Function.update (s.qrCodeUsers req.gid) ctx.uid
        (some (s.clock + kQrCodeGroupUserTtl))))
  | pending (valid : JoinValid env ctx req s) (count : r.keysCount = none)
      (users : Bytes → Option PendingGroupUser) (store : t = s.setPending req.gid users)

theorem join_outcome (env : Env) (ctx : Context) (req : GroupJoinRequest) (plan : Plan ℕ)
    (s : Store) :
    (onGroupJoinRequstV3 env ctx req).wp (fun r _ t => JoinOutcome env ctx req s r t) plan s := by
  have hrefuse : ∀ status plan, Dao.wp (pure (.of status))
      (fun r _ t => JoinOutcome env ctx req s r t) plan s :=
    fun status _ => .refused rfl rfl
  unfold onGroupJoinRequstV3
  split
  · exact hrefuse _ _
  split
  · exact hrefuse _ _
  apply wp_read' (fun e => by cases e <;> exact hrefuse _ _)
  intro group hgroup
  show Dao.wp (if _ then _ else _) _ _ _
  split
  · exact hrefuse _ _
  apply wp_read'
  · intro _
    apply wp_getGroupOwner fun _ => hrefuse _ _
    intro uid owner _ _ _
    show Dao.wp (if _ then _ else _) _ _ _
    split
    · exact hrefuse _ _
    split
    · exact hrefuse _ _
    split
    · exact hrefuse _ _
    rename_i htoken
    split
    · exact hrefuse _ _
    rename_i hsignature
    rw [Bool.not_eq_true', Bool.not_eq_false] at hsignature
    have hvalid : JoinValid env ctx req s :=
      ⟨⟨group, found_ok hgroup, not_not.mp htoken⟩, hsignature⟩
    unfold recordJoin
    split
    · apply wp_write fun _ _ => hrefuse _ _
      intro t _ ht
      exact .recorded hvalid rfl (Except.ok.inj ht).symm
    · apply wp_write fun _ _ => hrefuse _ _
      intro t _ ht
      exact .pending hvalid rfl _ (Except.ok.inj ht).symm
  · intro _ _
    exact .refused rfl rfl

/-! ## Create -/

/-- What a request to create a group can do. Where it fails half-way, the record
may be left without rows. -/
inductive CreateOutcome (env : Env) (ctx : Context) (body : CreateGroupBodyV3) (s : Store)
    (r : Reply) (t : Store) : Prop where
  | refused (h : Refused s r t)
  | undone (count : r.keysCount = none) (unused : s.unused ctx.newGid = true)
      (verifies : body.group.verifies env ctx.account.publicKey = true)
      (group : Option GroupRecord) (keep : group = none ∨ group = some body.group)
      (modes : Gid → Option GroupKeysMode)
      (store : t = { s.setGroup ctx.newGid group with keysMode := modes })
  | created (count : r.keysCount = none) (unused : s.unused ctx.newGid = true)
      (verifies : body.group.verifies env ctx.account.publicKey = true)
      (modes : Gid → Option GroupKeysMode)
      (store : t = { (s.setGroup ctx.newGid (some body.group)).setUsers ctx.newGid
        ((s.users ctx.newGid).insertAll (newRows ctx body)) with keysMode := modes })

theorem create_outcome (env : Env) (ctx : Context) (body : CreateGroupBodyV3) (plan : Plan ℕ)
    (s : Store) :
    (onCreateGroupV3 env ctx body).wp (fun r _ t => CreateOutcome env ctx body s r t) plan s := by
  have hrefuse : ∀ status plan, Dao.wp (pure (.of status))
      (fun r _ t => CreateOutcome env ctx body s r t) plan s :=
    fun status _ => .refused (refused_of s status)
  unfold onCreateGroupV3
  split
  · exact hrefuse _ _
  split
  · exact hrefuse _ _
  split
  · exact hrefuse _ _
  apply wp_quiet (quiet_checkBidirectionalRelationship _ _ _)
  intro status _
  cases status with
  | some status => exact hrefuse _ _
  | none =>
    show Dao.wp (if _ then _ else _) _ _ _
    split
    · exact hrefuse _ _
    split
    · exact hrefuse _ _
    rename_i hverifies
    rw [Bool.not_eq_true', Bool.not_eq_false] at hverifies
    apply wp_write fun _ _ => hrefuse _ _
    intro t _ ht
    obtain ⟨hunused, rfl⟩ : s.unused ctx.newGid = true ∧
        t = s.setGroup ctx.newGid (some body.group) := by
      simp only [Write.apply] at ht
      split at ht
      · exact ⟨‹_›, (Except.ok.inj ht).symm⟩
      · cases ht
    apply wp_write
    · -- the group keys cannot be stored
      intro _ _
      apply wp_write
      · intro _ _
        exact .undone rfl hunused hverifies _ (Or.inr rfl) s.keysMode rfl
      · intro t _ ht
        cases ht
        refine .undone rfl hunused hverifies none (Or.inl rfl) s.keysMode ?_
        simp [Store.setGroup]
    · intro t _ ht
      cases ht
      apply wp_write
      · -- the rows cannot be stored
        intro _ _
        have hclear : ∀ group, group = none ∨ group = some body.group → ∀ modes plan,
            Dao.wp (do
              let _ ← write (.groupKeysClear ctx.newGid)
              return Reply.of .internalServerError)
              (fun r _ t => CreateOutcome env ctx body s r t) plan
              { s.setGroup ctx.newGid group with keysMode := modes } := by
          intro group hkeep modes plan
          apply wp_write
          · intro _ _
            exact .undone rfl hunused hverifies group hkeep modes rfl
          · intro t _ ht
            cases ht
            exact .undone rfl hunused hverifies group hkeep _ rfl
        apply wp_write
        · intro _ _
          exact hclear _ (Or.inr rfl) _ _
        · intro t _ ht
          cases ht
          have hgone := hclear none (Or.inl rfl)
          simp only [Store.setGroup, Function.update_idem] at hgone ⊢
          exact hgone _ _
      · intro t _ ht
        cases ht
        apply wp_quiet (quiet_pubGroupSystemMessage _ _ _)
        intro _ _
        apply wp_quiet (quiet_pubWithRetry _ _ _ _)
        intro _ _
        exact .created rfl hunused hverifies _ rfl

/-! ## Invite -/

/-- The uids of an invitation that are not members yet. -/
def InviteGroupMemberRequestV3.admitted (req : InviteGroupMemberRequestV3) (s : Store) :
    List Bytes :=
  req.members.filter fun m => !s.isMember req.gid m

/-- An invitation that adds rows: for members of the list that are not members of
the group. -/
structure Invited (ctx : Context) (req : InviteGroupMemberRequestV3) (s : Store)
    (rows : List (Bytes × GroupUser)) : Prop where
  inviter : ctx.uid = backendManager ∨ s.isMember req.gid ctx.uid = true
  owner : ∃ uid, s.owner req.gid = some uid
  gate : ∃ group, s.groups req.gid = some group ∧
    (group.ownerConfirm = 0 ∨ s.owner req.gid = some ctx.uid)
  uids : rows.map Prod.fst = req.admitted s
  roles : ∀ r ∈ rows, r.2.role = .member
  nodup : req.members.Nodup

/-- What an invitation can do: it may leave records for review, or add rows. -/
inductive InviteOutcome (ctx : Context) (req : InviteGroupMemberRequestV3) (s : Store) (r : Reply)
    (t : Store) : Prop where
  | quiet (count : r.keysCount = none) (pending : Gid → Bytes → Option PendingGroupUser)
      (store : t = { s with pending := pending })
  | invited (rows : List (Bytes × GroupUser)) (h : Invited ctx req s rows)
      (status : r.status = .ok)
      (count : ∃ memberCnt : UInt32, memberCnt.toNat = s.memberCnt req.gid ∧
        r.keysCount = some (memberCnt + UInt32.ofNat rows.length))
      (store : t = s.setUsers req.gid ((s.users req.gid).insertAll rows))

theorem wp_setPendingUsers {gid : Gid} {users : List PendingGroupUser} {plan : Plan ℕ}
    {s : Store} {Q : Bool → Plan ℕ → Store → Prop}
    (h : ∀ b plan pending, Q b plan { s with pending := pending }) :
    (setPendingUsers gid users).wp Q plan s := by
  induction users generalizing plan s with
  | nil => exact h true plan s.pending
  | cons user users ih =>
      apply wp_write
      · intro _ _
        exact h false _ s.pending
      · intro t _ ht
        cases ht
        apply ih
        intro b plan pending
        exact h b plan pending

theorem inviteForReview_quiet (env : Env) (ctx : Context) (gid : Gid)
    (members signatureInfos : List Bytes) (plan : Plan ℕ) (s : Store)
    {Q : Reply → Plan ℕ → Store → Prop}
    (h : ∀ r plan pending, r.keysCount = none → Q r plan { s with pending := pending }) :
    (inviteForReview env ctx gid members signatureInfos).wp Q plan s := by
  have hrefuse : ∀ status plan, Dao.wp (pure (.of status)) Q plan s :=
    fun status plan => h _ plan s.pending rfl
  unfold inviteForReview
  split
  · exact hrefuse _ _
  split
  · exact hrefuse _ _
  apply wp_memberRoles fun _ => hrefuse _ _
  intro roles _ _
  apply Program.wp_bind
  apply wp_setPendingUsers
  intro b plan pending
  cases b with
  | true => exact h _ _ _ rfl
  | false => exact h _ _ _ rfl

theorem alreadyInGroup_eq (r : Role) : alreadyInGroup r = r.counts := by
  cases r <;> decide

/-- The rows of an invitation, for roles as they are stored. -/
theorem invitedRows_uids {ctx : Context} {group : GroupRecord} {roles : Bytes → Role}
    {req : InviteGroupMemberRequestV3} {s : Store}
    (hroles : ∀ uid ∈ req.members, roles uid = (s.role req.gid uid).getD .undefine)
    (hproofs : req.members.length = req.memberProofs.length)
    (hsecrets : req.members.length = req.memberGroupInfoSecrets.length) :
    (invitedRows ctx group roles req).map Prod.fst = req.admitted s := by
  have hlen : req.members.length ≤
      (req.memberGroupInfoSecrets.zip req.memberProofs).length := by
    rw [List.length_zip, ← hproofs, ← hsecrets, Nat.min_self]
  have hzip : (req.members.zip (req.memberGroupInfoSecrets.zip req.memberProofs)).map Prod.fst =
      req.members := List.map_fst_zip hlen
  unfold invitedRows InviteGroupMemberRequestV3.admitted
  rw [List.map_map]
  calc _ = ((req.members.zip (req.memberGroupInfoSecrets.zip req.memberProofs)).filter
        ((fun m => !alreadyInGroup (roles m)) ∘ Prod.fst)).map Prod.fst := rfl
    _ = req.members.filter fun m => !alreadyInGroup (roles m) := by
        rw [← List.filter_map, hzip]
    _ = req.members.filter fun m => !s.isMember req.gid m := by
        apply List.filter_congr
        intro m hm
        rw [alreadyInGroup_eq, hroles m hm, s.isMember_eq]
        cases s.role req.gid m <;> rfl

theorem check_nodup {req : InviteGroupMemberRequestV3} (h : req.check = true) :
    req.members.Nodup := by
  simp only [InviteGroupMemberRequestV3.check, Bool.and_eq_true, decide_eq_true_eq] at h
  tauto

theorem invite_outcome (env : Env) (ctx : Context) (req : InviteGroupMemberRequestV3)
    (plan : Plan ℕ) (s : Store) :
    (onInviteGroupMemberV3 env ctx req).wp (fun r _ t => InviteOutcome ctx req s r t) plan s := by
  have hquiet : ∀ (r : Reply) (plan : Plan ℕ), r.keysCount = none → Dao.wp (pure r)
      (fun r _ t => InviteOutcome ctx req s r t) plan s :=
    fun r _ hcount => .quiet hcount s.pending rfl
  have hrefuse : ∀ status plan, Dao.wp (pure (.of status))
      (fun r _ t => InviteOutcome ctx req s r t) plan s :=
    fun status plan => hquiet _ plan rfl
  unfold onInviteGroupMemberV3
  split
  · exact hrefuse _ _
  split
  · exact hrefuse _ _
  rename_i hcheck
  rw [Bool.not_eq_true', Bool.not_eq_false] at hcheck
  split
  · exact hrefuse _ _
  apply wp_checkInviter fun _ _ => hrefuse _ _
  intro _ hinviter
  apply wp_read' (fun e => by cases e <;> exact hrefuse _ _)
  intro group hgroup
  show Dao.wp (if _ then _ else _) _ _ _
  split
  · exact hrefuse _ _
  apply wp_read' fun _ => hrefuse _ _
  intro ownerUid howner
  show Dao.wp (if _ then _ else _) _ _ _
  split
  · apply inviteForReview_quiet
    intro r _ pending hcount
    exact .quiet hcount pending rfl
  · rename_i hgate
    unfold inviteDirectly
    split
    · exact hrefuse _ _
    rename_i hsizes
    rw [not_or, not_not, not_not] at hsizes
    apply wp_memberRoles fun _ => hrefuse _ _
    intro roles _ hroles
    show Dao.wp (if _ then _ else _) _ _ _
    split
    · exact hquiet _ _ rfl
    apply wp_read' fun _ => hrefuse _ _
    intro memberCnt hcnt
    apply wp_write fun _ _ => hrefuse _ _
    intro t _ ht
    apply wp_quiet (quiet_pubGroupSystemMessage _ _ _)
    intro _ _
    apply wp_quiet (quiet_updateGroupKeys _ _ _ _)
    intro _ _
    refine .invited (invitedRows ctx group roles req) ?_ rfl
      ⟨memberCnt, counter_ok hcnt, rfl⟩ (Except.ok.inj ht).symm
    refine ⟨hinviter, ⟨ownerUid, found_ok howner⟩, ⟨group, found_ok hgroup, ?_⟩,
      invitedRows_uids hroles hsizes.1 hsizes.2, ?_, check_nodup hcheck⟩
    · by_cases hconfirm : group.ownerConfirm = 0
      · exact Or.inl hconfirm
      right
      have howns : ownerUid = ctx.uid := by
        by_contra hne
        exact hgate ⟨hconfirm, hne⟩
      rw [← howns]
      exact found_ok howner
    · intro r hr
      obtain ⟨x, -, rfl⟩ := List.mem_map.mp hr
      rfl

/-! ## Review -/

/-- The uids a review accepts that have no row, as they are listed. -/
def ReviewJoinResultRequestV3.admitted (req : ReviewJoinResultRequestV3) (s : Store) :
    List Bytes :=
  ((req.list.filter ReviewJoinResultV3.accepted).map ReviewJoinResultV3.uid).filter fun uid =>
    (s.row req.gid uid).isNone

/-- What a review can do: it adds rows for accepted users without one, and takes
the listed users off the pending list. -/
inductive ReviewOutcome (ctx : Context) (req : ReviewJoinResultRequestV3) (s : Store) (r : Reply)
    (t : Store) : Prop where
  | quiet (count : r.keysCount = none) (pending : Gid → Bytes → Option PendingGroupUser)
      (store : t = { s with pending := pending })
  | reviewed (owner : s.owner req.gid = some ctx.uid) (rows : List (Bytes × GroupUser))
      (uids : rows.map Prod.fst = req.admitted s) (roles : ∀ r ∈ rows, r.2.role = .member)
      (status : r.status = .ok)
      (count : ∃ memberCnt : UInt32, memberCnt.toNat = s.memberCnt req.gid ∧
        r.keysCount = some (memberCnt + UInt32.ofNat rows.length))
      (pending : Gid → Bytes → Option PendingGroupUser)
      (store : t = { s.setUsers req.gid ((s.users req.gid).insertAll rows) with
        pending := pending })

/-- The rows of the listed users, as they are stored. -/
theorem wp_existedUsers {α : Type} {Q : α → Plan ℕ → Store → Prop} {plan : Plan ℕ} {s : Store}
    {gid : Gid} {uids : List Bytes} {k : Option (List (Bytes × GroupUser)) → Dao α}
    (hnone : ∀ plan, (k none).wp Q plan s)
    (hsome : ∀ existed plan,
      (∀ u ∈ existed, s.row gid u.1 = some u.2) →
      (∀ uid ∈ uids, (existed.any fun u => u.1 = uid) = (s.row gid uid).isSome) →
      (k (some existed)).wp Q plan s) : (existedUsers gid uids >>= k).wp Q plan s := by
  apply Program.wp_bind
  unfold existedUsers
  split
  · rename_i hempty
    rw [List.isEmpty_iff] at hempty
    subst hempty
    exact hsome [] _ (fun u hu => absurd hu List.not_mem_nil)
      fun uid huid => absurd huid List.not_mem_nil
  · apply wp_read
    · intro code _
      exact hnone _
    · intro _
      have heval : Read.eval s (.getMemberBatch gid uids) =
          if (s.users gid).entries.isEmpty then .error .noSuchData
          else .ok (uids.filterMap fun uid => (s.row gid uid).map (uid, ·)) := rfl
      rw [heval]
      by_cases hempty : (s.users gid).entries.isEmpty
      · rw [if_pos hempty]
        apply hsome
        · intro u hu
          exact absurd hu List.not_mem_nil
        · intro uid _
          have hnorow : s.row gid uid = none := by
            rw [List.isEmpty_iff] at hempty
            rw [Store.row, AList.lookup, hempty]
            rfl
          rw [hnorow]
          rfl
      · rw [if_neg hempty]
        apply hsome
        · intro u hu
          obtain ⟨uid, -, hmap⟩ := List.mem_filterMap.mp hu
          obtain ⟨row, hrow, heq⟩ := Option.map_eq_some_iff.mp hmap
          rw [← heq]
          exact hrow
        · intro uid huid
          exact mem_filterMap_row huid

theorem acceptedNew_uids {req : ReviewJoinResultRequestV3} {s : Store}
    {existed : List (Bytes × GroupUser)}
    (h : ∀ uid ∈ (req.list.filter ReviewJoinResultV3.accepted).map ReviewJoinResultV3.uid,
      (existed.any fun u => u.1 = uid) = (s.row req.gid uid).isSome) :
    (acceptedNew req existed).map ReviewJoinResultV3.uid = req.admitted s := by
  unfold acceptedNew ReviewJoinResultRequestV3.admitted
  rw [List.filter_map, ← List.filter_filter]
  congr 1
  rw [List.filter_filter, List.filter_filter]
  apply List.filter_congr
  intro item hitem
  by_cases haccepted : item.accepted = true
  · have hmem : item.uid ∈
        (req.list.filter ReviewJoinResultV3.accepted).map ReviewJoinResultV3.uid :=
      List.mem_map.mpr ⟨item, List.mem_filter.mpr ⟨hitem, haccepted⟩, rfl⟩
    simp [haccepted, h item.uid hmem, Option.not_isSome]
  · simp [haccepted]

theorem review_outcome (env : Env) (ctx : Context) (req : ReviewJoinResultRequestV3)
    (plan : Plan ℕ) (s : Store) :
    (onReviewJoinRequestV3 env ctx req).wp (fun r _ t => ReviewOutcome ctx req s r t) plan s := by
  have hrefuse : ∀ status plan, Dao.wp (pure (.of status))
      (fun r _ t => ReviewOutcome ctx req s r t) plan s :=
    fun status _ => .quiet rfl s.pending rfl
  unfold onReviewJoinRequestV3
  split
  · exact hrefuse _ _
  apply wp_read' fun _ => hrefuse _ _
  intro ownerUid howner
  show Dao.wp (if _ then _ else _) _ _ _
  split
  · exact hrefuse _ _
  rename_i howns
  apply wp_read' fun _ => hrefuse _ _
  intro group _
  show Dao.wp (if _ then _ else _) _ _ _
  split
  · exact hrefuse _ _
  split
  · exact hrefuse _ _
  apply wp_existedUsers fun _ => hrefuse _ _
  intro existed _ _ hexisted
  -- the pending list at the end
  have hend : ∀ (t : Store) (keysCount : Option UInt32) plan,
      (∀ pending, ReviewOutcome ctx req s { status := .ok, keysCount }
        { t with pending := pending }) →
      (finishReview req keysCount).wp (fun r _ t => ReviewOutcome ctx req s r t) plan t := by
    intro t keysCount plan h
    unfold finishReview
    split
    · apply wp_write
      · intro _ _
        exact h t.pending
      · intro t' _ ht'
        cases ht'
        exact h _
    · exact h t.pending
  apply Program.wp_bind
  unfold insertReviewed
  split
  · apply hend
    intro pending
    exact .quiet rfl pending rfl
  apply wp_read' fun _ => hrefuse _ plan
  intro memberCnt hcnt
  apply wp_write fun _ _ => hrefuse _ plan
  intro t _ ht
  cases ht
  apply wp_quiet (quiet_pubForEach _ _)
  intro _ _
  apply wp_quiet (quiet_updateGroupKeys _ _ _ _)
  intro _ _
  apply hend
  intro pending
  have huids : (reviewedRows ctx group (acceptedNew req existed)).map Prod.fst =
      req.admitted s := by
    unfold reviewedRows
    rw [List.map_map]
    exact acceptedNew_uids hexisted
  refine .reviewed ?_ (reviewedRows ctx group (acceptedNew req existed)) huids ?_ rfl
    ⟨memberCnt, counter_ok hcnt, ?_⟩ pending rfl
  · rw [← not_not.mp howns]
    exact found_ok howner
  · intro r hr
    obtain ⟨item, -, rfl⟩ := List.mem_map.mp hr
    rfl
  · unfold reviewedRows
    rw [List.length_map]

/-! ## Update -/

/-- An update that takes effect. -/
structure Updated (env : Env) (ctx : Context) (body : UpdateGroupInfoBodyV2)
    (upData : GroupUpdate) (s : Store) (t : Store) : Prop where
  owner : s.role body.gid ctx.uid = some .owner
  store : ∃ group, s.groups body.gid = some group ∧
    (body.qrCodeSetting.isEmpty ∧ body.ownerConfirm = -1 ∨
      (group.update upData).verifies env ctx.account.publicKey = true) ∧
    ∃ pending, t = { s.setGroup body.gid (some (group.update upData)) with pending := pending }

theorem Updated.users {env : Env} {ctx : Context} {body : UpdateGroupInfoBodyV2}
    {upData : GroupUpdate} {s t : Store} (h : Updated env ctx body upData s t) :
    t.users = s.users := by
  obtain ⟨group, _, _, pending, hstore⟩ := h.store
  rw [hstore]
  rfl

/-- The settings pass if they do not change, or verify. -/
theorem wp_checkSettings {α : Type} {Q : α → Plan ℕ → Store → Prop} {plan : Plan ℕ} {s : Store}
    {env : Env} {ctx : Context} {body : UpdateGroupInfoBodyV2} {upData : GroupUpdate}
    {k : Option HttpStatus → Dao α}
    (hrefuse : ∀ status plan, (k (some status)).wp Q plan s)
    (hpass : ∀ plan, (∀ group, s.groups body.gid = some group →
        body.qrCodeSetting.isEmpty ∧ body.ownerConfirm = -1 ∨
          (group.update upData).verifies env ctx.account.publicKey = true) →
      (k none).wp Q plan s) : (checkSettings env ctx body upData >>= k).wp Q plan s := by
  apply Program.wp_bind
  unfold checkSettings
  split
  · rename_i hnone
    exact hpass _ fun _ _ => Or.inl hnone
  · apply wp_read' fun _ => hrefuse _ _
    intro g hg
    show Dao.wp (if _ then _ else _) _ _ _
    split
    · rename_i hverifies
      apply hpass
      intro group hgroup
      have hsame : g = group := Option.some.inj ((found_ok hg).symm.trans hgroup)
      rw [← hsame]
      exact Or.inr hverifies
    · exact hrefuse _ _

theorem update_outcome (env : Env) (ctx : Context) (body : UpdateGroupInfoBodyV2)
    (violation : Option String) (upData : GroupUpdate) (plan : Plan ℕ) (s : Store) :
    (onUpdateGroupInfo env ctx body violation upData).wp
      (fun r _ t => r.keysCount = none ∧ (t = s ∨ Updated env ctx body upData s t)) plan s := by
  have hrefuse : ∀ status plan, Dao.wp (pure (Reply.of status))
      (fun r _ t => r.keysCount = none ∧ (t = s ∨ Updated env ctx body upData s t)) plan s :=
    fun status _ => ⟨rfl, Or.inl rfl⟩
  unfold onUpdateGroupInfo
  split
  · exact hrefuse _ _
  apply wp_read' (fun e => by cases e <;> exact hrefuse _ _)
  intro role hrole
  show Dao.wp (if _ then _ else _) _ _ _
  split
  · exact hrefuse _ _
  rename_i howner
  have hrole : s.role body.gid ctx.uid = some .owner := by
    rw [← not_not.mp howner]
    exact found_ok hrole
  apply wp_checkSettings
  · intro status plan
    exact hrefuse status plan
  intro plan hchecked
  apply wp_write fun _ _ => hrefuse _ _
  intro t _ ht
  obtain ⟨group, hgroup, rfl⟩ : ∃ group, s.groups body.gid = some group ∧
      t = s.setGroup body.gid (some (group.update upData)) := by
    simp only [Write.apply] at ht
    obtain ⟨group, hgroup, ht⟩ := bind_eq_ok.mp ht
    exact ⟨group, found_ok hgroup, (Except.ok.inj ht).symm⟩
  have hpublish : ∀ pending plan, (publishUpdate ctx body.gid).wp
      (fun r _ t => r.keysCount = none ∧ (t = s ∨ Updated env ctx body upData s t)) plan
      { s.setGroup body.gid (some (group.update upData)) with pending := pending } := by
    intro pending plan
    have hupdated : Updated env ctx body upData s
        { s.setGroup body.gid (some (group.update upData)) with pending := pending } :=
      ⟨hrole, group, hgroup, hchecked group hgroup, pending, rfl⟩
    apply wp_read'
    · intro _
      exact ⟨rfl, Or.inr hupdated⟩
    · intro _ _
      apply wp_quiet (quiet_pubGroupSystemMessage _ _ _)
      intro _ _
      exact ⟨rfl, Or.inr hupdated⟩
  show Dao.wp (if _ then _ else _) _ _ _
  split
  · apply wp_write
    · intro _ _
      exact hpublish s.pending _
    · intro t _ ht
      cases ht
      exact hpublish _ _
  · exact hpublish s.pending _

end BcmServer.Group
