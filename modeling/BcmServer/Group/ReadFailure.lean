import BcmServer.Group.Service
import BcmServer.Lts.FailFast

/-!
# BcmServer.Group.ReadFailure — a read that fails

The six handlers that change the members of a group read the tables up to half a
dozen times before they write. A read may fail with an error that is not that of
missing data. The handlers fail fast: they answer with an error, and have not
written to the tables of members, of pending users and of QR-code users.

There are two exceptions. The reads for the new keys come after the change, and a
failure is only logged. And the read of the caller's own row, in join and add-me,
is not told from a missing row.
-/

namespace BcmServer.Group

open BcmServer.Util BcmServer.Lts GroupManagerController

/-- The write changes the members, the pending users or the QR-code users. -/
def Write.members : Write → Bool
  | insert _ _ _ | insertBatch _ _ | delMember _ _ | delMemberBatch _ _ => true
  | updateRole _ _ _ | updateIfEmpty _ _ _ => true
  | pendingSet _ _ | pendingDel _ _ | pendingClear _ => true
  | qrCodeGroupUsersSet _ _ _ => true
  | groupsCreate _ _ | groupsUpdate _ _ | groupsDel _ => false
  | groupKeysInsert _ _ | groupKeysClear _ | groupMessageInsert _ _ _ => false

/-- The reads whose failures end a request. -/
def Read.guarded : Read → Bool
  | getMember _ _ | getLatestMode _ | getKeysByGid _ => false
  | _ => true

def WritesMembers : DaoCall → Prop
  | .read _ => False
  | .write w => w.members = true

/-- A guarded read with an error that is not that of missing data -/
def ReadFails : (c : DaoCall) → c.Answer → Prop
  | .read r, a => r.guarded = true ∧ ∃ e, a = .error e ∧ e ≠ .noSuchData
  | .write _, _ => False

/-- The errors that are not that of missing data -/
theorem of_ne_noSuchData {P : DaoError → Prop} (hexisted : P .alreadyExisted)
    (hother : ∀ code, P (.other code)) (e : DaoError) (he : e ≠ .noSuchData) : P e := by
  cases e with
  | noSuchData => exact absurd rfl he
  | alreadyExisted => exact hexisted
  | other code => exact hother code

section Rules

variable {α β : Type} {error : α → Prop}

/-- Nothing is written, and the value is an error. -/
abbrev Refusing (error : α → Prop) (p : Dao α) : Prop := p.Refuses WritesMembers error

/-- Nothing is read that is guarded. -/
abbrev Unguarded (p : Dao α) : Prop := p.Reckless ReadFails

/-- The program fails fast. -/
abbrev Careful (error : α → Prop) (p : Dao α) : Prop :=
  p.FailFast WritesMembers ReadFails error

theorem careful_pure (a : α) : Careful error (pure a) := trivial

theorem careful_read {r : Read} {k : Except DaoError r.Res → Dao α}
    (hfail : r.guarded = true → ∀ e, e ≠ .noSuchData → Refusing error (k (.error e)))
    (h : ∀ a, Careful error (k a)) : Careful error (Dao.read r >>= k) := by
  intro a
  refine ⟨?_, ?_, h a⟩
  · rintro ⟨hguarded, e, rfl, he⟩
    exact ⟨fun hwrites => hwrites, hfail hguarded e he⟩
  · intro hwrites
    exact hwrites.elim

/-- A read whose errors all end the program. -/
theorem careful_read' {r : Read} {k : Except DaoError r.Res → Dao α} {b : α}
    (herror : ∀ e, k (.error e) = pure b) (hb : error b)
    (hok : ∀ a, Careful error (k (.ok a))) : Careful error (Dao.read r >>= k) := by
  apply careful_read
  · intro _ e _
    rw [herror]
    exact hb
  · intro a
    cases a with
    | error e =>
        rw [herror]
        exact careful_pure b
    | ok a => exact hok a

/-- Behind a write nothing may be read that is guarded. -/
theorem careful_write {w : Write} {k : Except DaoError Unit → Dao α}
    (h : ∀ a, Unguarded (k a)) : Careful error (Dao.write w >>= k) := by
  intro a
  exact ⟨fun hfails => hfails.elim, fun _ => h a, (h a).failFast⟩

theorem unguarded_pure (a : α) : Unguarded (pure a : Dao α) := trivial

theorem unguarded_read {r : Read} {k : Except DaoError r.Res → Dao α}
    (hr : r.guarded = false) (h : ∀ a, Unguarded (k a)) : Unguarded (Dao.read r >>= k) := by
  intro a
  refine ⟨?_, h a⟩
  rintro ⟨hguarded, -⟩
  exact Bool.noConfusion (hguarded.symm.trans hr)

theorem unguarded_write {w : Write} {k : Except DaoError Unit → Dao α}
    (h : ∀ a, Unguarded (k a)) : Unguarded (Dao.write w >>= k) := by
  intro a
  exact ⟨fun hfails => hfails, h a⟩

/-! ### Checks -/

/-- A part that only reads, and gives `bad` after a read that fails -/
structure Guards (bad : β) (p : Dao β) : Prop where
  careful : Careful (fun b => b = bad) p
  quiet : Refusing (fun _ => True) p

theorem guards_pure (bad b : β) : Guards bad (pure b : Dao β) := ⟨trivial, trivial⟩

theorem guards_read {r : Read} {k : Except DaoError r.Res → Dao β} {bad : β}
    (hfail : ∀ e, e ≠ .noSuchData → k (.error e) = pure bad)
    (h : ∀ a, Guards bad (k a)) : Guards bad (Dao.read r >>= k) := by
  constructor
  · apply careful_read
    · intro _ e he
      rw [hfail e he]
      exact rfl
    · intro a
      exact (h a).careful
  · exact ⟨fun hwrites => hwrites, fun a => (h a).quiet⟩

/-- A check before the rest of a handler. -/
theorem careful_guards {p : Dao β} {k : β → Dao α} {bad : β} (hp : Guards bad p)
    (hbad : Refusing error (k bad)) (hk : ∀ b, Careful error (k b)) :
    Careful error (p >>= k) := by
  refine Program.FailFast.bind (hp.careful.mono ?_) hp.quiet hk
  rintro b rfl
  exact hbad

theorem guards_bind {p : Dao α} {k : α → Dao β} {bad : α} {bad' : β} (hp : Guards bad p)
    (hbad : k bad = pure bad') (hk : ∀ a, Guards bad' (k a)) : Guards bad' (p >>= k) := by
  constructor
  · apply careful_guards hp
    · rw [hbad]
      exact rfl
    · intro a
      exact (hk a).careful
  · apply Program.Refuses.bind
    apply hp.quiet.mono
    intro a _
    exact (hk a).quiet

end Rules

/-! ## The parts of the handlers -/

theorem unguarded_pubGroupSystemMessage (uid : Bytes) (gid : Gid) (type : SystemMessage) :
    Unguarded (pubGroupSystemMessage uid gid type) := by
  apply unguarded_write
  intro a
  cases a <;> exact unguarded_pure _

theorem unguarded_pubWithRetry (uid : Bytes) (gid : Gid) (type : SystemMessage) (n : ℕ) :
    Unguarded (pubWithRetry uid gid type n) := by
  induction n with
  | zero => exact unguarded_pure false
  | succ n ih =>
      apply (unguarded_pubGroupSystemMessage uid gid type).bind
      intro b
      cases b with
      | true => exact unguarded_pure true
      | false => exact ih

theorem unguarded_pubForEach (gid : Gid) (inviters : List Bytes) :
    Unguarded (pubForEach gid inviters) := by
  induction inviters with
  | nil => exact unguarded_pure ()
  | cons inviter inviters ih =>
      apply (unguarded_pubGroupSystemMessage inviter gid .memberUpdate).bind
      intro _
      exact ih

/-- The reads for the new keys are not guarded. -/
theorem unguarded_updateGroupKeys (env : Env) (uid : Bytes) (gid : Gid) (count : UInt32) :
    Unguarded (updateGroupKeys env uid gid count) := by
  have hlatest : Unguarded (latestMode env.groupConfig gid count) := by
    unfold latestMode
    split
    · apply unguarded_read rfl
      intro a
      cases a <;> exact unguarded_pure _
    · exact unguarded_pure none
  apply hlatest.bind
  intro latest
  split
  · apply (unguarded_pubWithRetry uid gid .updateGroupKeysRequest 3).bind
    intro b
    split
    · split
      · apply unguarded_read rfl
        intro _
        exact unguarded_pure ()
      · exact unguarded_pure ()
    · exact unguarded_pure ()
  · exact unguarded_pure ()
  · exact unguarded_pure ()

/-- The last part of the handlers that change the members: the message, and the
request for new keys. -/
theorem unguarded_announce (env : Env) (uid : Bytes) (gid : Gid) (count : UInt32) (r : Reply) :
    Unguarded (do
      let _ ← pubGroupSystemMessage uid gid .memberUpdate
      updateGroupKeys env uid gid count
      return r : Dao Reply) := by
  apply (unguarded_pubGroupSystemMessage uid gid .memberUpdate).bind
  intro _
  apply (unguarded_updateGroupKeys env uid gid count).bind
  intro _
  exact unguarded_pure r

theorem guards_getGroupOwner (gid : Gid) : Guards none (getGroupOwner gid) := by
  apply guards_read fun _ _ => rfl
  intro a
  cases a with
  | error e => exact guards_pure _ _
  | ok ownerUid =>
      apply guards_read fun _ _ => rfl
      intro a
      cases a <;> exact guards_pure _ _

theorem guards_memberRoles (gid : Gid) (uids : List Bytes) :
    Guards none (memberRoles gid uids) := by
  apply guards_read
  · exact of_ne_noSuchData rfl fun _ => rfl
  · intro a
    rcases a with (_ | _ | _) | _ <;> exact guards_pure _ _

theorem guards_existedUsers (gid : Gid) (uids : List Bytes) :
    Guards none (existedUsers gid uids) := by
  unfold existedUsers
  split
  · exact guards_pure _ _
  · apply guards_read
    · exact of_ne_noSuchData rfl fun _ => rfl
    · intro a
      rcases a with (_ | _ | _) | _ <;> exact guards_pure _ _

theorem guards_checkMembersFilters (env : Env) (account : Account) (members : List Bytes) :
    Guards (some .internalServerError) (checkMembersFilters env account members) := by
  induction members with
  | nil => exact guards_pure _ _
  | cons m members ih =>
      apply guards_read fun _ _ => rfl
      intro a
      cases a with
      | error e => exact guards_pure _ _
      | ok memberAccount =>
          show Guards _ (if _ then _ else _)
          split
          · exact guards_pure _ _
          · exact ih

theorem guards_checkBidirectionalRelationshipBypassSubscribers (env : Env) (account : Account)
    (gid : Gid) (members : List Bytes) :
    Guards (some .internalServerError)
      (checkBidirectionalRelationshipBypassSubscribers env account gid members) := by
  refine guards_bind (guards_memberRoles gid members) ?_ ?_
  · rfl
  intro roles
  cases roles with
  | none => exact guards_pure _ _
  | some roles =>
      show Guards _ (if _ then _ else _)
      split
      · exact guards_pure _ _
      · exact guards_checkMembersFilters env account _

theorem guards_checkInviter (env : Env) (ctx : Context) (gid : Gid) (members : List Bytes) :
    Guards (some .internalServerError) (checkInviter env ctx gid members) := by
  unfold checkInviter
  split
  · exact guards_pure _ _
  · apply guards_read
    · exact of_ne_noSuchData rfl fun _ => rfl
    · intro a
      rcases a with (_ | _ | _) | role
      · exact guards_pure _ _
      · exact guards_pure _ _
      · exact guards_pure _ _
      · show Guards _ (if _ then _ else _)
        split
        · exact guards_pure _ _
        · exact guards_checkBidirectionalRelationshipBypassSubscribers env _ gid members

/-! ## The handlers -/

/-- The handler fails fast. -/
abbrev CarefulReply (p : Dao Reply) : Prop := Careful (fun r => r.status.isError = true) p

theorem careful_kick (env : Env) (ctx : Context) (body : KickGroupMemberBody) :
    CarefulReply (onKickGroupMemberV3 env ctx body) := by
  unfold onKickGroupMemberV3
  split
  · exact careful_pure _
  refine careful_read' (fun _ => rfl) rfl ?_
  intro group
  show CarefulReply (if _ then _ else _)
  split
  · exact careful_pure _
  refine careful_read' (fun _ => rfl) rfl ?_
  intro memberCnt
  refine careful_read' (fun _ => rfl) rfl ?_
  intro role
  show CarefulReply (if _ then _ else _)
  split
  · exact careful_pure _
  refine careful_read' (fun _ => rfl) rfl ?_
  intro users
  apply careful_write
  intro a
  cases a with
  | error e => exact unguarded_pure _
  | ok _ => exact unguarded_announce _ _ _ _ _

theorem unguarded_deleteLeaver (env : Env) (ctx : Context) (gid : Gid) (memberCnt : UInt32)
    (promoted : Bool) : Unguarded (deleteLeaver env ctx gid memberCnt promoted) := by
  apply unguarded_write
  intro a
  cases a with
  | error e => exact unguarded_pure _
  | ok _ =>
      cases promoted with
      | false => exact unguarded_announce _ _ _ _ _
      | true =>
          apply (unguarded_pubGroupSystemMessage _ _ _).bind
          intro _
          exact unguarded_announce _ _ _ _ _

theorem careful_leave (env : Env) (ctx : Context) (body : LeaveGroupBody) :
    CarefulReply (onLeaveGroupV3 env ctx body) := by
  unfold onLeaveGroupV3
  split
  · exact careful_pure _
  refine careful_read' (fun _ => rfl) rfl ?_
  intro group
  show CarefulReply (if _ then _ else _)
  split
  · exact careful_pure _
  refine careful_read' (fun _ => rfl) rfl ?_
  rintro ⟨memberCnt, role, nextOwnerRole⟩
  show CarefulReply (if _ then _ else _)
  split
  · exact careful_pure _
  split
  · exact careful_pure _
  show CarefulReply (if decide (role = .owner ∧ 1 < memberCnt) = true then _ else _)
  split
  · split
    · exact careful_pure _
    apply careful_write
    intro a
    cases a with
    | error e => exact unguarded_pure _
    | ok _ => exact unguarded_deleteLeaver _ _ _ _ _
  · exact (unguarded_deleteLeaver _ _ _ _ _).failFast

theorem careful_join (env : Env) (ctx : Context) (req : GroupJoinRequest) :
    CarefulReply (onGroupJoinRequstV3 env ctx req) := by
  -- what follows the read of the caller's row
  have hrecord : ∀ group, CarefulReply (recordJoin ctx req group) := by
    intro group
    unfold recordJoin
    split
    · apply careful_write
      intro a
      cases a <;> exact unguarded_pure _
    · apply careful_write
      intro a
      cases a <;> exact unguarded_pure _
  unfold onGroupJoinRequstV3
  split
  · exact careful_pure _
  split
  · exact careful_pure _
  apply careful_read
  · intro _
    exact of_ne_noSuchData rfl fun _ => rfl
  intro a
  rcases a with (_ | _ | _) | group
  · exact careful_pure _
  · exact careful_pure _
  · exact careful_pure _
  show CarefulReply (if _ then _ else _)
  split
  · exact careful_pure _
  -- the caller's own row: not guarded, the handler goes on after any error
  apply careful_read fun hguarded => Bool.noConfusion hguarded
  intro a
  cases a with
  | ok user => exact careful_pure _
  | error e =>
      apply careful_guards (guards_getGroupOwner req.gid)
      · exact rfl
      intro owner
      cases owner with
      | none => exact careful_pure _
      | some owner =>
          show CarefulReply (if _ then _ else _)
          split
          · exact careful_pure _
          split
          · exact careful_pure _
          split
          · exact careful_pure _
          split
          · exact careful_pure _
          exact hrecord group

theorem careful_addMe (env : Env) (ctx : Context) (req : AddMeRequestV3) :
    CarefulReply (onAddMeRequstV3 env ctx req) := by
  unfold onAddMeRequstV3
  split
  · exact careful_pure _
  split
  · exact careful_pure _
  refine careful_read' (fun _ => rfl) rfl ?_
  intro group
  show CarefulReply (if _ then _ else _)
  split
  · exact careful_pure _
  apply careful_read fun hguarded => Bool.noConfusion hguarded
  intro a
  cases a with
  | ok user => exact careful_pure _
  | error e =>
      refine careful_read' (fun _ => rfl) rfl ?_
      intro _
      refine careful_read' (fun _ => rfl) rfl ?_
      intro memberCnt
      apply careful_write
      intro a
      cases a with
      | error e => exact unguarded_pure _
      | ok _ => exact unguarded_announce _ _ _ _ _

theorem unguarded_setPendingUsers (gid : Gid) (users : List PendingGroupUser) :
    Unguarded (setPendingUsers gid users) := by
  induction users with
  | nil => exact unguarded_pure true
  | cons user users ih =>
      apply unguarded_write
      intro a
      cases a with
      | error e => exact unguarded_pure false
      | ok _ => exact ih

theorem careful_invite (env : Env) (ctx : Context) (req : InviteGroupMemberRequestV3) :
    CarefulReply (onInviteGroupMemberV3 env ctx req) := by
  have hreview : CarefulReply
      (inviteForReview env ctx req.gid req.members req.signatureInfos) := by
    unfold inviteForReview
    split
    · exact careful_pure _
    split
    · exact careful_pure _
    apply careful_guards (guards_memberRoles _ _)
    · exact rfl
    intro roles
    cases roles with
    | none => exact careful_pure _
    | some roles =>
        apply Program.Reckless.failFast
        apply (unguarded_setPendingUsers _ _).bind
        intro b
        cases b <;> exact unguarded_pure _
  have hdirect : ∀ group, CarefulReply (inviteDirectly env ctx req group) := by
    intro group
    unfold inviteDirectly
    split
    · exact careful_pure _
    apply careful_guards (guards_memberRoles _ _)
    · exact rfl
    intro roles
    cases roles with
    | none => exact careful_pure _
    | some roles =>
        show CarefulReply (if _ then _ else _)
        split
        · exact careful_pure _
        refine careful_read' (fun _ => rfl) rfl ?_
        intro memberCnt
        apply careful_write
        intro a
        cases a with
        | error e => exact unguarded_pure _
        | ok _ => exact unguarded_announce _ _ _ _ _
  unfold onInviteGroupMemberV3
  split
  · exact careful_pure _
  split
  · exact careful_pure _
  split
  · exact careful_pure _
  apply careful_guards (guards_checkInviter env ctx req.gid req.members)
  · exact rfl
  intro status
  cases status with
  | some status => exact careful_pure _
  | none =>
      apply careful_read
      · intro _
        exact of_ne_noSuchData rfl fun _ => rfl
      intro a
      rcases a with (_ | _ | _) | group
      · exact careful_pure _
      · exact careful_pure _
      · exact careful_pure _
      show CarefulReply (if _ then _ else _)
      split
      · exact careful_pure _
      refine careful_read' (fun _ => rfl) rfl ?_
      intro ownerUid
      show CarefulReply (if _ then _ else _)
      split
      · exact hreview
      · exact hdirect group

theorem unguarded_finishReview (req : ReviewJoinResultRequestV3) (keysCount : Option UInt32) :
    Unguarded (finishReview req keysCount) := by
  unfold finishReview
  split
  · apply unguarded_write
    intro _
    exact unguarded_pure _
  · exact unguarded_pure _

theorem careful_review (env : Env) (ctx : Context) (req : ReviewJoinResultRequestV3) :
    CarefulReply (onReviewJoinRequestV3 env ctx req) := by
  unfold onReviewJoinRequestV3
  split
  · exact careful_pure _
  refine careful_read' (fun _ => rfl) rfl ?_
  intro ownerUid
  show CarefulReply (if _ then _ else _)
  split
  · exact careful_pure _
  refine careful_read' (fun _ => rfl) rfl ?_
  intro group
  show CarefulReply (if _ then _ else _)
  split
  · exact careful_pure _
  split
  · exact careful_pure _
  apply careful_guards (guards_existedUsers _ _)
  · exact rfl
  intro existed
  cases existed with
  | none => exact careful_pure _
  | some existed =>
      show CarefulReply (insertReviewed env ctx req.gid group (acceptedNew req existed) >>= _)
      unfold insertReviewed
      by_cases hempty : (acceptedNew req existed).isEmpty
      · rw [if_pos hempty]
        exact (unguarded_finishReview req none).failFast
      rw [if_neg hempty]
      -- the last guarded read
      refine careful_read' (fun _ => rfl) rfl ?_
      intro memberCnt
      apply careful_write
      intro a
      cases a with
      | error e => exact unguarded_pure _
      | ok _ =>
          apply Program.Reckless.bind
          · apply (unguarded_pubForEach _ _).bind
            intro _
            apply (unguarded_updateGroupKeys _ _ _ _).bind
            intro _
            exact unguarded_pure _
          · intro keysCount
            cases keysCount with
            | error status => exact unguarded_pure _
            | ok keysCount => exact unguarded_finishReview req keysCount

/-! ## All handlers -/

/-- The requests that change the members of a group, or prepare it. -/
def GroupRequest.movesMembers : GroupRequest → Bool
  | kickV3 _ | leaveV3 _ | joinV3 _ | addMeV3 _ | inviteV3 _ | reviewV3 _ => true
  | _ => false

/-- The calls of a request, with their answers -/
def GroupRequest.calls (env : Env) (ctx : Context) (req : GroupRequest) (plan : Plan ℕ)
    (s : Store) : List ((c : DaoCall) × c.Answer) :=
  (req.handle env ctx).calls daoEffects plan s

theorem careful_handle (env : Env) (ctx : Context) (req : GroupRequest)
    (hkind : req.movesMembers = true) : CarefulReply (req.handle env ctx) := by
  cases req with
  | kickV3 body => exact careful_kick env ctx body
  | leaveV3 body => exact careful_leave env ctx body
  | joinV3 req => exact careful_join env ctx req
  | addMeV3 req => exact careful_addMe env ctx req
  | inviteV3 req => exact careful_invite env ctx req
  | reviewV3 req => exact careful_review env ctx req
  | createV3 | updateV3 | join | review | uploadPassword | inviteV2 | updateV2 =>
      exact Bool.noConfusion hkind

/-- If a guarded read fails with an error that is not that of missing data, the
request writes nothing to the tables of members, pending users and QR-code users,
and is answered with an error. -/
theorem failed_read_changes_nothing (env : Env) (ctx : Context) (req : GroupRequest)
    (hkind : req.movesMembers = true) (plan : Plan ℕ) (s : Store) (r : Read) (e : DaoError)
    (hguarded : r.guarded = true) (he : e ≠ .noSuchData)
    (hread : ⟨.read r, .error e⟩ ∈ req.calls env ctx plan s) :
    (∀ w a, ⟨.write w, a⟩ ∈ req.calls env ctx plan s → w.members = false) ∧
      ((req.handle env ctx).run plan s).1.status.isError = true := by
  obtain ⟨hquiet, herror⟩ := Program.calls_of_failFast (E := daoEffects)
    (careful_handle env ctx req hkind) plan s ⟨_, hread, hguarded, e, rfl, he⟩
  refine ⟨?_, herror⟩
  intro w a hwrite
  rw [Bool.eq_false_iff]
  exact hquiet _ hwrite

/-- The call with the number fails. -/
def failAt (n : ℕ) : Plan ℕ := fun k => if k = n then some 1 else none

/-- The owner of group 7 accepts `[4]`. -/
def acceptFour : GroupRequest := .reviewV3 ⟨7, [{ uid := [4], accepted := true }]⟩

/-- The third read of a review, of the rows of the accepted users, fails. -/
theorem failed_read_changes_nothing_review :
    (∀ w a, ⟨.write w, a⟩ ∈
        acceptFour.calls plainEnv (plainContext [1]) (failAt 2) (threeMembers 0) →
      w.members = false) ∧
      ((acceptFour.handle plainEnv (plainContext [1])).run (failAt 2)
        (threeMembers 0)).1.status.isError = true := by
  apply failed_read_changes_nothing plainEnv (plainContext [1]) acceptFour rfl (failAt 2)
    (threeMembers 0) (.getMemberBatch 7 [[4]]) (.other 1) rfl
  · exact fun h => DaoError.noConfusion h
  · exact List.mem_of_getElem? (i := 2) rfl

/-- The read of the latest mode comes after the change, and its failure is only
logged. -/
theorem failed_read_after_change :
    ¬ ∀ (env : Env) (ctx : Context) (req : GroupRequest), req.movesMembers = true →
      ∀ (plan : Plan ℕ) (s : Store) (r : Read) (e : DaoError), e ≠ .noSuchData →
      ⟨.read r, .error e⟩ ∈ req.calls env ctx plan s →
      (∀ w a, ⟨.write w, a⟩ ∈ req.calls env ctx plan s → w.members = false) ∧
        ((req.handle env ctx).run plan s).1.status.isError = true := by
  intro hclaim
  have hread : ⟨.read (.getLatestMode 7), .error (.other 1)⟩ ∈
      acceptFour.calls plainEnv (plainContext [1]) (failAt 6) (threeMembers 0) :=
    List.mem_of_getElem? (i := 6) rfl
  obtain ⟨-, herror⟩ := hclaim plainEnv (plainContext [1]) acceptFour rfl (failAt 6)
    (threeMembers 0) _ _ (fun h => DaoError.noConfusion h) hread
  exact absurd herror (by decide)

end BcmServer.Group
