import BcmServer.Group.Outcome
import BcmServer.Group.Service

/-!
# BcmServer.Group.HalfDone — requests that fail between two writes

Join and invite of the version before the third write more than once in some cases,
and nothing is taken back if a later write fails, as it is in the handlers that
create a group.

* `undone_iff`: the requests that an error leaves without an effect, whichever write
  fails, are those that do not come to a second write after one that has changed
  something.
* `not_undone_join`: a user who joins a group without the owner's confirmation is in
  it, though the answer is an error.
-/

namespace BcmServer.Group

open BcmServer.Util BcmServer.Lts GroupManagerController

/-- The DAOs on the tables, with faults of writes only -/
def writeFaults : Effects DaoCall.Answer ℕ Store where
  step
    | .read r, _, s => (r.eval s, s)
    | .write w, fault, s => daoEffects.step (.write w) fault s

/-- One call fails at most. -/
def AtMostOne (plan : Plan ℕ) : Prop := ∃ k, ∀ n, n ≠ k → plan n = none

/-- An error leaves the users of the groups and those who wait as they were, whichever write
fails. -/
def UndoneOnError (p : Dao Reply) (s : Store) : Prop :=
  ∀ plan, AtMostOne plan →
    let run := p.exec writeFaults plan s
    run.1.status.isError = true → run.2.users = s.users ∧ run.2.pending = s.pending

/-! ## Rules -/

section Rules

variable {α : Type} {s : Store}

theorem undone_pure (r : Reply) : UndoneOnError (pure r) s := fun _ _ _ => ⟨rfl, rfl⟩

theorem AtMostOne.tail {plan : Plan ℕ} (h : AtMostOne plan) : AtMostOne plan.tail := by
  obtain ⟨k, hk⟩ := h
  exact ⟨k - 1, fun n hn => hk (n + 1) (by omega)⟩

/-- A call in front that does not fail -/
def Plan.cons {F : Type} (fault : Option F) (plan : Plan F) : Plan F
  | 0 => fault
  | n + 1 => plan n

theorem AtMostOne.cons {plan : Plan ℕ} (h : AtMostOne plan) : AtMostOne (Plan.cons none plan) := by
  obtain ⟨k, hk⟩ := h
  refine ⟨k + 1, fun n hn => ?_⟩
  cases n with
  | zero => rfl
  | succ n => exact hk n (by omega)

/-- A read answers, and nothing else happens. -/
theorem undone_read {r : Read} {x : Except DaoError r.Res} {k : Except DaoError r.Res → Dao Reply}
    (hx : r.eval s = x) : UndoneOnError (Dao.read r >>= k) s ↔ UndoneOnError (k x) s := by
  subst hx
  constructor
  · exact fun h plan hplan => h (Plan.cons none plan) hplan.cons
  · exact fun h plan hplan => h plan.tail hplan.tail

/-- The program only reads, and ends with the value. -/
def ReadsTo (s : Store) : Dao α → α → Prop
  | .ret b, a => b = a
  | .call (.read r) next, a => ReadsTo s (next (r.eval s)) a
  | .call (.write _) _, _ => False

theorem readsTo_pure (a : α) : ReadsTo s (pure a) a := rfl

theorem readsTo_read {β : Type} {r : Read} {x : Except DaoError r.Res}
    {k : Except DaoError r.Res → Dao β} {b : β} (hx : r.eval s = x) (h : ReadsTo s (k x) b) :
    ReadsTo s (Dao.read r >>= k) b := by
  subst hx
  exact h

theorem readsTo_bind {β : Type} {p : Dao α} {a : α} {k : α → Dao β} {b : β} (hp : ReadsTo s p a)
    (hk : ReadsTo s (k a) b) : ReadsTo s (p >>= k) b := by
  induction p with
  | ret c =>
      cases hp
      exact hk
  | call o next ih =>
      cases o with
      | read r => exact ih _ hp
      | write w => exact hp.elim

/-- A part that only reads is passed over. -/
theorem undone_reads {p : Dao α} {a : α} (h : ReadsTo s p a) {k : α → Dao Reply} :
    UndoneOnError (p >>= k) s ↔ UndoneOnError (k a) s := by
  induction p with
  | ret b =>
      cases h
      exact Iff.rfl
  | call o next ih =>
      cases o with
      | read r => exact (undone_read rfl).trans (ih _ h)
      | write w => exact h.elim

end Rules

/-! ## The reads -/

section Reads

variable {env : Env} {s : Store}

theorem readsTo_getGroupOwner (gid : Gid) :
    ReadsTo s (getGroupOwner gid) ((s.owner gid).bind s.accounts) := by
  unfold getGroupOwner
  cases howner : s.owner gid with
  | none => exact readsTo_read (congrArg found howner) (readsTo_pure none)
  | some uid =>
      refine readsTo_read (congrArg found howner) ?_
      cases haccount : s.accounts uid with
      | none =>
          refine readsTo_read (congrArg found haccount) ?_
          rw [Option.bind_some, haccount]
          exact readsTo_pure none
      | some owner =>
          refine readsTo_read (congrArg found haccount) ?_
          rw [Option.bind_some, haccount]
          exact readsTo_pure (some owner)

/-- The role of a user, `ROLE_UNDEFINE` without a row -/
def roleOf (s : Store) (gid : Gid) (uid : Bytes) : Role := (s.role gid uid).getD .undefine

theorem readsTo_memberRoles (gid : Gid) (uids : List Bytes) :
    ∃ roles, ReadsTo s (memberRoles gid uids) (some roles) ∧
      ∀ uid ∈ uids, roles uid = roleOf s gid uid := by
  unfold memberRoles
  by_cases hrows : uids.any fun uid => (s.row gid uid).isSome
  · exact ⟨roleOf s gid, readsTo_read (if_pos hrows) (readsTo_pure _), fun _ _ => rfl⟩
  · refine ⟨fun _ => .undefine, readsTo_read (if_neg hrows) (readsTo_pure _), fun uid huid => ?_⟩
    have hnorow : s.row gid uid = none := by
      rw [← Option.not_isSome_iff_eq_none]
      exact fun hrow => hrows (List.any_eq_true.mpr ⟨uid, huid, hrow⟩)
    rw [roleOf, Store.role, hnorow]
    rfl

/-- The users have accounts, and the account is in their filters. -/
theorem readsTo_checkMembersFilters (account : Account) (members : List Bytes) :
    ∃ status, ReadsTo s (checkMembersFilters env account members) status ∧
      (status = none ↔ ∀ m ∈ members, ∃ a, s.accounts m = some a ∧
        isFriend env a account.uid = true) := by
  induction members with
  | nil => exact ⟨none, readsTo_pure none, by simp⟩
  | cons m members ih =>
      cases haccount : s.accounts m with
      | none =>
          refine ⟨some .internalServerError,
            readsTo_read (congrArg found haccount) (readsTo_pure _), by simp [haccount]⟩
      | some a =>
          cases hfriend : isFriend env a account.uid with
          | false =>
              refine ⟨some .ok, readsTo_read (congrArg found haccount) ?_,
                by simp [haccount, hfriend]⟩
              show ReadsTo s (if _ then _ else _) _
              rw [if_pos (by rw [hfriend]; rfl)]
              exact readsTo_pure _
          | true =>
              obtain ⟨status, hread, hstatus⟩ := ih
              refine ⟨status, readsTo_read (congrArg found haccount) ?_, ?_⟩
              · show ReadsTo s (if _ then _ else _) _
                rw [if_neg (by rw [hfriend]; decide)]
                exact hread
              · simp [haccount, hfriend, hstatus]

/-- The one who invites is in the filters of the users, and they in his; for subscribers this is
not asked. -/
def FriendlyBut (env : Env) (account : Account) (gid : Gid) (members : List Bytes) (s : Store) :
    Prop :=
  ∀ m ∈ members, roleOf s gid m ≠ .subscriber → isFriend env account m = true ∧
    ∃ a, s.accounts m = some a ∧ isFriend env a account.uid = true

theorem readsTo_bypassSubscribers (account : Account) (gid : Gid) (members : List Bytes) :
    ∃ status, ReadsTo s (checkBidirectionalRelationshipBypassSubscribers env account gid members)
      status ∧ (status = none ↔ FriendlyBut env account gid members s) := by
  obtain ⟨roles, hroles, heq⟩ := @readsTo_memberRoles s gid members
  have hothers : ∀ m, m ∈ (members.filter fun m => roles m ≠ .subscriber) ↔
      m ∈ members ∧ roleOf s gid m ≠ .subscriber := by
    intro m
    rw [List.mem_filter, decide_eq_true_iff]
    exact and_congr_right fun hm => by rw [heq m hm]
  unfold checkBidirectionalRelationshipBypassSubscribers
  by_cases hany : (members.filter fun m => roles m ≠ .subscriber).any fun m =>
      !isFriend env account m
  · refine ⟨some .ok, readsTo_bind hroles ?_, ?_⟩
    · show ReadsTo s (if _ then _ else _) _
      rw [if_pos hany]
      exact readsTo_pure _
    · obtain ⟨m, hm, hfriend⟩ := List.any_eq_true.mp hany
      rw [hothers] at hm
      simp only [reduceCtorEq, false_iff]
      intro h
      rw [(h m hm.1 hm.2).1] at hfriend
      cases hfriend
  · obtain ⟨status, hread, hstatus⟩ := @readsTo_checkMembersFilters env s account
      (members.filter fun m => roles m ≠ .subscriber)
    refine ⟨status, readsTo_bind hroles ?_, ?_⟩
    · show ReadsTo s (if _ then _ else _) _
      rw [if_neg hany]
      exact hread
    · have hall : ∀ m ∈ members, roleOf s gid m ≠ .subscriber → isFriend env account m = true := by
        intro m hm hrole
        by_contra hfriend
        exact hany (List.any_eq_true.mpr ⟨m, (hothers m).mpr ⟨hm, hrole⟩, by simpa using hfriend⟩)
      rw [hstatus]
      simp only [hothers, and_imp]
      exact ⟨fun h m hm hrole => ⟨hall m hm hrole, h m hm hrole⟩,
        fun h m hm hrole => (h m hm hrole).2⟩

/-- The user may invite the members. -/
def MayInvite (env : Env) (ctx : Context) (gid : Gid) (members : List Bytes) (s : Store) : Prop :=
  ctx.uid = backendManager ∨
    s.isMember gid ctx.uid = true ∧ FriendlyBut env ctx.account gid members s

theorem readsTo_checkInviter (ctx : Context) (gid : Gid) (members : List Bytes) :
    ∃ status, ReadsTo s (checkInviter env ctx gid members) status ∧
      (status = none ↔ MayInvite env ctx gid members s) := by
  unfold checkInviter MayInvite
  by_cases hmanager : ctx.uid = backendManager
  · rw [if_pos hmanager]
    exact ⟨none, readsTo_pure none, by simp [hmanager]⟩
  rw [if_neg hmanager, s.isMember_eq]
  cases hrole : s.role gid ctx.uid with
  | none =>
      exact ⟨some .notFound, readsTo_read (congrArg found hrole) (readsTo_pure _),
        by simp [hmanager]⟩
  | some role =>
      by_cases hcounts : role.counts = true
      · obtain ⟨status, hread, hstatus⟩ := @readsTo_bypassSubscribers env s ctx.account gid members
        refine ⟨status, readsTo_read (congrArg found hrole) ?_,
          by simp [hmanager, hcounts, hstatus]⟩
        show ReadsTo s (if _ then _ else _) _
        rw [if_neg (by rw [Role.counts_iff] at hcounts; tauto)]
        exact hread
      · refine ⟨some .forbidden, readsTo_read (congrArg found hrole) ?_,
          by simp [hmanager, hcounts]⟩
        show ReadsTo s (if _ then _ else _) _
        rw [if_pos (by rw [Role.counts_iff] at hcounts; tauto)]
        exact readsTo_pure _

end Reads

/-! ## The writes -/

section Writes

variable {s : Store}

/-- A write fails, or it has its effect. -/
theorem step_writeFaults (w : Write) (fault : Option ℕ) (s : Store) :
    (∃ e, writeFaults.step (.write w) fault s = (.error e, s)) ∨
      ∃ t, w.apply s = .ok t ∧ writeFaults.step (.write w) fault s = (.ok (), t) := by
  cases fault with
  | some code => exact Or.inl ⟨.other code, rfl⟩
  | none =>
      cases happly : w.apply s with
      | error e => exact Or.inl ⟨e, Dao.step_write_error happly⟩
      | ok t => exact Or.inr ⟨t, rfl, Dao.step_write_ok happly⟩

/-- The response is no error, whatever fails. -/
def Succeeds (p : Dao Reply) : Prop :=
  ∀ plan s, (p.exec writeFaults plan s).1.status.isError = false

theorem succeeds_pure {r : Reply} (h : r.status.isError = false) : Succeeds (pure r) :=
  fun _ _ => h

theorem succeeds_bind {α : Type} {p : Dao α} {k : α → Dao Reply} (hk : ∀ a, Succeeds (k a)) :
    Succeeds (p >>= k) := by
  induction p with
  | ret a => exact hk a
  | call o next ih => exact fun plan s => ih _ plan.tail _

/-- What is left to do is one write, and nothing that fails behind it. -/
theorem undone_lastWrite {w : Write} {k : Except DaoError Unit → Dao Reply}
    (herror : ∀ e, ∃ r, k (.error e) = pure r) (hok : Succeeds (k (.ok ()))) :
    UndoneOnError (Dao.write w >>= k) s := by
  intro plan _ run hrun
  have hexec : run = (k (writeFaults.step (.write w) (plan 0) s).1).exec writeFaults plan.tail
      (writeFaults.step (.write w) (plan 0) s).2 := rfl
  obtain ⟨e, he⟩ | ⟨t, -, ht⟩ := step_writeFaults w (plan 0) s
  · obtain ⟨r, hr⟩ := herror e
    rw [he] at hexec
    simp only [hr] at hexec
    rw [hexec]
    exact ⟨rfl, rfl⟩
  · rw [ht] at hexec
    rw [hexec, hok] at hrun
    cases hrun

/-- A write that changes nothing is passed over. -/
theorem undone_sameWrite {w : Write} {k : Except DaoError Unit → Dao Reply}
    (hsame : w.apply s = .ok s) (herror : ∀ e, ∃ r, k (.error e) = pure r) :
    UndoneOnError (Dao.write w >>= k) s ↔ UndoneOnError (k (.ok ())) s := by
  constructor
  · intro h plan hplan
    have hrun := h (Plan.cons none plan) hplan.cons
    have hexec : (Dao.write w >>= k).exec writeFaults (Plan.cons none plan) s =
        (k (.ok ())).exec writeFaults plan s := by
      show (k (writeFaults.step (.write w) none s).1).exec writeFaults plan
        (writeFaults.step (.write w) none s).2 = _
      rw [show writeFaults.step (.write w) none s = (.ok (), s) from Dao.step_write_ok hsame]
    rwa [hexec] at hrun
  · intro h plan hplan
    have hexec : (Dao.write w >>= k).exec writeFaults plan s =
        (k (writeFaults.step (.write w) (plan 0) s).1).exec writeFaults plan.tail
          (writeFaults.step (.write w) (plan 0) s).2 := rfl
    rw [hexec]
    obtain ⟨e, he⟩ | ⟨t, happly, ht⟩ := step_writeFaults w (plan 0) s
    · obtain ⟨r, hr⟩ := herror e
      rw [he]
      simp only [hr]
      exact fun _ => ⟨rfl, rfl⟩
    · rw [hsame] at happly
      cases happly
      rw [ht]
      exact h plan.tail hplan.tail

/-- A write that changes something is followed by another one, which fails. -/
theorem not_undone {w w' : Write} {t : Store} {k k' : Except DaoError Unit → Dao Reply}
    (ht : w.apply s = .ok t) (hchanged : ¬ (t.users = s.users ∧ t.pending = s.pending))
    (hk : k (.ok ()) = Dao.write w' >>= k')
    (herror : ∀ e, ∃ r : Reply, k' (.error e) = pure r ∧ r.status.isError = true) :
    ¬ UndoneOnError (Dao.write w >>= k) s := by
  intro h
  have hplan : AtMostOne (fun n => if n = 1 then some 0 else none) := ⟨1, fun n hn => if_neg hn⟩
  obtain ⟨r, hr, hstatus⟩ := herror (.other 0)
  have hexec : (Dao.write w >>= k).exec writeFaults (fun n => if n = 1 then some 0 else none) s =
      (r, t) := by
    show (k (writeFaults.step (.write w) none s).1).exec writeFaults _
      (writeFaults.step (.write w) none s).2 = _
    rw [show writeFaults.step (.write w) none s = (.ok (), t) from Dao.step_write_ok ht]
    simp only [hk]
    show (k' (.error (.other 0))).exec writeFaults _ t = _
    rw [hr]
    rfl
  have hrun := h _ hplan
  rw [hexec] at hrun
  exact hchanged (hrun hstatus)

theorem setUsers_same {gid : Gid} {rows : Table Bytes GroupUser} :
    (s.setUsers gid rows).users = s.users ↔ rows = s.users gid := by
  constructor
  · intro h
    rw [← congrFun h gid]
    exact (Function.update_self gid rows s.users).symm
  · rintro rfl
    exact Function.update_eq_self gid s.users

end Writes

/-! ## Join -/

/-- The user is in the group with this request: all checks pass, there is no row yet, and the
owner's confirmation is not asked for. -/
def JoinsAtOnce (env : Env) (ctx : Context) (req : GroupJoinRequest) (s : Store) : Prop :=
  req.check = none ∧ ∃ group owner, s.groups req.gid = some group ∧
    (s.owner req.gid).bind s.accounts = some owner ∧ group.version ≠ groupV3 ∧
    group.settingEmpty = false ∧ group.verifies env owner.publicKey = true ∧
    req.qrCodeToken = group.shareSignature ∧
    verifyJoin env ctx.account req.qrCode req.qrCodeToken req.signature = true ∧
    s.row req.gid ctx.uid = none ∧ group.ownerConfirm = 0

section Join

variable {env : Env} {ctx : Context} {req : GroupJoinRequest} {s : Store}

theorem undone_leavePending (group : GroupRecord) :
    UndoneOnError (leavePending ctx req group) s := by
  apply undone_lastWrite
  · exact fun e => ⟨_, rfl⟩
  · show Succeeds (if _ then _ else _)
    split
    · exact succeeds_bind fun _ => succeeds_pure rfl
    · exact succeeds_pure rfl

/-- The user stays in the group if the request cannot be stored. -/
theorem not_undone_insert {group : GroupRecord} (hrow : s.row req.gid ctx.uid = none) :
    ¬ UndoneOnError (do
      let .ok _ ← Dao.write (.insert req.gid ctx.uid
          (GroupUser.newMember ctx.uid group.lastMid ctx.nowInMilli))
        | return .of .internalServerError
      leavePending ctx req group) s := by
  refine not_undone rfl ?_ rfl fun e => ⟨_, rfl, rfl⟩
  rintro ⟨husers, -⟩
  rw [setUsers_same] at husers
  rw [Store.row, ← husers, AList.lookup_insert] at hrow
  cases hrow

theorem undone_join_iff :
    UndoneOnError (onGroupJoinRequst env ctx req) s ↔ ¬ JoinsAtOnce env ctx req s := by
  unfold onGroupJoinRequst
  by_cases hcheck : req.check.isSome
  · rw [if_pos hcheck]
    exact iff_of_true (undone_pure _) fun h => by simp [h.1] at hcheck
  have hchecked : req.check = none := by simpa using hcheck
  rw [if_neg hcheck]
  have hread : Read.eval s (.groupsGet req.gid) = found (s.groups req.gid) := rfl
  cases hgroup : s.groups req.gid with
  | none =>
      rw [hgroup] at hread
      exact (undone_read hread).trans (iff_of_true (undone_pure _) (by simp [JoinsAtOnce, hgroup]))
  | some group =>
      rw [hgroup] at hread
      refine (undone_read hread).trans ?_
      show UndoneOnError (if _ then _ else _) s ↔ _
      by_cases hversion : group.version = groupV3
      · rw [if_pos hversion]
        exact iff_of_true (undone_pure _) (by simp [JoinsAtOnce, hgroup, hversion])
      rw [if_neg hversion]
      refine (undone_reads (readsTo_getGroupOwner _)).trans ?_
      cases howner : (s.owner req.gid).bind s.accounts with
      | none => exact iff_of_true (undone_pure _) (by simp [JoinsAtOnce, howner])
      | some owner =>
          have hjoins : JoinsAtOnce env ctx req s ↔ group.settingEmpty = false ∧
              group.verifies env owner.publicKey = true ∧ req.qrCodeToken = group.shareSignature ∧
              verifyJoin env ctx.account req.qrCode req.qrCodeToken req.signature = true ∧
              s.row req.gid ctx.uid = none ∧ group.ownerConfirm = 0 := by
            simp [JoinsAtOnce, hchecked, hgroup, howner, hversion]
          rw [hjoins]
          show UndoneOnError (if _ then _ else _) s ↔ _
          by_cases hsetting : group.settingEmpty = true
          · rw [if_pos hsetting]
            exact iff_of_true (undone_pure _) (by simp [hsetting])
          rw [if_neg hsetting]
          by_cases hverifies : group.verifies env owner.publicKey = true
          swap
          · rw [if_pos (by simpa using hverifies)]
            exact iff_of_true (undone_pure _) (by simp [hverifies])
          rw [if_neg (by simpa using hverifies)]
          by_cases htoken : req.qrCodeToken = group.shareSignature
          swap
          · rw [if_pos htoken]
            exact iff_of_true (undone_pure _) (by simp [htoken])
          rw [if_neg (not_not_intro htoken)]
          by_cases hjoin :
              verifyJoin env ctx.account req.qrCode req.qrCodeToken req.signature = true
          swap
          · rw [if_pos (by simpa using hjoin)]
            exact iff_of_true (undone_pure _) (by simp [hjoin])
          rw [if_neg (by simpa using hjoin)]
          have hmember : Read.eval s (.getMember req.gid ctx.uid) = found (s.row req.gid ctx.uid) :=
            rfl
          cases hrow : s.row req.gid ctx.uid with
          | some row =>
              rw [hrow] at hmember
              exact (undone_read hmember).trans (iff_of_true (undone_pure _) (by simp))
          | none =>
              rw [hrow] at hmember
              refine (undone_read hmember).trans ?_
              show UndoneOnError (if _ then _ else _) s ↔ _
              by_cases hconfirm : group.ownerConfirm = 0
              · rw [if_pos hconfirm]
                exact iff_of_false (not_undone_insert hrow) (not_not_intro
                  ⟨by simpa using hsetting, hverifies, htoken, hjoin, rfl, hconfirm⟩)
              · rw [if_neg hconfirm]
                exact iff_of_true (undone_leavePending group) (by simp [hconfirm])

end Join

/-! ## Invite -/

/-- The records that an invitation leaves for review, of the users without a row -/
def reviewRecords (ctx : Context) (body : InviteGroupMemberBodyV2) (s : Store) :
    List PendingGroupUser :=
  pendingUsers ctx.uid (roleOf s body.gid) body.members body.signatureInfos

/-- The invitation changes something with a write that is not the last: it deletes the rows of
subscribers before it adds them as members, or it leaves a record for review that is not there
yet, and then another one. -/
def InvitesInSteps (env : Env) (ctx : Context) (body : InviteGroupMemberBodyV2) (s : Store) :
    Prop :=
  ctx.needUpgrade = false ∧ body.check = none ∧ MayInvite env ctx body.gid body.members s ∧
    ∃ group ownerUid, s.groups body.gid = some group ∧ s.owner body.gid = some ownerUid ∧
      if group.ownerConfirm ≠ 0 ∧ ownerUid ≠ ctx.uid then
        body.members.length = body.signatureInfos.length ∧
          verifyInvitations env ctx.account body.signatureInfos = none ∧
          ∃ record ∈ (reviewRecords ctx body s).dropLast,
            s.pending body.gid record.uid ≠ some record
      else ownerUid = ctx.uid ∧ ∃ m ∈ body.members, s.role body.gid m = some .subscriber

section Invite

variable {env : Env} {ctx : Context} {body : InviteGroupMemberBodyV2} {s : Store}

/-- The records are stored one after the other, up to a write that fails. -/
theorem undone_setPendingUsers {gid : Gid} {users : List PendingGroupUser} {r : Reply}
    (hr : r.status.isError = false) :
    UndoneOnError (do
      if ← setPendingUsers gid users then return r
      return .of .internalServerError) s ↔
      ∀ record ∈ users.dropLast, s.pending gid record.uid = some record := by
  induction users with
  | nil => exact iff_of_true (undone_pure _) (by simp)
  | cons user users ih =>
      -- what is done with the answer of the first write
      obtain ⟨k, hk, hok, herror⟩ : ∃ k : Except DaoError Unit → Dao Reply,
          (do
            if ← setPendingUsers gid (user :: users) then return r
            return .of .internalServerError) = Dao.write (.pendingSet gid user) >>= k ∧
          k (.ok ()) = (do
            if ← setPendingUsers gid users then return r
            return .of .internalServerError) ∧
          ∀ e, k (.error e) = pure (.of .internalServerError) :=
        ⟨_, rfl, rfl, fun _ => rfl⟩
      rw [hk]
      cases users with
      | nil =>
          refine iff_of_true (undone_lastWrite (fun e => ⟨_, herror e⟩) ?_) (by simp)
          rw [hok]
          exact succeeds_pure hr
      | cons user' users =>
          by_cases hsame : s.pending gid user.uid = some user
          · have happly : Write.apply s (.pendingSet gid user) = .ok s := by
              simp [Write.apply, Store.setPending, ← hsame]
            rw [undone_sameWrite happly fun e => ⟨_, herror e⟩, hok, ih]
            simp [hsame]
          · refine iff_of_false (not_undone rfl ?_ (hok.trans rfl) fun e => ⟨_, rfl, rfl⟩) ?_
            · rintro ⟨-, hpending⟩
              have hrecord := congrFun (congrFun hpending gid) user.uid
              simp only [Store.setPending, Function.update_self] at hrecord
              exact hsame hrecord.symm
            · intro h
              exact hsame (h user (by simp))

theorem undone_inviteForReview :
    UndoneOnError (inviteForReview env ctx body.gid body.members body.signatureInfos) s ↔
      ¬ (body.members.length = body.signatureInfos.length ∧
        verifyInvitations env ctx.account body.signatureInfos = none ∧
        ∃ record ∈ (reviewRecords ctx body s).dropLast,
          s.pending body.gid record.uid ≠ some record) := by
  unfold inviteForReview
  by_cases hlen : body.members.length = body.signatureInfos.length
  swap
  · rw [if_pos hlen]
    exact iff_of_true (undone_pure _) fun h => hlen h.1
  rw [if_neg (not_not_intro hlen)]
  cases hverify : verifyInvitations env ctx.account body.signatureInfos with
  | some status => exact iff_of_true (undone_pure _) fun h => by cases h.2.1
  | none =>
      obtain ⟨roles, hread, hroles⟩ := @readsTo_memberRoles s body.gid body.members
      have hrecords : pendingUsers ctx.uid roles body.members body.signatureInfos =
          reviewRecords ctx body s := by
        rw [reviewRecords, pendingUsers, pendingUsers]
        congr 1
        refine List.filter_congr fun x hx => ?_
        show decide (roles x.1 = _) = decide (roleOf s body.gid x.1 = _)
        rw [hroles x.1 (List.of_mem_zip hx).1]
      refine (undone_reads hread).trans ?_
      show UndoneOnError (setPendingUsers _ (pendingUsers _ _ _ _) >>= _) s ↔ _
      rw [hrecords]
      refine (undone_setPendingUsers rfl).trans ?_
      simp [hlen]

theorem uids_invitedRowsV2 (hcheck : body.check = none) (group : GroupRecord)
    (roles : Bytes → Role) : (invitedRowsV2 ctx group roles body).map Prod.fst =
      body.members.filter fun m => !alreadyInGroup (roles m) := by
  have hlen : body.members.length = body.memberKeys.length ∧
      body.members.length = body.memberGroupInfoSecrets.length := by
    by_contra hne
    rw [not_and_or] at hne
    simp [InviteGroupMemberBodyV2.check, firstViolation, hne] at hcheck
  have hzip : (body.members.zip (body.memberGroupInfoSecrets.zip body.memberKeys)).map Prod.fst =
      body.members := List.map_fst_zip (by rw [List.length_zip]; omega)
  rw [invitedRowsV2, List.map_map, ← hzip, List.filter_map, hzip]
  rfl

theorem undone_insertInvited {gid : Gid} {users : List (Bytes × GroupUser)}
    {failed : List Bytes} : UndoneOnError (insertInvited ctx gid users failed) s := by
  unfold insertInvited
  split
  · exact undone_pure _
  · refine undone_lastWrite (fun e => ⟨_, rfl⟩) ?_
    exact succeeds_bind fun _ => succeeds_pure rfl

/-- With subscribers there is a write in front. -/
theorem bind_deleteSubscribers (gid : Gid) {subscribers : List Bytes}
    (h : ¬ subscribers.isEmpty = true) (f : Bool → Dao Reply) :
    ∃ k, deleteSubscribers gid subscribers >>= f =
        Dao.write (.delMemberBatch gid subscribers) >>= k ∧ k (.ok ()) = f true := by
  rw [deleteSubscribers, if_neg h]
  exact ⟨_, rfl, rfl⟩

/-- The rows of subscribers are gone if those of members cannot be inserted. -/
theorem undone_inviteDirectlyV2 (hcheck : body.check = none) (group : GroupRecord)
    (ownerUid : Bytes) : UndoneOnError (inviteDirectlyV2 ctx body group ownerUid) s ↔
      ¬ (ownerUid = ctx.uid ∧ ∃ m ∈ body.members, s.role body.gid m = some .subscriber) := by
  have hlen : ¬ (group.encryptStatus = .on ∧ (body.members.length ≠ body.memberKeys.length ∨
      body.members.length ≠ body.memberGroupInfoSecrets.length)) := by
    rintro ⟨-, hne⟩
    simp [InviteGroupMemberBodyV2.check, firstViolation, hne] at hcheck
  obtain ⟨roles, hread, hroles⟩ := @readsTo_memberRoles s body.gid body.members
  have hsubscriber : ∀ m ∈ body.members, roles m = .subscriber ↔
      s.role body.gid m = some .subscriber := by
    intro m hm
    rw [hroles m hm, roleOf]
    cases s.role body.gid m <;> simp
  unfold inviteDirectlyV2
  rw [if_neg hlen]
  refine (undone_reads hread).trans ?_
  by_cases howner : ownerUid = ctx.uid ∧ ∃ m ∈ body.members, s.role body.gid m = some .subscriber
  · obtain ⟨hself, m, hm, hrole⟩ := howner
    have hmem : m ∈ body.members.dedup.filter fun m => roles m = .subscriber :=
      List.mem_filter.mpr ⟨List.mem_dedup.mpr hm, decide_eq_true ((hsubscriber m hm).mpr hrole)⟩
    have hne : ¬ (body.members.dedup.filter fun m => roles m = .subscriber).isEmpty = true := by
      rw [List.isEmpty_iff]
      exact List.ne_nil_of_mem hmem
    have husers : ¬ (invitedRowsV2 ctx group roles body).isEmpty = true := by
      rw [List.isEmpty_iff, ← List.map_eq_nil_iff, uids_invitedRowsV2 hcheck]
      refine List.ne_nil_of_mem (List.mem_filter.mpr ⟨hm, ?_⟩)
      rw [(hsubscriber m hm).mpr hrole]
      decide
    refine iff_of_false ?_ (not_not_intro ⟨hself, m, hm, hrole⟩)
    simp only [if_pos hself]
    obtain ⟨k, hk, hok⟩ := bind_deleteSubscribers body.gid hne fun deleted =>
      if deleted then insertInvited ctx body.gid (invitedRowsV2 ctx group roles body)
        (body.members.filter fun m => alreadyInGroup (roles m))
      else pure (.of .internalServerError)
    refine hk.symm ▸ not_undone rfl ?_ (hok.trans ((if_pos rfl).trans (if_neg husers)))
      fun e => ⟨_, rfl, rfl⟩
    rintro ⟨hrows, -⟩
    rw [setUsers_same] at hrows
    have hgone := Table.lookup_eraseAll (s.users body.gid)
      (body.members.dedup.filter fun m => roles m = .subscriber) m
    rw [hrows, if_pos hmem] at hgone
    rw [Store.role, Store.row, hgone] at hrole
    cases hrole
  · refine iff_of_true ?_ howner
    have hnone : (if ownerUid = ctx.uid then
        body.members.dedup.filter fun m => roles m = .subscriber else []) = [] := by
      split
      · next hself =>
        rw [List.filter_eq_nil_iff]
        intro m hm
        rw [List.mem_dedup] at hm
        simp only [decide_eq_true_eq, hsubscriber m hm]
        exact fun hrole => howner ⟨hself, m, hm, hrole⟩
      · rfl
    simp only [hnone]
    exact undone_insertInvited

theorem undone_invite_iff :
    UndoneOnError (onInviteGroupMemberV2 env ctx body) s ↔ ¬ InvitesInSteps env ctx body s := by
  unfold onInviteGroupMemberV2
  by_cases hupgrade : ctx.needUpgrade = true
  · rw [if_pos hupgrade]
    exact iff_of_true (undone_pure _) (by simp [InvitesInSteps, hupgrade])
  rw [if_neg hupgrade]
  by_cases hcheck : body.check.isSome
  · rw [if_pos hcheck]
    exact iff_of_true (undone_pure _) fun h => by simp [h.2.1] at hcheck
  rw [if_neg hcheck]
  have hchecked : body.check = none := by simpa using hcheck
  obtain ⟨status, hinviter, hmay⟩ := @readsTo_checkInviter env s ctx body.gid body.members
  refine (undone_reads hinviter).trans ?_
  cases status with
  | some status => exact iff_of_true (undone_pure _) fun h => by cases hmay.mpr h.2.2.1
  | none =>
      have hread : Read.eval s (.groupsGet body.gid) = found (s.groups body.gid) := rfl
      have howner : Read.eval s (.getGroupOwner body.gid) = found (s.owner body.gid) := rfl
      cases hgroup : s.groups body.gid with
      | none =>
          rw [hgroup] at hread
          exact (undone_read hread).trans
            (iff_of_true (undone_pure _) (by simp [InvitesInSteps, hgroup]))
      | some group =>
          rw [hgroup] at hread
          refine (undone_read hread).trans ?_
          cases howneruid : s.owner body.gid with
          | none =>
              rw [howneruid] at howner
              exact (undone_read howner).trans
                (iff_of_true (undone_pure _) (by simp [InvitesInSteps, howneruid]))
          | some ownerUid =>
              rw [howneruid] at howner
              refine (undone_read howner).trans ?_
              have hsteps : InvitesInSteps env ctx body s ↔
                  if group.ownerConfirm ≠ 0 ∧ ownerUid ≠ ctx.uid then
                    body.members.length = body.signatureInfos.length ∧
                      verifyInvitations env ctx.account body.signatureInfos = none ∧
                      ∃ record ∈ (reviewRecords ctx body s).dropLast,
                        s.pending body.gid record.uid ≠ some record
                  else ownerUid = ctx.uid ∧
                    ∃ m ∈ body.members, s.role body.gid m = some .subscriber := by
                simp [InvitesInSteps, hupgrade, hchecked, hmay.mp rfl, hgroup, howneruid]
              rw [hsteps]
              show UndoneOnError (if _ then _ else _) s ↔ _
              split
              · exact undone_inviteForReview
              · exact undone_inviteDirectlyV2 hchecked group ownerUid

end Invite

/-- Which requests are undone. An error in a user's own request to join leaves the user in the
group, and one in an invitation takes rows away or leaves records. -/
theorem undone_iff (env : Env) (ctx : Context) (s : Store) :
    (∀ req, UndoneOnError (onGroupJoinRequst env ctx req) s ↔ ¬ JoinsAtOnce env ctx req s) ∧
      ∀ body, UndoneOnError (onInviteGroupMemberV2 env ctx body) s ↔
        ¬ InvitesInSteps env ctx body s :=
  ⟨fun _ => undone_join_iff, fun _ => undone_invite_iff⟩

/-- Group 7 of the version before the third, which `[4]` may join without a confirmation -/
def openGroup : Store :=
  { threeMembers 0 with
    groups := Function.update (fun _ => none) 7 (some { signedGroup [1] 0 with version := 0 }) }

/-- The request cannot be left for the distribution of keys, but the user is in the group. -/
theorem not_undone_join :
    ¬ ∀ (env : Env) (ctx : Context) (s : Store),
      (∀ req, UndoneOnError (onGroupJoinRequst env ctx req) s) ∧
        ∀ body, UndoneOnError (onInviteGroupMemberV2 env ctx body) s := by
  intro h
  have hplan : AtMostOne (fun n => if n = 5 then some 0 else none) := ⟨5, fun n hn => if_neg hn⟩
  have hrun := ((h plainEnv (plainContext [4]) openGroup).1 joinRequest _ hplan (by decide)).1
  have hrow : (openGroup.users 7).lookup [4] = none := by decide
  rw [← hrun] at hrow
  exact absurd hrow (by decide)

end BcmServer.Group
