import BcmServer.Group.Outcome
import BcmServer.Group.Service
import BcmServer.Lts.Emit

/-!
# BcmServer.Group.CreateEvents — a new group, with what is published

`onCreateGroupV3` writes three tables one after the other and takes back what it has
written when a later write fails. Then it publishes an event for every user and two
system messages.

* `forget_onCreateGroupV3`: without the events this is the handler of `Controller`.
* `createV3_all_or_nothing`: if what is taken back is really gone, an error leaves the
  tables as they were, with nothing published; otherwise the group has the members that
  were asked for, and its creator as the owner.
-/

namespace BcmServer.Group

open BcmServer.Util BcmServer.Lts GroupManagerController

/-- `InternalMessageType`, of the events of users -/
inductive InternalMessageType where
  | enterGroup
  | quitGroup
  | changeRole
  | muteGroup
  | unmuteGroup
deriving DecidableEq, Repr

/-- What is published on redis -/
inductive Publication where
  /-- on the channel of a user -/
  | user (gid : Gid) (uid : Bytes) (type : InternalMessageType)
  /-- a system message, on the channel of the group events -/
  | message (gid : Gid) (fromUid : Bytes) (type : SystemMessage)
deriving DecidableEq, Repr

/-- A handler with its events -/
abbrev Publishing := Program (Emitting.Res (V := Publication) DaoCall.Answer)

namespace Publishing

/-- `publishGroupUserEvent` -/
def publishGroupUserEvent (gid : Gid) (uid : Bytes) (type : InternalMessageType) :
    Publishing Unit :=
  Program.emit (.user gid uid type)

/-- `pubGroupSystemMessage`: a message is published if it could be stored. -/
def pubGroupSystemMessage (uid : Bytes) (gid : Gid) (type : SystemMessage) : Publishing Bool := do
  match ← (Dao.write (.groupMessageInsert gid uid type)).lift with
  | .ok _ => do
      Program.emit (.message gid uid type)
      return true
  | .error _ => return false

/-- `sendSwitchGroupKeysWithRetry`, with the number of tries -/
def sendSwitchGroupKeysWithRetry (uid : Bytes) (gid : Gid) : ℕ → Publishing Bool
  | 0 => return false
  | n + 1 => do
      if ← pubGroupSystemMessage uid gid .switchGroupKeys then return true
      sendSwitchGroupKeysWithRetry uid gid n

/-- The users of a new group enter it one after the other. -/
def publishEntered (gid : Gid) : List (Bytes × GroupUser) → Publishing Unit
  | [] => return ()
  | m :: users => do
      publishGroupUserEvent gid m.1 .enterGroup
      publishEntered gid users

/-- What is published of a new group -/
def publishCreated (ctx : Context) (body : CreateGroupBodyV3) : Publishing Reply := do
  publishEntered ctx.newGid (newRows ctx body)
  let _ ← pubGroupSystemMessage ctx.uid ctx.newGid .memberUpdate
  let _ ← sendSwitchGroupKeysWithRetry ctx.uid ctx.newGid 3
  return { status := .ok, entity := .created ctx.newGid }

/-- `onCreateGroupV3` -/
def onCreateGroupV3 (env : Env) (ctx : Context) (body : CreateGroupBodyV3) : Publishing Reply := do
  if ctx.needUpgrade then return .of .upgradeRequired
  if ctx.creationLimited then return .of .limiterRejected
  if (body.check env).isSome then return .of .badRequest
  if let some status ← (checkBidirectionalRelationship env ctx.account body.members).lift then
    return .of status
  if body.group.settingEmpty then return .of .badRequest
  if !body.group.verifies env ctx.account.publicKey then return .of .badRequest
  let .ok _ ← (Dao.write (.groupsCreate ctx.newGid body.group)).lift
    | return .of .internalServerError
  let .ok _ ← (Dao.write (.groupKeysInsert ctx.newGid body.groupKeysMode)).lift
    | do
      let _ ← (Dao.write (.groupsDel ctx.newGid)).lift
      return .of .internalServerError
  let .ok _ ← (Dao.write (.insertBatch ctx.newGid (newRows ctx body))).lift
    | do
      let _ ← (Dao.write (.groupsDel ctx.newGid)).lift
      let _ ← (Dao.write (.groupKeysClear ctx.newGid)).lift
      return .of .internalServerError
  publishCreated ctx body

end Publishing

/-! ## Without the events -/

theorem forget_write {α : Type} {w : Write} {k : Except DaoError Unit → Publishing α}
    {k' : Except DaoError Unit → Dao α} (h : ∀ a, (k a).forget = k' a) :
    ((Dao.write w).lift >>= k).forget = Dao.write w >>= k' := by
  rw [Program.forget_bind, Program.forget_lift]
  exact congrArg (Dao.write w >>= ·) (funext h)

theorem forget_pubGroupSystemMessage (uid : Bytes) (gid : Gid) (type : SystemMessage) :
    (Publishing.pubGroupSystemMessage uid gid type).forget =
      pubGroupSystemMessage uid gid type := by
  unfold Publishing.pubGroupSystemMessage pubGroupSystemMessage
  rw [Program.forget_bind, Program.forget_lift]
  refine congrArg (Dao.write _ >>= ·) (funext fun a => ?_)
  cases a <;> rfl

theorem forget_sendSwitchGroupKeysWithRetry (uid : Bytes) (gid : Gid) (n : ℕ) :
    (Publishing.sendSwitchGroupKeysWithRetry uid gid n).forget =
      pubWithRetry uid gid .switchGroupKeys n := by
  induction n with
  | zero => rfl
  | succ n ih =>
      unfold Publishing.sendSwitchGroupKeysWithRetry pubWithRetry
      rw [Program.forget_bind, forget_pubGroupSystemMessage]
      refine congrArg (pubGroupSystemMessage uid gid _ >>= ·) (funext fun sent => ?_)
      cases sent with
      | true => rfl
      | false => exact ih

theorem forget_publishEntered (gid : Gid) (users : List (Bytes × GroupUser)) :
    (Publishing.publishEntered gid users).forget = pure () := by
  induction users with
  | nil => rfl
  | cons m users ih => exact ih

theorem forget_publishCreated (ctx : Context) (body : CreateGroupBodyV3) :
    (Publishing.publishCreated ctx body).forget = (do
      let _ ← pubGroupSystemMessage ctx.uid ctx.newGid .memberUpdate
      let _ ← pubWithRetry ctx.uid ctx.newGid .switchGroupKeys 3
      return { status := .ok, entity := .created ctx.newGid }) := by
  unfold Publishing.publishCreated
  rw [Program.forget_bind, forget_publishEntered]
  show (Publishing.pubGroupSystemMessage _ _ _ >>= _).forget = _
  rw [Program.forget_bind, forget_pubGroupSystemMessage]
  refine congrArg (pubGroupSystemMessage ctx.uid ctx.newGid _ >>= ·) (funext fun _ => ?_)
  rw [Program.forget_bind, forget_sendSwitchGroupKeysWithRetry]
  rfl

theorem forget_onCreateGroupV3 (env : Env) (ctx : Context) (body : CreateGroupBodyV3) :
    (Publishing.onCreateGroupV3 env ctx body).forget = onCreateGroupV3 env ctx body := by
  unfold Publishing.onCreateGroupV3 onCreateGroupV3
  split
  · rfl
  split
  · rfl
  split
  · rfl
  rw [Program.forget_bind, Program.forget_lift]
  refine congrArg (checkBidirectionalRelationship env ctx.account body.members >>= ·)
    (funext fun status => ?_)
  cases status with
  | some status => rfl
  | none =>
      dsimp only
      split
      · rfl
      split
      · rfl
      refine forget_write fun a => ?_
      cases a with
      | error e => rfl
      | ok a =>
          refine forget_write fun a => ?_
          cases a with
          | error e => exact forget_write fun _ => rfl
          | ok a =>
              refine forget_write fun a => ?_
              cases a with
              | error e => exact forget_write fun _ => forget_write fun _ => rfl
              | ok a => exact forget_publishCreated ctx body

/-! ## Runs -/

/-- The account and the members are in each other's filters, as far as the members have an
account. -/
def Friendly (env : Env) (account : Account) (members : List Bytes) (s : Store) : Prop :=
  ∀ m ∈ members, isFriend env account m = true ∧
    ∀ memberAccount, s.accounts m = some memberAccount →
      isFriend env memberAccount account.uid = true

/-- The check of the contacts refuses with an error, or hides that they are no friends. -/
def HidesRefusal (env : Env) (account : Account) (members : List Bytes) (s : Store)
    (status : HttpStatus) : Prop :=
  status.isError = true ∨ status = .ok ∧ ¬ Friendly env account members s

theorem wp_checkMembersFilters {env : Env} {account : Account} {members : List Bytes}
    {Q : Option HttpStatus → Plan ℕ → Store → Prop} {plan : Plan ℕ} {s : Store}
    (hnone : ∀ plan, Q none plan s)
    (hsome : ∀ status plan, (status.isError = true ∨ status = .ok ∧ ∃ m ∈ members,
      ∃ a, s.accounts m = some a ∧ isFriend env a account.uid = false) → Q (some status) plan s) :
    (checkMembersFilters env account members).wp Q plan s := by
  induction members generalizing plan with
  | nil => exact hnone plan
  | cons m members ih =>
      apply Dao.wp_read'
      · intro e
        exact hsome _ _ (Or.inl rfl)
      · intro a ha
        show Dao.wp (if _ then _ else _) _ _ _
        split
        · next hfriend =>
          rw [Bool.not_eq_true'] at hfriend
          exact hsome _ _ (Or.inr ⟨rfl, m, List.mem_cons_self, a, found_ok ha, hfriend⟩)
        · refine ih fun status plan h => hsome status plan (h.imp_right ?_)
          rintro ⟨hstatus, m, hm, hrest⟩
          exact ⟨hstatus, m, List.mem_cons_of_mem _ hm, hrest⟩

theorem wp_checkBidirectionalRelationship {env : Env} {account : Account} {members : List Bytes}
    {Q : Option HttpStatus → Plan ℕ → Store → Prop} {plan : Plan ℕ} {s : Store}
    (hnone : ∀ plan, Q none plan s)
    (hsome : ∀ status plan, HidesRefusal env account members s status → Q (some status) plan s) :
    (checkBidirectionalRelationship env account members).wp Q plan s := by
  unfold checkBidirectionalRelationship
  split
  · next hany =>
    obtain ⟨m, hm, hfriend⟩ := List.any_eq_true.mp hany
    rw [Bool.not_eq_true'] at hfriend
    refine hsome _ _ (Or.inr ⟨rfl, fun h => ?_⟩)
    rw [(h m hm).1] at hfriend
    cases hfriend
  · refine wp_checkMembersFilters hnone fun status plan h => hsome status plan (h.imp_right ?_)
    rintro ⟨hstatus, m, hm, a, ha, hfriend⟩
    refine ⟨hstatus, fun h => ?_⟩
    rw [(h m hm).2 a ha] at hfriend
    cases hfriend

/-- What is deleted to take a group back is gone. -/
def TakenBack : (o : Emitting DaoCall Publication) → Emitting.Res DaoCall.Answer o → Prop
  | .call (.write (.groupsDel _)), a => a = .ok ()
  | .call (.write (.groupKeysClear _)), a => a = .ok ()
  | _, _ => True

section Rules

variable {α β : Type} {P : α → Store × List Publication → Prop} {plan : Plan ℕ} {s t : Store}
  {events : List Publication}

/-- What holds of a run whose deletions succeed -/
abbrev Published (p : Publishing α) (P : α → Store × List Publication → Prop) (plan : Plan ℕ)
    (s : Store × List Publication) : Prop :=
  p.Provided daoEffects.emitting TakenBack P plan s

theorem published_lift {p : Dao β} {k : β → Publishing α}
    (h : p.wp (fun b plan t => Published (k b) P plan (t, events)) plan s) :
    Published (p.lift >>= k) P plan (s, events) :=
  Program.provided_bind (Program.wp_lift h)

theorem published_write {w : Write} {k : Except DaoError Unit → Publishing α}
    (herror : ∀ e plan, Published (k (.error e)) P plan (s, events))
    (hok : ∀ t plan, w.apply s = .ok t → Published (k (.ok ())) P plan (t, events)) :
    Published ((Dao.write w).lift >>= k) P plan (s, events) := by
  apply published_lift
  rw [← Program.bind_pure (Dao.write w)]
  exact Dao.wp_write (fun e _ => herror e _) fun t _ ht => hok t _ ht

/-- A deletion that is known to succeed -/
theorem published_delete {w : Write} {k : Except DaoError Unit → Publishing α}
    (hgood : ∀ a, TakenBack (.call (.write w)) a → a = .ok ()) (ht : w.apply s = .ok t)
    (h : ∀ plan, Published (k (.ok ())) P plan (t, events)) :
    Published ((Dao.write w).lift >>= k) P plan (s, events) := by
  apply Program.provided_call
  intro hanswer
  cases hplan : plan 0 with
  | some code =>
      rw [hplan] at hanswer
      cases hgood _ hanswer
  | none =>
      have hstep : daoEffects.emitting.step (.call (.write w)) none (s, events) =
          (.ok (), t, events) := by
        simp only [Effects.emitting, Dao.step_write_ok ht]
      rw [hstep]
      exact h _

end Rules

/-! ## Publishing -/

/-- The tables stay as they are, whatever is published. -/
def Quietly {α : Type} (p : Publishing α) (P : α → Prop) : Prop :=
  ∀ (Q : α → Plan ℕ → Store × List Publication → Prop) (plan : Plan ℕ) (s : Store)
    (events : List Publication), (∀ a plan events, P a → Q a plan (s, events)) →
    p.wp daoEffects.emitting Q plan (s, events)

section Quietly

variable {α β : Type} {P : α → Prop} {R : β → Prop}

theorem quietly_pure {a : α} (ha : P a) : Quietly (pure a) P :=
  fun _ plan _ events h => h a plan events ha

theorem quietly_bind {p : Publishing α} {k : α → Publishing β} (hp : Quietly p P)
    (hk : ∀ a, P a → Quietly (k a) R) : Quietly (p >>= k) R := by
  intro Q plan s events h
  apply Program.wp_bind
  exact hp _ _ _ _ fun a plan events ha => hk a ha Q plan s events h

theorem quietly_emit (e : Publication) : Quietly (Program.emit e) fun _ => True :=
  fun _ plan _ _ h => h () plan.tail _ trivial

theorem quietly_lift {p : Dao α} (hp : Dao.Quiet p) : Quietly p.lift fun _ => True :=
  fun _ _ _ _ h => Program.wp_lift (hp _ _ _ fun a plan => h a plan _ trivial)

theorem quietly_pubGroupSystemMessage (uid : Bytes) (gid : Gid) (type : SystemMessage) :
    Quietly (Publishing.pubGroupSystemMessage uid gid type) fun _ => True := by
  have hstore : Dao.Quiet (Dao.write (.groupMessageInsert gid uid type)) := by
    intro Q plan s h
    rw [← Program.bind_pure (Dao.write _)]
    apply Dao.wp_write
    · exact fun _ _ => h _ _
    · intro t _ ht
      cases ht
      exact h _ _
  apply quietly_bind (quietly_lift hstore)
  intro a _
  cases a with
  | ok _ => exact quietly_bind (quietly_emit _) fun _ _ => quietly_pure trivial
  | error _ => exact quietly_pure trivial

theorem quietly_sendSwitchGroupKeysWithRetry (uid : Bytes) (gid : Gid) (n : ℕ) :
    Quietly (Publishing.sendSwitchGroupKeysWithRetry uid gid n) fun _ => True := by
  induction n with
  | zero => exact quietly_pure trivial
  | succ n ih =>
      apply quietly_bind (quietly_pubGroupSystemMessage uid gid .switchGroupKeys)
      intro sent _
      cases sent with
      | true => exact quietly_pure trivial
      | false => exact ih

theorem quietly_publishEntered (gid : Gid) (users : List (Bytes × GroupUser)) :
    Quietly (Publishing.publishEntered gid users) fun _ => True := by
  induction users with
  | nil => exact quietly_pure trivial
  | cons m users ih => exact quietly_bind (quietly_emit _) fun _ _ => ih

theorem quietly_publishCreated (ctx : Context) (body : CreateGroupBodyV3) :
    Quietly (Publishing.publishCreated ctx body) fun r =>
      r.status = .ok ∧ r.entity = .created ctx.newGid := by
  apply quietly_bind (quietly_publishEntered _ _)
  intro _ _
  apply quietly_bind (quietly_pubGroupSystemMessage _ _ _)
  intro _ _
  apply quietly_bind (quietly_sendSwitchGroupKeysWithRetry _ _ _)
  exact fun _ _ => quietly_pure ⟨rfl, rfl⟩

end Quietly

/-- The group that a request has created -/
structure GroupCreated (ctx : Context) (body : CreateGroupBodyV3) (s t : Store) : Prop where
  group : t.groups = Function.update s.groups ctx.newGid (some body.group)
  keys : t.keysMode = Function.update s.keysMode ctx.newGid (some body.groupKeysMode)
  others : ∀ gid, gid ≠ ctx.newGid → t.users gid = s.users gid
  isSome : ∀ uid, (t.row ctx.newGid uid).isSome ↔ uid ∈ body.members ∨ uid = ctx.uid
  owner : t.role ctx.newGid ctx.uid = some .owner
  member : ∀ uid ∈ body.members, uid ≠ ctx.uid → t.role ctx.newGid uid = some .member

/-- Nothing is done, or a group is there. -/
inductive CreateSettled (env : Env) (ctx : Context) (body : CreateGroupBodyV3) (s : Store)
    (r : Reply) (t : Store × List Publication) : Prop where
  | refused (status : HidesRefusal env ctx.account body.members s r.status) (store : t = (s, []))
  | created (status : r.status = .ok) (entity : r.entity = .created ctx.newGid)
      (h : GroupCreated ctx body s t.1)

/-! ## The rows of a new group -/

section Rows

variable {ctx : Context} {body : CreateGroupBodyV3}

/-- The rows of the members that were asked for -/
def memberRows (ctx : Context) (body : CreateGroupBodyV3) : List (Bytes × GroupUser) :=
  (newRows ctx body).dropLast

theorem newRows_eq : ∃ owner : GroupUser,
    newRows ctx body = memberRows ctx body ++ [(ctx.uid, owner)] ∧ owner.role = .owner := by
  rw [memberRows, newRows, List.dropLast_concat]
  exact ⟨_, rfl, rfl⟩

theorem lengths_of_check {env : Env} (h : body.check env = none) :
    body.members.length = body.memberProofs.length ∧
      body.members.length = body.membersGroupInfoSecrets.length := by
  by_contra hne
  rw [not_and_or] at hne
  simp [CreateGroupBodyV3.check, firstViolation, hne] at h

theorem uids_memberRows {env : Env} (h : body.check env = none) :
    (memberRows ctx body).map Prod.fst = body.members := by
  obtain ⟨hproofs, hsecrets⟩ := lengths_of_check h
  rw [memberRows, newRows, List.dropLast_concat, List.map_map]
  exact List.map_fst_zip (by rw [List.length_zip]; omega)

theorem role_memberRows {row : Bytes × GroupUser} (h : row ∈ memberRows ctx body) :
    row.2.role = .member := by
  rw [memberRows, newRows, List.dropLast_concat] at h
  obtain ⟨x, -, rfl⟩ := List.mem_map.mp h
  rfl

/-- The rows are put into an empty table. -/
theorem groupCreated {env : Env} {s t : Store} (hcheck : body.check env = none)
    (hunused : s.unused ctx.newGid = true)
    (ht : t = { (s.setGroup ctx.newGid (some body.group)).setUsers ctx.newGid
      ((s.users ctx.newGid).insertAll (newRows ctx body)) with
        keysMode := Function.update s.keysMode ctx.newGid (some body.groupKeysMode) }) :
    GroupCreated ctx body s t := by
  obtain ⟨owner, hrows, howner⟩ := @newRows_eq ctx body
  have hinsert : (s.users ctx.newGid).insertAll (newRows ctx body) =
      ((s.users ctx.newGid).insertAll (memberRows ctx body)).insert ctx.uid owner := by
    rw [hrows, Table.insertAll, List.foldl_append]
    rfl
  have hrow : ∀ uid, t.row ctx.newGid uid =
      (((s.users ctx.newGid).insertAll (memberRows ctx body)).insert ctx.uid owner).lookup uid := by
    intro uid
    rw [ht, Store.row, ← hinsert]
    show ((Function.update s.users ctx.newGid _) ctx.newGid).lookup uid = _
    rw [Function.update_self]
  have hempty : ∀ uid, (s.users ctx.newGid).lookup uid = none := by
    intro uid
    simp only [Store.unused, Bool.and_eq_true, List.isEmpty_iff] at hunused
    rw [AList.lookup, hunused.2]
    rfl
  have hmember : ∀ uid ∈ body.members, uid ≠ ctx.uid →
      ∃ user : GroupUser, user.role = .member ∧ t.row ctx.newGid uid = some user := by
    intro uid huid hne
    obtain ⟨user, hmem, huser⟩ := Table.lookup_insertAll_of_mem (s.users ctx.newGid)
      (memberRows ctx body) ((uids_memberRows hcheck).symm ▸ huid)
    exact ⟨user, role_memberRows hmem, by rw [hrow, AList.lookup_insert_ne hne, huser]⟩
  refine ⟨?_, ?_, ?_, ?_, ?_, ?_⟩
  · rw [ht]
    rfl
  · rw [ht]
  · intro gid hgid
    rw [ht]
    exact Function.update_of_ne hgid _ _
  · intro uid
    by_cases hself : uid = ctx.uid
    · rw [hrow, hself, AList.lookup_insert]
      simp
    · by_cases huid : uid ∈ body.members
      · obtain ⟨user, -, huser⟩ := hmember uid huid hself
        rw [huser]
        simp [huid]
      · rw [hrow, AList.lookup_insert_ne hself,
          Table.lookup_insertAll_of_notMem _ _ (by rwa [uids_memberRows hcheck]), hempty]
        simp [huid, hself]
  · rw [Store.role, hrow, AList.lookup_insert, Option.map_some, howner]
  · intro uid huid hne
    obtain ⟨user, hrole, huser⟩ := hmember uid huid hne
    rw [Store.role, huser, Option.map_some, hrole]

end Rows

theorem createV3_settles (env : Env) (ctx : Context) (body : CreateGroupBodyV3) (plan : Plan ℕ)
    (s : Store) (hfresh : s.keysMode ctx.newGid = none) :
    Published (Publishing.onCreateGroupV3 env ctx body) (CreateSettled env ctx body s) plan
      (s, []) := by
  have hrefuse : ∀ status plan, status.isError = true →
      Published (pure (.of status)) (CreateSettled env ctx body s) plan (s, []) :=
    fun status plan h => Program.provided_ret (.refused (Or.inl h) rfl)
  unfold Publishing.onCreateGroupV3
  split
  · exact hrefuse _ _ (by decide)
  split
  · exact hrefuse _ _ (by decide)
  split
  · exact hrefuse _ _ (by decide)
  next hcheck =>
  rw [Bool.not_eq_true, Option.isSome_eq_false_iff, Option.isNone_iff_eq_none] at hcheck
  apply published_lift
  apply wp_checkBidirectionalRelationship
  · intro plan
    show Published (if _ then _ else _) _ _ _
    split
    · exact hrefuse _ _ (by decide)
    split
    · exact hrefuse _ _ (by decide)
    refine published_write (fun _ _ => hrefuse _ _ (by decide)) fun t plan ht => ?_
    obtain ⟨hunused, rfl⟩ : s.unused ctx.newGid = true ∧
        t = s.setGroup ctx.newGid (some body.group) := by
      simp only [Write.apply] at ht
      split at ht
      · exact ⟨‹_›, (Except.ok.inj ht).symm⟩
      · cases ht
    have hnogroup : s.groups ctx.newGid = none := by
      simp only [Store.unused, Bool.and_eq_true, Option.isNone_iff_eq_none] at hunused
      exact hunused.1
    have hback : (s.setGroup ctx.newGid (some body.group)).setGroup ctx.newGid none = s := by
      simp [Store.setGroup, ← hnogroup]
    refine published_write (fun e plan => ?_) fun t plan ht => ?_
    · -- the record is deleted again
      refine published_delete (fun _ ha => ha) rfl fun plan => ?_
      rw [hback]
      exact hrefuse _ _ (by decide)
    · cases ht
      refine published_write (fun e plan => ?_) fun t plan ht => ?_
      · -- the record and the keys are deleted again
        refine published_delete (fun _ ha => ha) rfl fun plan => ?_
        refine published_delete (fun _ ha => ha) rfl fun plan => ?_
        have hboth : Function.update (Function.update s.keysMode ctx.newGid
            (some body.groupKeysMode)) ctx.newGid none = s.keysMode := by
          rw [Function.update_idem, ← hfresh, Function.update_eq_self]
        show Published _ _ _ ({ (s.setGroup ctx.newGid (some body.group)).setGroup ctx.newGid none
          with keysMode := Function.update (Function.update s.keysMode ctx.newGid
            (some body.groupKeysMode)) ctx.newGid none }, [])
        rw [hback, hboth]
        exact hrefuse _ _ (by decide)
      · cases ht
        have hcreated := groupCreated hcheck hunused rfl
        exact fun _ => Program.exec_of_wp (quietly_publishCreated ctx body _ _ _ _
          fun r _ _ hr => .created hr.1 hr.2 hcreated)
  · intro status plan hstatus
    exact Program.provided_ret (.refused hstatus rfl)

/-- The number of a new group is one that no keys are stored under: it is the database's choice,
as is that no group and no users are. -/
theorem createV3_all_or_nothing (env : Env) (ctx : Context) (body : CreateGroupBodyV3)
    (plan : Plan ℕ) (s : Store) (hfresh : s.keysMode ctx.newGid = none)
    (hback : ∀ c ∈ (Publishing.onCreateGroupV3 env ctx body).calls daoEffects.emitting plan (s, []),
      TakenBack c.1 c.2) :
    let run := (Publishing.onCreateGroupV3 env ctx body).exec daoEffects.emitting plan (s, [])
    (run.1.status.isError = true → run.2 = (s, [])) ∧
    (run.1.status.isError = false →
      (run.1.entity = .created ctx.newGid ∧ GroupCreated ctx body s run.2.1) ∨
        (¬ Friendly env ctx.account body.members s ∧ run.2 = (s, []))) := by
  intro run
  cases createV3_settles env ctx body plan s hfresh hback with
  | refused status store =>
      refine ⟨fun _ => store, fun hok => Or.inr ⟨?_, store⟩⟩
      rcases status with herror | ⟨-, hfriends⟩
      · rw [herror] at hok
        cases hok
      · exact hfriends
  | created status entity h =>
      refine ⟨fun herror => ?_, fun _ => Or.inl ⟨entity, h⟩⟩
      rw [status] at herror
      cases herror

/-- The rows of the group cannot be stored. -/
theorem createV3_all_or_nothing_seven :
    ((Publishing.onCreateGroupV3 plainEnv { plainContext [1] with newGid := 7 } (createBody 0)).exec
      daoEffects.emitting (fun n => if n = 4 then some 5 else none)
      (emptyStore fun uid => some (plainAccount uid), [])).2 =
      (emptyStore fun uid => some (plainAccount uid), []) :=
  (createV3_all_or_nothing plainEnv { plainContext [1] with newGid := 7 } (createBody 0)
    (fun n => if n = 4 then some 5 else none) (emptyStore fun uid => some (plainAccount uid)) rfl
    (by
      -- two accounts, the three writes, and the two deletions
      repeat first
        | exact List.forall_mem_nil _
        | refine List.forall_mem_cons.mpr ⟨trivial, ?_⟩
        | refine List.forall_mem_cons.mpr ⟨rfl, ?_⟩)).1 (by decide +kernel)

end BcmServer.Group
