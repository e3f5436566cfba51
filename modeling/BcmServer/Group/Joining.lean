import BcmServer.Group.MemberCount

/-!
# BcmServer.Group.Joining — how a user can become a member

There are many ways into a group: its creation, an invitation, an add-me after a
QR code, a review by the owner, and in the earlier version a join request and the
upload of passwords. `Admissible` lists them, each with the checks that the
handler has made; `request_admits` says that there are no others, whatever calls
fail.
-/

namespace BcmServer.Group

open BcmServer.Util BcmServer.Lts GroupManagerController

/-! ## Invariants of programs -/

namespace Dao

variable {α β : Type} {I : Store → Prop}

/-- The tables keep a property, whatever calls fail. -/
def Maintains (I : Store → Prop) (p : Dao α) : Prop :=
  ∀ (plan : Plan ℕ) (s : Store), I s → p.wp (fun _ _ t => I t) plan s

theorem maintains_pure (a : α) : Maintains I (pure a) := by
  intro plan s hs
  exact hs

theorem maintains_write {w : Write} {k : Except DaoError Unit → Dao α}
    (hw : ∀ s t, I s → w.apply s = .ok t → I t) (h : ∀ a, Maintains I (k a)) :
    Maintains I (write w >>= k) := by
  intro plan s hs
  apply wp_write
  · intro e _
    exact h _ _ s hs
  · intro t _ ht
    exact h _ _ t (hw s t hs ht)

theorem maintains_bind {p : Dao α} {k : α → Dao β} (hp : Maintains I p)
    (hk : ∀ a, Maintains I (k a)) : Maintains I (p >>= k) := by
  intro plan s hs
  apply Program.wp_bind
  apply Program.wp_mono (hp plan s hs)
  intro a plan t ht
  exact hk a plan t ht

theorem Quiet.maintains {p : Dao α} (h : Quiet p) : Maintains I p := by
  intro plan s hs
  apply h
  intro _ _
  exact hs

end Dao

open Dao

/-! ## Admitting -/

/-- In one group, users become members who are named; the other groups stay as
they are. -/
structure Admits (gid : Gid) (named : Bytes → Prop) (s t : Store) : Prop where
  others : ∀ g, g ≠ gid → t.users g = s.users g
  new : ∀ uid, t.isMember gid uid = true → s.isMember gid uid = true ∨ named uid

namespace Admits

variable {gid : Gid} {named : Bytes → Prop} {s t u : Store}

theorem same (h : t.users = s.users) : Admits gid named s t := by
  constructor
  · intro g _
    rw [h]
  · intro uid huid
    rw [Store.isMember, Store.row, h] at huid
    exact Or.inl huid

theorem users (h : Admits gid named s t) (hu : u.users = t.users) : Admits gid named s u := by
  constructor
  · intro g hg
    rw [hu]
    exact h.others g hg
  · intro uid huid
    rw [Store.isMember, Store.row, hu] at huid
    exact h.new uid huid

theorem isMember_others (h : Admits gid named s t) {g : Gid} (hg : g ≠ gid) (uid : Bytes) :
    t.isMember g uid = s.isMember g uid := by
  rw [Store.isMember, Store.row, h.others g hg]
  rfl

/-- The table of the group is replaced. -/
theorem update (h : Admits gid named s t) {rows : Table Bytes GroupUser}
    (hu : u.users = Function.update t.users gid rows)
    (hrows : ∀ uid, (rows.lookup uid).any GroupUser.counts = true →
      t.isMember gid uid = true ∨ named uid) : Admits gid named s u := by
  constructor
  · intro g hg
    rw [hu, Function.update_of_ne hg]
    exact h.others g hg
  · intro uid huid
    rw [Store.isMember, Store.row, hu, Function.update_self] at huid
    rcases hrows uid huid with hold | hnew
    · exact h.new uid hold
    · exact Or.inr hnew

theorem eraseAll (h : Admits gid named s t) (uids : List Bytes)
    (hu : u.users = Function.update t.users gid ((t.users gid).eraseAll uids)) :
    Admits gid named s u := by
  apply h.update hu
  intro uid huid
  rw [Table.lookup_eraseAll] at huid
  split at huid
  · cases huid
  · exact Or.inl huid

theorem insertAll (h : Admits gid named s t) (rows : List (Bytes × GroupUser))
    (hu : u.users = Function.update t.users gid ((t.users gid).insertAll rows))
    (hnamed : ∀ uid ∈ rows.map Prod.fst, named uid) : Admits gid named s u := by
  apply h.update hu
  intro uid huid
  rcases Table.lookup_insertAll (t.users gid) rows uid with hold | ⟨v, hv, -⟩
  · rw [hold] at huid
    exact Or.inl huid
  · exact Or.inr (hnamed uid (List.mem_map.mpr ⟨_, hv, rfl⟩))

/-- The row of a user is replaced by one that does not make it a member. -/
theorem insert (h : Admits gid named s t) {uid : Bytes} {row : GroupUser}
    (hu : u.users = Function.update t.users gid ((t.users gid).insert uid row))
    (hrow : row.counts = true → t.isMember gid uid = true ∨ named uid) :
    Admits gid named s u := by
  apply h.update hu
  intro m hm
  by_cases heq : m = uid
  · rw [heq, AList.lookup_insert] at hm
    rw [heq]
    exact hrow hm
  · rw [AList.lookup_insert_ne heq] at hm
    exact Or.inl hm

end Admits

/-! ## The ways into a group -/

/-- The owner's confirmation is off, or the owner asks. -/
def Gate (s : Store) (gid : Gid) (uid : Bytes) : Prop :=
  ∃ group, s.groups gid = some group ∧ (group.ownerConfirm = 0 ∨ s.owner gid = some uid)

/-- An upload of passwords that is not refused: the caller is a member, and the
settings verify under the owner's key. -/
structure UploadValid (env : Env) (ctx : Context) (req : ReviewJoinResultList) (s : Store) :
    Prop where
  checked : req.check = true
  member : s.isMember req.gid ctx.uid = true
  settings : ∃ group uid owner, s.groups req.gid = some group ∧ s.owner req.gid = some uid ∧
    s.accounts uid = some owner ∧ group.settingEmpty = false ∧
    group.verifies env owner.publicKey = true

/-- The list accepts the user. -/
def ReviewJoinResultList.Accepts (req : ReviewJoinResultList) (uid : Bytes) : Prop :=
  ∃ item ∈ req.list, item.accepted = true ∧ item.uid = uid

/-- How a request can make the user a member. -/
def Admissible (env : Env) (ctx : Context) (plan : Plan ℕ) (s : Store) :
    GroupRequest → Bytes → Prop
  | .createV3 _, _ => s.groups ctx.newGid = none
  | .inviteV3 req, uid => uid ∈ req.members ∧
      (ctx.uid = backendManager ∨ s.isMember req.gid ctx.uid = true) ∧ Gate s req.gid ctx.uid
  | .addMeV3 req, uid => uid = ctx.uid ∧ AddMeValid ctx req plan s
  | .reviewV3 req, uid => s.owner req.gid = some ctx.uid ∧
      ∃ item ∈ req.list, item.accepted = true ∧ item.uid = uid
  | .join req, uid => uid = ctx.uid ∧
      ∃ group, s.groups req.gid = some group ∧ group.ownerConfirm = 0
  | .review req, uid => s.owner req.gid = some ctx.uid ∧ req.Accepts uid
  | .uploadPassword req, uid => UploadValid env ctx req s ∧ req.Accepts uid ∧
      s.row req.gid uid = none
  | .inviteV2 body, _ => Gate s body.gid ctx.uid
  | .leaveV3 _, _ | .kickV3 _, _ | .joinV3 _, _ | .updateV3 _, _ | .updateV2 _, _ => False

/-! ## Requests of the third version -/

section Requests

variable {env : Env} {ctx : Context} {plan : Plan ℕ} {named : Bytes → Prop} {s t : Store}
  {r : Reply}

theorem kick_admits {body : KickGroupMemberBody} (h : Kicked ctx body s r t) :
    Admits body.gid named s t := by
  apply (Admits.same rfl).eraseAll (body.members.filter fun m => (s.row body.gid m).isSome)
  rw [h.store]
  rfl

theorem leave_admits {body : LeaveGroupBody} (h : LeaveOutcome ctx body plan s r t) :
    Admits body.gid named s t := by
  -- the next owner is a member already
  have hpromote : ∀ next, HandsOver ctx body s next → Admits body.gid named s
      (s.setUsers body.gid ((s.users body.gid).insert body.nextOwner next.promoted)) := by
    intro next h
    apply (Admits.same rfl).insert rfl
    intro _
    left
    rw [Store.isMember, h.row, Option.any_some, GroupUser.counts]
    rcases h.role with hrole | hrole <;> rw [hrole] <;> rfl
  cases h with
  | refused h => exact Admits.same (congrArg Store.users h.store)
  | left h =>
      rw [h.store]
      exact (Admits.same rfl).eraseAll [ctx.uid] rfl
  | handedOver next h _ _ _ store =>
      apply (hpromote next h).eraseAll [ctx.uid]
      rw [store, users_setUsers]
      unfold Store.setUsers
      rw [Function.update_idem]
      rfl
  | twoOwners next h _ _ _ _ store =>
      rw [store]
      exact hpromote next h

theorem create_admits {body : CreateGroupBodyV3} (h : CreateOutcome env ctx body s r t) :
    Admits ctx.newGid (Admissible env ctx plan s (.createV3 body)) s t := by
  cases h with
  | refused h => exact Admits.same (congrArg Store.users h.store)
  | undone _ _ _ group _ modes hstore =>
      apply Admits.same
      rw [hstore]
      rfl
  | created _ hunused _ modes hstore =>
      apply (Admits.same rfl).insertAll (newRows ctx body)
      · rw [hstore]
        rfl
      · intro uid _
        rw [Store.unused, Bool.and_eq_true, Option.isNone_iff_eq_none] at hunused
        exact hunused.1

theorem invite_admits {req : InviteGroupMemberRequestV3} (h : InviteOutcome ctx req s r t) :
    Admits req.gid (Admissible env ctx plan s (.inviteV3 req)) s t := by
  cases h with
  | quiet _ pending hstore =>
      apply Admits.same
      rw [hstore]
  | invited rows h _ _ hstore =>
      apply (Admits.same rfl).insertAll rows
      · rw [hstore]
        rfl
      · intro uid huid
        rw [h.uids] at huid
        exact ⟨List.mem_of_mem_filter huid, h.inviter, h.gate⟩

theorem review_admits {req : ReviewJoinResultRequestV3} (h : ReviewOutcome ctx req s r t) :
    Admits req.gid (Admissible env ctx plan s (.reviewV3 req)) s t := by
  cases h with
  | quiet _ pending hstore =>
      apply Admits.same
      rw [hstore]
  | reviewed howner rows huids _ _ _ pending hstore =>
      apply (Admits.same rfl).insertAll rows
      · rw [hstore]
        rfl
      · intro uid huid
        rw [huids] at huid
        obtain ⟨item, hitem, rfl⟩ := List.mem_map.mp (List.mem_filter.mp huid).1
        obtain ⟨hitem, haccepted⟩ := List.mem_filter.mp hitem
        exact ⟨howner, item, hitem, haccepted, rfl⟩

theorem addMe_admits {req : AddMeRequestV3} (h : AddedMe ctx req plan s r t) :
    Admits req.gid (Admissible env ctx plan s (.addMeV3 req)) s t := by
  obtain ⟨user, hrole, hstore⟩ := h.store
  apply (Admits.same rfl).insert
  · rw [hstore]
    rfl
  · intro _
    exact Or.inr ⟨rfl, h.valid⟩

theorem joinV3_admits {req : GroupJoinRequest} (h : JoinOutcome env ctx req s r t) :
    Admits req.gid named s t := by
  apply Admits.same
  cases h with
  | refused _ hstore => rw [hstore]
  | recorded _ _ hstore =>
      rw [hstore]
      rfl
  | pending _ _ users hstore =>
      rw [hstore]
      rfl

theorem update_admits {body : UpdateGroupInfoBodyV2} {upData : GroupUpdate}
    (h : t = s ∨ Updated env ctx body upData s t) : Admits body.gid named s t := by
  rcases h with h | h
  · exact Admits.same (congrArg Store.users h)
  · exact Admits.same h.users

end Requests

/-! ## Requests of the earlier version -/

section Earlier

variable {env : Env} {ctx : Context} {plan : Plan ℕ} {named : Bytes → Prop} {s : Store}

theorem leavePending_maintains {gid : Gid} {req : GroupJoinRequest} {group : GroupRecord} :
    Maintains (Admits gid named s) (leavePending ctx req group) := by
  apply maintains_write
  · intro t u ht hu
    cases hu
    exact ht.users rfl
  · intro a
    cases a with
    | error e => exact maintains_pure _
    | ok _ =>
        show Maintains _ (if _ then _ else _)
        split
        · apply maintains_bind (quiet_pubGroupSystemMessage _ _ _).maintains
          intro _
          exact maintains_pure _
        · exact maintains_pure _

theorem join_admits (env : Env) (ctx : Context) (req : GroupJoinRequest) (plan : Plan ℕ)
    (s : Store) :
    (onGroupJoinRequst env ctx req).wp
      (fun _ _ t => Admits req.gid (Admissible env ctx plan s (.join req)) s t) plan s := by
  have hsame : ∀ (r : Reply) plan', Dao.wp (pure r)
      (fun _ _ t => Admits req.gid (Admissible env ctx plan s (.join req)) s t) plan' s :=
    fun _ _ => Admits.same rfl
  unfold onGroupJoinRequst
  split
  · exact hsame _ _
  apply wp_read' (fun e => by cases e <;> exact hsame _ _)
  intro group hgroup
  show Dao.wp (if _ then _ else _) _ _ _
  split
  · exact hsame _ _
  apply wp_getGroupOwner fun _ => hsame _ _
  intro uid owner _ _ _
  show Dao.wp (if _ then _ else _) _ _ _
  split
  · exact hsame _ _
  split
  · exact hsame _ _
  split
  · exact hsame _ _
  split
  · exact hsame _ _
  apply wp_read'
  · intro _
    show Dao.wp (if _ then _ else _) _ _ _
    split
    · rename_i hconfirm
      apply wp_write fun _ _ => hsame _ _
      intro t _ ht
      apply leavePending_maintains
      cases ht
      apply (Admits.same rfl).insert rfl
      intro _
      exact Or.inr ⟨rfl, group, found_ok hgroup, hconfirm⟩
    · apply leavePending_maintains
      exact Admits.same rfl
  · intro _ _
    exact hsame _ _

theorem role_updateIfEmpty {u v : GroupUser} {d : KeysUpdate} (h : u.updateIfEmpty d = some v) :
    v.role = u.role := by
  unfold GroupUser.updateIfEmpty at h
  split at h
  · cases h
  split at h
  · cases h
  · cases h
    rfl

/-- Keys that are filled in make nobody a member. -/
theorem updateKeys_maintains {gid : Gid} {encrypted : Bool} {now : ℤ}
    (items : List (ReviewJoinResult × GroupUser)) :
    Maintains (Admits gid named s) (updateKeys gid encrypted now items) := by
  induction items with
  | nil => exact maintains_pure true
  | cons x items ih =>
      -- `updateIfEmpty` keeps the role
      unfold updateKeys
      split
      · exact ih
      · apply maintains_write
        · intro t u ht hu
          simp only [Write.apply] at hu
          obtain ⟨row, hrow, hu⟩ := bind_eq_ok.mp hu
          split at hu
          · rename_i row' hkeys
            cases hu
            apply ht.insert rfl
            intro hcounts
            left
            rw [GroupUser.counts, role_updateIfEmpty hkeys] at hcounts
            rw [Store.isMember, found_ok hrow]
            exact hcounts
          · cases hu
        · intro a
          rcases a with (_ | _ | _) | _
          · exact maintains_pure false
          · exact ih
          · exact maintains_pure false
          · exact ih

/-- A batch of rows of users who may be admitted. -/
theorem maintains_insertBatch {α : Type} {gid : Gid} {rows : List (Bytes × GroupUser)}
    {k : Except DaoError Unit → Dao α} (h : ∀ uid ∈ rows.map Prod.fst, named uid)
    (hk : ∀ a, Maintains (Admits gid named s) (k a)) :
    Maintains (Admits gid named s) (write (.insertBatch gid rows) >>= k) := by
  apply maintains_write
  · intro t u ht hu
    cases hu
    exact ht.insertAll _ rfl h
  · exact hk

theorem insertDistributed_maintains {gid : Gid} {rows : List (Bytes × GroupUser)}
    {inviters : List Bytes} (h : ∀ uid ∈ rows.map Prod.fst, named uid) :
    Maintains (Admits gid named s) (insertDistributed gid rows inviters) := by
  unfold insertDistributed
  split
  · exact maintains_pure true
  · apply maintains_insertBatch h
    intro a
    cases a with
    | error e => exact maintains_pure false
    | ok _ =>
        apply maintains_bind (quiet_pubForEach _ _).maintains
        intro _
        exact maintains_pure true

theorem insertInvited_maintains {gid : Gid} {rows : List (Bytes × GroupUser)}
    {failed : List Bytes} (h : ∀ uid ∈ rows.map Prod.fst, named uid) :
    Maintains (Admits gid named s) (insertInvited ctx gid rows failed) := by
  unfold insertInvited
  split
  · exact maintains_pure _
  · apply maintains_insertBatch h
    intro a
    cases a with
    | error e => exact maintains_pure _
    | ok _ =>
        apply maintains_bind (quiet_pubGroupSystemMessage _ _ _).maintains
        intro _
        exact maintains_pure _

theorem deleteSubscribers_maintains {gid : Gid} (subscribers : List Bytes) :
    Maintains (Admits gid named s) (deleteSubscribers gid subscribers) := by
  unfold deleteSubscribers
  split
  · exact maintains_pure true
  · apply maintains_write
    · intro t u ht hu
      cases hu
      exact ht.eraseAll _ rfl
    · intro a
      rcases a with (_ | _ | _) | _ <;> exact maintains_pure _

/-- The rows that are added are those of accepted users without one. -/
theorem distributeKeys_admits {req : ReviewJoinResultList} {group : GroupRecord}
    (hnamed : ∀ uid, req.Accepts uid → s.row req.gid uid = none → named uid) :
    (distributeKeys ctx req group).wp (fun _ _ t => Admits req.gid named s t) plan s := by
  unfold distributeKeys
  -- the rows are read before the first write
  apply wp_existedUsers
  · intro _
    exact Admits.same rfl
  intro existed plan _ hexisted
  have hrows : ∀ uid ∈ (distributedRows ctx group ((req.list.filter
      ReviewJoinResult.accepted).filter fun item => (existedRow existed item).isNone)).map
      Prod.fst, named uid := by
    intro uid huid
    unfold distributedRows at huid
    rw [List.map_map] at huid
    obtain ⟨item, hitem, rfl⟩ := List.mem_map.mp huid
    obtain ⟨hitem, hnone⟩ := List.mem_filter.mp hitem
    obtain ⟨hlist, haccepted⟩ := List.mem_filter.mp hitem
    apply hnamed item.uid ⟨item, hlist, haccepted, rfl⟩
    have hany := hexisted item.uid (List.mem_map.mpr ⟨item, hitem, rfl⟩)
    rw [← Option.not_isSome_iff_eq_none, ← hany]
    unfold existedRow at hnone
    rw [Option.isNone_map, Option.isNone_iff_eq_none, List.find?_eq_none] at hnone
    rw [List.any_eq_true]
    rintro ⟨u, hu, heq⟩
    exact hnone u hu heq
  refine maintains_bind (updateKeys_maintains _) ?_ plan s (Admits.same rfl)
  intro updated
  cases updated with
  | false => exact maintains_pure _
  | true =>
      apply maintains_bind (insertDistributed_maintains hrows)
      intro inserted
      cases inserted with
      | false => exact maintains_pure _
      | true =>
          show Maintains _ (if req.list.isEmpty = true then _ else _)
          split
          · exact maintains_pure _
          · apply maintains_write
            · intro t u ht hu
              cases hu
              exact ht.users rfl
            · intro a
              cases a <;> exact maintains_pure _

theorem reviewV2_admits (env : Env) (ctx : Context) (req : ReviewJoinResultList)
    (plan : Plan ℕ) (s : Store) :
    (onReviewJoinRequest env ctx req).wp
      (fun _ _ t => Admits req.gid (Admissible env ctx plan s (.review req)) s t) plan s := by
  have hsame : ∀ (r : Reply) plan', Dao.wp (pure r)
      (fun _ _ t => Admits req.gid (Admissible env ctx plan s (.review req)) s t) plan' s :=
    fun _ _ => Admits.same rfl
  unfold onReviewJoinRequest
  split
  · exact hsame _ _
  apply wp_read' fun _ => hsame _ _
  intro ownerUid howner
  show Dao.wp (if _ then _ else _) _ _ _
  split
  · exact hsame _ _
  rename_i howns
  apply wp_read' fun _ => hsame _ _
  intro group _
  show Dao.wp (if _ then _ else _) _ _ _
  split
  · exact hsame _ _
  apply distributeKeys_admits
  intro uid haccepts _
  refine ⟨?_, haccepts⟩
  rw [← not_not.mp howns]
  exact found_ok howner

theorem upload_admits (env : Env) (ctx : Context) (req : ReviewJoinResultList)
    (plan : Plan ℕ) (s : Store) :
    (onUploadPassword env ctx req).wp
      (fun _ _ t => Admits req.gid (Admissible env ctx plan s (.uploadPassword req)) s t)
      plan s := by
  have hsame : ∀ (r : Reply) plan', Dao.wp (pure r)
      (fun _ _ t => Admits req.gid (Admissible env ctx plan s (.uploadPassword req)) s t)
      plan' s :=
    fun _ _ => Admits.same rfl
  unfold onUploadPassword
  split
  · exact hsame _ _
  rename_i hcheck
  apply wp_read' fun _ => hsame _ _
  intro role hrole
  show Dao.wp (if _ then _ else _) _ _ _
  split
  · exact hsame _ _
  rename_i hmay
  apply wp_read' fun _ => hsame _ _
  intro group hgroup
  apply wp_getGroupOwner fun _ => hsame _ _
  intro ownerUid owner _ howner haccount
  show Dao.wp (if _ then _ else _) _ _ _
  split
  · exact hsame _ _
  rename_i hempty
  split
  · exact hsame _ _
  rename_i hverifies
  have hvalid : UploadValid env ctx req s := by
    refine ⟨by simpa using hcheck, ?_, group, ownerUid, owner, found_ok hgroup, howner, haccount,
      by simpa using hempty, by simpa using hverifies⟩
    apply isMember_of_role (found_ok hrole)
    rw [Role.counts_iff]
    tauto
  apply distributeKeys_admits
  intro uid haccepts hnone
  exact ⟨hvalid, haccepts, hnone⟩

theorem inviteV2_admits (env : Env) (ctx : Context) (body : InviteGroupMemberBodyV2)
    (plan : Plan ℕ) (s : Store) :
    (onInviteGroupMemberV2 env ctx body).wp
      (fun _ _ t => Admits body.gid (Admissible env ctx plan s (.inviteV2 body)) s t) plan s := by
  have hsame : ∀ (r : Reply) plan', Dao.wp (pure r)
      (fun _ _ t => Admits body.gid (Admissible env ctx plan s (.inviteV2 body)) s t) plan' s :=
    fun _ _ => Admits.same rfl
  unfold onInviteGroupMemberV2
  split
  · exact hsame _ _
  split
  · exact hsame _ _
  apply wp_checkInviter fun _ _ => hsame _ _
  intro _ _
  apply wp_read' (fun e => by cases e <;> exact hsame _ _)
  intro group hgroup
  apply wp_read' fun _ => hsame _ _
  intro ownerUid howner
  show Dao.wp (if _ then _ else _) _ _ _
  split
  · apply inviteForReview_quiet
    intro _ _ pending _
    exact Admits.same rfl
  · rename_i hgate
    have hadmissible : ∀ uid, Admissible env ctx plan s (.inviteV2 body) uid := by
      intro uid
      refine ⟨group, found_ok hgroup, ?_⟩
      by_cases hconfirm : group.ownerConfirm = 0
      · exact Or.inl hconfirm
      right
      have howns : ownerUid = ctx.uid := by
        by_contra hne
        exact hgate ⟨hconfirm, hne⟩
      rw [← howns]
      exact found_ok howner
    unfold inviteDirectlyV2
    split
    · exact hsame _ _
    apply wp_memberRoles fun _ => hsame _ _
    intro roles plan' _
    refine maintains_bind (deleteSubscribers_maintains _) ?_ plan' s (Admits.same rfl)
    intro b
    cases b with
    | false => exact maintains_pure _
    | true => exact insertInvited_maintains fun uid _ => hadmissible uid

end Earlier

/-! ## All requests -/

/-- A request makes users members of its group only, in one of the ways listed. -/
theorem request_admits (env : Env) (ctx : Context) (req : GroupRequest) (plan : Plan ℕ)
    (s : Store) :
    Admits (req.gid ctx) (Admissible env ctx plan s req) s ((req.handle env ctx).run plan s).2 := by
  cases req with
  | createV3 body => exact create_admits (Dao.run_of_wp (create_outcome env ctx body plan s))
  | leaveV3 body => exact leave_admits (Dao.run_of_wp (leave_outcome env ctx body plan s))
  | kickV3 body =>
      rcases Dao.run_of_wp (kick_outcome env ctx body plan s) with h | h
      · exact Admits.same (congrArg Store.users h.store)
      · exact kick_admits h
  | inviteV3 req => exact invite_admits (Dao.run_of_wp (invite_outcome env ctx req plan s))
  | joinV3 req => exact joinV3_admits (Dao.run_of_wp (join_outcome env ctx req plan s))
  | addMeV3 req =>
      rcases Dao.run_of_wp (addMe_outcome env ctx req plan s) with h | h
      · exact Admits.same (congrArg Store.users h.store)
      · exact addMe_admits h
  | reviewV3 req => exact review_admits (Dao.run_of_wp (review_outcome env ctx req plan s))
  | updateV3 body =>
      exact update_admits (Dao.run_of_wp (update_outcome env ctx body.toUpdateGroupInfoBodyV2
        (body.check env) body.upData plan s)).2
  | join req => exact Dao.run_of_wp (join_admits env ctx req plan s)
  | review req => exact Dao.run_of_wp (reviewV2_admits env ctx req plan s)
  | uploadPassword req => exact Dao.run_of_wp (upload_admits env ctx req plan s)
  | inviteV2 body => exact Dao.run_of_wp (inviteV2_admits env ctx body plan s)
  | updateV2 body =>
      exact update_admits (Dao.run_of_wp (update_outcome env ctx body (body.check env)
        body.upData plan s)).2

end BcmServer.Group
