import BcmServer.Group.MemberCount

/-!
# BcmServer.Group.Ownership — a group that is not empty has exactly one owner

The first part is about rosters: the roles of the users of a group, whoever they
are. A roster stays orderly when an owner stays and nobody becomes one, when
others leave, and when the owner hands over.

The handlers of the third version change rosters in these ways, with two
exceptions.

* A hand-over is two calls, the promotion of the next owner and the deletion of
  the old one. If the second fails, there are two owners.
* An add-me is not refused in a group whose owner has left as the last member. A
  record from before then makes the caller a member of a group without an owner.
  The row of an owner is replaced in the same way, if it cannot be read.

`one_owner_run` says that without these the invariant holds in every run.
-/

namespace BcmServer.Group

open BcmServer.Util BcmServer.Lts GroupManagerController

/-! ## Rosters -/

section Roster

variable {U : Type} {r r' : U → Option Role}

/-- If anybody is in the group, it has exactly one owner. -/
def OneOwner (r : U → Option Role) : Prop :=
  (∃ u, (r u).any Role.counts = true) → ∃! u, r u = some .owner

theorem OneOwner.unique (h : OneOwner r) {u v : U} (hu : r u = some .owner)
    (hv : r v = some .owner) : u = v := by
  have hcounts : (r u).any Role.counts = true := by
    rw [hu]
    rfl
  exact (h ⟨u, hcounts⟩).unique hu hv

theorem oneOwner_of_owner {o : U} (ho : r o = some .owner)
    (hunique : ∀ u, r u = some .owner → u = o) : OneOwner r := by
  intro _
  exact ⟨o, ho, hunique⟩

/-- An owner stays, and nobody becomes one. -/
theorem OneOwner.keep (h : OneOwner r) {o : U} (ho : r o = some .owner)
    (hkeep : r' o = some .owner) (hnew : ∀ u, r' u = some .owner → r u = some .owner) :
    OneOwner r' := by
  apply oneOwner_of_owner hkeep
  intro u hu
  exact h.unique (hnew u hu) ho

/-- Somebody leaves who is not the owner. -/
theorem OneOwner.leave (h : OneOwner r) {m : U} (hm : r m ≠ some .owner) (hgone : r' m = none)
    (hothers : ∀ u, u ≠ m → r' u = r u) : OneOwner r' := by
  rintro ⟨v, hv⟩
  have hne : v ≠ m := by
    rintro rfl
    rw [hgone] at hv
    cases hv
  rw [hothers v hne] at hv
  obtain ⟨o, ho, -⟩ := h ⟨v, hv⟩
  have hom : o ≠ m := by
    rintro rfl
    exact hm ho
  refine h.keep ho ((hothers o hom).trans ho) ?_ ⟨o, ?_⟩
  · intro u hu
    by_cases hum : u = m
    · rw [hum, hgone] at hu
      cases hu
    · rwa [hothers u hum] at hu
  · rw [hothers o hom, ho]
    rfl

/-- The owner leaves, and somebody else is the owner now. -/
theorem OneOwner.handOver (h : OneOwner r) {o n : U} (ho : r o = some .owner)
    (hgone : r' o = none) (hnext : r' n = some .owner)
    (hothers : ∀ u, u ≠ o → u ≠ n → r' u = r u) : OneOwner r' := by
  apply oneOwner_of_owner hnext
  intro u hu
  by_contra hne
  have huo : u ≠ o := by
    rintro rfl
    rw [hgone] at hu
    cases hu
  rw [hothers u huo hne] at hu
  exact huo (h.unique hu ho)

end Roster

/-! ## The rosters of the tables -/

section Tables

variable {s t : Store} {gid : Gid}

/-- The roster in a table of users. -/
def roster (rows : Table Bytes GroupUser) (uid : Bytes) : Option Role :=
  (rows.lookup uid).map GroupUser.role

/-- Every group has one owner, if it has members. -/
def OwnersUnique (s : Store) : Prop := ∀ gid, OneOwner (s.role gid)

/-- The roles of a group depend on its table only. -/
theorem role_eq_of_users {gid : Gid} (h : t.users gid = s.users gid) : t.role gid = s.role gid := by
  funext uid
  rw [Store.role, Store.row, h]
  rfl

theorem OwnersUnique.same (h : OwnersUnique s) (ht : t.users = s.users) : OwnersUnique t := by
  intro gid
  rw [role_eq_of_users (congrFun ht gid)]
  exact h gid

/-- The table of one group changes. -/
theorem OwnersUnique.update (h : OwnersUnique s) {rows : Table Bytes GroupUser}
    (ht : t.users = Function.update s.users gid rows) (hrows : OneOwner (roster rows)) :
    OwnersUnique t := by
  intro gid'
  by_cases hgid : gid' = gid
  · have hrole : t.role gid' = roster rows := by
      funext uid
      rw [Store.role, Store.row, ht, hgid, Function.update_self]
      rfl
    rw [hrole]
    exact hrows
  · have hold : t.users gid' = s.users gid' := by
      rw [ht, Function.update_of_ne hgid]
    rw [role_eq_of_users hold]
    exact h gid'

/-- Rows of members are put in, and an owner is left alone. -/
theorem oneOwner_insertAll (h : OneOwner (s.role gid)) {rows : List (Bytes × GroupUser)}
    (hroles : ∀ r ∈ rows, r.2.role = .member) {o : Bytes} (ho : s.role gid o = some .owner)
    (hkeep : o ∉ rows.map Prod.fst) : OneOwner (roster ((s.users gid).insertAll rows)) := by
  apply h.keep ho
  · rw [roster, Table.lookup_insertAll_of_notMem _ _ hkeep]
    exact ho
  · intro u hu
    rcases Table.lookup_insertAll (s.users gid) rows u with hsame | ⟨v, hv, hlook⟩
    · rw [roster, hsame] at hu
      exact hu
    · rw [roster, hlook, Option.map_some, hroles _ hv] at hu
      cases hu

end Tables

/-! ## One request -/

/-- The condition on a step: the deletion of an owner who hands over does not fail
after the promotion, and an add-me goes through only where somebody else is the
owner. -/
def OwnerSafe (s : Store) : RequestEvent → Prop
  | .request ctx (.leaveV3 body) plan =>
      (∀ n < 3, plan n = none) → ∀ next, HandsOver ctx body s next → plan 3 = none
  | .request ctx (.addMeV3 req) plan =>
      AddMeValid ctx req plan s → ∃ uid, uid ≠ ctx.uid ∧ s.role req.gid uid = some .owner
  | _ => True

section Requests

variable {env : Env} {ctx : Context} {plan : Plan ℕ} {s t : Store} {r : Reply}

theorem kick_owners {body : KickGroupMemberBody} (hs : OwnersUnique s)
    (h : Kicked ctx body s r t) : OwnersUnique t := by
  set gone := body.members.filter fun m => (s.row body.gid m).isSome with hgone
  have husers : t.users =
      Function.update s.users body.gid ((s.users body.gid).eraseAll gone) := by
    rw [h.store]
    rfl
  apply hs.update husers
  -- the one who kicks is the owner and is not in the list
  apply (hs body.gid).keep h.owner
  · have hself : ctx.uid ∉ gone := by
      intro hmem
      exact kick_not_self h.checked (List.mem_of_mem_filter hmem)
    rw [roster, Table.lookup_eraseAll, if_neg hself]
    exact h.owner
  · intro u hu
    rw [roster, Table.lookup_eraseAll] at hu
    split at hu
    · cases hu
    · exact hu

/-- After the last member has left, no row counts. -/
theorem oneOwner_last {gid : Gid} {uid : Bytes} (howner : s.role gid uid = some .owner)
    (hlast : s.memberCnt gid ≤ 1) : OneOwner (roster ((s.users gid).erase uid)) := by
  rintro ⟨u, hu⟩
  have hcount := count_erase_member (isMember_of_role howner rfl)
  have hpos : 0 < Table.count GroupUser.counts ((s.users gid).erase uid) := by
    rw [Table.count_pos_iff]
    refine ⟨u, ?_⟩
    rw [roster, Option.any_map] at hu
    exact hu
  omega

theorem leave_owners {body : LeaveGroupBody} (hs : OwnersUnique s)
    (h : LeaveOutcome ctx body plan s r t)
    (hok : OwnerSafe s (.request ctx (.leaveV3 body) plan)) : OwnersUnique t := by
  cases h with
  | refused h =>
      rw [h.store]
      exact hs
  | left h =>
      have husers : t.users =
          Function.update s.users body.gid ((s.users body.gid).erase ctx.uid) := by
        rw [h.store]
        rfl
      apply hs.update husers
      rcases h.role with hmember | ⟨howner, hlast⟩
      · apply (hs body.gid).leave (m := ctx.uid)
        · rw [hmember]
          exact fun heq => Role.noConfusion (Option.some.inj heq)
        · rw [roster, AList.lookup_erase]
          rfl
        · intro u hu
          rw [roster, AList.lookup_erase_ne hu]
          rfl
      · exact oneOwner_last howner hlast
  | handedOver next h _ _ _ store =>
      have husers : t.users = Function.update s.users body.gid
          (((s.users body.gid).insert body.nextOwner next.promoted).erase ctx.uid) := by
        rw [store]
        rfl
      apply hs.update husers
      -- the old owner's row is gone, the next owner's is there
      apply (hs body.gid).handOver h.owner (n := body.nextOwner)
      · rw [roster, AList.lookup_erase]
        rfl
      · rw [roster, AList.lookup_erase_ne h.ne, AList.lookup_insert]
        rfl
      · intro u huo hun
        rw [roster, AList.lookup_erase_ne huo, AList.lookup_insert_ne hun]
        rfl
  | twoOwners next h _ _ calls fault _ =>
      -- excluded by the condition
      rw [hok calls next h] at fault
      cases fault

theorem addMe_owners {req : AddMeRequestV3} (hs : OwnersUnique s)
    (h : AddedMe ctx req plan s r t) (hok : OwnerSafe s (.request ctx (.addMeV3 req) plan)) :
    OwnersUnique t := by
  obtain ⟨o, hne, ho⟩ := hok h.valid
  obtain ⟨user, hrole, hstore⟩ := h.store
  have husers : t.users = Function.update s.users req.gid
      ((s.users req.gid).insertAll [(ctx.uid, user)]) := by
    rw [hstore]
    rfl
  apply hs.update husers
  -- somebody else is the owner, whose row is not replaced
  apply oneOwner_insertAll (hs req.gid) _ ho
  · simpa using hne
  · simpa using hrole

theorem invite_owners {req : InviteGroupMemberRequestV3} (hs : OwnersUnique s)
    (h : InviteOutcome ctx req s r t) : OwnersUnique t := by
  cases h with
  | quiet _ pending hstore =>
      apply hs.same
      rw [hstore]
  | invited rows h _ _ hstore =>
      have husers : t.users =
          Function.update s.users req.gid ((s.users req.gid).insertAll rows) := by
        rw [hstore]
        rfl
      obtain ⟨o, ho⟩ := h.owner
      have howner := role_of_owner ho
      apply hs.update husers
      apply oneOwner_insertAll (hs req.gid) h.roles howner
      -- the owner is a member already
      rw [h.uids]
      intro hmem
      have hnone := (List.mem_filter.mp hmem).2
      rw [isMember_of_role howner rfl] at hnone
      cases hnone

theorem review_owners {req : ReviewJoinResultRequestV3} (hs : OwnersUnique s)
    (h : ReviewOutcome ctx req s r t) : OwnersUnique t := by
  cases h with
  | quiet _ pending hstore =>
      apply hs.same
      rw [hstore]
  | reviewed ho rows huids hroles _ _ pending hstore =>
      have husers : t.users =
          Function.update s.users req.gid ((s.users req.gid).insertAll rows) := by
        rw [hstore]
        rfl
      have howner := role_of_owner ho
      apply hs.update husers
      apply oneOwner_insertAll (hs req.gid) hroles howner
      rw [huids]
      intro hmem
      have hnone := (List.mem_filter.mp hmem).2
      rw [Option.isNone_iff_eq_none] at hnone
      rw [Store.role, hnone] at howner
      cases howner

/-- Rows of members and the row of an owner behind them: whoever is among the
members, there is one owner. -/
theorem roster_append_owner {members : List (Bytes × GroupUser)} {owner : Bytes}
    {row : GroupUser} (hroles : ∀ r ∈ members, r.2.role = .member) (hrow : row.role = .owner)
    (uid : Bytes) :
    roster (Table.insertAll ∅ (members ++ [(owner, row)])) uid = some .owner ↔ uid = owner := by
  have hlast : Table.insertAll ∅ (members ++ [(owner, row)]) =
      AList.insert owner row (Table.insertAll ∅ members) := by
    unfold Table.insertAll
    rw [List.foldl_append]
    rfl
  rw [hlast, roster]
  constructor
  · intro hu
    by_contra hne
    rw [AList.lookup_insert_ne hne] at hu
    rcases Table.lookup_insertAll ∅ members uid with hsame | ⟨v, hv, hlook⟩
    · rw [hsame] at hu
      cases hu
    · rw [hlook, Option.map_some, hroles _ hv] at hu
      cases hu
  · rintro rfl
    rw [AList.lookup_insert, Option.map_some, hrow]

theorem owner_newRows (ctx : Context) (body : CreateGroupBodyV3) (uid : Bytes) :
    roster (Table.insertAll ∅ (newRows ctx body)) uid = some .owner ↔ uid = ctx.uid := by
  unfold newRows
  apply roster_append_owner
  · intro r hr
    obtain ⟨x, -, rfl⟩ := List.mem_map.mp hr
    rfl
  · rfl

theorem users_of_unused {gid : Gid} (h : s.unused gid = true) : s.users gid = ∅ := by
  rw [Store.unused, Bool.and_eq_true, List.isEmpty_iff] at h
  exact AList.ext h.2

theorem create_owners {body : CreateGroupBodyV3} (hs : OwnersUnique s)
    (h : CreateOutcome env ctx body s r t) : OwnersUnique t := by
  cases h with
  | refused h =>
      rw [h.store]
      exact hs
  | undone _ _ _ group _ modes hstore =>
      apply hs.same
      rw [hstore]
      rfl
  | created _ hunused _ modes hstore =>
      have husers : t.users =
          Function.update s.users ctx.newGid (Table.insertAll ∅ (newRows ctx body)) := by
        rw [hstore, users_of_unused hunused]
        rfl
      apply hs.update husers
      apply oneOwner_of_owner ((owner_newRows ctx body ctx.uid).mpr rfl)
      intro uid huid
      exact (owner_newRows ctx body uid).mp huid

theorem join_owners {req : GroupJoinRequest} (hs : OwnersUnique s)
    (h : JoinOutcome env ctx req s r t) : OwnersUnique t := by
  apply hs.same
  cases h with
  | refused _ hstore => rw [hstore]
  | recorded _ _ hstore =>
      rw [hstore]
      rfl
  | pending _ _ users hstore =>
      rw [hstore]
      rfl

end Requests

/-- A step that meets the condition keeps the owners. -/
theorem step_owners {env : Env} {s : Store} {event : RequestEvent} (hs : OwnersUnique s)
    (hV3 : event.isV3 = true) (hok : OwnerSafe s event) : OwnersUnique (event.apply env s) := by
  cases event with
  | tick seconds => exact hs.same rfl
  | request ctx req plan =>
      cases req with
      | createV3 body =>
          exact create_owners hs (Dao.run_of_wp (create_outcome env ctx body plan s))
      | leaveV3 body =>
          exact leave_owners hs (Dao.run_of_wp (leave_outcome env ctx body plan s)) hok
      | kickV3 body =>
          rcases Dao.run_of_wp (kick_outcome env ctx body plan s) with h | h
          · exact hs.same (congrArg Store.users h.store)
          · exact kick_owners hs h
      | inviteV3 req =>
          exact invite_owners hs (Dao.run_of_wp (invite_outcome env ctx req plan s))
      | joinV3 req => exact join_owners hs (Dao.run_of_wp (join_outcome env ctx req plan s))
      | addMeV3 req =>
          rcases Dao.run_of_wp (addMe_outcome env ctx req plan s) with h | h
          · exact hs.same (congrArg Store.users h.store)
          · exact addMe_owners hs h hok
      | reviewV3 req =>
          exact review_owners hs (Dao.run_of_wp (review_outcome env ctx req plan s))
      | updateV3 body =>
          rcases (Dao.run_of_wp (update_outcome env ctx body.toUpdateGroupInfoBodyV2
            (body.check env) body.upData plan s)).2 with h | h
          · exact hs.same (congrArg Store.users h)
          · exact hs.same h.users
      | join | review | uploadPassword | inviteV2 | updateV2 => exact Bool.noConfusion hV3

/-! ## Runs -/

/-- In every run of the requests of the third version, with any DAO calls failing,
whose steps all meet the condition, a group that is not empty has exactly one
owner. -/
theorem one_owner_run (env : Env) (s t : Store) (events : List RequestEvent)
    (hs : OwnersUnique s) (hV3 : ∀ e ∈ events, e.isV3 = true)
    (hok : (groupMachine env).Meets OwnerSafe s events)
    (hrun : (groupMachine env).run s events = some t) (gid : Gid)
    (hmember : ∃ uid, t.isMember gid uid = true) :
    ∃! uid, t.role gid uid = some .owner := by
  have hinv : OwnersUnique t := by
    refine (groupMachine env).run_invariant OwnersUnique ?_ hs
      ((groupMachine env).meets_and ((groupMachine env).meets_of_mem hV3 s) hok) hrun
    rintro s event t hs ⟨hV3, hok⟩ hstep
    cases hstep
    exact step_owners hs hV3 hok
  apply hinv gid
  obtain ⟨uid, huid⟩ := hmember
  rw [t.isMember_eq] at huid
  exact ⟨uid, huid⟩

theorem ownersUnique_emptyStore (accounts : Bytes → Option Account) :
    OwnersUnique (emptyStore accounts) := by
  rintro gid ⟨uid, huid⟩
  cases huid

/-- `[1]` creates group 7 and hands it over to `[2]`. -/
def handOverRun (plan : Plan ℕ) : List RequestEvent :=
  [createSeven 0,
   .request (plainContext [1]) (.leaveV3 ⟨7, [2]⟩) plan]

theorem one_owner_run_handOver :
    ∃! uid, (plainStore (handOverRun .clean)).role 7 uid = some .owner := by
  apply one_owner_run plainEnv (emptyStore fun uid => some (plainAccount uid))
    (plainStore (handOverRun .clean)) (handOverRun .clean) (ownersUnique_emptyStore _)
  · decide
  · refine ⟨trivial, ?_, trivial⟩
    intro _ _ _
    rfl
  · rfl
  · exact ⟨[2], by decide⟩

/-- The fourth call fails. -/
def failFourth : Plan ℕ := fun n => if n = 3 then some 1 else none

/-- The deletion fails after the promotion: there are two owners. -/
theorem one_owner_fails :
    ¬ ∀ (env : Env) (accounts : Bytes → Option Account) (t : Store) (events : List RequestEvent),
      (∀ e ∈ events, e.isV3 = true) →
      (groupMachine env).run (emptyStore accounts) events = some t → ∀ gid,
      (∃ uid, t.isMember gid uid = true) → ∃! uid, t.role gid uid = some .owner := by
  intro hclaim
  obtain ⟨o, -, hunique⟩ := hclaim plainEnv (fun uid => some (plainAccount uid))
    (plainStore (handOverRun failFourth)) (handOverRun failFourth) (by decide) rfl 7
    ⟨[2], by decide⟩
  have hfirst : [1] = o := hunique [1] (by decide)
  have hsecond : [2] = o := hunique [2] (by decide)
  exact absurd (hfirst.trans hsecond.symm) (by decide)

-- `[4]` has a record when the owner dismisses the others and leaves. It is good for an add-me
-- after that, and the group has a member and no owner.
example :
    let t := plainStore [createSeven 0, joinSeven,
      .request (plainContext [1]) (.kickV3 ⟨7, [[2], [3]]⟩) .clean,
      .request (plainContext [1]) (.leaveV3 ⟨7, []⟩) .clean,
      .request (plainContext [4]) (.addMeV3 ⟨7, [], []⟩) .clean]
    t.isMember 7 [4] = true ∧ t.owner 7 = none := by decide

end BcmServer.Group
