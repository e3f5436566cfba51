import BcmServer.Group.Joining

/-!
# BcmServer.Group.Kicked — how a user who was kicked comes back

A kick deletes the row of the user. It does not delete the record of a join
request: nothing deletes these records, they expire after a minute. So the user
can come back within a minute of a join request from before the kick, by an
add-me. Otherwise it takes a new join request, an invitation by a member (or by
the backend manager, who need not be one) or a review by the owner.
-/

namespace BcmServer.Group

open BcmServer.Util BcmServer.Lts GroupManagerController

section WayBack

variable (env : Env) (gid : Gid) (uid : Bytes)

/-- The user asks to join the group, with valid signatures. -/
def Joins (s : Store) : RequestEvent → Prop
  | .request ctx (.joinV3 req) _ => req.gid = gid ∧ ctx.uid = uid ∧ JoinValid env ctx req s
  | _ => False

/-- The user asks to join, is invited by a member, or is accepted by the owner. -/
def AskedBack (s : Store) : RequestEvent → Prop
  | .request ctx (.inviteV3 req) _ =>
      req.gid = gid ∧ uid ∈ req.members ∧ s.isMember gid ctx.uid = true
  | .request ctx (.reviewV3 req) _ => req.gid = gid ∧ s.owner gid = some ctx.uid ∧
      ∃ item ∈ req.list, item.accepted = true ∧ item.uid = uid
  | event => Joins env gid uid s event

/-- The ways back after a kick that `before` has led to from `s₀`: the backend
manager may invite as well, and an add-me comes less than a minute after a join
request from before the kick. -/
def WayBack (s₀ : Store) (before : List RequestEvent) (s : Store) (event : RequestEvent) : Prop :=
  AskedBack env gid uid s event ∨
    (∃ ctx req plan, event = .request ctx (.inviteV3 req) plan ∧ req.gid = gid ∧
      uid ∈ req.members ∧ ctx.uid = backendManager) ∨
    ((∃ ctx req plan, event = .request ctx (.addMeV3 req) plan ∧ req.gid = gid ∧
      ctx.uid = uid) ∧
      (groupMachine env).Occurs (fun s' event' => Joins env gid uid s' event' ∧
        s.clock < s'.clock + kQrCodeGroupUserTtl) s₀ before)

end WayBack

/-! ## Groups and records -/

/-- No group disappears, and the records of join requests stay. -/
structure KeepsRecords (s t : Store) : Prop where
  groups : ∀ gid, (s.groups gid).isSome → (t.groups gid).isSome
  records : t.qrCodeUsers = s.qrCodeUsers

section Steps

variable {env : Env} {ctx : Context} {plan : Plan ℕ} {s t : Store} {r : Reply}

theorem keepsRecords_of_eq (hgroups : t.groups = s.groups)
    (hrecords : t.qrCodeUsers = s.qrCodeUsers) : KeepsRecords s t := by
  refine ⟨?_, hrecords⟩
  intro gid h
  rw [hgroups]
  exact h

theorem setUsers_keepsRecords {gid : Gid} {rows : Table Bytes GroupUser}
    (h : t = s.setUsers gid rows) : KeepsRecords s t := by
  rw [h]
  exact keepsRecords_of_eq rfl rfl

theorem refused_keepsRecords (h : Refused s r t) : KeepsRecords s t :=
  keepsRecords_of_eq (congrArg Store.groups h.store) (congrArg Store.qrCodeUsers h.store)

theorem leave_keepsRecords {body : LeaveGroupBody} (h : LeaveOutcome ctx body plan s r t) :
    KeepsRecords s t := by
  cases h with
  | refused h => exact refused_keepsRecords h
  | left h => exact setUsers_keepsRecords h.store
  | handedOver _ _ _ _ _ store => exact setUsers_keepsRecords store
  | twoOwners _ _ _ _ _ _ store => exact setUsers_keepsRecords store

theorem invite_keepsRecords {req : InviteGroupMemberRequestV3} (h : InviteOutcome ctx req s r t) :
    KeepsRecords s t := by
  cases h with
  | quiet _ pending store =>
      rw [store]
      exact keepsRecords_of_eq rfl rfl
  | invited _ _ _ _ store => exact setUsers_keepsRecords store

theorem review_keepsRecords {req : ReviewJoinResultRequestV3} (h : ReviewOutcome ctx req s r t) :
    KeepsRecords s t := by
  cases h with
  | quiet _ pending store =>
      rw [store]
      exact keepsRecords_of_eq rfl rfl
  | reviewed _ _ _ _ _ _ pending store =>
      rw [store]
      exact keepsRecords_of_eq rfl rfl

theorem isSome_update {V : Type} {f : Gid → Option V} {gid gid' : Gid} {v : V}
    (h : (f gid').isSome) : (Function.update f gid (some v) gid').isSome := by
  by_cases hgid : gid' = gid
  · rw [hgid, Function.update_self]
    rfl
  · rwa [Function.update_of_ne hgid]

/-- Only the number that is taken for the new group can be given back. -/
theorem create_keepsRecords {body : CreateGroupBodyV3} (h : CreateOutcome env ctx body s r t) :
    KeepsRecords s t := by
  cases h with
  | refused h => exact refused_keepsRecords h
  | undone _ hunused _ group _ modes store =>
      rw [store]
      refine ⟨?_, rfl⟩
      intro gid h
      rw [Store.unused, Bool.and_eq_true, Option.isNone_iff_eq_none] at hunused
      have hgid : gid ≠ ctx.newGid := by
        rintro rfl
        rw [hunused.1] at h
        cases h
      show (Function.update s.groups ctx.newGid group gid).isSome
      rwa [Function.update_of_ne hgid]
  | created _ _ _ modes store =>
      rw [store]
      refine ⟨?_, rfl⟩
      intro gid h
      exact isSome_update h

theorem update_keepsRecords {body : UpdateGroupInfoBodyV2} {upData : GroupUpdate}
    (h : t = s ∨ Updated env ctx body upData s t) : KeepsRecords s t := by
  rcases h with h | h
  · rw [h]
    exact keepsRecords_of_eq rfl rfl
  · obtain ⟨group, _, _, pending, store⟩ := h.store
    rw [store]
    refine ⟨?_, rfl⟩
    intro gid h
    exact isSome_update h

/-- A request of the third version keeps the records, unless it is to join. -/
theorem request_keepsRecords (env : Env) (ctx : Context) (req : GroupRequest) (plan : Plan ℕ)
    (s : Store) (hV3 : req.isV3 = true) (hjoin : ∀ body, req ≠ .joinV3 body) :
    KeepsRecords s ((req.handle env ctx).run plan s).2 := by
  cases req with
  | createV3 body => exact create_keepsRecords (Dao.run_of_wp (create_outcome env ctx body plan s))
  | leaveV3 body => exact leave_keepsRecords (Dao.run_of_wp (leave_outcome env ctx body plan s))
  | kickV3 body =>
      rcases Dao.run_of_wp (kick_outcome env ctx body plan s) with h | h
      · exact refused_keepsRecords h.toRefused
      · exact setUsers_keepsRecords h.store
  | inviteV3 req => exact invite_keepsRecords (Dao.run_of_wp (invite_outcome env ctx req plan s))
  | addMeV3 req =>
      rcases Dao.run_of_wp (addMe_outcome env ctx req plan s) with h | h
      · exact refused_keepsRecords h
      · obtain ⟨_, -, store⟩ := h.store
        exact setUsers_keepsRecords store
  | reviewV3 req => exact review_keepsRecords (Dao.run_of_wp (review_outcome env ctx req plan s))
  | updateV3 body =>
      exact update_keepsRecords (Dao.run_of_wp (update_outcome env ctx
        body.toUpdateGroupInfoBodyV2 (body.check env) body.upData plan s)).2
  | joinV3 body => exact absurd rfl (hjoin body)
  | join | review | uploadPassword | inviteV2 | updateV2 => exact Bool.noConfusion hV3

theorem join_records {req : GroupJoinRequest} (h : JoinOutcome env ctx req s r t) (gid : Gid)
    (uid : Bytes) : ((s.groups gid).isSome → (t.groups gid).isSome) ∧
      (t.qrCodeUsers gid uid = s.qrCodeUsers gid uid ∨
        (req.gid = gid ∧ ctx.uid = uid ∧ JoinValid env ctx req s) ∧
          t.qrCodeUsers gid uid = some (s.clock + kQrCodeGroupUserTtl)) := by
  cases h with
  | refused _ store =>
      rw [store]
      exact ⟨id, Or.inl rfl⟩
  | pending _ _ users store =>
      rw [store]
      exact ⟨id, Or.inl rfl⟩
  | recorded valid _ store =>
      rw [store]
      refine ⟨id, ?_⟩
      simp only [Store.setQrCodeUsers]
      by_cases hgid : gid = req.gid
      · subst hgid
        rw [Function.update_self]
        by_cases huid : uid = ctx.uid
        · subst huid
          right
          exact ⟨⟨rfl, rfl, valid⟩, Function.update_self ..⟩
        · left
          exact Function.update_of_ne huid ..
      · left
        rw [Function.update_of_ne hgid]

/-- A group that is there stays, and the record of a user changes by a join
request of that user only. -/
theorem step_records (env : Env) (s : Store) {event : RequestEvent} (hV3 : event.isV3 = true)
    (gid : Gid) (uid : Bytes) :
    ((s.groups gid).isSome → ((event.apply env s).groups gid).isSome) ∧
      ((event.apply env s).qrCodeUsers gid uid = s.qrCodeUsers gid uid ∨
        Joins env gid uid s event ∧
          (event.apply env s).qrCodeUsers gid uid = some (s.clock + kQrCodeGroupUserTtl)) := by
  cases event with
  | tick seconds => exact ⟨id, Or.inl rfl⟩
  | request ctx req plan =>
      by_cases hjoin : ∃ body, req = .joinV3 body
      · obtain ⟨body, rfl⟩ := hjoin
        exact join_records (Dao.run_of_wp (join_outcome env ctx body plan s)) gid uid
      · rw [not_exists] at hjoin
        have hkeeps := request_keepsRecords env ctx req plan s hV3 hjoin
        exact ⟨hkeeps.groups gid, Or.inl (congrFun (congrFun hkeeps.records gid) uid)⟩

end Steps

/-! ## Runs -/

/-- A record that has appeared comes from a valid join request. -/
theorem record_origin {env : Env} {s t : Store} {events : List RequestEvent} {gid : Gid}
    {uid : Bytes} {expires : ℕ} (hV3 : ∀ e ∈ events, e.isV3 = true)
    (hs : s.qrCodeUsers gid uid = none) (hrun : (groupMachine env).run s events = some t)
    (ht : t.qrCodeUsers gid uid = some expires) :
    (groupMachine env).Occurs (fun s' event' => Joins env gid uid s' event' ∧
      s'.clock + kQrCodeGroupUserTtl = expires) s events := by
  refine (groupMachine env).run_occurs (fun s => s.qrCodeUsers gid uid ≠ some expires) ?_ ?_
    ((groupMachine env).meets_of_mem hV3 s) hrun (not_not.mpr ht)
  · intro s event t hs hV3 hstep hnot heq
    cases hstep
    -- only a join request of the user writes the record
    rcases (step_records env s hV3 gid uid).2 with hsame | ⟨hjoins, hset⟩
    · exact hs (hsame.symm.trans heq)
    · exact hnot ⟨hjoins, Option.some.inj (hset.symm.trans heq)⟩
  · rw [hs]
    exact (Option.some_ne_none expires).symm

theorem askedBack_of_joins {env : Env} {gid : Gid} {uid : Bytes} {s : Store}
    {event : RequestEvent} (h : Joins env gid uid s event) : AskedBack env gid uid s event := by
  cases event with
  | tick seconds => exact h
  | request ctx req plan =>
      cases req with
      | joinV3 req => exact h
      | createV3 | leaveV3 | kickV3 | inviteV3 | addMeV3 | reviewV3 | updateV3 | join | review
      | uploadPassword | inviteV2 | updateV2 => exact h.elim

/-- What holds of the user from the kick to the way back. -/
structure Banished (gid : Gid) (uid : Bytes) (record : Option ℕ) (s : Store) : Prop where
  out : s.isMember gid uid = false
  group : (s.groups gid).isSome
  record : s.qrCodeUsers gid uid = record

/-- A step by which the user comes back is one of the ways. -/
theorem wayBack_of_admissible {env : Env} {ctx : Context} {req : GroupRequest} {plan : Plan ℕ}
    {gid : Gid} {uid : Bytes} {s₀ s₁ s : Store} {before : List RequestEvent}
    (hV3 : ∀ e ∈ before, e.isV3 = true) (hs₀ : s₀.qrCodeUsers gid uid = none)
    (hbefore : (groupMachine env).run s₀ before = some s₁)
    (hs : Banished gid uid (s₁.qrCodeUsers gid uid) s) (hreq : req.isV3 = true)
    (hgid : req.gid ctx = gid) (h : Admissible env ctx plan s req uid) :
    WayBack env gid uid s₀ before s (.request ctx req plan) := by
  subst hgid
  cases req with
  | createV3 body =>
      have hgroup : (s.groups ctx.newGid).isSome := hs.group
      rw [h] at hgroup
      cases hgroup
  | inviteV3 req =>
      obtain ⟨hmem, hmanager | hmember, -⟩ := h
      · exact Or.inr (Or.inl ⟨ctx, req, plan, rfl, rfl, hmem, hmanager⟩)
      · exact Or.inl ⟨rfl, hmem, hmember⟩
  | reviewV3 req => exact Or.inl ⟨rfl, h⟩
  | addMeV3 req =>
      obtain ⟨rfl, hvalid⟩ := h
      -- the record is the one from before the kick
      obtain ⟨expires, hrecord, hlate⟩ := (Option.any_eq_true ..).mp hvalid.qrCode
      rw [decide_eq_true_iff] at hlate
      have horigin := record_origin hV3 hs₀ hbefore (hs.record.symm.trans hrecord)
      refine Or.inr (Or.inr ⟨⟨ctx, req, plan, rfl, rfl, rfl⟩, ?_⟩)
      refine (groupMachine env).occurs_mono ?_ horigin
      rintro s' event' ⟨hjoins, hexpires⟩
      rw [hexpires]
      exact ⟨hjoins, hlate⟩
  | leaveV3 | kickV3 | joinV3 | updateV3 => exact h.elim
  | join | review | uploadPassword | inviteV2 | updateV2 => exact Bool.noConfusion hreq

/-- The user is not a member after a successful kick. -/
theorem banished_of_kick {ctx : Context} {body : KickGroupMemberBody} {s t : Store} {r : Reply}
    {uid : Bytes} (h : Kicked ctx body s r t) (huid : uid ∈ body.members) :
    Banished body.gid uid (s.qrCodeUsers body.gid uid) t := by
  obtain ⟨group, hgroup⟩ := h.group
  rw [h.store]
  refine ⟨?_, ?_, rfl⟩
  · rw [Store.isMember, Store.row, users_setUsers, Table.lookup_eraseAll]
    split
    · rfl
    · rename_i hkeep
      have hnone : s.row body.gid uid = none := by
        by_contra hsome
        exact hkeep (List.mem_filter.mpr ⟨huid, Option.isSome_iff_ne_none.mpr hsome⟩)
      have hrow : (s.users body.gid).lookup uid = none := hnone
      rw [hrow]
      rfl
  · show (s.groups body.gid).isSome
    rw [hgroup]
    rfl

/-- After a successful kick the user is a member again only if one of the ways
back was taken after it. -/
theorem kicked_stays_out (env : Env) (s₀ s₁ t : Store) (before after : List RequestEvent)
    (ctx : Context) (body : KickGroupMemberBody) (plan : Plan ℕ) (uid : Bytes)
    (hV3 : ∀ e ∈ before ++ after, e.isV3 = true)
    (hs₀ : s₀.qrCodeUsers body.gid uid = none)
    (hbefore : (groupMachine env).run s₀ before = some s₁)
    (hkick : ((onKickGroupMemberV3 env ctx body).run plan s₁).1.status = .noContent)
    (huid : uid ∈ body.members)
    (hafter : (groupMachine env).run ((onKickGroupMemberV3 env ctx body).run plan s₁).2 after =
      some t)
    (hmember : t.isMember body.gid uid = true) :
    (groupMachine env).Occurs (WayBack env body.gid uid s₀ before)
      ((onKickGroupMemberV3 env ctx body).run plan s₁).2 after := by
  have hV3b : ∀ e ∈ before, e.isV3 = true := fun e he => hV3 e (List.mem_append_left _ he)
  have hV3a : ∀ e ∈ after, e.isV3 = true := fun e he => hV3 e (List.mem_append_right _ he)
  have hout : Banished body.gid uid (s₁.qrCodeUsers body.gid uid)
      ((onKickGroupMemberV3 env ctx body).run plan s₁).2 := by
    rcases Dao.run_of_wp (kick_outcome env ctx body plan s₁) with h | h
    · have herror := h.status
      rw [hkick] at herror
      cases herror
    · exact banished_of_kick h huid
  refine (groupMachine env).run_occurs
    (Banished body.gid uid (s₁.qrCodeUsers body.gid uid)) ?_ hout
    ((groupMachine env).meets_of_mem hV3a _) hafter ?_
  · -- a step that is no way back keeps the user out
    intro s event t hs hV3 hstep hnot
    cases hstep
    obtain ⟨hgroups, hrecords⟩ := step_records env s hV3 body.gid uid
    refine ⟨?_, hgroups hs.group, ?_⟩
    · -- otherwise the step is a way back
      rw [Bool.eq_false_iff]
      intro hback
      cases event with
      | tick seconds => exact absurd (hback.symm.trans hs.out) Bool.noConfusion
      | request ctx req plan =>
          have hadmits := request_admits env ctx req plan s
          by_cases hgid : body.gid = req.gid ctx
          · rcases hadmits.new uid (hgid ▸ hback) with hold | hway
            · rw [← hgid, hs.out] at hold
              cases hold
            · exact hnot (wayBack_of_admissible hV3b hs₀ hbefore hs hV3 hgid.symm hway)
          · have hsame := hadmits.isMember_others hgid uid
            exact absurd ((hback.symm.trans hsame).trans hs.out) Bool.noConfusion
    · rcases hrecords with hsame | ⟨hjoins, -⟩
      · exact hsame.trans hs.record
      · exact absurd (Or.inl (askedBack_of_joins hjoins)) hnot
  · intro hstill
    exact absurd (hmember.symm.trans hstill.out) Bool.noConfusion

/-- `[4]` joins group 7. -/
def joinedRun : List RequestEvent :=
  [createSeven 0, joinSeven, .request (plainContext [4]) (.addMeV3 ⟨7, [], []⟩) .clean]

/-- The add-me is sent once more. -/
def addMeAgain : List RequestEvent :=
  [.request (plainContext [4]) (.addMeV3 ⟨7, [], []⟩) .clean]

/-- The tables after the owner has kicked `[4]`, and after the second add-me -/
def kickedStore (after : List RequestEvent) : Store :=
  plainStore (joinedRun ++ .request (plainContext [1]) (.kickV3 ⟨7, [[4]]⟩) .clean :: after)

theorem kicked_stays_out_again :
    (kickedStore []).isMember 7 [4] = false ∧ (kickedStore addMeAgain).isMember 7 [4] = true ∧
      (groupMachine plainEnv).Occurs (WayBack plainEnv 7 [4] (plainStore []) joinedRun)
        (kickedStore []) addMeAgain := by
  refine ⟨by decide, by decide, ?_⟩
  exact kicked_stays_out plainEnv (plainStore []) (plainStore joinedRun) (kickedStore addMeAgain)
    joinedRun addMeAgain (plainContext [1]) ⟨7, [[4]]⟩ .clean [4] (by decide) rfl rfl (by decide)
    (by decide) rfl (by decide)

/-- A record from before the kick is enough to come back. -/
theorem kicked_comes_back :
    ¬ ∀ (env : Env) (accounts : Bytes → Option Account) (s₁ t : Store)
      (before after : List RequestEvent) (ctx : Context) (body : KickGroupMemberBody)
      (plan : Plan ℕ) (uid : Bytes), (∀ e ∈ before ++ after, e.isV3 = true) →
      (groupMachine env).run (emptyStore accounts) before = some s₁ →
      ((onKickGroupMemberV3 env ctx body).run plan s₁).1.status = .noContent →
      uid ∈ body.members →
      (groupMachine env).run ((onKickGroupMemberV3 env ctx body).run plan s₁).2 after = some t →
      t.isMember body.gid uid = true →
      (groupMachine env).Occurs (AskedBack env body.gid uid)
        ((onKickGroupMemberV3 env ctx body).run plan s₁).2 after := by
  intro hclaim
  have hoccurs := hclaim plainEnv (fun uid => some (plainAccount uid)) (plainStore joinedRun)
    (kickedStore addMeAgain) joinedRun addMeAgain (plainContext [1]) ⟨7, [[4]]⟩ .clean [4]
    (by decide) rfl (by decide) (by decide) rfl (by decide)
  rcases hoccurs with hasked | hlater
  · exact hasked
  · exact hlater

end BcmServer.Group
