import BcmServer.Group.OnlineMembers
import BcmServer.Group.Seat

/-!
# BcmServer.Group.OnlineIndex — the index agrees with the database

* `index_agrees`: once all handlers have finished, a device is in the index of a
  group exactly if it is online and its user's role counts, in every run that
  meets `Orderly`.
* `index_stale`: one of the crossings. A member is removed, and before the
  leave handler looks who is online the device goes offline: neither handler
  removes it from the index.

Every device and group is followed by itself: `seat` is the state as one device
and one group see it, and a step of the manager is a `SeatStep` of it or leaves
it alone (`seat_step`).
-/

namespace BcmServer.Group

open BcmServer.Util BcmServer.Lts BcmServer.Dispatcher

/-! ## The handlers as one device and one group see them -/

/-- A status handler, as the device `a` sees it with regard to group `g`. What
follows the change of the index does not concern it. -/
def Handler.userStage (a : DispatchAddress) (g : Gid) : Handler → Option UserStage
  | online b => if b = a then some .online else none
  | onlineRead b => if b = a then some .onlineRead else none
  | onlineUpdate b details =>
      if b = a then some (.onlineUpdate ((details.role? g).map Role.counts)) else none
  | offline b => if b = a then some .offline else none
  | offlineRead b => if b = a then some .offlineRead else none
  | offlineUpdate b gids => if b = a then some (.offlineUpdate (g ∈ gids)) else none
  | _ => none

/-- A membership handler, as the device `a` sees it with regard to group `g`. -/
def Handler.groupStage (a : DispatchAddress) (g : Gid) : Handler → Option GroupStage
  | enter uid g' => if uid = a.uid ∧ g' = g then some .enter else none
  | enterRead uid g' users => if uid = a.uid ∧ g' = g then some (.enterRead (a ∈ users)) else none
  | enterUpdate uid g' users role =>
      if uid = a.uid ∧ g' = g then some (.enterUpdate (a ∈ users) role.counts) else none
  | leave uid g' => if uid = a.uid ∧ g' = g then some .leave else none
  | leaveUpdate uid g' users =>
      if uid = a.uid ∧ g' = g then some (.leaveUpdate (a ∈ users)) else none
  | _ => none

section Stages

variable {a : DispatchAddress} {g : Gid} {h : Handler}

theorem Handler.userStage_offlineRead (hk : h.userStage a g = some .offlineRead) :
    h = .offlineRead a := by
  cases h <;> simp [userStage] at hk
  rw [hk]

theorem Handler.userStage_onlineUpdate (hk : h.userStage a g = some (.onlineUpdate (some true))) :
    ∃ details, h = .onlineUpdate a details ∧ details.counts g = true := by
  cases h with
  | onlineUpdate b details =>
      simp only [userStage, Option.ite_none_right_eq_some, Option.some.injEq,
        UserStage.onlineUpdate.injEq] at hk
      rw [hk.1]
      exact ⟨details, rfl, (details.counts_iff g).mpr hk.2⟩
  | _ => simp [userStage] at hk

theorem Handler.groupStage_leave : h.groupStage a g = some .leave ↔ h = .leave a.uid g := by
  cases h <;> simp [groupStage]

theorem Handler.groupStage_enterRead (hk : h.groupStage a g = some (.enterRead true)) :
    ∃ users, h = .enterRead a.uid g users ∧ a ∈ users := by
  cases h with
  | enterRead uid g' users =>
      simp only [groupStage, Option.ite_none_right_eq_some, Option.some.injEq,
        GroupStage.enterRead.injEq, decide_eq_true_eq] at hk
      rw [hk.1.1, hk.1.2]
      exact ⟨users, rfl, hk.2⟩
  | _ => simp [groupStage] at hk

theorem Handler.groupStage_enterUpdate (hk : h.groupStage a g = some (.enterUpdate true true)) :
    ∃ users role, h = .enterUpdate a.uid g users role ∧ a ∈ users ∧ role.counts = true := by
  cases h with
  | enterUpdate uid g' users role =>
      simp only [groupStage, Option.ite_none_right_eq_some, Option.some.injEq,
        GroupStage.enterUpdate.injEq, decide_eq_true_eq] at hk
      rw [hk.1.1, hk.1.2]
      exact ⟨users, role, rfl, hk.2⟩
  | _ => simp [groupStage] at hk

end Stages

/-- The devices a handler has looked up belong to its user. -/
def Handler.Own : Handler → Prop
  | enterRead uid _ users | enterUpdate uid _ users _ | leaveUpdate uid _ users =>
      ∀ b ∈ users, b.uid = uid
  | _ => True

theorem Handler.ctx_lt (pool : IoCtxPool) (h : Handler) : h.ctx pool < pool.size := by
  cases h <;> exact Nat.mod_lt _ pool.pos

/-- A handler that concerns the device is on the context of its user. -/
theorem Handler.ctx_of_userStage {pool : IoCtxPool} {a : DispatchAddress} {g : Gid} {h : Handler}
    {k : UserStage} (hk : h.userStage a g = some k) : h.ctx pool = pool.getIoCtxByUid a.uid := by
  cases h <;> simp only [Handler.userStage, Option.ite_none_right_eq_some, reduceCtorEq] at hk <;>
    rw [← hk.1] <;> rfl

theorem Handler.ctx_of_groupStage {pool : IoCtxPool} {a : DispatchAddress} {g : Gid} {h : Handler}
    {k : GroupStage} (hk : h.groupStage a g = some k) : h.ctx pool = pool.getIoCtxByGid g := by
  cases h <;> simp only [Handler.groupStage, Option.ite_none_right_eq_some, reduceCtorEq] at hk <;>
    rw [← hk.1.2] <;> rfl

namespace MemberMgr

/-! ## One device and one group -/

/-- What one device and one group see of the manager, with the handlers that
concern them. -/
def view (s : MemberMgr) (a : DispatchAddress) (g : Gid) (user : List UserStage)
    (group : List GroupStage) : Seat where
  wanted := s.status a
  online := a ∈ s.onlineUsers a.uid
  row := ((s.db a.uid).role? g).map Role.counts
  member := a ∈ s.groupMembers g
  user := user
  group := group

/-- The state as one device and one group see it. -/
def seat (pool : IoCtxPool) (s : MemberMgr) (a : DispatchAddress) (g : Gid) : Seat :=
  s.view a g ((s.ctxs (pool.getIoCtxByUid a.uid)).filterMap (Handler.userStage a g))
    ((s.ctxs (pool.getIoCtxByGid g)).filterMap (Handler.groupStage a g) ++
      s.inflight.filterMap fun ev => ev.handler.groupStage a g)

/-- Every handler is on its context, and devices are listed under their user. -/
structure Tidy (pool : IoCtxPool) (s : MemberMgr) : Prop where
  placed : ∀ c, ∀ h ∈ s.ctxs c, h.ctx pool = c ∧ h.Own
  users : ∀ uid, ∀ b ∈ s.onlineUsers uid, b.uid = uid

theorem Tidy.mem_handlers {pool : IoCtxPool} {s : MemberMgr} (ht : Tidy pool s) {c : ℕ}
    {h : Handler} (hh : h ∈ s.ctxs c) : h ∈ s.handlers pool := by
  have hc := (ht.placed c h hh).1
  refine List.mem_flatMap.mpr ⟨c, ?_, hh⟩
  rw [List.mem_range, ← hc]
  exact h.ctx_lt pool

/-! ## What the operations on the index do -/

section Index

variable (s : MemberMgr) (a b : DispatchAddress) (g g' : Gid)

theorem mem_insertMember :
    a ∈ (s.insertMember g' b).groupMembers g ↔ a ∈ s.groupMembers g ∨ (g' = g ∧ a = b) := by
  by_cases hg : g' = g
  · subst hg
    simp [insertMember, or_comm]
  · simp [insertMember, hg, Function.update_of_ne (Ne.symm hg)]

theorem mem_removeGroupMemberNoLock :
    a ∈ (s.removeGroupMemberNoLock b g').groupMembers g ↔
      a ∈ s.groupMembers g ∧ ¬ (g' = g ∧ a = b) := by
  by_cases hg : g' = g
  · subst hg
    simp [removeGroupMemberNoLock]
  · simp [removeGroupMemberNoLock, hg, Function.update_of_ne (Ne.symm hg)]

theorem mem_removeGroupMembers (users : UserSet) :
    a ∈ (s.removeGroupMembers users g').groupMembers g ↔
      a ∈ s.groupMembers g ∧ ¬ (g' = g ∧ a ∈ users) := by
  induction users generalizing s with
  | nil => simp [removeGroupMembers]
  | cons b users ih =>
      rw [removeGroupMembers, List.foldl_cons, ← removeGroupMembers, ih,
        mem_removeGroupMemberNoLock, List.mem_cons]
      tauto

theorem mem_removeMemberForGroups (gids : List Gid) :
    a ∈ (s.removeMemberForGroups b gids).groupMembers g ↔
      a ∈ s.groupMembers g ∧ ¬ (a = b ∧ g ∈ gids) := by
  induction gids generalizing s with
  | nil => simp [removeMemberForGroups]
  | cons g₀ gids ih =>
      rw [removeMemberForGroups, List.foldl_cons, ← removeMemberForGroups, ih,
        mem_removeGroupMemberNoLock, List.mem_cons]
      have hcomm : g₀ = g ↔ g = g₀ := eq_comm
      tauto

theorem mem_foldl_insertMember (users : UserSet) :
    a ∈ (users.foldl (fun s b => s.insertMember g' b) s).groupMembers g ↔
      a ∈ s.groupMembers g ∨ (g' = g ∧ a ∈ users) := by
  induction users generalizing s with
  | nil => simp
  | cons b users ih =>
      rw [List.foldl_cons, ih, mem_insertMember, List.mem_cons]
      tauto

theorem mem_loadGroups (details : List (Gid × Role)) (chans : List Gid) :
    a ∈ (s.loadGroups b details chans).1.groupMembers g ↔
      a ∈ s.groupMembers g ∨ (a = b ∧ ∃ r, (g, r) ∈ details ∧ r.counts = true) := by
  induction details generalizing s chans with
  | nil => simp [loadGroups]
  | cons d details ih =>
      rcases d with ⟨g₀, r₀⟩
      simp only [loadGroups]
      rw [ih]
      by_cases hr : r₀.counts = true
      · rw [if_pos hr, mem_insertMember]
        constructor
        · rintro ((hm | ⟨rfl, rfl⟩) | ⟨rfl, r, hmem, hc⟩)
          · exact Or.inl hm
          · exact Or.inr ⟨rfl, r₀, List.mem_cons_self, hr⟩
          · exact Or.inr ⟨rfl, r, List.mem_cons_of_mem _ hmem, hc⟩
        · rintro (hm | ⟨rfl, r, hmem, hc⟩)
          · exact Or.inl (Or.inl hm)
          · rcases List.mem_cons.mp hmem with heq | hmem
            · cases heq
              exact Or.inl (Or.inr ⟨rfl, rfl⟩)
            · exact Or.inr ⟨rfl, r, hmem, hc⟩
      · rw [if_neg hr]
        constructor
        · rintro (hm | ⟨rfl, r, hmem, hc⟩)
          · exact Or.inl hm
          · exact Or.inr ⟨rfl, r, List.mem_cons_of_mem _ hmem, hc⟩
        · rintro (hm | ⟨rfl, r, hmem, hc⟩)
          · exact Or.inl hm
          · rcases List.mem_cons.mp hmem with heq | hmem
            · cases heq
              exact absurd hc hr
            · exact Or.inr ⟨rfl, r, hmem, hc⟩

/-- A loop over the index leaves the rest of the manager as it was. -/
theorem foldl_frame {β : Type} {f : MemberMgr → β → MemberMgr}
    (hf : ∀ s x, ∃ m, f s x = { s with groupMembers := m }) (xs : List β) :
    ∃ m, xs.foldl f s = { s with groupMembers := m } := by
  induction xs generalizing s with
  | nil => exact ⟨s.groupMembers, rfl⟩
  | cons x xs ih =>
      obtain ⟨m₀, hm₀⟩ := hf s x
      obtain ⟨m, hm⟩ := ih (f s x)
      refine ⟨m, ?_⟩
      rw [List.foldl_cons, hm, hm₀]

theorem removeGroupMembers_frame (users : UserSet) :
    ∃ m, s.removeGroupMembers users g = { s with groupMembers := m } :=
  s.foldl_frame (fun _ _ => ⟨_, rfl⟩) users

theorem removeMemberForGroups_frame (gids : List Gid) :
    ∃ m, s.removeMemberForGroups b gids = { s with groupMembers := m } :=
  s.foldl_frame (fun _ _ => ⟨_, rfl⟩) gids

theorem foldl_insertMember_frame (users : UserSet) :
    ∃ m, users.foldl (fun s b => s.insertMember g b) s = { s with groupMembers := m } :=
  s.foldl_frame (fun _ _ => ⟨_, rfl⟩) users

theorem loadGroups_frame (details : List (Gid × Role)) (chans : List Gid) :
    ∃ m, (s.loadGroups b details chans).1 = { s with groupMembers := m } := by
  induction details generalizing s chans with
  | nil => exact ⟨s.groupMembers, rfl⟩
  | cons d details ih =>
      rcases d with ⟨g₀, r₀⟩
      simp only [loadGroups]
      by_cases hr : r₀.counts = true
      · rw [if_pos hr]
        rcases ih (s.insertMember g₀ b) _ with ⟨m, hm⟩
        exact ⟨m, by rw [hm]; rfl⟩
      · rw [if_neg hr]
        exact ih s _

end Index

/-! ## The steps of a handler -/

/-- The step of handler `h`, with other handlers behind it, as the device and
the group see it. -/
def Moves (s : MemberMgr) (found : Bool) (h : Handler) (a : DispatchAddress) (g : Gid)
    (user : List UserStage) (group : List GroupStage) : Prop :=
  Relation.ReflGen SeatStep
    (s.view a g ((h.userStage a g).toList ++ user) ((h.groupStage a g).toList ++ group))
    ((s.next found h).1.view a g (((s.next found h).2.bind (Handler.userStage a g)).toList ++ user)
      (((s.next found h).2.bind (Handler.groupStage a g)).toList ++ group))

section Moves

variable (s : MemberMgr) (found : Bool) (a b : DispatchAddress) (g g' : Gid) (uid : Bytes)
  (user : List UserStage) (group : List GroupStage)

/-- A handler that leaves the view alone before and after. -/
theorem moves_of_view_eq {h : Handler} (hu : h.userStage a g = none) (hg : h.groupStage a g = none)
    (hu' : (s.next found h).2.bind (Handler.userStage a g) = none)
    (hg' : (s.next found h).2.bind (Handler.groupStage a g) = none)
    (hview : (s.next found h).1.view a g user group = s.view a g user group) :
    s.Moves found h a g user group := by
  unfold Moves
  rw [hu, hg, hu', hg']
  exact hview ▸ .refl

theorem view_eq_of_ne (hba : b ≠ a) (users : UserSet)
    (husers : ∀ c, c ≠ b → (c ∈ users ↔ c ∈ s.onlineUsers b.uid)) :
    view { s with onlineUsers := Function.update s.onlineUsers b.uid users } a g user group =
      s.view a g user group := by
  have hmem : a ∈ Function.update s.onlineUsers b.uid users a.uid ↔ a ∈ s.onlineUsers a.uid := by
    by_cases huid : a.uid = b.uid
    · rw [huid, Function.update_self]
      exact husers a (Ne.symm hba)
    · rw [Function.update_of_ne huid]
  unfold view
  rw [decide_eq_decide.mpr hmem]

theorem moves_online : s.Moves found (.online b) a g user group := by
  by_cases hba : b = a
  · subst hba
    unfold Moves
    by_cases hon : b ∈ s.onlineUsers b.uid
    · rw [show s.next found (.online b) = (s, none) from if_pos hon]
      have hstep : SeatStep (s.view b g (.online :: user) group) (s.view b g user group) :=
        .onlineKnown rfl (decide_eq_true hon)
      simpa [Handler.userStage, Handler.groupStage] using Relation.ReflGen.single hstep
    · rw [show s.next found (.online b) = _ from if_neg hon]
      have hstep := SeatStep.onlineMark (s := s.view b g (.online :: user) group) rfl
        (decide_eq_false hon)
      simpa [Handler.userStage, Handler.groupStage, view] using Relation.ReflGen.single hstep
  · have hview := s.view_eq_of_ne a b g user group hba (b :: s.onlineUsers b.uid)
      (fun c hc => by simp [hc])
    by_cases hon : b ∈ s.onlineUsers b.uid
    · have hnext : s.next found (.online b) = (s, none) := if_pos hon
      apply moves_of_view_eq <;> simp [Handler.userStage, Handler.groupStage, hnext, hba]
    · have hnext : s.next found (.online b) = _ := if_neg hon
      apply moves_of_view_eq <;> simp [Handler.userStage, Handler.groupStage, hnext, hba, hview]

theorem moves_onlineRead (hfound : found = true) :
    s.Moves found (.onlineRead b) a g user group := by
  subst hfound
  by_cases hba : b = a
  · subst hba
    have hstep := SeatStep.onlineRead (s := s.view b g (.onlineRead :: user) group) rfl
    simpa [Moves, next, Handler.userStage, Handler.groupStage, view] using
      Relation.ReflGen.single hstep
  · apply moves_of_view_eq <;> simp [next, Handler.userStage, Handler.groupStage, hba]

theorem moves_offline (hapart : b = a → .leave ∈ group →
      (s.view a g user group).member = false ∧ ¬ (s.view a g user group).Entering) :
    s.Moves found (.offline b) a g user group := by
  by_cases hba : b = a
  · subst hba
    have hstep := SeatStep.offlineMark (s := s.view b g (.offline :: user) group) rfl (hapart rfl)
    simpa [Moves, next, Handler.userStage, Handler.groupStage, view] using
      Relation.ReflGen.single hstep
  · have hview := s.view_eq_of_ne a b g user group hba ((s.onlineUsers b.uid).filter (· ≠ b))
      (fun c hc => by simp [hc])
    simp only [ne_eq, decide_not] at hview
    apply moves_of_view_eq <;>
      simp [next, Handler.userStage, Handler.groupStage, hba, hview]

theorem moves_offlineRead (hfound : found = true) :
    s.Moves found (.offlineRead b) a g user group := by
  subst hfound
  by_cases hba : b = a
  · subst hba
    have hstep := SeatStep.offlineRead (s := s.view b g (.offlineRead :: user) group) rfl
    have hrow : decide (g ∈ (s.db b.uid).gids) = ((s.db b.uid).role? g).isSome := by
      rw [Bool.eq_iff_iff, decide_eq_true_iff, MemberRows.isSome_role?]
    simpa [Moves, next, Handler.userStage, Handler.groupStage, view, hrow] using
      Relation.ReflGen.single hstep
  · apply moves_of_view_eq <;> simp [next, Handler.userStage, Handler.groupStage, hba]

theorem view_groupMembers (m : Gid → UserSet) (k : Bool) (hm : a ∈ m g ↔ k = true) :
    view { s with groupMembers := m } a g user group =
      { s.view a g user group with member := k } := by
  unfold view
  rw [Bool.eq_iff_iff.mpr (decide_eq_true_iff.trans hm)]

/-- The change of the index, the handlers that follow it left out. -/
theorem moves_of_groupMembers {h : Handler} {m : Gid → UserSet} {k : Bool}
    (hm : (s.next found h).1 = { s with groupMembers := m })
    (hu : (s.next found h).2.bind (Handler.userStage a g) = none)
    (hg : (s.next found h).2.bind (Handler.groupStage a g) = none)
    (hk : a ∈ m g ↔ k = true)
    (hstep : Relation.ReflGen SeatStep
      (s.view a g ((h.userStage a g).toList ++ user) ((h.groupStage a g).toList ++ group))
      { s.view a g user group with member := k }) :
    s.Moves found h a g user group := by
  unfold Moves
  rw [hm, hu, hg, view_groupMembers _ _ _ _ _ _ _ hk]
  exact hstep

/-- A change of the index that does not concern the device and the group. -/
theorem moves_of_other {h : Handler} {m : Gid → UserSet} (hstage : h.userStage a g = none)
    (hstage' : h.groupStage a g = none)
    (hm : (s.next found h).1 = { s with groupMembers := m })
    (hu : (s.next found h).2.bind (Handler.userStage a g) = none)
    (hg : (s.next found h).2.bind (Handler.groupStage a g) = none)
    (hk : a ∈ m g ↔ a ∈ s.groupMembers g) : s.Moves found h a g user group := by
  apply moves_of_view_eq s found a g user group hstage hstage' hu hg
  rw [hm, view_groupMembers _ _ _ _ _ _ _ (hk.trans decide_eq_true_iff.symm)]
  rfl

theorem next_onlineUpdate (details : MemberRows) :
    (s.next found (.onlineUpdate b details)).1 = (s.loadGroups b details.rows []).1 := by
  unfold next
  dsimp only
  split <;> rename_i heq <;> rw [heq]

theorem moves_onlineUpdate (details : MemberRows) :
    s.Moves found (.onlineUpdate b details) a g user group := by
  obtain ⟨m, hm⟩ := s.loadGroups_frame b details.rows []
  have hmem := s.mem_loadGroups a b g details.rows []
  rw [hm] at hmem
  have hnext := (s.next_onlineUpdate found b details).trans hm
  -- the subscriptions that follow do not concern the view
  have hrest : (s.next found (.onlineUpdate b details)).2.bind (Handler.userStage a g) = none ∧
      (s.next found (.onlineUpdate b details)).2.bind (Handler.groupStage a g) = none := by
    unfold next
    dsimp only
    split <;> exact ⟨rfl, rfl⟩
  by_cases hba : b = a
  · subst hba
    have hstep := SeatStep.onlineUpdate
      (s := s.view b g (.onlineUpdate ((details.role? g).map Role.counts) :: user) group) rfl
    refine moves_of_groupMembers s found b g user group hnext hrest.1 hrest.2
      (k := decide (b ∈ s.groupMembers g) || ((details.role? g).map Role.counts == some true)) ?_ ?_
    · rw [hmem]
      simp [MemberRows.role?_eq_some]
    · simpa [Handler.userStage, Handler.groupStage, view] using Relation.ReflGen.single hstep
  · refine moves_of_other s found a g user group (if_neg hba) rfl hnext hrest.1 hrest.2 ?_
    rw [hmem]
    simp [Ne.symm hba]

theorem moves_offlineUpdate (gids : List Gid)
    (hapart : b = a → ¬ (s.view a g user group).Entering) :
    s.Moves found (.offlineUpdate b gids) a g user group := by
  obtain ⟨m, hm⟩ := s.removeMemberForGroups_frame b gids
  have hmem := s.mem_removeMemberForGroups a b g gids
  rw [hm] at hmem
  by_cases hba : b = a
  · subst hba
    have hstep := SeatStep.offlineUpdate
      (s := s.view b g (.offlineUpdate (g ∈ gids) :: user) group) rfl (hapart rfl)
    refine moves_of_groupMembers s found b g user group hm rfl rfl
      (k := decide (b ∈ s.groupMembers g) && !decide (g ∈ gids)) ?_ ?_
    · rw [hmem]
      simp
    · simpa [Handler.userStage, Handler.groupStage, view] using Relation.ReflGen.single hstep
  · refine moves_of_other s found a g user group (if_neg hba) rfl hm rfl rfl ?_
    rw [hmem]
    simp [Ne.symm hba]

theorem moves_enter : s.Moves found (.enter uid g') a g user group := by
  by_cases hkey : uid = a.uid ∧ g' = g
  · rcases hkey with ⟨rfl, rfl⟩
    by_cases hon : s.onlineUsers a.uid = []
    · have hstep := SeatStep.enterSkip (s := s.view a g' user (.enter :: group)) rfl
        (by simp [view, hon])
      simpa [Moves, next, hon, Handler.userStage, Handler.groupStage, view] using
        Relation.ReflGen.single hstep
    · have hstep := SeatStep.enterMark (s := s.view a g' user (.enter :: group)) rfl
      simpa [Moves, next, hon, Handler.userStage, Handler.groupStage, view] using
        Relation.ReflGen.single hstep
  · by_cases hon : s.onlineUsers uid = [] <;>
      apply moves_of_view_eq <;>
      simp [next, hon, Handler.userStage, Handler.groupStage, hkey]

theorem moves_enterRead (users : UserSet) (hfound : found = true) :
    s.Moves found (.enterRead uid g' users) a g user group := by
  subst hfound
  by_cases hkey : uid = a.uid ∧ g' = g
  · rcases hkey with ⟨rfl, rfl⟩
    cases hrow : (s.db a.uid).role? g' with
    | none =>
        have hstep := SeatStep.enterMissing
          (s := s.view a g' user (.enterRead (a ∈ users) :: group)) rfl (by simp [view, hrow])
        simpa [Moves, next, hrow, Handler.userStage, Handler.groupStage, view] using
          Relation.ReflGen.single hstep
    | some role =>
        have hcounts : (s.view a g' user (.enterRead (a ∈ users) :: group)).row =
            some role.counts := by simp [view, hrow]
        have hstep := SeatStep.enterRead rfl hcounts
        simpa [Moves, next, hrow, Handler.userStage, Handler.groupStage, view] using
          Relation.ReflGen.single hstep
  · cases hrow : (s.db uid).role? g' <;>
      apply moves_of_view_eq <;>
      simp [next, hrow, Handler.userStage, Handler.groupStage, hkey]

theorem moves_enterUpdate (users : UserSet) (role : Role) (hown : ∀ b ∈ users, b.uid = uid) :
    s.Moves found (.enterUpdate uid g' users role) a g user group := by
  -- the subscription that follows does not concern the view
  have hnext : ∃ m,
      (s.next found (.enterUpdate uid g' users role)).1 = { s with groupMembers := m } ∧
      (a ∈ m g ↔ a ∈ s.groupMembers g ∨ (g' = g ∧ a ∈ users ∧ role.counts = true)) ∧
      (s.next found (.enterUpdate uid g' users role)).2.bind (Handler.userStage a g) = none ∧
      (s.next found (.enterUpdate uid g' users role)).2.bind (Handler.groupStage a g) = none := by
    by_cases hc : role.counts = true
    · obtain ⟨m, hm⟩ := s.foldl_insertMember_frame g' users
      have hmem := s.mem_foldl_insertMember a g g' users
      rw [hm] at hmem
      refine ⟨m, ?_, ?_, ?_, ?_⟩
      · simp [next, hc, hm]
      · simpa [hc] using hmem
      · cases hex : s.isGroupExist g' <;> simp [next, hc, hex, Handler.userStage]
      · cases hex : s.isGroupExist g' <;> simp [next, hc, hex, Handler.groupStage]
    · refine ⟨s.groupMembers, ?_, ?_, ?_, ?_⟩ <;> simp [next, hc]
  obtain ⟨m, hm, hmem, hu, hg⟩ := hnext
  by_cases hkey : uid = a.uid ∧ g' = g
  · rcases hkey with ⟨rfl, rfl⟩
    have hstep := SeatStep.enterUpdate
      (s := s.view a g' user (.enterUpdate (a ∈ users) role.counts :: group)) rfl
    refine moves_of_groupMembers s found a g' user group hm hu hg
      (k := decide (a ∈ s.groupMembers g') || (decide (a ∈ users) && role.counts)) ?_ ?_
    · rw [hmem]
      simp
    · simpa [Handler.userStage, Handler.groupStage, view] using Relation.ReflGen.single hstep
  · refine moves_of_other s found a g user group rfl (if_neg hkey) hm hu hg ?_
    -- the devices are the user's, so the device is not among them
    have hother : ¬ (g' = g ∧ a ∈ users ∧ role.counts = true) :=
      fun h => hkey ⟨(hown a h.2.1).symm, h.1⟩
    rw [hmem]
    simp [hother]

theorem moves_leave : s.Moves found (.leave uid g') a g user group := by
  by_cases hkey : uid = a.uid ∧ g' = g
  · rcases hkey with ⟨rfl, rfl⟩
    by_cases hon : s.onlineUsers a.uid = []
    · have hstep := SeatStep.leaveSkip (s := s.view a g' user (.leave :: group)) rfl
        (by simp [view, hon])
      simpa [Moves, next, hon, Handler.userStage, Handler.groupStage, view] using
        Relation.ReflGen.single hstep
    · have hstep := SeatStep.leaveMark (s := s.view a g' user (.leave :: group)) rfl
      simpa [Moves, next, hon, Handler.userStage, Handler.groupStage, view] using
        Relation.ReflGen.single hstep
  · by_cases hon : s.onlineUsers uid = [] <;>
      apply moves_of_view_eq <;>
      simp [next, hon, Handler.userStage, Handler.groupStage, hkey]

theorem moves_leaveUpdate (users : UserSet) (hown : ∀ b ∈ users, b.uid = uid)
    (hapart : uid = a.uid → g' = g → user.head? = some (.onlineUpdate (some true)) →
      (s.view a g user group).row = some true ∨ .leave ∈ group) :
    s.Moves found (.leaveUpdate uid g' users) a g user group := by
  obtain ⟨m, hm⟩ := s.removeGroupMembers_frame g' users
  have hmem := s.mem_removeGroupMembers a g g' users
  rw [hm] at hmem
  by_cases hkey : uid = a.uid ∧ g' = g
  · rcases hkey with ⟨rfl, rfl⟩
    have hstep := SeatStep.leaveUpdate (s := s.view a g' user (.leaveUpdate (a ∈ users) :: group))
      rfl (hapart rfl rfl)
    refine moves_of_groupMembers s found a g' user group hm rfl rfl
      (k := decide (a ∈ s.groupMembers g') && !decide (a ∈ users)) ?_ ?_
    · rw [hmem]
      simp
    · simpa [Handler.userStage, Handler.groupStage, view] using Relation.ReflGen.single hstep
  · refine moves_of_other s found a g user group rfl (if_neg hkey) hm rfl rfl ?_
    have hother : ¬ (g' = g ∧ a ∈ users) := fun h => hkey ⟨(hown a h.2).symm, h.1⟩
    rw [hmem]
    simp [hother]

/-- The subscriptions at the end of a handler. -/
theorem moves_onlineSub (chans : List Gid) : s.Moves found (.onlineSub b chans) a g user group := by
  cases chans <;> exact moves_of_view_eq _ _ _ _ _ _ rfl rfl rfl rfl rfl

theorem moves_offlineUnsub (chans : List Gid) :
    s.Moves found (.offlineUnsub b chans) a g user group := by
  cases chans <;> exact moves_of_view_eq _ _ _ _ _ _ rfl rfl rfl rfl rfl

theorem moves_offlineCheck (gids chans : List Gid) :
    s.Moves found (.offlineCheck b gids chans) a g user group := by
  cases gids <;> cases chans <;> exact moves_of_view_eq _ _ _ _ _ _ rfl rfl rfl rfl rfl

theorem moves_leaveCheck : s.Moves found (.leaveCheck uid g') a g user group := by
  cases hex : s.isGroupExist g' <;> apply moves_of_view_eq <;>
    simp [next, hex, Handler.userStage, Handler.groupStage]

end Moves

/-- What a step of a handler leaves alone. A device is only ever listed under its
own user. -/
theorem next_frame (s : MemberMgr) (found : Bool) (h : Handler) : ∃ users m sub,
    (s.next found h).1 =
      { s with onlineUsers := users, groupMembers := m, subscribed := sub } ∧
    ∀ uid, ∀ b ∈ users uid, b ∈ s.onlineUsers uid ∨ b.uid = uid := by
  have hkeep : ∀ uid, ∀ b ∈ s.onlineUsers uid, b ∈ s.onlineUsers uid ∨ b.uid = uid :=
    fun _ _ => Or.inl
  cases h with
  | online a =>
      simp only [next]
      split
      · exact ⟨_, _, _, rfl, hkeep⟩
      · refine ⟨_, _, _, rfl, ?_⟩
        intro uid b hb
        by_cases huid : uid = a.uid
        · subst huid
          rw [Function.update_self] at hb
          rcases List.mem_cons.mp hb with rfl | hb
          · exact Or.inr rfl
          · exact Or.inl hb
        · rw [Function.update_of_ne huid] at hb
          exact Or.inl hb
  | offline a =>
      refine ⟨_, _, _, rfl, ?_⟩
      intro uid b hb
      by_cases huid : uid = a.uid
      · subst huid
        rw [Function.update_self] at hb
        exact Or.inl (List.mem_of_mem_filter hb)
      · rw [Function.update_of_ne huid] at hb
        exact Or.inl hb
  | onlineUpdate a details =>
      obtain ⟨m, hm⟩ := s.loadGroups_frame a details.rows []
      exact ⟨_, m, _, (s.next_onlineUpdate found a details).trans hm, hkeep⟩
  | offlineUpdate a gids =>
      obtain ⟨m, hm⟩ := s.removeMemberForGroups_frame a gids
      exact ⟨_, m, _, hm, hkeep⟩
  | leaveUpdate uid g users =>
      obtain ⟨m, hm⟩ := s.removeGroupMembers_frame g users
      exact ⟨_, m, _, hm, hkeep⟩
  | enterUpdate uid g users role =>
      obtain ⟨m, hm⟩ := s.foldl_insertMember_frame g users
      simp only [next]
      split
      · exact ⟨_, m, _, hm, hkeep⟩
      · exact ⟨_, _, _, rfl, hkeep⟩
  | onlineRead a | offlineRead a | enterSub uid g | leaveCheck uid g | leaveUnsub uid g =>
      exact ⟨_, _, _, rfl, hkeep⟩
  | enter uid g | leave uid g | enterRead uid g users =>
      simp only [next]
      split <;> exact ⟨_, _, _, rfl, hkeep⟩
  | onlineSub a chans | offlineUnsub a chans =>
      cases chans <;> exact ⟨_, _, _, rfl, hkeep⟩
  | offlineCheck a gids chans =>
      cases gids <;> cases chans <;> exact ⟨_, _, _, rfl, hkeep⟩

theorem next_ctx {pool : IoCtxPool} {s : MemberMgr} {found : Bool} {h h' : Handler}
    (hh' : (s.next found h).2 = some h') : h'.ctx pool = h.ctx pool := by
  unfold next at hh'
  repeat' split at hh'
  all_goals cases hh'
  all_goals rfl

theorem next_own {s : MemberMgr} {found : Bool} {h h' : Handler}
    (husers : ∀ uid, ∀ b ∈ s.onlineUsers uid, b.uid = uid) (hown : h.Own)
    (hh' : (s.next found h).2 = some h') : h'.Own := by
  unfold next at hh'
  repeat' split at hh'
  all_goals cases hh'
  all_goals first | exact trivial | exact hown | exact husers _

theorem Tidy.post {pool : IoCtxPool} {s : MemberMgr} (ht : Tidy pool s) {c : ℕ} {h : Handler}
    (hc : h.ctx pool = c) (hown : h.Own) : Tidy pool (s.post c h) := by
  refine ⟨?_, ht.users⟩
  intro c' h' hh'
  by_cases hcc : c' = c
  · subst hcc
    rw [post_ctxs, Function.update_self] at hh'
    rcases List.mem_append.mp hh' with hh' | hh'
    · exact ht.placed c' h' hh'
    · rw [List.mem_singleton.mp hh']
      exact ⟨hc, hown⟩
  · rw [post_ctxs, Function.update_of_ne hcc] at hh'
    exact ht.placed c' h' hh'

theorem Tidy.run {pool : IoCtxPool} {s : MemberMgr} (ht : Tidy pool s) {c : ℕ} {found : Bool}
    {h : Handler} {rest : List Handler} (hc : s.ctxs c = h :: rest) :
    Tidy pool { (s.next found h).1 with
      ctxs := Function.update s.ctxs c ((s.next found h).2.toList ++ rest) } := by
  have hplaced := ht.placed c
  rw [hc] at hplaced
  obtain ⟨hctx, hown⟩ := hplaced h List.mem_cons_self
  constructor
  · intro c' h' hh'
    by_cases hcc : c' = c
    · subst hcc
      simp only [Function.update_self] at hh'
      rcases List.mem_append.mp hh' with hh' | hh'
      · have hnext := Option.mem_toList.mp hh'
        exact ⟨(next_ctx hnext).trans hctx, next_own ht.users hown hnext⟩
      · exact hplaced h' (List.mem_cons_of_mem h hh')
    · simp only [Function.update_of_ne hcc] at hh'
      exact ht.placed c' h' hh'
  · obtain ⟨users, m, sub, hnext, husers⟩ := s.next_frame found h
    rw [hnext]
    intro uid b hb
    rcases husers uid b hb with hb | hb
    · exact ht.users uid b hb
    · exact hb

/-- Every step keeps the handlers on their contexts. -/
theorem Tidy.step {pool : IoCtxPool} {s t : MemberMgr} {e : MemberEvent} (ht : Tidy pool s)
    (hstep : MemberMgr.step pool s e = some t) : Tidy pool t := by
  cases e with
  | userOnline a | userOffline a =>
      cases hstep
      apply Tidy.post
      · exact ⟨ht.placed, ht.users⟩
      · rfl
      · trivial
  | dbEnter uid g role =>
      obtain ⟨rows, -, rfl⟩ := Option.map_eq_some_iff.mp hstep
      exact ⟨ht.placed, ht.users⟩
  | dbLeave uid g =>
      simp only [MemberMgr.step] at hstep
      split at hstep
      · cases hstep
        exact ⟨ht.placed, ht.users⟩
      · cases hstep
  | deliver i =>
      simp only [MemberMgr.step] at hstep
      split at hstep
      · cases hstep
      · next ev _ =>
        cases hstep
        apply Tidy.post
        · exact ⟨ht.placed, ht.users⟩
        · cases ev <;> rfl
        · cases ev <;> trivial
  | run c found =>
      simp only [MemberMgr.step] at hstep
      split at hstep
      · cases hstep
      · next h rest hc =>
        cases hstep
        exact ht.run hc

/-! ## The steps of the manager -/

section Contexts

variable {β : Type} {pool : IoCtxPool} {s : MemberMgr} {f : Handler → Option β} {c₀ c : ℕ}
  {h : Handler}

theorem filterMap_post (hf : ∀ h k, f h = some k → h.ctx pool = c₀) (hc : h.ctx pool = c) :
    ((s.post c h).ctxs c₀).filterMap f = (s.ctxs c₀).filterMap f ++ (f h).toList := by
  by_cases hcc : c₀ = c
  · subst hcc
    rw [post_ctxs, Function.update_self, List.filterMap_append]
    cases hk : f h <;> simp [hk]
  · have hnone : f h = none := by
      rw [Option.eq_none_iff_forall_ne_some]
      intro k hk
      exact hcc ((hf h k hk).symm.trans hc)
    rw [post_ctxs, Function.update_of_ne hcc, hnone, Option.toList_none, List.append_nil]

/-- A handler that runs is in front of the others of its context. -/
theorem filterMap_run (hf : ∀ h k, f h = some k → h.ctx pool = c₀) (hc : h.ctx pool = c)
    {rest : List Handler} (hctx : s.ctxs c = h :: rest) {h' : Option Handler}
    (hc' : ∀ k, h' = some k → k.ctx pool = c) :
    ∃ l, (s.ctxs c₀).filterMap f = (f h).toList ++ l ∧
      (Function.update s.ctxs c (h'.toList ++ rest) c₀).filterMap f = (h'.bind f).toList ++ l := by
  have hother : ∀ k : Handler, k.ctx pool = c → c₀ ≠ c → f k = none := by
    intro k hk hne
    rw [Option.eq_none_iff_forall_ne_some]
    intro v hv
    exact hne ((hf k v hv).symm.trans hk)
  by_cases hcc : c₀ = c
  · subst hcc
    refine ⟨rest.filterMap f, ?_, ?_⟩
    · rw [hctx]
      cases hk : f h <;> simp [hk]
    · rw [Function.update_self]
      cases h' with
      | none => rfl
      | some h' => cases hk : f h' <;> simp [hk]
  · refine ⟨(s.ctxs c₀).filterMap f, ?_, ?_⟩
    · rw [hother h hc hcc]
      rfl
    · rw [Function.update_of_ne hcc]
      cases h' with
      | none => rfl
      | some h' => rw [Option.bind_some, hother h' (hc' h' rfl) hcc]; rfl

end Contexts

section Seat

variable {pool : IoCtxPool} {s : MemberMgr} {a : DispatchAddress} {g : Gid}

/-! Where the handlers a seat sees are. -/

theorem Tidy.mem_seat_user (ht : Tidy pool s) {k : UserStage} (hk : k ∈ (seat pool s a g).user) :
    ∃ h ∈ s.handlers pool, h.userStage a g = some k := by
  obtain ⟨h, hh, hstage⟩ := List.mem_filterMap.mp hk
  exact ⟨h, ht.mem_handlers hh, hstage⟩

theorem Tidy.mem_seat_group (ht : Tidy pool s) {k : GroupStage}
    (hk : k ∈ (seat pool s a g).group) :
    (∃ h ∈ s.handlers pool, h.groupStage a g = some k) ∨
      ∃ ev ∈ s.inflight, ev.handler.groupStage a g = some k := by
  rcases List.mem_append.mp hk with hk | hk
  · obtain ⟨h, hh, hstage⟩ := List.mem_filterMap.mp hk
    exact Or.inl ⟨h, ht.mem_handlers hh, hstage⟩
  · obtain ⟨ev, hev, hstage⟩ := List.mem_filterMap.mp hk
    exact Or.inr ⟨ev, hev, hstage⟩

theorem Tidy.mem_pendingLeaves (ht : Tidy pool s) :
    g ∈ s.pendingLeaves pool a.uid ↔ .leave ∈ (seat pool s a g).group := by
  constructor
  · intro hg
    obtain ⟨h, hh, hleave⟩ := List.mem_filterMap.mp hg
    split at hleave
    · next u g' =>
      obtain ⟨rfl, rfl⟩ : u = a.uid ∧ g' = g := by simpa using hleave
      rcases List.mem_append.mp hh with hh | hh
      · obtain ⟨c, -, hc⟩ := List.mem_flatMap.mp hh
        have hctx : pool.getIoCtxByGid g' = c := (ht.placed c _ hc).1
        apply List.mem_append_left
        refine List.mem_filterMap.mpr ⟨_, ?_, Handler.groupStage_leave.mpr rfl⟩
        rwa [hctx]
      · obtain ⟨ev, hev, heq⟩ := List.mem_map.mp hh
        apply List.mem_append_right
        exact List.mem_filterMap.mpr ⟨ev, hev, Handler.groupStage_leave.mpr heq⟩
    · cases hleave
  · intro hk
    refine List.mem_filterMap.mpr ⟨.leave a.uid g, List.mem_append.mpr ?_, if_pos rfl⟩
    rcases ht.mem_seat_group hk with ⟨h, hh, hstage⟩ | ⟨ev, hev, hstage⟩
    · rw [Handler.groupStage_leave] at hstage
      exact Or.inl (hstage ▸ hh)
    · rw [Handler.groupStage_leave] at hstage
      exact Or.inr (List.mem_map.mpr ⟨ev, hev, hstage⟩)

/-- The notifications on their way have not begun. -/
theorem Tidy.begun (ht : Tidy pool s) {k : GroupStage} (hk : k ∈ (seat pool s a g).group)
    (hqueued : k.queued = false) : ∃ h ∈ s.handlers pool, h.groupStage a g = some k := by
  rcases ht.mem_seat_group hk with hh | ⟨ev, -, hstage⟩
  · exact hh
  · cases ev <;>
    · have hk := (Option.ite_none_right_eq_some.mp hstage).2
      cases hk
      cases hqueued

theorem Tidy.entering (ht : Tidy pool s) (h : (seat pool s a g).Entering) :
    s.entering pool a g = true := by
  unfold MemberMgr.entering
  rw [List.any_eq_true]
  rcases h with hhead | hhead
  · obtain ⟨h, hh, hstage⟩ := ht.begun (List.mem_of_mem_head? hhead) rfl
    obtain ⟨users, rfl, hmem⟩ := Handler.groupStage_enterRead hstage
    exact ⟨_, hh, decide_eq_true ⟨rfl, hmem⟩⟩
  · obtain ⟨h, hh, hstage⟩ := ht.begun (List.mem_of_mem_head? hhead) rfl
    obtain ⟨users, role, rfl, hmem, hcounts⟩ := Handler.groupStage_enterUpdate hstage
    exact ⟨_, hh, decide_eq_true ⟨rfl, hmem, hcounts⟩⟩

/-- A device that is not in the index and not about to be. -/
theorem Tidy.not_entered (ht : Tidy pool s) (h : s.entered pool a g = false) :
    (seat pool s a g).member = false ∧ ¬ (seat pool s a g).Entering := by
  rw [entered, Bool.or_eq_false_iff] at h
  refine ⟨h.1, ?_⟩
  intro hentering
  rw [ht.entering hentering] at h
  cases h.2

/-- No enter is about to enter a device that an offline removes. -/
theorem entering_of_offlineUpdate {found : Bool} {gids : List Gid}
    (hok : s.orderlyHandler pool found (.offlineUpdate a gids) = true) :
    s.entering pool a g = false := by
  unfold entering
  rw [List.any_eq_false]
  intro h hh
  have hall := List.all_eq_true.mp hok h hh
  cases h with
  | enterRead uid g' users =>
      simp only [decide_eq_true_eq] at hall
      simp [hall]
  | enterUpdate uid g' users role =>
      simp only [Bool.or_eq_true, decide_eq_true_eq, Bool.not_eq_true'] at hall
      grind
  | _ => simp

/-- An online that is about to enter the device from a row it has read. -/
theorem Tidy.loaded (ht : Tidy pool s) {found : Bool} {users : UserSet}
    (hok : s.orderlyHandler pool found (.leaveUpdate a.uid g users) = true)
    (hk : .onlineUpdate (some true) ∈ (seat pool s a g).user) :
    (seat pool s a g).row = some true ∨ .leave ∈ (seat pool s a g).group := by
  obtain ⟨h, hh, hstage⟩ := ht.mem_seat_user hk
  obtain ⟨details, rfl, hcounts⟩ := Handler.userStage_onlineUpdate hstage
  have hall := List.all_eq_true.mp hok _ hh
  rw [← ht.mem_pendingLeaves]
  simpa [hcounts, MemberRows.counts_iff, seat, view] using hall

/-- A handler's step, as one device and one group see it. -/
theorem seat_run (ht : Tidy pool s) {c : ℕ} {found : Bool} {h : Handler} {rest : List Handler}
    (hctx : s.ctxs c = h :: rest) (hok : s.orderlyHandler pool found h = true) :
    Relation.ReflGen SeatStep (seat pool s a g) (seat pool { (s.next found h).1 with
      ctxs := Function.update s.ctxs c ((s.next found h).2.toList ++ rest) } a g) := by
  obtain ⟨hc, hown⟩ := ht.placed c h (hctx ▸ List.mem_cons_self)
  have hnext : ∀ k, (s.next found h).2 = some k → k.ctx pool = c :=
    fun k hk => (next_ctx hk).trans hc
  obtain ⟨user, huser, huser'⟩ := filterMap_run (f := Handler.userStage a g)
    (fun h k => Handler.ctx_of_userStage) hc hctx hnext
  obtain ⟨group, hgroup, hgroup'⟩ := filterMap_run (f := Handler.groupStage a g)
    (fun h k => Handler.ctx_of_groupStage) hc hctx hnext
  obtain ⟨users, m, sub, hframe, -⟩ := s.next_frame found h
  have hinflight : (s.next found h).1.inflight = s.inflight := by rw [hframe]
  generalize hevs : (s.inflight.filterMap fun ev => ev.handler.groupStage a g) = evs
  have hseat : seat pool s a g = s.view a g ((h.userStage a g).toList ++ user)
      ((h.groupStage a g).toList ++ (group ++ evs)) := by
    rw [seat, huser, hgroup, hevs, List.append_assoc]
  have hmoves : s.Moves found h a g user (group ++ evs) := by
    cases h with
    | online b => exact s.moves_online found a b g user _
    | onlineRead b => exact s.moves_onlineRead found a b g user _ hok
    | onlineUpdate b details => exact s.moves_onlineUpdate found a b g user _ details
    | onlineSub b chans => exact s.moves_onlineSub found a b g user _ chans
    | offline b =>
        refine s.moves_offline found a b g user _ ?_
        rintro rfl hmem
        have hpending : g ∈ s.pendingLeaves pool b.uid := ht.mem_pendingLeaves.mpr (hseat ▸ hmem)
        have hout : s.entered pool b g = false := by
          simpa using List.all_eq_true.mp hok g hpending
        have hsafe := ht.not_entered hout
        rw [hseat] at hsafe
        exact hsafe
    | offlineRead b => exact s.moves_offlineRead found a b g user _ hok
    | offlineUpdate b gids =>
        refine s.moves_offlineUpdate found a b g user _ gids ?_
        rintro rfl hentering
        have hsome : s.entering pool b g = true := by
          apply ht.entering
          rw [hseat]
          exact hentering
        rw [entering_of_offlineUpdate hok] at hsome
        cases hsome
    | offlineCheck b gids chans => exact s.moves_offlineCheck found a b g user _ gids chans
    | offlineUnsub b chans => exact s.moves_offlineUnsub found a b g user _ chans
    | enter uid g' => exact s.moves_enter found a g g' uid user _
    | enterRead uid g' users => exact s.moves_enterRead found a g g' uid user _ users hok
    | enterUpdate uid g' users role =>
        exact s.moves_enterUpdate found a g g' uid user _ users role hown
    | enterSub uid g' | leaveUnsub uid g' => exact moves_of_view_eq _ _ _ _ _ _ rfl rfl rfl rfl rfl
    | leave uid g' => exact s.moves_leave found a g g' uid user _
    | leaveUpdate uid g' users =>
        refine s.moves_leaveUpdate found a g g' uid user _ users hown ?_
        rintro rfl rfl hhead
        have hloaded := ht.loaded hok (hseat ▸ List.mem_of_mem_head? hhead)
        rw [hseat] at hloaded
        rcases hloaded with hrow | hleave
        · exact Or.inl hrow
        · -- it is not this leave, which has looked already
          exact Or.inr (by simpa [Handler.groupStage, view] using hleave)
    | leaveCheck uid g' => exact s.moves_leaveCheck found a g g' uid user _
  unfold seat at hseat ⊢
  rw [hseat, huser', hgroup', hinflight, hevs, List.append_assoc]
  exact hmoves

theorem seat_post (h : Handler) : seat pool (s.post (h.ctx pool) h) a g = s.view a g
    ((s.ctxs (pool.getIoCtxByUid a.uid)).filterMap (Handler.userStage a g) ++
      (h.userStage a g).toList)
    ((s.ctxs (pool.getIoCtxByGid g)).filterMap (Handler.groupStage a g) ++
      ((h.groupStage a g).toList ++ s.inflight.filterMap fun ev => ev.handler.groupStage a g)) := by
  unfold seat
  rw [filterMap_post (fun h k => Handler.ctx_of_userStage) rfl,
    filterMap_post (fun h k => Handler.ctx_of_groupStage) rfl, List.append_assoc]
  rfl

/-- A notification moves from the network to the context of its group. Those that
concern the seat keep their order. -/
theorem seat_deliver {i : ℕ} {ev : GroupEvent} (hev : s.inflight[i]? = some ev)
    (horder : ∀ ev' ∈ s.inflight.take i, ev'.key ≠ ev.key) :
    seat pool (post { s with inflight := s.inflight.eraseIdx i } (pool.getIoCtxByGid ev.key.2)
      ev.handler) a g = seat pool s a g := by
  have hkey : ∀ ev : GroupEvent, ∀ k, ev.handler.groupStage a g = some k → ev.key = (a.uid, g) := by
    intro ev k hk
    cases ev <;> simp_all [GroupEvent.handler, GroupEvent.key, Handler.groupStage]
  have huser : ev.handler.userStage a g = none := by cases ev <;> rfl
  have hctx : ev.handler.ctx pool = pool.getIoCtxByGid ev.key.2 := by cases ev <;> rfl
  obtain ⟨hi, hget⟩ := List.getElem?_eq_some_iff.mp hev
  have hsplit : s.inflight = s.inflight.take i ++ ev :: s.inflight.drop (i + 1) := by
    rw [← hget, ← List.drop_eq_getElem_cons hi, List.take_append_drop]
  have hmaps : (ev.handler.groupStage a g).toList ++
      ((s.inflight.eraseIdx i).filterMap fun ev => ev.handler.groupStage a g) =
      s.inflight.filterMap fun ev => ev.handler.groupStage a g := by
    rw [List.eraseIdx_eq_take_drop_succ]
    nth_rewrite 3 [hsplit]
    cases hstage : ev.handler.groupStage a g with
    | none => simp [hstage]
    | some k =>
        -- nothing before it concerns the seat
        have hbefore : ((s.inflight.take i).filterMap fun ev => ev.handler.groupStage a g) = [] := by
          rw [List.filterMap_eq_nil_iff]
          intro ev' hev'
          rw [Option.eq_none_iff_forall_ne_some]
          intro k' hk'
          exact horder ev' hev' ((hkey ev' k' hk').trans (hkey ev k hstage).symm)
        simp [hbefore, hstage]
  rw [← hctx, seat_post, huser, hmaps]
  simp [seat, view]

/-- The rows of another user or group do not concern the seat. -/
theorem role?_update {uid : Bytes} {g' : Gid} {rows : MemberRows}
    (hkey : ¬ (uid = a.uid ∧ g' = g)) (hrows : g ≠ g' → rows.role? g = (s.db uid).role? g) :
    (Function.update s.db uid rows a.uid).role? g = (s.db a.uid).role? g := by
  by_cases huid : uid = a.uid
  · subst huid
    rw [Function.update_self]
    exact hrows fun hg => hkey ⟨rfl, hg.symm⟩
  · rw [Function.update_of_ne (Ne.symm huid)]

/-- A step of the manager is a step of the seat or leaves it alone. -/
theorem seat_step {t : MemberMgr} {e : MemberEvent} (ht : Tidy pool s) (hok : Orderly pool s e)
    (hstep : step pool s e = some t) :
    Relation.ReflGen SeatStep (seat pool s a g) (seat pool t a g) := by
  cases e with
  | userOnline b =>
      cases hstep
      rw [show pool.getIoCtxByUid b.uid = (Handler.online b).ctx pool from rfl, seat_post]
      by_cases hba : b = a
      · subst hba
        have hreport := SeatStep.userOnline (s := seat pool s b g)
        simpa [Handler.userStage, Handler.groupStage, seat, view] using
          Relation.ReflGen.single hreport
      · simpa [Handler.userStage, Handler.groupStage, seat, view, hba,
          Function.update_of_ne (Ne.symm hba)] using .refl
  | userOffline b =>
      cases hstep
      rw [show pool.getIoCtxByUid b.uid = (Handler.offline b).ctx pool from rfl, seat_post]
      by_cases hba : b = a
      · subst hba
        have hreport := SeatStep.userOffline (s := seat pool s b g)
        simpa [Handler.userStage, Handler.groupStage, seat, view] using
          Relation.ReflGen.single hreport
      · simpa [Handler.userStage, Handler.groupStage, seat, view, hba,
          Function.update_of_ne (Ne.symm hba)] using .refl
  | dbEnter uid g' role =>
      obtain ⟨rows, hrows, rfl⟩ := Option.map_eq_some_iff.mp hstep
      obtain ⟨hfresh, hrole⟩ := (s.db uid).role?_insert g' g hrows
      by_cases hkey : uid = a.uid ∧ g' = g
      · rcases hkey with ⟨rfl, rfl⟩
        have henter := SeatStep.dbEnter (s := seat pool s a g') role.counts
          (by simp [seat, view, hfresh])
        simpa [seat, view, GroupEvent.handler, Handler.groupStage, hrole] using
          Relation.ReflGen.single henter
      · have hother := role?_update hkey fun hg => hrole.trans (if_neg hg)
        simpa [seat, view, GroupEvent.handler, Handler.groupStage, hkey, hother] using .refl
  | dbLeave uid g' =>
      simp only [step] at hstep
      split at hstep
      · next hmem =>
        cases hstep
        have hrole := (s.db uid).role?_delMember g' g
        by_cases hkey : uid = a.uid ∧ g' = g
        · rcases hkey with ⟨rfl, rfl⟩
          have hrow : (seat pool s a g').row.isSome = true := by
            simpa [seat, view] using ((s.db a.uid).isSome_role? g').mpr hmem
          have hapart : (seat pool s a g').user.head? = some .offlineRead →
              (seat pool s a g').member = false ∧ ¬ (seat pool s a g').Entering := by
            intro hhead
            obtain ⟨h, hh, hstage⟩ := ht.mem_seat_user (List.mem_of_mem_head? hhead)
            rw [Handler.userStage_offlineRead hstage] at hh
            have hall := List.all_eq_true.mp hok _ hh
            apply ht.not_entered
            simpa using hall
          have hleave := SeatStep.dbLeave (s := seat pool s a g') hrow hapart
          simpa [seat, view, GroupEvent.handler, Handler.groupStage, hrole] using
            Relation.ReflGen.single hleave
        · have hother := role?_update hkey fun hg => hrole.trans (if_neg hg)
          simpa [seat, view, GroupEvent.handler, Handler.groupStage, hkey, hother] using .refl
      · cases hstep
  | deliver i =>
      simp only [step] at hstep
      split at hstep
      · cases hstep
      · next ev hev =>
        cases hstep
        rw [seat_deliver hev]
        intro ev' hev'
        simp only [Orderly, orderly, hev] at hok
        simpa using List.all_eq_true.mp hok ev' hev'
  | run c found =>
      simp only [step] at hstep
      split at hstep
      · cases hstep
      · next h rest hc =>
        cases hstep
        simp only [Orderly, orderly, hc] at hok
        exact seat_run ht hc hok

end Seat

/-! ## The index agrees with the database -/

/-- The invariant of the runs that meet the condition. -/
structure Inv (pool : IoCtxPool) (s : MemberMgr) : Prop where
  tidy : Tidy pool s
  seats : ∀ a g, SeatInv (seat pool s a g)

theorem Inv.initial (pool : IoCtxPool) (db : Bytes → MemberRows) : Inv pool (initial db) := by
  refine ⟨⟨nofun, nofun⟩, ?_⟩
  intro a g
  refine ⟨⟨⟨nofun, rfl, nofun⟩, ⟨nofun, rfl⟩⟩, ?_⟩
  constructor <;> simp [seat, view, MemberMgr.initial, Seat.Entering]

theorem Inv.step {pool : IoCtxPool} {s t : MemberMgr} {e : MemberEvent} (h : Inv pool s)
    (hok : Orderly pool s e) (hstep : step pool s e = some t) : Inv pool t := by
  refine ⟨h.tidy.step hstep, ?_⟩
  intro a g
  exact (h.seats a g).moves (seat_step h.tidy hok hstep)

theorem Tidy.seat_settled {pool : IoCtxPool} {s : MemberMgr} (ht : Tidy pool s)
    (hdone : s.handlers pool = []) (hinflight : s.inflight = []) (a : DispatchAddress) (g : Gid) :
    (seat pool s a g).user = [] ∧ (seat pool s a g).group = [] := by
  have hempty : ∀ c, s.ctxs c = [] := by
    intro c
    rw [List.eq_nil_iff_forall_not_mem]
    intro h hh
    have hmem := ht.mem_handlers hh
    rw [hdone] at hmem
    cases hmem
  simp [seat, view, hempty, hinflight]

end MemberMgr

open MemberMgr

/-- Once all handlers have finished, the index of a group holds exactly the
devices that are online and whose user's stored role counts, in every run whose
steps meet the condition. -/
theorem index_agrees (pool : IoCtxPool) (db : Bytes → MemberRows) (es : List MemberEvent)
    (s : MemberMgr) (hrun : (machine pool).run (initial db) es = some s)
    (horderly : (machine pool).Meets (Orderly pool) (initial db) es)
    (hdone : s.handlers pool = []) (hinflight : s.inflight = []) :
    ∀ g a, a ∈ s.groupMembers g ↔
      s.status a = true ∧ ∃ r, (s.db a.uid).role? g = some r ∧ r.counts = true := by
  have hinv : Inv pool s :=
    (machine pool).run_invariant (Inv pool) (fun _ _ _ h hok hstep => h.step hok hstep)
      (Inv.initial pool db) horderly hrun
  intro g a
  obtain ⟨huser, hgroup⟩ := hinv.tidy.seat_settled hdone hinflight a g
  have hsettled := (hinv.seats a g).settled huser hgroup
  simpa [seat, view, Option.map_eq_some_iff] using hsettled

/-- Five contexts; the hash is the length. -/
def fiveContexts : IoCtxPool := ⟨5, by decide, List.length⟩

/-- User `u` is a member of group 7, and nobody else is anywhere. -/
def oneMember : Bytes → MemberRows :=
  Function.update (fun _ => ⟨[], List.nodup_nil⟩) [117]
    ⟨[(7, .member)], List.nodup_singleton 7⟩

/-- The device comes online, its user enters group 8 and leaves group 7, one
after the other. -/
def onlineEnterLeave : List MemberEvent :=
  [.userOnline ⟨[117], 1⟩, .run 1 true, .run 1 true, .run 1 true, .run 1 true, .run 1 true,
   .dbEnter [117] 8 .owner, .deliver 0, .run 3 true, .run 3 true, .run 3 true, .run 3 true,
   .dbLeave [117] 7, .deliver 0, .run 2 true, .run 2 true, .run 2 true, .run 2 true]

theorem index_agrees_onlineEnterLeave :
    ∃ s, (machine fiveContexts).run (initial oneMember) onlineEnterLeave = some s ∧
      (⟨[117], 1⟩ : DispatchAddress) ∈ s.groupMembers 8 ∧
      (⟨[117], 1⟩ : DispatchAddress) ∉ s.groupMembers 7 ∧
      ∀ g a, a ∈ s.groupMembers g ↔
        s.status a = true ∧ ∃ r, (s.db a.uid).role? g = some r ∧ r.counts = true := by
  have hsome : ((machine fiveContexts).run (initial oneMember) onlineEnterLeave).isSome := by
    decide
  have hok : (machine fiveContexts).Meets (Orderly fiveContexts) (initial oneMember)
      onlineEnterLeave := by decide
  have hview : ((machine fiveContexts).run (initial oneMember) onlineEnterLeave).map (fun s =>
      (s.handlers fiveContexts, s.inflight, s.groupMembers 8, s.groupMembers 7)) =
      some ([], [], [⟨[117], 1⟩], []) := by decide
  rcases Option.isSome_iff_exists.mp hsome with ⟨s, hs⟩
  rw [hs, Option.map_some, Option.some.injEq] at hview
  simp only [Prod.mk.injEq] at hview
  rcases hview with ⟨hdone, hinflight, h8, h7⟩
  refine ⟨s, hs, ?_, ?_, ?_⟩
  · rw [h8]
    exact List.mem_cons_self
  · rw [h7]
    exact List.not_mem_nil
  · exact index_agrees fiveContexts oneMember onlineEnterLeave s hs hok hdone hinflight

/-- The device is online. Its user is removed from the group, and the device
goes offline before the leave arrives: the offline finds no row, the leave finds
nobody online. -/
def offlineOvertakesLeave : List MemberEvent :=
  [.userOnline ⟨[117], 1⟩, .run 1 true, .run 1 true, .run 1 true, .run 1 true, .run 1 true,
   .dbLeave [117] 7, .userOffline ⟨[117], 1⟩, .run 1 true, .run 1 true, .run 1 true, .run 1 true,
   .deliver 0, .run 2 true]

/-- Without the condition the index can keep a device that is offline and whose
user has left the group, though every read succeeds. -/
theorem index_stale :
    ¬ ∀ (pool : IoCtxPool) (db : Bytes → MemberRows) (es : List MemberEvent) (s : MemberMgr),
      (∀ c, MemberEvent.run c false ∉ es) → (machine pool).run (initial db) es = some s →
      s.handlers pool = [] → s.inflight = [] →
      ∀ g a, a ∈ s.groupMembers g ↔
        s.status a = true ∧ ∃ r, (s.db a.uid).role? g = some r ∧ r.counts = true := by
  intro hclaim
  have hsome : ((machine fiveContexts).run (initial oneMember) offlineOvertakesLeave).isSome := by
    decide
  have hview : ((machine fiveContexts).run (initial oneMember) offlineOvertakesLeave).map (fun s =>
      (s.handlers fiveContexts, s.inflight, s.groupMembers 7, s.status ⟨[117], 1⟩)) =
      some ([], [], [⟨[117], 1⟩], false) := by decide
  rcases Option.isSome_iff_exists.mp hsome with ⟨s, hs⟩
  rw [hs, Option.map_some, Option.some.injEq] at hview
  simp only [Prod.mk.injEq] at hview
  rcases hview with ⟨hdone, hinflight, hmembers, hstatus⟩
  have hreads : ∀ c, MemberEvent.run c false ∉ offlineOvertakesLeave := by
    intro c
    simp [offlineOvertakesLeave]
  have hiff := hclaim fiveContexts oneMember offlineOvertakesLeave s hreads hs hdone hinflight 7
    ⟨[117], 1⟩
  rw [hmembers, hstatus] at hiff
  cases (hiff.mp List.mem_cons_self).1

end BcmServer.Group
