import BcmServer.Group.Joining

/-!
# BcmServer.Group.Reviews — what becomes of the requests under review

A review names requests to join as accepted or rejected. The accepted users get rows, and
the requests leave the pending list, in two calls of the DAOs.

* `onReviewJoinRequestV3`: the rows are added in one batch before the requests are deleted, so
  a review that gives up has done nothing (`reviewV3_settles`).
-/

namespace BcmServer.Group

open BcmServer.Util BcmServer.Lts GroupManagerController

namespace Dao

variable {α : Type} {good : (o : DaoCall) → o.Answer → Prop} {P : α → Store → Prop}
  {plan : Plan ℕ} {s : Store}

/-- `wp_read'`, for runs with good answers -/
theorem provided_read {r : Read} {k : Except DaoError r.Res → Dao α}
    (herror : ∀ e plan, (k (.error e)).Provided daoEffects good P plan s)
    (hok : ∀ a plan, r.eval s = .ok a → (k (.ok a)).Provided daoEffects good P plan s) :
    (read r >>= k).Provided daoEffects good P plan s := by
  apply Program.provided_bind
  rw [← Program.bind_pure (read r)]
  exact wp_read' (fun e => herror e _) fun a ha => hok a _ ha

/-- `wp_existedUsers`, for runs with good answers -/
theorem provided_existedUsers {gid : Gid} {uids : List Bytes}
    {k : Option (List (Bytes × GroupUser)) → Dao α}
    (hnone : ∀ plan, (k none).Provided daoEffects good P plan s)
    (hsome : ∀ existed plan,
      (∀ uid ∈ uids, (existed.any fun u => u.1 = uid) = (s.row gid uid).isSome) →
      (k (some existed)).Provided daoEffects good P plan s) :
    (existedUsers gid uids >>= k).Provided daoEffects good P plan s := by
  apply Program.provided_bind
  rw [← Program.bind_pure (existedUsers gid uids)]
  exact wp_existedUsers hnone fun existed plan _ hexisted => hsome existed plan hexisted

end Dao

open Dao

/-! ## Review -/

/-- A result accepts the user. -/
def ReviewJoinResultRequestV3.Accepts (req : ReviewJoinResultRequestV3) (uid : Bytes) : Prop :=
  ∃ item ∈ req.list, item.accepted = true ∧ item.uid = uid

/-- A deletion from the pending list does not fail. -/
def PendingDeleted : (o : DaoCall) → o.Answer → Prop
  | .write (.pendingDel _ _), a => a = .ok ()
  | _, _ => True

/-- What is left of a pending list without some users -/
def withoutPending (pending : Bytes → Option PendingGroupUser) (uids : List Bytes) (uid : Bytes) :
    Option PendingGroupUser :=
  if uid ∈ uids then none else pending uid

theorem withoutPending_nil (pending : Bytes → Option PendingGroupUser) :
    withoutPending pending [] = pending :=
  funext fun _ => if_neg List.not_mem_nil

theorem apply_pendingDel {s t : Store} {gid : Gid} {uids : List Bytes}
    (h : Write.apply s (.pendingDel gid uids) = .ok t) :
    t.users = s.users ∧ t.pending gid = withoutPending (s.pending gid) uids := by
  cases h
  exact ⟨rfl, Function.update_self _ _ _⟩

/-- The rows of a group after a review: those that were there, and one for each accepted user -/
structure RowsAdmitted (req : ReviewJoinResultRequestV3) (s t : Store) : Prop where
  isSome : ∀ uid, (t.row req.gid uid).isSome ↔ (s.row req.gid uid).isSome ∨ req.Accepts uid
  kept : ∀ uid user, s.row req.gid uid = some user → t.row req.gid uid = some user

/-- A review is refused, or it adds the rows and, if that is not what fails, takes the requests
off the pending list. -/
inductive ReviewSettled (req : ReviewJoinResultRequestV3) (deleted : Prop) (s : Store) (r : Reply)
    (t : Store) : Prop where
  | refused (status : r.status ≠ .ok) (store : t = s)
  | done (status : r.status = .ok) (rows : RowsAdmitted req s t)
      (pending : deleted → t.pending req.gid =
        withoutPending (s.pending req.gid) (req.list.map ReviewJoinResultV3.uid))

variable {ctx : Context} {req : ReviewJoinResultRequestV3} {s t : Store}

theorem mem_admitted {uid : Bytes} :
    uid ∈ req.admitted s ↔ req.Accepts uid ∧ s.row req.gid uid = none := by
  rw [ReviewJoinResultRequestV3.admitted, List.mem_filter, Option.isNone_iff_eq_none]
  refine and_congr_left' ?_
  rw [List.mem_map]
  simp only [List.mem_filter, and_assoc]
  rfl

/-- Rows for the users without one are added. -/
theorem RowsAdmitted.of_insertAll {rows : List (Bytes × GroupUser)}
    (huids : rows.map Prod.fst = req.admitted s)
    (ht : t.users req.gid = (s.users req.gid).insertAll rows) : RowsAdmitted req s t := by
  have hold : ∀ uid user, s.row req.gid uid = some user → t.row req.gid uid = some user := by
    intro uid user huser
    have hnot : uid ∉ rows.map Prod.fst := by
      rw [huids, mem_admitted, huser]
      rintro ⟨-, hnone⟩
      cases hnone
    rw [Store.row, ht, Table.lookup_insertAll_of_notMem _ _ hnot]
    exact huser
  refine ⟨?_, hold⟩
  intro uid
  by_cases hadmitted : uid ∈ req.admitted s
  · obtain ⟨user, -, huser⟩ := Table.lookup_insertAll_of_mem (s.users req.gid) rows
      (huids ▸ hadmitted)
    rw [Store.row, ht, huser]
    simp [(mem_admitted.mp hadmitted).1]
  · rw [Store.row, ht, Table.lookup_insertAll_of_notMem _ _ (huids ▸ hadmitted)]
    rw [mem_admitted, not_and] at hadmitted
    constructor
    · exact Or.inl
    · rintro (hrow | haccepts)
      · exact hrow
      · exact Option.isSome_iff_ne_none.mpr (hadmitted haccepts)

/-- The end of a review, with the rows added -/
theorem finishReview_settles {deleted : Prop} {keysCount : Option UInt32} {plan : Plan ℕ}
    (hrows : RowsAdmitted req s t) (hpending : t.pending = s.pending) :
    (finishReview req keysCount).Provided daoEffects (fun o a => deleted → PendingDeleted o a)
      (fun r t => ReviewSettled req deleted s r t) plan t := by
  unfold finishReview
  split
  · apply Program.provided_call
    intro hgood
    apply Program.provided_ret
    cases hplan : plan 0 with
    | some code =>
        -- the deletion fails, which is only logged
        rw [hplan] at hgood
        refine .done rfl hrows fun hdeleted => ?_
        cases hgood hdeleted
    | none =>
        refine .done rfl ⟨hrows.isSome, hrows.kept⟩ fun _ => ?_
        rw [← hpending]
        exact (apply_pendingDel rfl).2
  · next hempty =>
    apply Program.provided_ret
    refine .done rfl hrows fun _ => ?_
    have hnil : req.list = [] := by simpa using hempty
    rw [hpending, hnil, List.map_nil, withoutPending_nil]

theorem reviewV3_provided (env : Env) (ctx : Context) (req : ReviewJoinResultRequestV3)
    (deleted : Prop) (plan : Plan ℕ) (s : Store) :
    (onReviewJoinRequestV3 env ctx req).Provided daoEffects
      (fun o a => deleted → PendingDeleted o a)
      (fun r t => ReviewSettled req deleted s r t) plan s := by
  have hrefuse : ∀ status plan, status ≠ .ok →
      (pure (.of status) : Dao Reply).Provided daoEffects (fun o a => deleted → PendingDeleted o a)
        (fun r t => ReviewSettled req deleted s r t) plan s :=
    fun status plan hstatus => Program.provided_ret (.refused hstatus rfl)
  unfold onReviewJoinRequestV3
  -- the checks and the reads come before the first write
  split
  · exact hrefuse _ _ (by decide)
  apply provided_read
  · exact fun _ _ => hrefuse _ _ (by decide)
  intro ownerUid plan _
  show Program.Provided _ _ (if _ then _ else _) _ _ _
  split
  · exact hrefuse _ _ (by decide)
  apply provided_read
  · exact fun _ _ => hrefuse _ _ (by decide)
  intro group plan _
  show Program.Provided _ _ (if _ then _ else _) _ _ _
  split
  · exact hrefuse _ _ (by decide)
  split
  · exact hrefuse _ _ (by decide)
  apply provided_existedUsers
  · exact fun _ => hrefuse _ _ (by decide)
  intro existed plan hexisted
  have huids : (acceptedNew req existed).map ReviewJoinResultV3.uid = req.admitted s :=
    acceptedNew_uids hexisted
  apply Program.provided_bind
  unfold insertReviewed
  split
  · next hempty =>
    -- all accepted users have rows
    have hnil : ([] : List (Bytes × GroupUser)).map Prod.fst = req.admitted s := by
      rw [← huids, List.isEmpty_iff.mp hempty]
      rfl
    exact finishReview_settles (.of_insertAll hnil rfl) rfl
  apply wp_read'
  · exact fun _ => hrefuse _ _ (by decide)
  intro memberCnt _
  apply wp_write
  · exact fun _ _ => hrefuse _ _ (by decide)
  intro t _ ht
  cases ht
  apply wp_quiet (quiet_pubForEach _ _)
  intro _ _
  apply wp_quiet (quiet_updateGroupKeys _ _ _ _)
  intro _ _
  refine finishReview_settles (.of_insertAll ?_ (Function.update_self _ _ _)) rfl
  rw [← huids, reviewedRows, List.map_map]
  rfl

theorem ReviewSettled.row_of_not_accepts {deleted : Prop} {r : Reply}
    (h : ReviewSettled req deleted s r t) {uid : Bytes} (haccepts : ¬ req.Accepts uid)
    (hrow : s.row req.gid uid = none) : t.row req.gid uid = none := by
  cases h with
  | refused _ hstore => rw [hstore, hrow]
  | done _ hrows _ =>
      rw [← Option.not_isSome_iff_eq_none, hrows.isSome, hrow]
      rintro (hsome | hyes)
      · cases hsome
      · exact haccepts hyes

/-- A review adds a row for each accepted user and takes the requests off the pending list, or it
is refused without an effect. -/
theorem reviewV3_settles (env : Env) (ctx : Context) (req : ReviewJoinResultRequestV3)
    (plan : Plan ℕ) (s : Store) :
    let r := (onReviewJoinRequestV3 env ctx req).run plan s
    (r.1.status = .ok → RowsAdmitted req s r.2 ∧
      ((∀ c ∈ (onReviewJoinRequestV3 env ctx req).calls daoEffects plan s,
          PendingDeleted c.1 c.2) →
        r.2.pending req.gid =
          withoutPending (s.pending req.gid) (req.list.map ReviewJoinResultV3.uid))) ∧
    (r.1.status ≠ .ok → r.2 = s) ∧
    (∀ uid, ¬ req.Accepts uid → s.row req.gid uid = none → r.2.row req.gid uid = none) := by
  intro r
  have hsettled : ReviewSettled req (∀ c ∈ (onReviewJoinRequestV3 env ctx req).calls daoEffects
      plan s, PendingDeleted c.1 c.2) s r.1 r.2 :=
    reviewV3_provided env ctx req _ plan s fun c hc hdeleted => hdeleted c hc
  refine ⟨fun hok => ?_, fun herror => ?_, fun uid => hsettled.row_of_not_accepts⟩
  · cases hsettled with
    | refused status _ => exact absurd hok status
    | done _ hrows hpending => exact ⟨hrows, hpending⟩
  · cases hsettled with
    | refused _ hstore => exact hstore
    | done status _ _ => exact absurd status herror

end BcmServer.Group
