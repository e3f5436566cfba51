import BcmServer.Group.Joining

/-!
# BcmServer.Group.OwnerConfirm — who joins while the owner has to confirm

While `owner_confirm` is on, an invitation by another member and a join request
only leave a record, and a review is the owner's. Two ways in do not look at the
setting.

* `onUploadPassword` gives keys to users who joined without a confirmation. Any
  member may call it, and it gives rows to accepted users who have none.
* `onAddMeRequstV3` needs a record of a join request, which was made while the
  setting was off; it may be on by now.

`owner_confirm_run` says that there are no others.
-/

namespace BcmServer.Group

open BcmServer.Util BcmServer.Lts GroupManagerController

/-- `owner_confirm` of the group is on. -/
def ConfirmOn (s : Store) (gid : Gid) : Prop :=
  ∃ group, s.groups gid = some group ∧ group.ownerConfirm ≠ 0

/-- Whoever becomes a member in the step while the owner has to confirm does so by
a request of the owner. -/
def OwnerAdmits (env : Env) (s : Store) (event : RequestEvent) : Prop :=
  ∀ gid uid, ConfirmOn s gid → s.isMember gid uid = false →
    (event.apply env s).isMember gid uid = true →
    ∃ ctx req plan, event = .request ctx req plan ∧ s.role gid ctx.uid = some .owner

/-- The condition on a step, for the two requests that do not look at the
setting. -/
def GateSafe (env : Env) (s : Store) : RequestEvent → Prop
  | .request ctx (.uploadPassword req) _ =>
      ConfirmOn s req.gid → UploadValid env ctx req s → s.role req.gid ctx.uid ≠ some .owner →
        ∀ uid, req.Accepts uid → (s.row req.gid uid).isSome
  | .request ctx (.addMeV3 req) plan =>
      ConfirmOn s req.gid → AddMeValid ctx req plan s → s.isMember req.gid ctx.uid = true
  | _ => True

theorem owner_of_gate {s : Store} {gid : Gid} {uid : Bytes} (hgate : Gate s gid uid)
    (hon : ConfirmOn s gid) : s.role gid uid = some .owner := by
  obtain ⟨group, hgroup, hconfirm | howner⟩ := hgate
  · obtain ⟨group', hgroup', hon⟩ := hon
    have hsame : group' = group := Option.some.inj (hgroup'.symm.trans hgroup)
    rw [hsame] at hon
    exact absurd hconfirm hon
  · exact role_of_owner howner

/-- The ways into a group, while the owner has to confirm. -/
theorem owner_of_admissible {env : Env} {ctx : Context} {req : GroupRequest} {plan : Plan ℕ}
    {s : Store} {uid : Bytes} (hon : ConfirmOn s (req.gid ctx))
    (hnone : s.isMember (req.gid ctx) uid = false)
    (hok : GateSafe env s (.request ctx req plan)) (h : Admissible env ctx plan s req uid) :
    s.role (req.gid ctx) ctx.uid = some .owner := by
  cases req with
  | createV3 body =>
      obtain ⟨group, hgroup, -⟩ := hon
      exact absurd (hgroup.symm.trans h) (Option.some_ne_none group)
  | inviteV3 req => exact owner_of_gate h.2.2 hon
  | inviteV2 body => exact owner_of_gate h hon
  | addMeV3 req =>
      -- by the condition the caller is a member already
      obtain ⟨rfl, hvalid⟩ := h
      exact absurd ((hok hon hvalid).symm.trans hnone) Bool.noConfusion
  | reviewV3 req => exact role_of_owner h.1
  | review req => exact role_of_owner h.1
  | join req => exact owner_of_gate (h.2.imp fun _ hgroup => ⟨hgroup.1, Or.inl hgroup.2⟩) hon
  | uploadPassword req =>
      obtain ⟨hvalid, haccepts, hrow⟩ := h
      by_contra hne
      have hsome := hok hon hvalid hne uid haccepts
      rw [hrow] at hsome
      cases hsome
  | leaveV3 | kickV3 | joinV3 | updateV3 | updateV2 => exact h.elim

theorem ownerAdmits_of_gateSafe {env : Env} {s : Store} {event : RequestEvent}
    (hok : GateSafe env s event) : OwnerAdmits env s event := by
  intro gid uid hon hnone hmember
  cases event with
  | tick seconds => exact absurd (hmember.symm.trans hnone) Bool.noConfusion
  | request ctx req plan =>
      refine ⟨ctx, req, plan, rfl, ?_⟩
      have hadmits := request_admits env ctx req plan s
      by_cases hgid : gid = req.gid ctx
      · -- the request is about this group
        subst hgid
        rcases hadmits.new uid hmember with hold | hway
        · exact absurd (hold.symm.trans hnone) Bool.noConfusion
        · exact owner_of_admissible hon hnone hok hway
      · have hsame := hadmits.isMember_others hgid uid
        exact absurd ((hmember.symm.trans hsame).trans hnone) Bool.noConfusion

/-- In every run whose steps all meet the condition, nobody becomes a member of a
group whose owner has to confirm but by a request of the owner. -/
theorem owner_confirm_run (env : Env) (s : Store) (events : List RequestEvent)
    (hok : (groupMachine env).Meets (GateSafe env) s events) :
    (groupMachine env).Meets (OwnerAdmits env) s events := by
  refine (groupMachine env).meets_mono ?_ hok
  intro s event hok
  exact ownerAdmits_of_gateSafe hok

/-- `[4]` asks to join, and the owner `[1]` accepts. -/
def reviewedRun : List RequestEvent :=
  [createSeven 1, joinSeven,
   .request (plainContext [1]) (.reviewV3 ⟨7, [{ uid := [4], accepted := true }]⟩) .clean]

theorem owner_confirm_run_review :
    (groupMachine plainEnv).Meets (OwnerAdmits plainEnv) (plainStore []) reviewedRun ∧
      (plainStore reviewedRun).isMember 7 [4] = true := by
  constructor
  · apply owner_confirm_run
    exact ⟨trivial, trivial, trivial, trivial⟩
  · decide

/-- Member `[2]` uploads a password for `[4]`, who is not in the group. -/
def uploadRun : List RequestEvent :=
  [createSeven 1,
   .request (plainContext [2]) (.uploadPassword ⟨7, [{ uid := [4], accepted := true }]⟩) .clean]

/-- Any member may let others in. -/
theorem owner_confirm_bypassed :
    ¬ ∀ (env : Env) (accounts : Bytes → Option Account) (events : List RequestEvent),
      (groupMachine env).Meets (OwnerAdmits env) (emptyStore accounts) events := by
  intro hclaim
  obtain ⟨-, hstep, -⟩ := hclaim plainEnv (fun uid => some (plainAccount uid)) uploadRun
  obtain ⟨ctx, req, plan, hevent, howner⟩ :=
    hstep 7 [4] ⟨(createBody 1).group, by decide, by decide⟩ (by decide) (by decide)
  cases hevent
  exact absurd howner (by decide)

-- A record from before the setting was turned on lets `[4]` in as well.
example :
    let t := plainStore [createSeven 0, joinSeven,
      .request (plainContext [1]) (.updateV3 turnOn) .clean]
    (t.groups 7).map GroupRecord.ownerConfirm = some 1 ∧ t.isMember 7 [4] = false ∧
      (RequestEvent.apply plainEnv t
        (.request (plainContext [4]) (.addMeV3 ⟨7, [], []⟩) .clean)).isMember 7 [4] = true := by
  decide

end BcmServer.Group
