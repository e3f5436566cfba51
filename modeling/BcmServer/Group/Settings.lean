import BcmServer.Group.Ownership

/-!
# BcmServer.Group.Settings — the settings are signed by the owner

The QR-code setting and the confirmation of a group carry two signatures.
`onCreateGroupV3` and the updates verify them under the key of the caller, who is
the owner; the handlers that admit users verify what is stored under the key of
the owner, and refuse or report an error where that fails. There are two ways to
get there.

* An update is verified only if it names the setting or the confirmation. One
  that names a signature alone is stored as it is.
* A hand-over changes the key and leaves the signatures.

`settings_signed_run` says that without these the stored settings verify in every
run.
-/

namespace BcmServer.Group

open BcmServer.Util BcmServer.Lts GroupManagerController

/-- The settings of the group verify under the key of the user. -/
def SignedBy (env : Env) (s : Store) (gid : Gid) (uid : Bytes) : Prop :=
  ∀ group account, s.groups gid = some group → s.accounts uid = some account →
    group.verifies env account.publicKey = true

/-- The settings of every group verify under the key of its owner. -/
def SettingsSigned (env : Env) (s : Store) : Prop :=
  ∀ gid uid, s.role gid uid = some .owner → SignedBy env s gid uid

/-- Create, leave and update, and time that passes. -/
def RequestEvent.changesSettings : RequestEvent → Bool
  | request _ (.createV3 _) _ => true
  | request _ (.leaveV3 _) _ => true
  | request _ (.updateV2 _) _ => true
  | request _ (.updateV3 _) _ => true
  | request _ _ _ => false
  | tick _ => true

/-- The account of the caller is the one that is stored. -/
def RequestEvent.Authentic (accounts : Bytes → Option Account) : RequestEvent → Prop
  | request ctx _ _ => accounts ctx.uid = some ctx.account
  | tick _ => True

/-- An owner's update that names neither the setting nor the confirmation names no
signature, or the settings verify with the signatures it names. -/
def UpdateSafe (env : Env) (ctx : Context) (s : Store) (body : UpdateGroupInfoBodyV2)
    (upData : GroupUpdate) : Prop :=
  s.role body.gid ctx.uid = some .owner → body.qrCodeSetting.isEmpty → body.ownerConfirm = -1 →
    (body.shareSignature.isEmpty ∧ body.shareAndOwnerConfirmSignature.isEmpty) ∨
      ∀ group, s.groups body.gid = some group →
        (group.update upData).verifies env ctx.account.publicKey = true

/-- The condition on a step: updates are safe, and an owner hands over only where
the settings verify under the key of the next owner, with a deletion that does not
fail. -/
def SettingsSafe (env : Env) (s : Store) : RequestEvent → Prop
  | .request ctx (.updateV2 body) _ => UpdateSafe env ctx s body body.upData
  | .request ctx (.updateV3 body) _ =>
      UpdateSafe env ctx s body.toUpdateGroupInfoBodyV2 body.upData
  | .request ctx (.leaveV3 body) plan => (∀ n < 3, plan n = none) → ∀ next,
      HandsOver ctx body s next → plan 3 = none ∧ SignedBy env s body.gid body.nextOwner
  | _ => True

/-! ## One request -/

/-- The invariant: the accounts stay, a group has one owner, and the settings are
signed. -/
structure SettingsInv (env : Env) (accounts : Bytes → Option Account) (s : Store) : Prop where
  accounts : s.accounts = accounts
  owners : OwnersUnique s
  signed : SettingsSigned env s

section Requests

variable {env : Env} {accounts : Bytes → Option Account} {ctx : Context} {plan : Plan ℕ}
  {s t : Store} {r : Reply}

/-- What the settings of a group depend on. -/
theorem SignedBy.congr {gid : Gid} {uid : Bytes} (h : SignedBy env s gid uid)
    (hgroup : t.groups gid = s.groups gid) (haccounts : t.accounts = s.accounts) :
    SignedBy env t gid uid := by
  intro group account hg ha
  rw [hgroup] at hg
  rw [haccounts] at ha
  exact h group account hg ha

theorem create_settings {body : CreateGroupBodyV3} (hs : SettingsInv env accounts s)
    (hauth : accounts ctx.uid = some ctx.account) (h : CreateOutcome env ctx body s r t) :
    SettingsInv env accounts t := by
  have howners := create_owners hs.owners h
  cases h with
  | refused h =>
      rw [h.store]
      exact hs
  | undone _ hunused _ group _ modes hstore =>
      have haccounts : t.accounts = s.accounts := by
        rw [hstore]
        rfl
      have husers : t.users = s.users := by
        rw [hstore]
        rfl
      refine ⟨haccounts.trans hs.accounts, howners, ?_⟩
      intro gid uid hrole
      rw [role_eq_of_users (congrFun husers gid)] at hrole
      -- the number that was given back has no owner
      have hgid : gid ≠ ctx.newGid := by
        rintro rfl
        rw [Store.role, Store.row, users_of_unused hunused] at hrole
        cases hrole
      apply (hs.signed gid uid hrole).congr _ haccounts
      rw [hstore]
      exact Function.update_of_ne hgid ..
  | created _ hunused hverifies modes hstore =>
      have haccounts : t.accounts = s.accounts := by
        rw [hstore]
        rfl
      have husers : t.users =
          Function.update s.users ctx.newGid (Table.insertAll ∅ (newRows ctx body)) := by
        rw [hstore, users_of_unused hunused]
        rfl
      have hgroups : t.groups = Function.update s.groups ctx.newGid (some body.group) := by
        rw [hstore]
        rfl
      refine ⟨haccounts.trans hs.accounts, howners, ?_⟩
      intro gid uid hrole
      by_cases hgid : gid = ctx.newGid
      · -- the owner is the one who has signed
        subst hgid
        have huid : uid = ctx.uid := by
          rw [← owner_newRows ctx body, ← hrole, Store.role, Store.row, husers,
            Function.update_self]
          rfl
        intro group account hgroup haccount
        rw [hgroups, Function.update_self] at hgroup
        rw [haccounts, hs.accounts, huid, hauth] at haccount
        cases hgroup
        cases haccount
        exact hverifies
      · have hold : t.users gid = s.users gid := by
          rw [husers, Function.update_of_ne hgid]
        rw [role_eq_of_users hold] at hrole
        apply (hs.signed gid uid hrole).congr _ haccounts
        rw [hgroups, Function.update_of_ne hgid]

/-- The users of one group are replaced: in the other groups nothing changes. -/
theorem SettingsInv.setUsers {gid : Gid} {rows : Table Bytes GroupUser}
    (hs : SettingsInv env accounts s) (howners : OwnersUnique t) (hstore : t = s.setUsers gid rows)
    (hrows : ∀ uid, roster rows uid = some .owner → SignedBy env s gid uid) :
    SettingsInv env accounts t := by
  have haccounts : t.accounts = s.accounts := by
    rw [hstore]
    rfl
  have hgroups : t.groups = s.groups := by
    rw [hstore]
    rfl
  have husers : t.users = Function.update s.users gid rows := by
    rw [hstore]
    rfl
  refine ⟨haccounts.trans hs.accounts, howners, ?_⟩
  intro gid' uid hrole
  by_cases hgid : gid' = gid
  · subst hgid
    rw [Store.role, Store.row, husers, Function.update_self] at hrole
    exact (hrows uid hrole).congr (congrFun hgroups _) haccounts
  · have hold : t.users gid' = s.users gid' := by
      rw [husers, Function.update_of_ne hgid]
    rw [role_eq_of_users hold] at hrole
    exact (hs.signed gid' uid hrole).congr (congrFun hgroups gid') haccounts

theorem leave_settings {body : LeaveGroupBody} (hs : SettingsInv env accounts s)
    (h : LeaveOutcome ctx body plan s r t)
    (hok : SettingsSafe env s (.request ctx (.leaveV3 body) plan)) :
    SettingsInv env accounts t := by
  have howners : OwnersUnique t := by
    apply leave_owners hs.owners h
    intro hcalls next hnext
    exact (hok hcalls next hnext).1
  cases h with
  | refused h =>
      rw [h.store]
      exact hs
  | left h =>
      apply hs.setUsers howners h.store
      intro uid huid
      by_cases hself : uid = ctx.uid
      · rw [roster, hself, AList.lookup_erase] at huid
        cases huid
      · rw [roster, AList.lookup_erase_ne hself] at huid
        exact hs.signed body.gid uid huid
  | handedOver next h _ _ calls store =>
      apply hs.setUsers howners store
      intro uid huid
      by_cases hself : uid = ctx.uid
      · rw [roster, hself, AList.lookup_erase] at huid
        cases huid
      rw [roster, AList.lookup_erase_ne hself] at huid
      -- the owner now is the next owner
      by_cases hnext : uid = body.nextOwner
      · rw [hnext]
        exact (hok calls next h).2
      · rw [AList.lookup_insert_ne hnext] at huid
        exact absurd ((hs.owners body.gid).unique huid h.owner) hself
  | twoOwners next h _ _ calls fault _ =>
      rw [(hok calls next h).1] at fault
      cases fault

/-- An update without settings and signatures leaves the settings as they are. -/
theorem verifies_update {group : GroupRecord} {upData : GroupUpdate} {key : Bytes}
    (hqr : upData.shareQrCodeSetting = none) (hconfirm : upData.ownerConfirm = none)
    (hshare : upData.shareSignature = none)
    (hboth : upData.shareAndOwnerConfirmSignature = none) :
    (group.update upData).verifies env key = group.verifies env key := by
  unfold GroupRecord.verifies GroupRecord.update
  rw [hqr, hconfirm, hshare, hboth]
  rfl

theorem nonEmpty_of_isEmpty {text : Bytes} (h : text.isEmpty) : nonEmpty text = none :=
  if_pos h

/-- The update writes the settings that the body names. -/
def GroupUpdate.SettingsOf (upData : GroupUpdate) (body : UpdateGroupInfoBodyV2) : Prop :=
  upData.shareQrCodeSetting = body.upData.shareQrCodeSetting ∧
    upData.ownerConfirm = body.upData.ownerConfirm ∧
    upData.shareSignature = body.upData.shareSignature ∧
    upData.shareAndOwnerConfirmSignature = body.upData.shareAndOwnerConfirmSignature

/-- The settings that an update writes verify under the key of the caller. -/
theorem updated_verifies {body : UpdateGroupInfoBodyV2} {upData : GroupUpdate}
    {group : GroupRecord} (hdata : upData.SettingsOf body) (hgroup : s.groups body.gid = some group)
    (hchecked : body.qrCodeSetting.isEmpty ∧ body.ownerConfirm = -1 ∨
      (group.update upData).verifies env ctx.account.publicKey = true)
    (howner : s.role body.gid ctx.uid = some .owner)
    (hsigned : group.verifies env ctx.account.publicKey = true)
    (hok : UpdateSafe env ctx s body upData) :
    (group.update upData).verifies env ctx.account.publicKey = true := by
  -- verified by the handler, unless the setting and the confirmation stay
  rcases hchecked with ⟨hqr, hconfirm⟩ | hchecked
  · rcases hok howner hqr hconfirm with ⟨hshare, hboth⟩ | hverifies
    · rw [verifies_update]
      · exact hsigned
      · exact hdata.1.trans (nonEmpty_of_isEmpty hqr)
      · exact hdata.2.1.trans (if_neg (not_not.mpr hconfirm))
      · exact hdata.2.2.1.trans (nonEmpty_of_isEmpty hshare)
      · exact hdata.2.2.2.trans (nonEmpty_of_isEmpty hboth)
    · exact hverifies group hgroup
  · exact hchecked

theorem update_settings {body : UpdateGroupInfoBodyV2} {upData : GroupUpdate}
    (hs : SettingsInv env accounts s) (hauth : accounts ctx.uid = some ctx.account)
    (hdata : upData.SettingsOf body) (h : t = s ∨ Updated env ctx body upData s t)
    (hok : UpdateSafe env ctx s body upData) :
    SettingsInv env accounts t := by
  rcases h with h | h
  · rw [h]
    exact hs
  obtain ⟨group, hgroup, hchecked, pending, hstore⟩ := h.store
  have haccounts : t.accounts = s.accounts := by
    rw [hstore]
    rfl
  have hgroups : t.groups =
      Function.update s.groups body.gid (some (group.update upData)) := by
    rw [hstore]
    rfl
  refine ⟨haccounts.trans hs.accounts, hs.owners.same h.users, ?_⟩
  intro gid uid hrole
  rw [role_eq_of_users (congrFun h.users gid)] at hrole
  by_cases hgid : gid = body.gid
  · subst hgid
    -- the caller is the owner
    have huid : uid = ctx.uid := (hs.owners body.gid).unique hrole h.owner
    have haccount : s.accounts ctx.uid = some ctx.account := by
      rw [hs.accounts]
      exact hauth
    have hsigned := hs.signed body.gid ctx.uid h.owner group ctx.account hgroup haccount
    intro group' account hgroup' haccount'
    rw [hgroups, Function.update_self] at hgroup'
    rw [haccounts, huid, haccount] at haccount'
    cases hgroup'
    cases haccount'
    exact updated_verifies hdata hgroup hchecked h.owner hsigned hok
  · apply (hs.signed gid uid hrole).congr _ haccounts
    rw [hgroups, Function.update_of_ne hgid]

end Requests

theorem step_settings {env : Env} {accounts : Bytes → Option Account} {s : Store}
    {event : RequestEvent} (hs : SettingsInv env accounts s)
    (hkind : event.changesSettings = true) (hauth : event.Authentic accounts)
    (hok : SettingsSafe env s event) : SettingsInv env accounts (event.apply env s) := by
  cases event with
  | tick seconds => exact ⟨hs.accounts, hs.owners.same rfl, hs.signed⟩
  | request ctx req plan =>
      cases req with
      | createV3 body =>
          exact create_settings hs hauth (Dao.run_of_wp (create_outcome env ctx body plan s))
      | leaveV3 body =>
          exact leave_settings hs (Dao.run_of_wp (leave_outcome env ctx body plan s)) hok
      | updateV2 body =>
          have hdata : body.upData.SettingsOf body := ⟨rfl, rfl, rfl, rfl⟩
          exact update_settings hs hauth hdata (Dao.run_of_wp (update_outcome env ctx body
            (body.check env) body.upData plan s)).2 hok
      | updateV3 body =>
          have hdata : body.upData.SettingsOf body.toUpdateGroupInfoBodyV2 :=
            ⟨rfl, rfl, rfl, rfl⟩
          exact update_settings hs hauth hdata (Dao.run_of_wp (update_outcome env ctx
            body.toUpdateGroupInfoBodyV2 (body.check env) body.upData plan s)).2 hok
      | kickV3 | inviteV3 | joinV3 | addMeV3 | reviewV3 | join | review | uploadPassword
      | inviteV2 => exact Bool.noConfusion hkind

/-! ## Runs -/

/-- In every run of create, update and leave whose steps all meet the condition,
the settings verify under the key of the owner. -/
theorem settings_signed_run (env : Env) (s t : Store) (events : List RequestEvent)
    (howners : OwnersUnique s) (hs : SettingsSigned env s)
    (hkind : ∀ e ∈ events, e.changesSettings = true)
    (hauth : ∀ e ∈ events, e.Authentic s.accounts)
    (hok : (groupMachine env).Meets (SettingsSafe env) s events)
    (hrun : (groupMachine env).run s events = some t) : SettingsSigned env t := by
  have hinv : SettingsInv env s.accounts t := by
    refine (groupMachine env).run_invariant (SettingsInv env s.accounts) ?_ ⟨rfl, howners, hs⟩
      ((groupMachine env).meets_and ((groupMachine env).meets_of_mem
        (fun e he => And.intro (hkind e he) (hauth e he)) s) hok) hrun
    rintro s event t hs ⟨⟨hkind, hauth⟩, hok⟩ hstep
    cases hstep
    exact step_settings hs hkind hauth hok
  exact hinv.signed

theorem settingsSigned_emptyStore (env : Env) (accounts : Bytes → Option Account) :
    SettingsSigned env (emptyStore accounts) := by
  intro gid uid hrole
  cases hrole

/-- `[1]` creates group 7 and sends an update. -/
def updateRun (body : UpdateGroupInfoBodyV3) : List RequestEvent :=
  [createSeven 0, .request (plainContext [1]) (.updateV3 body) .clean]

theorem settings_signed_run_turnOn :
    SettingsSigned plainEnv (plainStore (updateRun turnOn)) ∧
      (plainStore (updateRun turnOn)).role 7 [1] = some .owner := by
  constructor
  · apply settings_signed_run plainEnv (plainStore []) _ (updateRun turnOn)
      (ownersUnique_emptyStore _) (settingsSigned_emptyStore _ _)
    · decide
    · intro e he
      rw [updateRun, List.mem_cons, List.mem_singleton] at he
      rcases he with rfl | rfl <;> exact rfl
    · refine ⟨trivial, ?_, trivial⟩
      intro _ _ hconfirm
      exact absurd hconfirm (by decide)
    · rfl
  · decide

/-- An update of group 7 that names a signature alone -/
def signatureOnly : UpdateGroupInfoBodyV3 where
  gid := 7
  shareSignature := [9]

/-- A signature alone is stored unseen. -/
theorem settings_unsigned :
    ¬ ∀ (env : Env) (accounts : Bytes → Option Account) (t : Store) (events : List RequestEvent),
      (∀ e ∈ events, e.changesSettings = true) → (∀ e ∈ events, e.Authentic accounts) →
      (groupMachine env).run (emptyStore accounts) events = some t → SettingsSigned env t := by
  intro hclaim
  have hsigned := hclaim plainEnv (fun uid => some (plainAccount uid))
    (plainStore (updateRun signatureOnly)) (updateRun signatureOnly) (by decide) ?_ rfl
  · have hverifies := hsigned 7 [1] (by decide)
      { (createBody 0).group with shareSignature := [9] } (plainAccount [1]) (by decide) (by decide)
    exact absurd hverifies (by decide)
  · intro e he
    rw [updateRun, List.mem_cons, List.mem_singleton] at he
    rcases he with rfl | rfl <;> exact rfl

-- The signatures of the owner who hands over stay.
example :
    let t := plainStore [createSeven 0, .request (plainContext [1]) (.leaveV3 ⟨7, [2]⟩) .clean]
    t.owner 7 = some [2] ∧
      (t.groups 7).any (fun group => group.verifies plainEnv (plainAccount [2]).publicKey) =
        false := by decide

end BcmServer.Group
