import BcmServer.Group.KeyMode
import BcmServer.Group.OnlineMembers
import BcmServer.Lts.Program
import BcmServer.Util.Table

/-!
# BcmServer.Group.Store — the tables of the group manager and their DAOs

The group manager keeps groups, their users, the users who wait for the owner's
review, the users who came by a QR code, and the mode of the latest group keys.
The handlers reach the tables through the DAO classes only: `Read` and `Write`
are the calls they make, `Read.eval` and `Write.apply` what the calls mean. A
call may also fail, with any code but that of missing data; it has no effect
then.

A handler is a `Program` of such calls. `wp_read` and `wp_write` are the rules by
which the handlers are taken apart.
-/

namespace BcmServer.Group

open BcmServer.Util BcmServer.Lts

/-! ## The tables -/

/-- `GroupUser::Status` -/
inductive GroupUserStatus where
  | default
  | muted
deriving DecidableEq, Repr

/-- `GroupUser`, the row of a user in a group, without its `gid` and `uid`, which
are the key of the table -/
structure GroupUser where
  nick : Bytes
  role : Role
  lastAckMid : UInt64
  status : GroupUserStatus := .default
  createTime : ℤ
  updateTime : ℤ
  encryptedKey : Bytes := []
  groupInfoSecret : Bytes := []
  proof : Bytes := []
  nickname : Bytes := []
  profileKeys : Bytes := []
deriving DecidableEq, Repr

/-- The row counts in `GroupCounter::memberCnt`. -/
def GroupUser.counts (u : GroupUser) : Bool := u.role.counts

/-- The row of a new member. -/
def GroupUser.newMember (uid : Bytes) (lastMid : UInt64) (now : ℤ) : GroupUser :=
  { nick := uid, role := .member, lastAckMid := lastMid, createTime := now, updateTime := now }

/-- `Group::EncryptStatus` -/
inductive EncryptStatus where
  | off
  | on
deriving DecidableEq, Repr

/-- `Group`, the fields the handlers read -/
structure GroupRecord where
  version : Int32
  encryptStatus : EncryptStatus
  lastMid : UInt64 := 0
  shareQrCodeSetting : Bytes
  shareSignature : Bytes
  ownerConfirm : Int32
  shareAndOwnerConfirmSignature : Bytes
  encryptedGroupInfoSecret : Bytes := []
deriving DecidableEq, Repr

/-- What `Groups::update` sets of these fields. -/
structure GroupUpdate where
  shareQrCodeSetting : Option Bytes
  ownerConfirm : Option Int32
  shareSignature : Option Bytes
  shareAndOwnerConfirmSignature : Option Bytes
  encryptedGroupInfoSecret : Option Bytes

def GroupRecord.update (g : GroupRecord) (d : GroupUpdate) : GroupRecord :=
  { g with
    shareQrCodeSetting := d.shareQrCodeSetting.getD g.shareQrCodeSetting
    ownerConfirm := d.ownerConfirm.getD g.ownerConfirm
    shareSignature := d.shareSignature.getD g.shareSignature
    shareAndOwnerConfirmSignature :=
      d.shareAndOwnerConfirmSignature.getD g.shareAndOwnerConfirmSignature
    encryptedGroupInfoSecret := d.encryptedGroupInfoSecret.getD g.encryptedGroupInfoSecret }

/-- `PendingGroupUser` -/
structure PendingGroupUser where
  uid : Bytes
  inviter : Bytes
  signature : Bytes
  comment : Bytes
deriving DecidableEq, Repr

/-- `ContactsFilters` -/
structure ContactsFilters where
  algo : Int32
  content : Bytes
deriving DecidableEq, Repr

/-- `Account`, the fields the handlers read -/
structure Account where
  uid : Bytes
  publicKey : Bytes
  contactsFilters : Option ContactsFilters := none
deriving DecidableEq, Repr

/-- The tables. A QR-code user is kept with the second at which it expires. -/
structure Store where
  groups : Gid → Option GroupRecord
  users : Gid → Table Bytes GroupUser
  pending : Gid → Bytes → Option PendingGroupUser
  qrCodeUsers : Gid → Bytes → Option ℕ
  keysMode : Gid → Option GroupKeysMode
  accounts : Bytes → Option Account
  clock : ℕ

namespace Store

variable (s : Store) (gid : Gid)

/-- The row of a user. -/
def row (uid : Bytes) : Option GroupUser := (s.users gid).lookup uid

def role (uid : Bytes) : Option Role := (s.row gid uid).map GroupUser.role

/-- The user has a row that counts. -/
def isMember (uid : Bytes) : Bool := (s.row gid uid).any GroupUser.counts

/-- The number of rows that count. -/
def memberCnt : ℕ := (s.users gid).count GroupUser.counts

/-- The first row of an owner. -/
def owner : Option Bytes :=
  ((s.users gid).entries.find? fun e => e.2.role = .owner).map fun e => e.1

/-- No group has the number, and no rows are left under it. -/
def unused : Bool := (s.groups gid).isNone && (s.users gid).entries.isEmpty

/-- The record of a QR-code user is there and has not expired. -/
def hasQrCodeUser (uid : Bytes) : Bool := (s.qrCodeUsers gid uid).any (s.clock < ·)

/-- The table of the group's users is replaced. -/
def setUsers (rows : Table Bytes GroupUser) : Store :=
  { s with users := Function.update s.users gid rows }

def setGroup (group : Option GroupRecord) : Store :=
  { s with groups := Function.update s.groups gid group }

def setQrCodeUsers (users : Bytes → Option ℕ) : Store :=
  { s with qrCodeUsers := Function.update s.qrCodeUsers gid users }

def setPending (users : Bytes → Option PendingGroupUser) : Store :=
  { s with pending := Function.update s.pending gid users }

end Store

/-! ## The calls -/

/-- `dao::ErrorCode`, the codes that are not `ERRORCODE_SUCCESS` -/
inductive DaoError where
  | noSuchData
  | alreadyExisted
  | other (code : ℕ)
deriving DecidableEq, Repr

/-- The calls that read. -/
inductive Read where
  | groupsGet (gid : Gid)
  | getMemberRole (gid : Gid) (uid : Bytes)
  | getMemberRoles (gid : Gid) (uids : List Bytes)
  | getMember (gid : Gid) (uid : Bytes)
  | getMemberBatch (gid : Gid) (uids : List Bytes)
  | getGroupOwner (gid : Gid)
  | queryGroupMemberInfoByGid (gid : Gid)
  | queryGroupMemberInfoWithRoles (gid : Gid) (querier nextOwner : Bytes)
  | qrCodeGroupUsersGet (gid : Gid) (uid : Bytes)
  | getLatestMode (gid : Gid)
  | accountsGet (uid : Bytes)
  | getKeysByGid (gid : Gid)

/-- What a read gives. `getMemberRoles` fills in a map, which has `ROLE_UNDEFINE`
for the users without a row. The keys of `getKeysByGid` go into a cache that no
modelled function reads. -/
@[reducible] def Read.Res : Read → Type
  | groupsGet _ => GroupRecord
  | getMemberRole _ _ => Role
  | getMemberRoles _ _ => Bytes → Role
  | getMember _ _ => GroupUser
  | getMemberBatch _ _ => List (Bytes × GroupUser)
  | getGroupOwner _ => Bytes
  | queryGroupMemberInfoByGid _ => UInt32
  | queryGroupMemberInfoWithRoles _ _ _ => UInt32 × Role × Role
  | qrCodeGroupUsersGet _ _ => Unit
  | getLatestMode _ => GroupKeysMode
  | accountsGet _ => Account
  | getKeysByGid _ => Unit

/-- Missing data is an error of its own. -/
def found {α : Type} : Option α → Except DaoError α
  | some a => .ok a
  | none => .error .noSuchData

/-- A number that `GroupCounter` has no room for cannot be reported. -/
def counter (n : ℕ) : Except DaoError UInt32 :=
  if n < UInt32.size then .ok (UInt32.ofNat n) else .error (.other 0)

def Read.eval (s : Store) : (r : Read) → Except DaoError r.Res
  | groupsGet gid => found (s.groups gid)
  | getMemberRole gid uid => found (s.role gid uid)
  | getMemberRoles gid uids =>
      if uids.any fun uid => (s.row gid uid).isSome then
        .ok fun uid => (s.role gid uid).getD .undefine
      else .error .noSuchData
  | getMember gid uid => found (s.row gid uid)
  | getMemberBatch gid uids =>
      if (s.users gid).entries.isEmpty then .error .noSuchData
      else .ok (uids.filterMap fun uid => (s.row gid uid).map (uid, ·))
  | getGroupOwner gid => found (s.owner gid)
  | queryGroupMemberInfoByGid gid => counter (s.memberCnt gid)
  | queryGroupMemberInfoWithRoles gid querier nextOwner =>
      (counter (s.memberCnt gid)).map fun n =>
        (n, (s.role gid querier).getD .undefine, (s.role gid nextOwner).getD .undefine)
  | qrCodeGroupUsersGet gid uid =>
      if s.hasQrCodeUser gid uid then .ok () else .error .noSuchData
  | getLatestMode gid => found (s.keysMode gid)
  | accountsGet uid => found (s.accounts uid)
  | getKeysByGid _ => .ok ()

/-- The fields `updateIfEmpty` is given. -/
structure KeysUpdate where
  encryptedKey : Option Bytes
  groupInfoSecret : Option Bytes
  updateTime : ℤ

/-- `updateIfEmpty` -/
def GroupUser.updateIfEmpty (u : GroupUser) (d : KeysUpdate) : Option GroupUser :=
  if d.encryptedKey.isSome && !u.encryptedKey.isEmpty then none
  else if d.groupInfoSecret.isSome && !u.groupInfoSecret.isEmpty then none
  else some { u with
    encryptedKey := d.encryptedKey.getD u.encryptedKey
    groupInfoSecret := d.groupInfoSecret.getD u.groupInfoSecret
    updateTime := d.updateTime }

/-- `GroupMsg::Type` of the system messages -/
inductive SystemMessage where
  | memberUpdate
  | infoUpdate
  | updateGroupKeysRequest
  | switchGroupKeys
deriving DecidableEq, Repr

/-- The calls that write. The number of a new group is the database's choice. -/
inductive Write where
  | groupsCreate (gid : Gid) (group : GroupRecord)
  | groupsUpdate (gid : Gid) (data : GroupUpdate)
  | groupsDel (gid : Gid)
  | insert (gid : Gid) (uid : Bytes) (user : GroupUser)
  | insertBatch (gid : Gid) (users : List (Bytes × GroupUser))
  | delMember (gid : Gid) (uid : Bytes)
  | delMemberBatch (gid : Gid) (uids : List Bytes)
  | updateRole (gid : Gid) (uid : Bytes) (role : Role)
  | updateIfEmpty (gid : Gid) (uid : Bytes) (data : KeysUpdate)
  | pendingSet (gid : Gid) (user : PendingGroupUser)
  | pendingDel (gid : Gid) (uids : List Bytes)
  | pendingClear (gid : Gid)
  | qrCodeGroupUsersSet (gid : Gid) (uid : Bytes) (ttl : ℕ)
  | groupKeysInsert (gid : Gid) (mode : GroupKeysMode)
  | groupKeysClear (gid : Gid)
  | groupMessageInsert (gid : Gid) (uid : Bytes) (type : SystemMessage)

/-- What a write does. `insert` and `insertBatch` replace the rows of the same
users; deleting what is not there is no error. The table of messages is left
out. -/
def Write.apply (s : Store) : Write → Except DaoError Store
  | groupsCreate gid group =>
      if s.unused gid then .ok (s.setGroup gid (some group)) else .error .alreadyExisted
  | groupsUpdate gid data => do
      let group ← found (s.groups gid)
      return s.setGroup gid (some (group.update data))
  | groupsDel gid => .ok (s.setGroup gid none)
  | insert gid uid user => .ok (s.setUsers gid ((s.users gid).insert uid user))
  | insertBatch gid users => .ok (s.setUsers gid ((s.users gid).insertAll users))
  | delMember gid uid => .ok (s.setUsers gid ((s.users gid).erase uid))
  | delMemberBatch gid uids => .ok (s.setUsers gid ((s.users gid).eraseAll uids))
  | updateRole gid uid role => do
      let user ← found (s.row gid uid)
      return s.setUsers gid ((s.users gid).insert uid { user with role })
  | updateIfEmpty gid uid data => do
      let user ← found (s.row gid uid)
      match user.updateIfEmpty data with
      | some user => return s.setUsers gid ((s.users gid).insert uid user)
      | none => .error .alreadyExisted
  | pendingSet gid user =>
      .ok (s.setPending gid (Function.update (s.pending gid) user.uid (some user)))
  | pendingDel gid uids =>
      .ok (s.setPending gid fun uid => if uid ∈ uids then none else s.pending gid uid)
  | pendingClear gid => .ok (s.setPending gid fun _ => none)
  | qrCodeGroupUsersSet gid uid ttl =>
      .ok (s.setQrCodeUsers gid
        (Function.update (s.qrCodeUsers gid) uid (some (s.clock + ttl))))
  | groupKeysInsert gid mode =>
      .ok { s with keysMode := Function.update s.keysMode gid (some mode) }
  | groupKeysClear gid => .ok { s with keysMode := Function.update s.keysMode gid none }
  | groupMessageInsert _ _ _ => .ok s

/-- A call of a DAO. -/
inductive DaoCall where
  | read (r : Read)
  | write (w : Write)

@[reducible] def DaoCall.Answer : DaoCall → Type
  | read r => Except DaoError r.Res
  | write _ => Except DaoError Unit

/-- A program of DAO calls. -/
abbrev Dao := Program DaoCall.Answer

/-- The DAOs on the tables. A fault is the code of a call that fails. -/
def daoEffects : Effects DaoCall.Answer ℕ Store where
  step
    | .read _, some code, s => (.error (.other code), s)
    | .read r, none, s => (r.eval s, s)
    | .write _, some code, s => (.error (.other code), s)
    | .write w, none, s =>
        match w.apply s with
        | .ok t => (.ok (), t)
        | .error e => (.error e, s)

namespace Dao

def read (r : Read) : Dao (Except DaoError r.Res) := Program.perform (DaoCall.read r)

def write (w : Write) : Dao (Except DaoError Unit) := Program.perform (DaoCall.write w)

/-- The value and the tables a handler ends with. -/
def run {α : Type} (p : Dao α) (plan : Plan ℕ) (s : Store) : α × Store :=
  Program.exec daoEffects p plan s

/-- What holds of the value, the rest of the plan and the tables at the end. -/
abbrev wp {α : Type} (p : Dao α) (Q : α → Plan ℕ → Store → Prop) (plan : Plan ℕ) (s : Store) :
    Prop :=
  Program.wp daoEffects p Q plan s

/-! ## Rules -/

section Rules

variable {α β : Type} {Q : α → Plan ℕ → Store → Prop} {plan : Plan ℕ} {s : Store}

theorem run_of_wp {p : Dao α} {P : α → Store → Prop} (h : p.wp (fun a _ t => P a t) plan s) :
    P (p.run plan s).1 (p.run plan s).2 :=
  Program.exec_of_wp h

/-- A read fails by a fault, or answers from the tables. -/
theorem wp_read {r : Read} {k : Except DaoError r.Res → Dao α}
    (hfault : ∀ code, plan 0 = some code → (k (.error (.other code))).wp Q plan.tail s)
    (hanswer : plan 0 = none → (k (r.eval s)).wp Q plan.tail s) :
    (read r >>= k).wp Q plan s := by
  apply Program.wp_call
  cases hplan : plan 0 with
  | none => exact hanswer hplan
  | some code => exact hfault code hplan

/-- A read whose errors are all handled alike. -/
theorem wp_read_plan {r : Read} {k : Except DaoError r.Res → Dao α}
    (herror : ∀ e, (k (.error e)).wp Q plan.tail s)
    (hok : ∀ a, plan 0 = none → r.eval s = .ok a → (k (.ok a)).wp Q plan.tail s) :
    (read r >>= k).wp Q plan s := by
  apply wp_read
  · intro code _
    exact herror _
  · intro hplan
    cases heval : r.eval s with
    | error e => exact herror e
    | ok a => exact hok a hplan heval

/-- The same, where the plan is of no interest -/
theorem wp_read' {r : Read} {k : Except DaoError r.Res → Dao α}
    (herror : ∀ e, (k (.error e)).wp Q plan.tail s)
    (hok : ∀ a, r.eval s = .ok a → (k (.ok a)).wp Q plan.tail s) :
    (read r >>= k).wp Q plan s :=
  wp_read_plan herror fun a _ heval => hok a heval

theorem step_write_ok {w : Write} {t : Store} (h : w.apply s = .ok t) :
    daoEffects.step (.write w) none s = (.ok (), t) := by
  simp only [daoEffects, h]

theorem step_write_error {w : Write} {e : DaoError} (h : w.apply s = .error e) :
    daoEffects.step (.write w) none s = (.error e, s) := by
  simp only [daoEffects, h]

/-- A write fails without an effect, or has the one it should have. -/
theorem wp_write {w : Write} {k : Except DaoError Unit → Dao α}
    (herror : ∀ e, (plan 0).isSome ∨ w.apply s = .error e → (k (.error e)).wp Q plan.tail s)
    (hok : ∀ t, plan 0 = none → w.apply s = .ok t → (k (.ok ())).wp Q plan.tail t) :
    (write w >>= k).wp Q plan s := by
  apply Program.wp_call
  cases hplan : plan 0 with
  | some code => exact herror _ (Or.inl (by rw [hplan]; rfl))
  | none =>
      cases happly : w.apply s with
      | ok t =>
          rw [step_write_ok happly]
          exact hok t hplan happly
      | error e =>
          rw [step_write_error happly]
          exact herror e (Or.inr happly)

/-- A write whose errors are told apart: a fault, or what the tables do not admit -/
theorem wp_write_fault {w : Write} {k : Except DaoError Unit → Dao α}
    (hfault : ∀ code, plan 0 = some code → (k (.error (.other code))).wp Q plan.tail s)
    (herror : ∀ e, w.apply s = .error e → (k (.error e)).wp Q plan.tail s)
    (hok : ∀ t, w.apply s = .ok t → (k (.ok ())).wp Q plan.tail t) :
    (write w >>= k).wp Q plan s := by
  apply Program.wp_call
  cases hplan : plan 0 with
  | some code => exact hfault code hplan
  | none =>
      cases happly : w.apply s with
      | ok t =>
          rw [step_write_ok happly]
          exact hok t happly
      | error e =>
          rw [step_write_error happly]
          exact herror e happly

end Rules

end Dao

end BcmServer.Group
