import BcmServer.Lts.Pool
import BcmServer.Store.AccountsDao

/-!
# BcmServer.Controllers.DeviceController — the numbers of slave devices

A device that logs in is authorized by the master device: it gets the number that comes
after the count of slave devices there have been, and all other slave devices are
deleted. Like every request, an authorization edits a copy of the account, which was
read when the request was authenticated, and writes the changes later.

`deviceIds_unique`: a number is not given to devices with different keys while the
first of them is there, in every run in which no authorization is written over a device
with its number. Two authorizations that are computed from the same account give the
same number to two devices (`same_number_twice`).

The login request that an authorization refers to is one of the parameters of the
request; the messages that tell the devices what happened are left out. A device counts
as authorized when the account is written, whether it still waits for the answer or not.
-/

namespace BcmServer.Controllers

open Util Lts Store

/-! ## Requests -/

/-- `DeviceLoginReqInfo`, the fields that are used -/
structure DeviceLoginReqInfo where
  publickey : Bytes
  devicename : Bytes := []
deriving DecidableEq, Repr

/-- `DeviceAuthInfo`, the fields that are checked -/
structure DeviceAuthInfo where
  deviceid : UInt32
  accountsignature : Bytes
deriving DecidableEq, Repr

/-- `DeviceManageAction` -/
structure DeviceManageAction where
  action : Int32
  deviceId : UInt32
  timestamp : Int64
  nounce : Int64
  signature : Bytes
deriving DecidableEq, Repr

/-- The bytes that the master device signs to authorize a device -/
def DeviceAuthInfo.signedContent (authInfo : DeviceAuthInfo) (reqInfo : DeviceLoginReqInfo) :
    Bytes :=
  reqInfo.publickey ++ decimal authInfo.deviceid.toNat

/-- The bytes that are signed to delete a device -/
def DeviceManageAction.signedContent (action : DeviceManageAction) : Bytes :=
  intDecimal action.action.toInt ++ decimal action.deviceId.toNat ++
    intDecimal action.timestamp.toInt ++ intDecimal action.nounce.toInt

/-- The controller for the requests of one account: the number of the master device,
`AccountHelper::verifySignature`, the public key of the account, and the store -/
structure DeviceController where
  masterId : UInt32
  verifySignature : Bytes → Bytes → Bytes → Bool
  publickey : Bytes
  update : UpdateAccount

/-- A request that authorizes a device or deletes devices -/
inductive DeviceRequest where
  | authorizeDevice (reqInfo : DeviceLoginReqInfo) (authInfo : DeviceAuthInfo)
  | manageDevice (action : DeviceManageAction)
  | logout (deviceId : UInt32)
  | unregisterApn (deviceId : UInt32)
  | unregisterGcm (deviceId : UInt32)
deriving DecidableEq, Repr

/-- A request that is about to write -/
structure DeviceWrite where
  /-- the account as it was read -/
  copy : Account
  edited : ModifyAccount
  /-- the number and the key that are given -/
  given : Option (UInt32 × Bytes) := none

namespace DeviceController

open ModifyAccount

variable (ctl : DeviceController)

/-- What is set when a device is authorized -/
def authorizedFields (slavedevicenum : UInt32) (reqInfo : DeviceLoginReqInfo)
    (authInfo : DeviceAuthInfo) : List Op :=
  [Op.setPublicKey authInfo.deviceid reqInfo.publickey,
    Op.setAccountSignature authInfo.deviceid authInfo.accountsignature,
    Op.setDeviceState authInfo.deviceid .confirmed,
    Op.setDeviceName authInfo.deviceid reqInfo.devicename,
    Op.setSlaveDeviceNum (slavedevicenum + 1)]

/-- `DeviceController::authorizeDevice` up to the write; without a value where it refuses -/
def authorizeDevice (account : Account) (reqInfo : DeviceLoginReqInfo) (authInfo : DeviceAuthInfo) :
    Option DeviceWrite :=
  let slavedevicenum : UInt32 := account.values .slaveDeviceNum
  if authInfo.deviceid ≠ slavedevicenum + 2 then none
  else if !ctl.verifySignature ctl.publickey (authInfo.signedContent reqInfo)
      authInfo.accountsignature then none
  else
    let ops := .delSlaveDevices :: .createMutableDevice authInfo.deviceid ::
      authorizedFields slavedevicenum reqInfo authInfo
    some
      { copy := account
        edited := after ctl.masterId account ops
        given := some (authInfo.deviceid, reqInfo.publickey) }

/-- `DeviceController::manageDevice` up to the write -/
def manageDevice (account : Account) (action : DeviceManageAction) : Option DeviceWrite :=
  if action.action ≠ 1 then none
  else if action.deviceId = ctl.masterId then none
  else if (account.getDevice action.deviceId).isNone then none
  else if !ctl.verifySignature ctl.publickey action.signedContent action.signature then none
  else
    some
      { copy := account
        edited := after ctl.masterId account [.delDevice action.deviceId] }

/-- `DeviceController::logout` up to the write -/
def logout (account : Account) (deviceId : UInt32) : Option DeviceWrite :=
  if deviceId = ctl.masterId then none
  else
    some
      { copy := account
        edited := after ctl.masterId account [.delDevice deviceId] }

/-- `AccountsController::unregisterApn` and `unregisterGcm` up to the write: some fields of the
device are set, and the slave devices are deleted. -/
def unregister (account : Account) (setters : List Op) : DeviceWrite :=
  { copy := account
    edited := after ctl.masterId account (setters ++ [.delSlaveDevices]) }

def unregisterApn (account : Account) (deviceId : UInt32) : DeviceWrite :=
  ctl.unregister account
    [Op.setApnid deviceId [], Op.setVoipapnid deviceId [], Op.setApntype deviceId [],
      Op.setFetchesmessages deviceId false, Op.setDeviceState deviceId .logout]

def unregisterGcm (account : Account) (deviceId : UInt32) : DeviceWrite :=
  ctl.unregister account
    [Op.setGcmid deviceId [], Op.setUmengid deviceId [], Op.setFetchesmessages deviceId false,
      Op.setDeviceState deviceId .logout]

/-- A request is handled up to its write, with the account as it is read. -/
def handle (account : Account) : DeviceRequest → Option DeviceWrite
  | .authorizeDevice reqInfo authInfo => ctl.authorizeDevice account reqInfo authInfo
  | .manageDevice action => ctl.manageDevice account action
  | .logout deviceId => ctl.logout account deviceId
  | .unregisterApn deviceId => some (ctl.unregisterApn account deviceId)
  | .unregisterGcm deviceId => some (ctl.unregisterGcm account deviceId)

end DeviceController

/-! ## Runs -/

/-- What happened to a device: it got its number with a key, or it was deleted. -/
inductive DeviceEvent where
  | authorized (id : UInt32) (publickey : Bytes)
  | deleted (id : UInt32)
deriving DecidableEq, Repr

/-- The stored account and what happened to devices, the last event at the end -/
structure DeviceState where
  stored : Account
  events : List DeviceEvent := []

namespace DeviceWrite

/-- The devices that the write deletes -/
def deletions (w : DeviceWrite) (stored : Account) : List DeviceEvent :=
  (w.edited.field.devices.filter fun d => d.iserase && (stored.getDevice d.id).isSome).map
    fun d => .deleted d.id

/-- The write, as it ends -/
def write (update : UpdateAccount) (s : DeviceState) (w : DeviceWrite) (result : WriteResult) :
    DeviceState :=
  let (success, stored) := w.edited.updateAccount update s.stored result
  let deleted := if result = .failed then [] else w.deletions s.stored
  let authorized :=
    if success then w.given.toList.map fun p => DeviceEvent.authorized p.1 p.2 else []
  { stored := stored
    events := s.events ++ deleted ++ authorized }

end DeviceWrite

namespace DeviceController

/-- Requests are read and handled at once; their writes come later, in any order. -/
def system (ctl : DeviceController) :
    CallSystem DeviceState DeviceWrite WriteResult DeviceRequest where
  next s w result := some (w.write ctl.update s result, [])
  env p req := some (p.shared, (ctl.handle p.shared.stored req).toList)

/-- The requests of an account that is stored as `account` -/
def start (account : Account) : Pool DeviceState DeviceWrite :=
  { shared := { stored := account }
    calls := [] }

/-- A number is written where no device has it: not in the account as it was read, and not in
the account as it is stored. -/
def Free (p : Pool DeviceState DeviceWrite) (w : DeviceWrite) (_ : WriteResult) : Prop :=
  ∀ given ∈ w.given, w.copy.getDevice given.1 = none ∧ p.shared.stored.getDevice given.1 = none

instance (p : Pool DeviceState DeviceWrite) (w : DeviceWrite) (result : WriteResult) :
    Decidable (Free p w result) :=
  inferInstanceAs (Decidable (∀ given ∈ w.given, _))

/-- No device with a key gets the number that a device with another key has and keeps. -/
def UniqueIds (events : List DeviceEvent) : Prop :=
  ∀ before between rest id key key',
    events = before ++ .authorized id key :: (between ++ .authorized id key' :: rest) →
      key ≠ key' → .deleted id ∈ between

/-! ## Numbers that are kept -/

/-- The number was given, and the device has not been deleted since. -/
def Kept (events : List DeviceEvent) (id : UInt32) : Prop :=
  ∃ before between key, events = before ++ .authorized id key :: between ∧ .deleted id ∉ between

theorem kept_concat {events : List DeviceEvent} {e : DeviceEvent} {id : UInt32}
    (h : Kept (events ++ [e]) id) :
    (∃ key, e = .authorized id key) ∨ (Kept events id ∧ e ≠ .deleted id) := by
  obtain ⟨before, between, key, heq, hno⟩ := h
  obtain rfl | ⟨between, last, rfl⟩ := List.eq_nil_or_concat' between
  · obtain ⟨-, hlast⟩ := List.append_inj' heq rfl
    exact Or.inl ⟨key, List.singleton_injective hlast⟩
  · rw [← List.cons_append, ← List.append_assoc] at heq
    obtain ⟨rfl, hlast⟩ := List.append_inj' heq rfl
    rw [List.mem_append, not_or, List.mem_singleton] at hno
    right
    refine ⟨⟨before, between, key, rfl, hno.1⟩, fun hdel => hno.2 ?_⟩
    rw [← List.singleton_injective hlast, hdel]

theorem uniqueIds_concat {events : List DeviceEvent} {e : DeviceEvent} (h : UniqueIds events)
    (he : ∀ id key, e = .authorized id key → ¬ Kept events id) : UniqueIds (events ++ [e]) := by
  intro before between rest id key key' heq hkey
  obtain rfl | ⟨rest, last, rfl⟩ := List.eq_nil_or_concat' rest
  · rw [← List.cons_append, ← List.append_assoc] at heq
    obtain ⟨rfl, hlast⟩ := List.append_inj' heq rfl
    by_contra hno
    exact he id key' (List.singleton_injective hlast) ⟨before, between, key, rfl, hno⟩
  · rw [← List.cons_append, ← List.append_assoc, ← List.cons_append, ← List.append_assoc] at heq
    obtain ⟨rfl, -⟩ := List.append_inj' heq rfl
    exact h before between rest id key key' (by simp) hkey

/-- Deletions give no number. -/
theorem uniqueIds_deletions {events deletions : List DeviceEvent} (h : UniqueIds events)
    (hdel : ∀ e ∈ deletions, ∃ id, e = .deleted id) :
    UniqueIds (events ++ deletions) ∧
      ∀ id, Kept (events ++ deletions) id → Kept events id ∧ .deleted id ∉ deletions := by
  induction deletions using List.reverseRecOn with
  | nil =>
      rw [List.append_nil]
      exact ⟨h, fun id hkept => ⟨hkept, by simp⟩⟩
  | append_singleton deletions e ih =>
      obtain ⟨hunique, hkept⟩ := ih fun e' he' => hdel e' (by simp [he'])
      obtain ⟨id, rfl⟩ := hdel e (by simp)
      rw [← List.append_assoc]
      refine ⟨uniqueIds_concat hunique (by simp), fun id' h' => ?_⟩
      obtain ⟨key, hkey⟩ | ⟨h', hne⟩ := kept_concat h'
      · cases hkey
      · obtain ⟨hevents, hno⟩ := hkept id' h'
        refine ⟨hevents, ?_⟩
        rw [List.mem_append, List.mem_singleton, not_or]
        exact ⟨hno, fun heq => hne heq.symm⟩

/-! ## What an authorization writes -/

/-- A number that no device of the copy has is created, and not erased. -/
def Wellformed (w : DeviceWrite) : Prop :=
  ∀ given ∈ w.given, w.copy.getDevice given.1 = none →
    (∀ d ∈ w.edited.field.devices, d.id = given.1 → d.iserase = false) ∧
      ∃ d ∈ w.edited.field.devices, d.id = given.1 ∧ d.iscreate = true

variable {ctl : DeviceController}

open ModifyAccount

theorem wellformed_authorizeDevice {account : Account} {reqInfo : DeviceLoginReqInfo}
    {authInfo : DeviceAuthInfo} {w : DeviceWrite}
    (h : ctl.authorizeDevice account reqInfo authInfo = some w) : Wellformed w := by
  simp only [authorizeDevice] at h
  split_ifs at h
  cases h
  intro given hgiven hfree
  cases hgiven
  -- the slave devices that are deleted have other numbers
  have hslaves : authInfo.deviceid ∉ slaves ctl.masterId account.devices := by
    intro hmem
    have hid := (List.mem_filter.mp hmem).1
    exact Keyed.find_eq_none_iff.mp hfree hid
  have hdeleted : ∀ d ∈
      (ModifyAccount.delSlaveDevices ctl.masterId { account := account }).field.devices,
      d.id ≠ authInfo.deviceid := by
    intro d hd heq
    obtain ⟨id, hid, rfl⟩ := List.mem_map.mp hd
    exact hslaves (heq ▸ hid)
  have hcreate : (Op.createMutableDevice authInfo.deviceid).deletes = false := rfl
  have hfields : ∀ op ∈ authorizedFields (account.values .slaveDeviceNum) reqInfo authInfo,
      op.deletes = false := by
    simp [authorizedFields, Op.deletes, Op.setPublicKey, Op.setAccountSignature, Op.setDeviceState,
      Op.setDeviceName, Op.setSlaveDeviceNum]
  have herase := iserase_exec ctl.masterId hcreate fun d hd hid => absurd hid (hdeleted d hd)
  have hcreated := created_foldl ctl.masterId hfields herase (exists_iscreate _ _)
  exact hcreated

theorem wellformed_handle {account : Account} {req : DeviceRequest} {w : DeviceWrite}
    (h : ctl.handle account req = some w) : Wellformed w := by
  have hnone : w.given = none → Wellformed w := by
    intro hgiven given hmem
    rw [hgiven] at hmem
    cases hmem
  cases req with
  | authorizeDevice reqInfo authInfo => exact wellformed_authorizeDevice h
  | manageDevice action =>
      simp only [handle, manageDevice] at h
      split_ifs at h
      cases h
      exact hnone rfl
  | logout deviceId =>
      simp only [handle, logout] at h
      split_ifs at h
      cases h
      exact hnone rfl
  | unregisterApn deviceId =>
      cases h
      exact hnone rfl
  | unregisterGcm deviceId =>
      cases h
      exact hnone rfl

/-! ## Runs -/

/-- What holds in every state: a number that is kept belongs to a device that is stored. -/
structure Inv (p : Pool DeviceState DeviceWrite) : Prop where
  unique : UniqueIds p.shared.events
  kept : ∀ id, Kept p.shared.events id → (p.shared.stored.getDevice id).isSome
  wellformed : ∀ w ∈ p.calls, Wellformed w

/-- A device that is kept is not erased by a write. -/
theorem kept_stays (hlawful : ctl.update.Lawful) {s : DeviceState} {w : DeviceWrite} {id : UInt32}
    (hthere : (s.stored.getDevice id).isSome) (hno : .deleted id ∉ w.deletions s.stored) :
    ((ctl.update w.edited.field w.edited.account s.stored).getDevice id).isSome := by
  refine hlawful.kept _ _ _ id (fun d hd hdid => ?_) hthere
  by_contra herase
  rw [Bool.not_eq_false] at herase
  apply hno
  subst hdid
  exact List.mem_map.mpr ⟨d, List.mem_filter.mpr ⟨hd, by simp [herase, hthere]⟩, rfl⟩

theorem deletions_of_not_modified {w : DeviceWrite} (h : w.edited.isModified = false)
    (stored : Account) : w.deletions stored = [] := by
  simp only [isModified, Bool.or_eq_false_iff, Bool.not_eq_false', List.isEmpty_iff] at h
  simp [DeviceWrite.deletions, h.2]

/-- A write whose number is free keeps the invariant. -/
theorem inv_write (hlawful : ctl.update.Lawful) {s : DeviceState} {w : DeviceWrite}
    (result : WriteResult) (hunique : UniqueIds s.events)
    (hkept : ∀ id, Kept s.events id → (s.stored.getDevice id).isSome) (hw : Wellformed w)
    (hfree : ∀ given ∈ w.given, w.copy.getDevice given.1 = none ∧
      s.stored.getDevice given.1 = none) :
    UniqueIds (w.write ctl.update s result).events ∧
      ∀ id, Kept (w.write ctl.update s result).events id →
        ((w.write ctl.update s result).stored.getDevice id).isSome := by
  have hdeletions : ∀ e ∈ w.deletions s.stored, ∃ id, e = .deleted id := by
    intro e he
    obtain ⟨d, -, rfl⟩ := List.mem_map.mp he
    exact ⟨d.id, rfl⟩
  obtain ⟨hunique', hkept'⟩ := uniqueIds_deletions hunique hdeletions
  have hstays : ∀ id, Kept (s.events ++ w.deletions s.stored) id →
      ((ctl.update w.edited.field w.edited.account s.stored).getDevice id).isSome := by
    intro id hid
    obtain ⟨hbefore, hno⟩ := hkept' id hid
    exact kept_stays hlawful (hkept id hbefore) hno
  have hunmodified : w.edited.isModified = false → w.deletions s.stored = [] :=
    fun h => deletions_of_not_modified h s.stored
  cases result with
  | failed =>
      simp only [DeviceWrite.write, updateAccount, if_true, List.append_nil, Bool.false_eq_true,
        if_false]
      exact ⟨hunique, hkept⟩
  | lost =>
      by_cases hm : w.edited.isModified = true
      · simpa [DeviceWrite.write, updateAccount, hm] using ⟨hunique', hstays⟩
      · rw [Bool.not_eq_true] at hm
        simpa [DeviceWrite.write, updateAccount, hm, hunmodified hm] using ⟨hunique, hkept⟩
  | done =>
      by_cases hm : w.edited.isModified = true
      · cases hgiven : w.given with
        | none => simpa [DeviceWrite.write, updateAccount, hm, hgiven] using ⟨hunique', hstays⟩
        | some given =>
            obtain ⟨hcopy, hstored⟩ := hfree given hgiven
            obtain ⟨herase, hcreate⟩ := hw given hgiven hcopy
            simp only [DeviceWrite.write, updateAccount, hm, hgiven, if_true, reduceCtorEq,
              if_false, Option.toList_some, List.map_singleton]
            constructor
            · -- the number is free, and so no device is kept with it
              refine uniqueIds_concat hunique' ?_
              rintro id key heq hid
              cases heq
              have hthere := hkept _ (hkept' _ hid).1
              rw [hstored] at hthere
              cases hthere
            · intro id hid
              obtain ⟨key, heq⟩ | ⟨hid, -⟩ := kept_concat hid
              · cases heq
                exact hlawful.created _ _ _ _ herase hcreate
              · exact hstays id hid
      · rw [Bool.not_eq_true] at hm
        simpa [DeviceWrite.write, updateAccount, hm, hunmodified hm] using ⟨hunique, hkept⟩

/-- In every run in which numbers are given where they are free, no number is given to devices
with different keys while the first of them is there. -/
theorem deviceIds_unique (ctl : DeviceController) (hlawful : ctl.update.Lawful)
    (account : Account) {schedule : List (Sched WriteResult DeviceRequest)}
    {p : Pool DeviceState DeviceWrite}
    (hrun : ctl.system.machine.run (start account) schedule = some p)
    (hfree : ctl.system.machine.Meets (CallSystem.allow Free fun _ _ => True) (start account)
      schedule) : UniqueIds p.shared.events := by
  suffices h : Inv p from h.unique
  refine ctl.system.run_invariant Inv ?_ ?_ ?_ hfree hrun
  · -- a write
    intro p q w rest result s ks hp hperm hcond hnext hshared hcalls
    cases hnext
    have hw : w ∈ p.calls := hperm.mem_iff.mpr List.mem_cons_self
    obtain ⟨hunique, hkept⟩ := inv_write hlawful result hp.unique hp.kept
      (hp.wellformed w hw) hcond
    refine ⟨by rw [hshared]; exact hunique, by rw [hshared]; exact hkept, fun w' hw' => ?_⟩
    have hmem : w' ∈ rest := by simpa using hcalls.mem_iff.mp hw'
    exact hp.wellformed w' (hperm.mem_iff.mpr (List.mem_cons_of_mem w hmem))
  · -- a request, whose write is still to come
    intro p req s ks hp _ henv
    cases henv
    refine ⟨hp.unique, hp.kept, fun w hw => ?_⟩
    obtain hw | hw := List.mem_append.mp hw
    · exact hp.wellformed w hw
    · exact wellformed_handle (Option.mem_toList.mp hw)
  · refine ⟨?_, ?_, by simp [start]⟩
    · intro before between rest id key key' heq
      simp [start] at heq
    · rintro id ⟨before, between, key, heq, -⟩
      simp [start] at heq

/-- A signature is the bytes that are signed, and the store copies what is named. -/
private def copying : DeviceController where
  masterId := 1
  verifySignature _ content signature := content == signature
  publickey := []
  update := AccountField.apply

/-- The device with the key is authorized as device 2. -/
private def authorizeSecond (publickey : Bytes) : DeviceRequest :=
  let reqInfo : DeviceLoginReqInfo := { publickey := publickey }
  .authorizeDevice reqInfo ⟨2, publickey ++ decimal 2⟩

/-- The first device logs out before the second one, which has its number, is written. -/
private def logoutBetween : List (Sched WriteResult DeviceRequest) :=
  [.env (authorizeSecond [1]), .env (authorizeSecond [2]), .call 0 .done,
    .env (.logout 2), .call 1 .done, .call 0 .done]

theorem deviceIds_unique_logout : ∃ p,
    copying.system.machine.run (start {}) logoutBetween = some p ∧
      p.shared.events = [.authorized 2 [1], .deleted 2, .authorized 2 [2]] ∧
      UniqueIds p.shared.events := by
  have hevents : ((copying.system.machine.run (start {}) logoutBetween).map fun p =>
      p.shared.events) = some [.authorized 2 [1], .deleted 2, .authorized 2 [2]] := by
    decide +kernel
  obtain ⟨p, hp, heq⟩ := Option.map_eq_some_iff.mp hevents
  have hfree : copying.system.machine.Meets (CallSystem.allow Free fun _ _ => True) (start {})
      logoutBetween := by decide +kernel
  exact ⟨p, hp, heq, deviceIds_unique copying AccountField.lawful_apply {} hp hfree⟩

/-- Two devices are authorized from copies of the account that were read before either was
written: both get number 2. -/
theorem same_number_twice :
    ¬ ∀ (ctl : DeviceController) (_ : ctl.update.Lawful) (account : Account)
      (schedule : List (Sched WriteResult DeviceRequest)) (p : Pool DeviceState DeviceWrite),
      ctl.system.machine.run (start account) schedule = some p → UniqueIds p.shared.events := by
  intro h
  let schedule : List (Sched WriteResult DeviceRequest) :=
    [.env (authorizeSecond [1]), .env (authorizeSecond [2]), .call 0 .done, .call 0 .done]
  have hevents : ((copying.system.machine.run (start {}) schedule).map fun p => p.shared.events) =
      some [.authorized 2 [1], .authorized 2 [2]] := by decide +kernel
  obtain ⟨p, hp, heq⟩ := Option.map_eq_some_iff.mp hevents
  have hunique := h copying AccountField.lawful_apply {} schedule p hp
  rw [heq] at hunique
  have hdeleted := hunique [] [] [] 2 [1] [2] rfl (by decide)
  cases hdeleted

end DeviceController

end BcmServer.Controllers
