import BcmServer.Store.Account
import BcmServer.Lts.Run

/-!
# BcmServer.Store.ModifyAccount — an account and what was changed of it

`ModifyAccount` edits an account in memory and the `AccountField` beside it. The
setters of one kind differ in the field and its name only. The handles that
`getMutableDevice` and `getMutableContactsFilters` give are used as long as there is
what they point to: a setter of a device is an operation on the first device with the
number, and does nothing if there is none.

`faithful_iff` says when applying what was noted to the original account gives the
edited one, with at most one entry for a device and none that is erased and created.
-/

namespace BcmServer.Store

open Util Lts

/-- `ModifyAccount` -/
structure ModifyAccount where
  account : Account
  field : AccountField := {}

/-- `add_modifyfields` -/
def DeviceField.addName (name : String) (d : DeviceField) : DeviceField :=
  { d with modifyfields := d.modifyfields ++ [name] }

/-- `clear_modifyfields` and `set_iscreate(true)` -/
def DeviceField.create (d : DeviceField) : DeviceField :=
  { d with
    modifyfields := []
    iscreate := true }

/-- An entry does not erase and create, and one that does neither is about a device of the
original account. -/
structure DeviceField.Founded (account : Account) (d : DeviceField) : Prop where
  notBoth : (d.iscreate && d.iserase) = false
  present : d.iserase = false → d.iscreate = false → (account.getDevice d.id).isSome

namespace ModifyAccount

/-! ## The operations -/

/-- `ModifyAccount::addAccountField` -/
def addAccountField (m : ModifyAccount) (name : String) : ModifyAccount :=
  { m with field := { m.field with modifyfields := m.field.modifyfields ++ [name] } }

/-- A setter of the account -/
def setField (m : ModifyAccount) (f : Account.Field) (v : f.type) : ModifyAccount :=
  { m with account := m.account.set f v }.addAccountField f.text

/-- The entry of a device is changed, or one is added. -/
def changeEntry (m : ModifyAccount) (deviceId : UInt32) (f : DeviceField → DeviceField)
    (added : DeviceField) : ModifyAccount :=
  let entries := m.field.devices
  let changed :=
    if (Keyed.find DeviceField.id deviceId entries).isSome then
      Keyed.update DeviceField.id deviceId f entries
    else entries ++ [added]
  { m with field := { m.field with devices := changed } }

/-- `ModifyAccount::addStringDeviceField` -/
def addStringDeviceField (m : ModifyAccount) (deviceId : UInt32) (value : String) :
    ModifyAccount :=
  m.changeEntry deviceId (DeviceField.addName value)
    { id := deviceId
      modifyfields := [value] }

/-- A setter of the device that `getMutableDevice` finds -/
def setDevice (m : ModifyAccount) (deviceId : UInt32) (f : Device.Field) (v : f.type) :
    ModifyAccount :=
  if (m.account.getDevice deviceId).isSome then
    let devices := Keyed.update Device.id deviceId (Device.set f v) m.account.devices
    { m with account := { m.account with devices := devices } }.addStringDeviceField deviceId f.text
  else m

/-- `ModifyAccount::createMutableDevice` -/
def createMutableDevice (m : ModifyAccount) (devId : UInt32) : ModifyAccount :=
  let devices := Keyed.put Device.id devId (Device.fresh devId) m.account.devices
  { m with account := { m.account with devices := devices } }.changeEntry devId DeviceField.create
    { id := devId
      iscreate := true }

/-- `ModifyAccount::getMutableContactsFilters` -/
def getMutableContactsFilters (m : ModifyAccount) : ModifyAccount :=
  let filters := m.account.contactsFilters.getD ContactsFilters.fresh
  { m with account := { m.account with contactsFilters := some filters } }

/-- `ModifyAccount::addContactFilterField` -/
def addContactFilterField (m : ModifyAccount) (value : String) : ModifyAccount :=
  let mf := m.field.modifyfilters.getD {}
  let mf := { mf with modifyfields := mf.modifyfields ++ [value] }
  { m with field := { m.field with modifyfilters := some mf } }

/-- A setter of the contacts filters -/
def setFilters (m : ModifyAccount) (f : ContactsFilters.Field) (v : f.type) : ModifyAccount :=
  let filters := Function.update (m.account.contactsFilters.getD ContactsFilters.fresh) f v
  let account := { m.account with contactsFilters := some filters }
  { m with account := account }.addContactFilterField f.text

/-- `ModifyAccount::clear_contactsfilters` -/
def clearContactsfilters (m : ModifyAccount) : ModifyAccount :=
  let mf : ContactsFiltersField := { isclear := true }
  { account := { m.account with contactsFilters := none }
    field := { m.field with modifyfilters := some mf } }

/-- An entry for an erased device -/
def erasedEntry (deviceId : UInt32) : DeviceField :=
  { id := deviceId
    iserase := true }

/-- The numbers of the devices other than the master device -/
def slaves (masterId : UInt32) (devices : List Device) : List UInt32 :=
  (devices.map Device.id).filter fun id => id ≠ masterId

/-- `ModifyAccount::del_slave_devices` -/
def delSlaveDevices (masterId : UInt32) (m : ModifyAccount) : ModifyAccount :=
  let kept := m.account.devices.filter fun d => d.id = masterId
  let erased := (slaves masterId m.account.devices).map erasedEntry
  { account := { m.account with devices := kept }
    field := { m.field with devices := m.field.devices ++ erased } }

/-- `ModifyAccount::del_device` -/
def delDevice (masterId : UInt32) (m : ModifyAccount) (devId : UInt32) : ModifyAccount :=
  if devId ≠ masterId ∧ (m.account.getDevice devId).isSome then
    let devices := Keyed.erase Device.id devId m.account.devices
    { account := { m.account with devices := devices }
      field := { m.field with devices := m.field.devices ++ [erasedEntry devId] } }
  else m

/-- An operation -/
inductive Op where
  | setField (f : Account.Field) (v : f.type)
  | setDevice (deviceId : UInt32) (f : Device.Field) (v : f.type)
  | createMutableDevice (devId : UInt32)
  | delDevice (devId : UInt32)
  | delSlaveDevices
  | getMutableContactsFilters
  | setFilters (f : ContactsFilters.Field) (v : f.type)
  | clearContactsfilters

/-- What an operation does -/
def exec (masterId : UInt32) (m : ModifyAccount) : Op → ModifyAccount
  | .setField f v => m.setField f v
  | .setDevice deviceId f v => m.setDevice deviceId f v
  | .createMutableDevice devId => m.createMutableDevice devId
  | .delDevice devId => m.delDevice masterId devId
  | .delSlaveDevices => m.delSlaveDevices masterId
  | .getMutableContactsFilters => m.getMutableContactsFilters
  | .setFilters f v => m.setFilters f v
  | .clearContactsfilters => m.clearContactsfilters

/-- The operations as a transition system -/
def machine (masterId : UInt32) : Machine ModifyAccount Op :=
  ⟨fun m op => some (m.exec masterId op)⟩

/-- What a list of operations makes of an account -/
def after (masterId : UInt32) (account : Account) (ops : List Op) : ModifyAccount :=
  ops.foldl (exec masterId) { account := account }

theorem run_eq (masterId : UInt32) (m : ModifyAccount) (ops : List Op) :
    (machine masterId).run m ops = some (ops.foldl (exec masterId) m) := by
  induction ops generalizing m with
  | nil => rfl
  | cons op ops ih => exact ih (m.exec masterId op)

/-! ## The setters -/

namespace Op

def setIdentitykey (value : Bytes) : Op := setField .identityKey value
def setState (value : Auth.AccountState) : Op := setField .state value
def setName (value : Bytes) : Op := setField .name value
def setAvater (value : Bytes) : Op := setField .avater value
def setNickname (value : Bytes) : Op := setField .nickname value
def setSlaveDeviceNum (value : UInt32) : Op := setField .slaveDeviceNum value
def setLdavatar (value : Bytes) : Op := setField .ldAvatar value
def setHdavatar (value : Bytes) : Op := setField .hdAvatar value
def setProfilekeys (value : Bytes) : Op := setField .profileKeys value
def mutablePrivacy (accPrivacy : Privacy) : Op := setField .privacy (some accPrivacy)

/-- A setter of a device, by the number of the device -/
abbrev DeviceSetter (α : Type) := UInt32 → α → Op

def mutableSignedprekey : DeviceSetter SignedPreKey :=
  fun id v => setDevice id .signedPreKey (some v)
def mutableClientversion : DeviceSetter Auth.ClientVersion :=
  fun id v => setDevice id .clientVersion (some v)
def setGcmid : DeviceSetter Bytes := fun id v => setDevice id .gcmId v
def setUmengid : DeviceSetter Bytes := fun id v => setDevice id .umengId v
def setApntype : DeviceSetter Bytes := fun id v => setDevice id .apnType v
def setApnid : DeviceSetter Bytes := fun id v => setDevice id .apnId v
def setVoipapnid : DeviceSetter Bytes := fun id v => setDevice id .voipApnId v
def setFetchesmessages : DeviceSetter Bool := fun id v => setDevice id .fetchesMessages v
def setAuthtoken : DeviceSetter Bytes := fun id v => setDevice id .authToken v
def setSalt : DeviceSetter Bytes := fun id v => setDevice id .salt v
def setFeatures : DeviceSetter Bytes := fun id v => setDevice id .features v
def setPublicKey : DeviceSetter Bytes := fun id v => setDevice id .publicKey v
def setAccountSignature : DeviceSetter Bytes := fun id v => setDevice id .accountSignature v
def setSignalingkey : DeviceSetter Bytes := fun id v => setDevice id .signalingKey v
def setRegistrationid : DeviceSetter UInt32 := fun id v => setDevice id .registrationId v
def setVersion : DeviceSetter UInt32 := fun id v => setDevice id .version v
def setDeviceName : DeviceSetter Bytes := fun id v => setDevice id .name v
def setSupportvoice : DeviceSetter Bool := fun id v => setDevice id .supportVoice v
def setSupportvideo : DeviceSetter Bool := fun id v => setDevice id .supportVideo v
def setLastseentime : DeviceSetter UInt64 := fun id v => setDevice id .lastSeenTime v
def setCreatetime : DeviceSetter UInt64 := fun id v => setDevice id .createTime v
def setUseragent : DeviceSetter Bytes := fun id v => setDevice id .userAgent v
def setDeviceState : DeviceSetter Auth.DeviceState := fun id v => setDevice id .state v

def setAlgo (value : UInt32) : Op := setFilters .algo value
def setContent (value : Bytes) : Op := setFilters .content value
def setFiltersVersion (value : Bytes) : Op := setFilters .version value

end Op

/-! ## What is noted is what was done -/

/-- A device has at most one entry, and none is erased and created. -/
structure Consistent (m : ModifyAccount) : Prop where
  nodup : (m.field.devices.map DeviceField.id).Nodup
  notBoth : ∀ d ∈ m.field.devices, (d.iscreate && d.iserase) = false

/-- The store makes the edited account of the original one. -/
structure Faithful (account : Account) (m : ModifyAccount) : Prop where
  consistent : m.Consistent
  applied : m.field.apply m.account account = m.account

/-- An operation in a state in which it can be noted: no device is erased that has an entry
already, and none is created whose entry is erased. -/
def Allowed (masterId : UInt32) (m : ModifyAccount) : Op → Prop
  | .createMutableDevice devId =>
      ∀ d, Keyed.find DeviceField.id devId m.field.devices = some d → d.iserase = false
  | .delDevice devId =>
      devId ≠ masterId → (m.account.getDevice devId).isSome →
        devId ∉ m.field.devices.map DeviceField.id
  | .delSlaveDevices =>
      (slaves masterId m.account.devices).Nodup ∧
        ∀ id ∈ slaves masterId m.account.devices, id ∉ m.field.devices.map DeviceField.id
  | _ => True

/-- The entries make the devices of the edited account. -/
structure DevicesNoted (account : Account) (m : ModifyAccount) : Prop where
  nodup : (m.field.devices.map DeviceField.id).Nodup
  founded : ∀ d ∈ m.field.devices, d.Founded account
  applied : DeviceField.applyAll m.field.devices m.account account.devices = m.account.devices

variable {masterId : UInt32} {account : Account} {m : ModifyAccount}

theorem DevicesNoted.consistent (h : DevicesNoted account m) : m.Consistent :=
  ⟨h.nodup, fun d hd => (h.founded d hd).notBoth⟩

theorem entry_split (h : m.Consistent) {k : UInt32} {e : DeviceField}
    (he : Keyed.find DeviceField.id k m.field.devices = some e) :
    ∃ before rest, m.field.devices = before ++ e :: rest ∧ e.id = k ∧
      k ∉ before.map DeviceField.id ∧ k ∉ rest.map DeviceField.id ∧
        ∀ f, Keyed.update DeviceField.id k f m.field.devices = before ++ f e :: rest := by
  obtain ⟨before, rest, heq, hbefore, hupdate⟩ := Keyed.find_split he
  have hid : e.id = k := Keyed.find_key he
  refine ⟨before, rest, heq, hid, hbefore, ?_, hupdate⟩
  have hnodup := h.nodup
  rw [heq, List.map_append, List.map_cons, List.nodup_append] at hnodup
  rw [← hid]
  exact (List.nodup_cons.mp hnodup.2.1).1

/-- A device with an entry that does not erase it is there. -/
theorem DevicesNoted.entry_present (h : DevicesNoted account m) {k : UInt32} {e : DeviceField}
    (he : Keyed.find DeviceField.id k m.field.devices = some e) (hno : e.iserase = false) :
    (m.account.getDevice k).isSome := by
  obtain ⟨before, rest, heq, rfl, hbefore, hrest, -⟩ := entry_split h.consistent he
  have hmem : e ∈ m.field.devices := by simp [heq]
  have hfresh : (Device.fresh e.id).id = e.id := rfl
  rw [Account.getDevice, ← h.applied, heq, DeviceField.applyAll_append]
  change (Keyed.find Device.id e.id (DeviceField.applyAll rest m.account
    (e.apply m.account (DeviceField.applyAll before m.account account.devices)))).isSome
  rw [DeviceField.find_applyAll_ne hrest, DeviceField.apply,
    Keyed.find_update_self (DeviceField.copyFrom_id e m.account), Option.isSome_map,
    DeviceField.eraseFrom, hno, if_neg Bool.false_ne_true, DeviceField.createIn]
  cases hc : e.iscreate with
  | true => rw [if_pos rfl, Keyed.find_put_self hfresh, Option.isSome_some]
  | false =>
      rw [if_neg Bool.false_ne_true, DeviceField.find_applyAll_ne hbefore]
      exact (h.founded e hmem).present hno hc

/-- An entry is added for a device that has none. -/
theorem DevicesNoted.addEntry (h : DevicesNoted account m) {m' : ModifyAccount}
    {added : DeviceField} (hnot : added.id ∉ m.field.devices.map DeviceField.id)
    (hfield : m'.field.devices = m.field.devices ++ [added])
    (hother : ∀ j, j ≠ added.id → m'.account.getDevice j = m.account.getDevice j)
    (hfounded : added.Founded account)
    (happly : added.apply m'.account m.account.devices = m'.account.devices) :
    DevicesNoted account m' := by
  refine ⟨?_, ?_, ?_⟩
  · rw [hfield, List.map_append, List.map_singleton, List.nodup_append]
    refine ⟨h.nodup, List.nodup_singleton added.id, fun a ha b hb => ?_⟩
    rw [List.mem_singleton.mp hb]
    rintro rfl
    exact hnot ha
  · rw [hfield]
    intro d hd
    obtain hd | hd := List.mem_append.mp hd
    · exact h.founded d hd
    · rw [List.mem_singleton.mp hd]
      exact hfounded
  · -- the entries before it see the same devices as before
    have hcongr : DeviceField.applyAll m.field.devices m'.account =
        DeviceField.applyAll m.field.devices m.account := by
      refine DeviceField.applyAll_congr fun e hmem => hother e.id fun heq => hnot ?_
      rw [← heq]
      exact List.mem_map_of_mem hmem
    rw [hfield, DeviceField.applyAll_append]
    change added.apply m'.account (DeviceField.applyAll m.field.devices m'.account
      account.devices) = m'.account.devices
    rw [hcongr, h.applied, happly]

/-- What has to be shown of an operation that changes the entry of a device -/
theorem DevicesNoted.changeEntry (h : DevicesNoted account m) {account' : Account} {k : UInt32}
    {f : DeviceField → DeviceField} {added : DeviceField} (hid : ∀ e, (f e).id = e.id)
    (hadded : added.id = k)
    (hother : ∀ j, j ≠ k → account'.getDevice j = m.account.getDevice j)
    (hold : ∀ e, Keyed.find DeviceField.id k m.field.devices = some e →
      (f e).Founded account ∧ ∃ g : Device → Device, (∀ d, (g d).id = d.id) ∧
        account'.devices = Keyed.update Device.id k g m.account.devices ∧
        ∀ ds, Keyed.find Device.id k ds = Keyed.find Device.id k account.devices →
          (f e).apply account' ds = Keyed.update Device.id k g (e.apply m.account ds))
    (hnew : Keyed.find DeviceField.id k m.field.devices = none →
      added.Founded account ∧ added.apply account' m.account.devices = account'.devices) :
    DevicesNoted account ({ m with account := account' }.changeEntry k f added) := by
  cases he : Keyed.find DeviceField.id k m.field.devices with
  | some e =>
      -- the entries before and after it are about other devices
      obtain ⟨before, rest, heq, rfl, hbefore, hrest, hupdate⟩ := entry_split h.consistent he
      obtain ⟨hfounded, g, hg, hdevices, hchange⟩ := hold e he
      have hfield : ({ m with account := account' }.changeEntry e.id f added).field.devices =
          before ++ f e :: rest := by
        rw [ModifyAccount.changeEntry]
        simp only [he, Option.isSome_some, if_true, hupdate]
      have hmem : ∀ {d}, d ∈ before ++ f e :: rest → d ∈ m.field.devices ∨ d = f e := by
        intro d hd
        rw [heq]
        simp only [List.mem_append, List.mem_cons] at hd ⊢
        tauto
      refine ⟨?_, ?_, ?_⟩
      · rw [hfield, List.map_append, List.map_cons, hid, ← List.map_cons, ← List.map_append, ← heq]
        exact h.nodup
      · rw [hfield]
        intro d hd
        obtain hd | rfl := hmem hd
        · exact h.founded d hd
        · exact hfounded
      · rw [hfield]
        change DeviceField.applyAll (before ++ f e :: rest) account' account.devices =
          account'.devices
        rw [DeviceField.applyAll_change hg hbefore hrest hother hchange, ← heq, h.applied, hdevices]
  | none =>
      have hfield : ({ m with account := account' }.changeEntry k f added).field.devices =
          m.field.devices ++ [added] := by
        rw [ModifyAccount.changeEntry]
        simp [he]
      subst hadded
      obtain ⟨hfounded, happly⟩ := hnew he
      exact h.addEntry (Keyed.find_eq_none_iff.mp he) hfield hother hfounded happly

/-- Only the devices and their entries matter. -/
theorem DevicesNoted.congr (h : DevicesNoted account m) {m' : ModifyAccount}
    (hfield : m'.field.devices = m.field.devices)
    (hdevices : m'.account.devices = m.account.devices) : DevicesNoted account m' := by
  have happly : DeviceField.applyAll m.field.devices m'.account =
      DeviceField.applyAll m.field.devices m.account := by
    refine DeviceField.applyAll_congr fun e _ => ?_
    rw [Account.getDevice, Account.getDevice, hdevices]
  refine ⟨?_, ?_, ?_⟩
  · rw [hfield]
    exact h.nodup
  · rw [hfield]
    exact h.founded
  · rw [hfield, happly, h.applied, hdevices]

/-- A device without an entry is as it was. -/
theorem DevicesNoted.getDevice_of_notMem (h : DevicesNoted account m) {k : UInt32}
    (hk : k ∉ m.field.devices.map DeviceField.id) :
    m.account.getDevice k = account.getDevice k := by
  rw [Account.getDevice, ← h.applied, DeviceField.find_applyAll_ne hk]
  rfl

theorem getDevice_set {k : UInt32} {src : Device} (f : Device.Field) (v : f.type)
    (hsrc : m.account.getDevice k = some src) :
    Account.getDevice
        { m.account with devices := Keyed.update Device.id k (Device.set f v) m.account.devices } k =
      some (Device.set f v src) := by
  have hset : ∀ d, (Device.set f v d).id = d.id := fun _ => rfl
  exact (Keyed.find_update_self hset m.account.devices).trans (congrArg (Option.map _) hsrc)

/-- Naming a field and setting it in the source sets it in the copy. -/
theorem copyFrom_addName {e : DeviceField} {src : Device} (f : Device.Field) (v : f.type)
    (hsrc : m.account.getDevice e.id = some src) :
    (DeviceField.addName f.text e).copyFrom
        { m.account with devices := Keyed.update Device.id e.id (Device.set f v) m.account.devices } =
      fun d => Device.set f v (e.copyFrom m.account d) := by
  have hsrc' : Account.getDevice
      { m.account with devices := Keyed.update Device.id e.id (Device.set f v) m.account.devices }
      (DeviceField.addName f.text e).id = some (Device.set f v src) := getDevice_set f v hsrc
  funext d
  rw [DeviceField.copyFrom_of_some _ hsrc', DeviceField.copyFrom_of_some e hsrc]
  simp only [DeviceField.addName, Device.set, Keyed.copyNamed_concat Device.Field.text_injective]

theorem DevicesNoted.setDevice (h : DevicesNoted account m) (k : UInt32) (f : Device.Field)
    (v : f.type) : DevicesNoted account (m.setDevice k f v) := by
  have hset : ∀ d, (Device.set f v d).id = d.id := fun _ => rfl
  unfold ModifyAccount.setDevice
  split
  swap
  · exact h
  rename_i hpresent
  obtain ⟨src, hsrc⟩ := Option.isSome_iff_exists.mp hpresent
  refine h.changeEntry (f := DeviceField.addName f.text) (fun _ => rfl) rfl
    (fun j hj => Keyed.find_update_ne hset hj m.account.devices) (fun e he => ?_) fun hnone => ?_
  · have hfounded := h.founded e (List.mem_of_find?_eq_some he)
    refine ⟨⟨hfounded.notBoth, hfounded.present⟩, Device.set f v, hset, rfl, fun ds _ => ?_⟩
    have hk : e.id = k := Keyed.find_key he
    subst hk
    rw [DeviceField.apply, DeviceField.apply, Keyed.update_update (DeviceField.copyFrom_id e _)]
    exact congrArg (fun g => Keyed.update Device.id e.id g _) (copyFrom_addName f v hsrc)
  · -- the device has no entry yet, and is as the store has it
    have hnot := Keyed.find_eq_none_iff.mp hnone
    refine ⟨⟨rfl, fun _ _ => ?_⟩, ?_⟩
    · rw [← h.getDevice_of_notMem hnot]
      exact hpresent
    · refine Keyed.update_congr fun d hd => ?_
      have hdsrc : d = src := Option.some.inj (hd.symm.trans hsrc)
      subst hdsrc
      have hcopy := Keyed.copyNamed_concat Device.Field.text_injective [] d.values d.values f v
      rw [List.nil_append, Keyed.copyNamed_nil] at hcopy
      rw [DeviceField.copyFrom_of_some { id := k, modifyfields := [f.text] }
        (getDevice_set f v hsrc)]
      simp only [Device.set, hcopy]

theorem DevicesNoted.createMutableDevice (h : DevicesNoted account m) {k : UInt32}
    (hok : ∀ e, Keyed.find DeviceField.id k m.field.devices = some e → e.iserase = false) :
    DevicesNoted account (m.createMutableDevice k) := by
  have hfresh : (Device.fresh k).id = k := rfl
  have hset : ∀ d, (Keyed.setTo Device.id k (Device.fresh k) d).id = d.id := Keyed.key_setTo hfresh
  refine h.changeEntry (fun _ => rfl) rfl
    (fun j hj => Keyed.find_put_ne hfresh hj m.account.devices) (fun e he => ?_) fun _ => ?_
  · have hno := hok e he
    have hfounded := h.founded e (List.mem_of_find?_eq_some he)
    refine ⟨⟨by simp [DeviceField.create, hno], by simp [DeviceField.create]⟩,
      Keyed.setTo Device.id k (Device.fresh k), hset, ?_, fun ds hds => ?_⟩
    · exact Keyed.put_of_some (h.entry_present he hno)
    · have hk : e.id = k := Keyed.find_key he
      subst hk
      have herase : ∀ ds, e.eraseFrom ds = ds := fun ds => by
        rw [DeviceField.eraseFrom, hno, if_neg Bool.false_ne_true]
      -- what was done to the device before does not matter
      have hlhs : ∀ a, (DeviceField.create e).apply a ds =
          Keyed.put Device.id e.id (Device.fresh e.id) ds := fun a => by
        rw [DeviceField.apply, DeviceField.copyFrom_of_nil rfl, Keyed.update_id]
        change (if true then Keyed.put Device.id e.id (Device.fresh e.id) (e.eraseFrom ds)
          else _) = _
        rw [if_pos rfl, herase]
      have hthere : (Keyed.find Device.id e.id (e.apply m.account ds)).isSome := by
        rw [DeviceField.apply, Keyed.find_update_self (DeviceField.copyFrom_id e m.account),
          Option.isSome_map, herase, DeviceField.createIn]
        cases hc : e.iscreate with
        | true => rw [if_pos rfl, Keyed.find_put_self hfresh, Option.isSome_some]
        | false =>
            rw [if_neg Bool.false_ne_true, hds]
            exact hfounded.present hno hc
      rw [hlhs, ← Keyed.put_of_some hthere, DeviceField.apply,
        Keyed.put_update_self (DeviceField.copyFrom_id e m.account), herase, DeviceField.createIn]
      split
      · rw [Keyed.put_put hfresh]
      · rfl
  · refine ⟨⟨rfl, fun _ hc => by cases hc⟩, ?_⟩
    rw [DeviceField.apply, DeviceField.copyFrom_of_nil rfl, Keyed.update_id]
    rfl

theorem DevicesNoted.delDevice (h : DevicesNoted account m) {k : UInt32}
    (hok : k ≠ masterId → (m.account.getDevice k).isSome →
      k ∉ m.field.devices.map DeviceField.id) :
    DevicesNoted account (m.delDevice masterId k) := by
  unfold ModifyAccount.delDevice
  split
  swap
  · exact h
  rename_i hcond
  refine h.addEntry (hok hcond.1 hcond.2) rfl
    (fun j hj => Keyed.find_erase_ne hj m.account.devices) ⟨rfl, fun he => by cases he⟩ ?_
  rw [DeviceField.apply, DeviceField.copyFrom_of_nil rfl, Keyed.update_id]
  rfl

theorem field_delDevice (masterId : UInt32) (m : ModifyAccount) (k : UInt32) :
    (m.delDevice masterId k).field.devices = m.field.devices ∨
      (m.delDevice masterId k).field.devices = m.field.devices ++ [erasedEntry k] := by
  unfold ModifyAccount.delDevice
  split
  · exact Or.inr rfl
  · exact Or.inl rfl

/-- The loop over the devices: those in front of what is left to look at are kept. -/
theorem foldl_delDevice_slaves (masterId : UInt32) (m : ModifyAccount) (kept ds : List Device)
    (entries : List DeviceField) (hkept : ∀ d ∈ kept, d.id = masterId) :
    (slaves masterId ds).foldl (ModifyAccount.delDevice masterId)
        { account := { m.account with devices := kept ++ ds }
          field := { m.field with devices := entries } } =
      { account := { m.account with devices := kept ++ ds.filter fun d => d.id = masterId }
        field := { m.field with devices := entries ++ (slaves masterId ds).map erasedEntry } } := by
  induction ds generalizing kept entries with
  | nil => simp [slaves]
  | cons d ds ih =>
      by_cases hd : d.id = masterId
      · have hslaves : slaves masterId (d :: ds) = slaves masterId ds := by simp [slaves, hd]
        have hkept' : ∀ e ∈ kept ++ [d], e.id = masterId := by
          simp only [List.mem_append, List.mem_singleton]
          rintro e (he | rfl)
          · exact hkept e he
          · exact hd
        have hih := ih (kept ++ [d]) entries hkept'
        rw [List.append_assoc, List.singleton_append] at hih
        rw [hslaves, hih]
        simp [hd]
      · have hslaves : slaves masterId (d :: ds) = d.id :: slaves masterId ds := by
          simp [slaves, hd]
        have hnot : ∀ e ∈ kept, ¬ e.id = d.id := fun e he h => hd (h.symm.trans (hkept e he))
        have hfind : (Keyed.find Device.id d.id (kept ++ d :: ds)).isSome := by
          rw [Keyed.find_append, Keyed.find_cons_self rfl]
          cases Keyed.find Device.id d.id kept <;> rfl
        have herase : Keyed.erase Device.id d.id (kept ++ d :: ds) = kept ++ ds := by
          rw [Keyed.erase, List.eraseP_append_right _ (by simpa using hnot),
            List.eraseP_cons_of_pos (by simp)]
        rw [hslaves, List.foldl_cons, ModifyAccount.delDevice, if_pos ⟨hd, hfind⟩, herase,
          ih kept _ hkept]
        simp [hd]

/-- The slave devices are deleted one after the other. -/
theorem delSlaveDevices_eq (masterId : UInt32) (m : ModifyAccount) :
    m.delSlaveDevices masterId =
      (slaves masterId m.account.devices).foldl (ModifyAccount.delDevice masterId) m := by
  have h := foldl_delDevice_slaves masterId m [] m.account.devices m.field.devices (by simp)
  rw [List.nil_append, List.nil_append] at h
  exact h.symm

theorem DevicesNoted.delDevices {ids : List UInt32} (h : DevicesNoted account m)
    (hnodup : ids.Nodup) (hnot : ∀ id ∈ ids, id ∉ m.field.devices.map DeviceField.id) :
    DevicesNoted account (ids.foldl (ModifyAccount.delDevice masterId) m) := by
  induction ids generalizing m with
  | nil => exact h
  | cons k ids ih =>
      rw [List.nodup_cons] at hnodup
      rw [List.forall_mem_cons] at hnot
      refine ih (h.delDevice fun _ _ => hnot.1) hnodup.2 fun id hid hmem => ?_
      obtain heq | heq := field_delDevice masterId m k
      · rw [heq] at hmem
        exact hnot.2 id hid hmem
      · rw [heq, List.map_append, List.mem_append] at hmem
        obtain hmem | hmem := hmem
        · exact hnot.2 id hid hmem
        · have hk : id = k := List.mem_singleton.mp hmem
          exact hnodup.1 (hk ▸ hid)

/-- What one operation preserves -/
theorem DevicesNoted.exec (h : DevicesNoted account m) {op : Op} (hok : Allowed masterId m op) :
    DevicesNoted account (m.exec masterId op) := by
  cases op with
  | setField f v => exact h.congr rfl rfl
  | setDevice k f v => exact h.setDevice k f v
  | createMutableDevice k => exact h.createMutableDevice hok
  | delDevice k => exact h.delDevice hok
  | delSlaveDevices =>
      rw [ModifyAccount.exec, delSlaveDevices_eq]
      exact h.delDevices hok.1 hok.2
  | getMutableContactsFilters => exact h.congr rfl rfl
  | setFilters f v => exact h.congr rfl rfl
  | clearContactsfilters => exact h.congr rfl rfl

/-! ## What cannot be noted -/

/-- Entries are added at the end, and their marks stay. -/
def Grows (entries entries' : List DeviceField) : Prop :=
  ∃ kept added, entries' = kept ++ added ∧ List.Forall₂ (fun d d' => d'.id = d.id ∧
    (d.iscreate = true → d'.iscreate = true) ∧ (d.iserase = true → d'.iserase = true)) entries kept

theorem grows_append (entries added : List DeviceField) : Grows entries (entries ++ added) :=
  ⟨entries, added, rfl, List.forall₂_same.mpr fun _ _ => ⟨rfl, id, id⟩⟩

theorem grows_update {f : DeviceField → DeviceField}
    (hf : ∀ d, (f d).id = d.id ∧ (d.iscreate = true → (f d).iscreate = true) ∧
      (d.iserase = true → (f d).iserase = true)) (k : UInt32) (entries : List DeviceField) :
    Grows entries (Keyed.update DeviceField.id k f entries) := by
  refine ⟨_, [], (List.append_nil _).symm, ?_⟩
  induction entries with
  | nil => exact List.Forall₂.nil
  | cons d entries ih =>
      by_cases hd : d.id = k
      · rw [Keyed.update_cons_self hd]
        exact List.Forall₂.cons (hf d) (List.forall₂_same.mpr fun _ _ => ⟨rfl, id, id⟩)
      · rw [Keyed.update_cons_ne hd]
        exact List.Forall₂.cons ⟨rfl, id, id⟩ ih

theorem grows_changeEntry {f : DeviceField → DeviceField}
    (hf : ∀ d, (f d).id = d.id ∧ (d.iscreate = true → (f d).iscreate = true) ∧
      (d.iserase = true → (f d).iserase = true)) (m : ModifyAccount) (k : UInt32)
    (added : DeviceField) : Grows m.field.devices (m.changeEntry k f added).field.devices := by
  rw [changeEntry]
  split
  · exact grows_update hf k m.field.devices
  · exact grows_append m.field.devices [added]

theorem grows_exec (masterId : UInt32) (m : ModifyAccount) (op : Op) :
    Grows m.field.devices (m.exec masterId op).field.devices := by
  have hrefl : Grows m.field.devices m.field.devices := by
    simpa using grows_append m.field.devices []
  cases op with
  | setDevice k f v =>
      rw [ModifyAccount.exec, ModifyAccount.setDevice]
      split
      · exact grows_changeEntry (f := DeviceField.addName f.text) (fun _ => ⟨rfl, id, id⟩)
          { m with account := _ } k _
      · exact hrefl
  | createMutableDevice k =>
      exact grows_changeEntry (f := DeviceField.create) (fun _ => ⟨rfl, fun _ => rfl, id⟩)
        { m with account := _ } k _
  | delDevice k =>
      obtain heq | heq := field_delDevice masterId m k
      · rw [ModifyAccount.exec, heq]
        exact hrefl
      · rw [ModifyAccount.exec, heq]
        exact grows_append m.field.devices _
  | delSlaveDevices => exact grows_append m.field.devices _
  | setField f v => exact hrefl
  | getMutableContactsFilters => exact hrefl
  | setFilters f v => exact hrefl
  | clearContactsfilters => exact hrefl

/-- An entry keeps its number and its marks. -/
theorem Grows.mem {entries entries' : List DeviceField} (h : Grows entries entries')
    {d : DeviceField} (hd : d ∈ entries) : ∃ d' ∈ entries', d'.id = d.id ∧
      (d.iscreate = true → d'.iscreate = true) ∧ (d.iserase = true → d'.iserase = true) := by
  obtain ⟨kept, added, rfl, hkept⟩ := h
  obtain ⟨i, hi, rfl⟩ := List.getElem_of_mem hd
  have hi' : i < kept.length := by rw [← hkept.length_eq]; exact hi
  exact ⟨kept[i], by simp, hkept.get hi hi'⟩

/-- The operations that delete devices -/
def Op.deletes : Op → Bool
  | .delDevice _ | .delSlaveDevices => true
  | _ => false

/-- Only a deletion marks a device as erased. -/
theorem iserase_exec (masterId : UInt32) {op : Op} (hop : op.deletes = false) {id : UInt32}
    (h : ∀ d ∈ m.field.devices, d.id = id → d.iserase = false) :
    ∀ d ∈ (m.exec masterId op).field.devices, d.id = id → d.iserase = false := by
  have hchange : ∀ {m' : ModifyAccount} {f : DeviceField → DeviceField} {k : UInt32}
      {added : DeviceField}, m'.field.devices = m.field.devices →
      (∀ d, (f d).id = d.id ∧ (f d).iserase = d.iserase) → added.iserase = false →
      ∀ d ∈ (m'.changeEntry k f added).field.devices, d.id = id → d.iserase = false := by
    intro m' f k added hm' hf hadded d hd hid
    rw [changeEntry, hm'] at hd
    simp only at hd
    split at hd
    · obtain hd | ⟨e, he, rfl⟩ := Keyed.mem_update hd
      · exact h d hd hid
      · rw [(hf e).2]
        exact h e he ((hf e).1.symm.trans hid)
    · obtain hd | hd := List.mem_append.mp hd
      · exact h d hd hid
      · rw [List.mem_singleton.mp hd, hadded]
  cases op with
  | setDevice k f v =>
      rw [ModifyAccount.exec, ModifyAccount.setDevice]
      split
      · exact hchange (f := DeviceField.addName f.text) rfl (fun _ => ⟨rfl, rfl⟩) rfl
      · exact h
  | createMutableDevice k =>
      exact hchange (f := DeviceField.create) rfl (fun _ => ⟨rfl, rfl⟩) rfl
  | delDevice k => cases hop
  | delSlaveDevices => cases hop
  | setField f v => exact h
  | getMutableContactsFilters => exact h
  | setFilters f v => exact h
  | clearContactsfilters => exact h

theorem exists_iscreate (m : ModifyAccount) (id : UInt32) :
    ∃ d ∈ (m.createMutableDevice id).field.devices, d.id = id ∧ d.iscreate = true := by
  rw [createMutableDevice, changeEntry]
  simp only
  cases he : Keyed.find DeviceField.id id m.field.devices with
  | some e =>
      obtain ⟨before, rest, -, -, hupdate⟩ := Keyed.find_split he
      have hid : e.id = id := Keyed.find_key he
      refine ⟨DeviceField.create e, ?_, hid, rfl⟩
      rw [if_pos (by rfl), hupdate]
      simp
  | none =>
      refine ⟨{ id := id, iscreate := true }, ?_, rfl, rfl⟩
      rw [if_neg (by simp)]
      exact List.mem_append_right _ List.mem_cons_self

/-- Operations that delete nothing keep a device as created. -/
theorem created_foldl (masterId : UInt32) {id : UInt32} {ops : List Op}
    (hops : ∀ op ∈ ops, op.deletes = false)
    (herase : ∀ d ∈ m.field.devices, d.id = id → d.iserase = false)
    (hcreate : ∃ d ∈ m.field.devices, d.id = id ∧ d.iscreate = true) :
    (∀ d ∈ (ops.foldl (ModifyAccount.exec masterId) m).field.devices, d.id = id → d.iserase = false) ∧
      ∃ d ∈ (ops.foldl (ModifyAccount.exec masterId) m).field.devices, d.id = id ∧ d.iscreate = true := by
  induction ops generalizing m with
  | nil => exact ⟨herase, hcreate⟩
  | cons op ops ih =>
      rw [List.forall_mem_cons] at hops
      refine ih hops.2 (iserase_exec masterId hops.1 herase) ?_
      obtain ⟨d, hd, hid, hc⟩ := hcreate
      obtain ⟨d', hd', hid', hc', -⟩ := (grows_exec masterId m op).mem hd
      exact ⟨d', hd', hid'.trans hid, hc' hc⟩

/-- Entries that are consistent were so before. -/
theorem Consistent.of_grows {m' : ModifyAccount} (h : m'.Consistent)
    (hgrows : Grows m.field.devices m'.field.devices) : m.Consistent := by
  obtain ⟨kept, added, heq, hkept⟩ := hgrows
  have hids : kept.map DeviceField.id = m.field.devices.map DeviceField.id := by
    clear heq
    generalize m.field.devices = entries at hkept
    induction hkept with
    | nil => rfl
    | cons hd _ ih => rw [List.map_cons, List.map_cons, hd.1, ih]
  refine ⟨?_, fun d hd => ?_⟩
  · have hnodup := h.nodup
    rw [heq, List.map_append, hids] at hnodup
    exact (List.nodup_append.mp hnodup).1
  · obtain ⟨i, hi, rfl⟩ := List.getElem_of_mem hd
    have hi' : i < kept.length := by rw [← hkept.length_eq]; exact hi
    obtain ⟨-, hcreate, herase⟩ := hkept.get hi hi'
    have hboth := h.notBoth kept[i] (by rw [heq]; simp)
    rw [Bool.and_eq_false_iff] at hboth ⊢
    by_contra hno
    rw [not_or, Bool.not_eq_false, Bool.not_eq_false] at hno
    obtain hboth | hboth := hboth
    · exact absurd (hcreate hno.1) (by simpa using hboth)
    · exact absurd (herase hno.2) (by simpa using hboth)

/-- An operation that is not allowed leaves entries that are not consistent. -/
theorem not_consistent {op : Op} (hno : ¬ Allowed masterId m op) :
    ¬ (m.exec masterId op).Consistent := by
  intro h
  cases op with
  | createMutableDevice k =>
      simp only [Allowed, not_forall, Bool.not_eq_false] at hno
      obtain ⟨e, he, herased⟩ := hno
      -- an entry that erases would create, too
      obtain ⟨before, rest, -, -, hupdate⟩ := Keyed.find_split he
      have hmem : DeviceField.create e ∈
          (m.exec masterId (.createMutableDevice k)).field.devices := by
        change _ ∈ (if (Keyed.find DeviceField.id k m.field.devices).isSome then
          Keyed.update DeviceField.id k DeviceField.create m.field.devices else _)
        rw [if_pos (by simp [he]), hupdate]
        simp
      have hboth := h.notBoth _ hmem
      rw [DeviceField.create, herased] at hboth
      cases hboth
  | delDevice k =>
      simp only [Allowed, Classical.not_imp, not_not] at hno
      -- a second entry for the device
      obtain ⟨hmaster, hthere, hmem⟩ := hno
      have hnodup := h.nodup
      rw [ModifyAccount.exec, ModifyAccount.delDevice, if_pos ⟨hmaster, hthere⟩, List.map_append,
        List.nodup_append] at hnodup
      exact hnodup.2.2 k hmem k (by simp [erasedEntry]) rfl
  | delSlaveDevices =>
      have hnodup := h.nodup
      have hids : (m.exec masterId .delSlaveDevices).field.devices.map DeviceField.id =
          m.field.devices.map DeviceField.id ++ slaves masterId m.account.devices := by
        change List.map _ (_ ++ List.map erasedEntry _) = _
        rw [List.map_append, List.map_map]
        exact congrArg _ (List.map_id _)
      rw [hids, List.nodup_append] at hnodup
      exact hno ⟨hnodup.2.1, fun id hid hmem => hnodup.2.2 id hmem id hid rfl⟩
  | setField f v => exact hno trivial
  | setDevice k f v => exact hno trivial
  | getMutableContactsFilters => exact hno trivial
  | setFilters f v => exact hno trivial
  | clearContactsfilters => exact hno trivial

/-! ## Fields of the account -/

/-- A field whose name is not noted is as it was. -/
def ValuesNoted (account : Account) (m : ModifyAccount) : Prop :=
  ∀ f : Account.Field, f.text ∉ m.field.modifyfields → m.account.values f = account.values f

theorem ValuesNoted.exec (h : ValuesNoted account m) (op : Op) :
    ValuesNoted account (m.exec masterId op) := by
  have hsame : ∀ {m' : ModifyAccount}, m'.account.values = m.account.values →
      m'.field.modifyfields = m.field.modifyfields → ValuesNoted account m' := by
    intro m' hvalues hfields f hf
    rw [hfields] at hf
    rw [hvalues, h f hf]
  cases op with
  | setField f v =>
      intro g hg
      simp only [ModifyAccount.exec, ModifyAccount.setField, addAccountField, List.mem_append,
        List.mem_singleton, not_or] at hg
      have hgf : g ≠ f := fun heq => hg.2 (congrArg Account.Field.text heq)
      exact (Function.update_of_ne hgf v m.account.values).trans (h g hg.1)
  | setDevice k f v =>
      rw [ModifyAccount.exec, ModifyAccount.setDevice]
      split
      · exact hsame rfl rfl
      · exact h
  | createMutableDevice k => exact hsame rfl rfl
  | delDevice k =>
      rw [ModifyAccount.exec, ModifyAccount.delDevice]
      split
      · exact hsame rfl rfl
      · exact h
  | delSlaveDevices => exact hsame rfl rfl
  | getMutableContactsFilters => exact hsame rfl rfl
  | setFilters f v => exact hsame rfl rfl
  | clearContactsfilters => exact hsame rfl rfl

/-! ## Contacts filters -/

/-- What the store makes of the filters -/
def notedFilters (account : Account) (m : ModifyAccount) : Option ContactsFilters :=
  (m.field.modifyfilters.getD {}).apply m.account account.contactsFilters

theorem notedFilters_eq (account : Account) (m : ModifyAccount) :
    (m.field.apply m.account account).contactsFilters = notedFilters account m := by
  unfold AccountField.apply notedFilters
  cases m.field.modifyfilters <;> rfl

/-- The filters were made by asking for a handle, and nothing is noted of them. -/
def Pending (account : Account) (m : ModifyAccount) : Prop :=
  notedFilters account m = none ∧ m.account.contactsFilters = some ContactsFilters.fresh

def FiltersNoted (account : Account) (m : ModifyAccount) : Prop :=
  notedFilters account m = m.account.contactsFilters ∨ Pending account m

/-- The operations that note a change of the filters -/
def Op.namesFilters : Op → Bool
  | .setFilters _ _ | .clearContactsfilters => true
  | _ => false

/-- The fields that are not named are those the store has. -/
theorem FiltersNoted.copied (h : FiltersNoted account m) :
    Keyed.copyNamed ContactsFilters.Field.text (m.field.modifyfilters.getD {}).modifyfields
        (m.account.contactsFilters.getD ContactsFilters.fresh)
        ((if (m.field.modifyfilters.getD {}).isclear then none
          else account.contactsFilters).getD ContactsFilters.fresh) =
      m.account.contactsFilters.getD ContactsFilters.fresh := by
  unfold FiltersNoted Pending notedFilters ContactsFiltersField.apply at h
  generalize m.field.modifyfilters.getD {} = mf at h ⊢
  generalize (if mf.isclear then none else account.contactsFilters) = filters at h ⊢
  cases hnames : mf.modifyfields with
  | nil =>
      simp only [hnames, List.isEmpty_nil, if_true] at h
      rw [Keyed.copyNamed_nil]
      obtain h | h := h
      · rw [h]
      · rw [h.1, h.2, Option.getD_none, Option.getD_some]
  | cons name names =>
      simp only [hnames, List.isEmpty_cons, Bool.false_eq_true, if_false] at h
      obtain h | h := h
      · conv_rhs => rw [← h, Option.getD_some]
      · cases h.1

theorem notedFilters_congr {m' : ModifyAccount}
    (hfilters : m'.account.contactsFilters.getD ContactsFilters.fresh =
      m.account.contactsFilters.getD ContactsFilters.fresh)
    (hfield : m'.field.modifyfilters = m.field.modifyfilters) :
    notedFilters account m' = notedFilters account m := by
  unfold notedFilters ContactsFiltersField.apply
  rw [hfield, hfilters]

/-- What an operation does to the filters, if it makes `m'` -/
def FiltersStep (account : Account) (m : ModifyAccount) (op : Op) (m' : ModifyAccount) : Prop :=
  FiltersNoted account m' ∧
    (Pending account m' ↔ (m.account.contactsFilters = none ∧ op = .getMutableContactsFilters) ∨
      (Pending account m ∧ op.namesFilters = false))

/-- An operation on something else -/
theorem FiltersNoted.same (h : FiltersNoted account m) {op : Op} {m' : ModifyAccount}
    (hfilters : m'.account.contactsFilters = m.account.contactsFilters)
    (hfield : m'.field.modifyfilters = m.field.modifyfilters)
    (hop : op ≠ .getMutableContactsFilters) (hnames : op.namesFilters = false) :
    FiltersStep account m op m' := by
  have hnoted : notedFilters account m' = notedFilters account m :=
    notedFilters_congr (by rw [hfilters]) hfield
  unfold FiltersStep FiltersNoted Pending at *
  rw [hnoted, hfilters]
  exact ⟨h, by simp [hop, hnames]⟩

theorem FiltersNoted.getMutableContactsFilters (h : FiltersNoted account m) :
    FiltersStep account m .getMutableContactsFilters m.getMutableContactsFilters := by
  have hnoted : notedFilters account m.getMutableContactsFilters = notedFilters account m :=
    notedFilters_congr rfl rfl
  unfold FiltersStep FiltersNoted Pending at *
  rw [hnoted]
  cases hf : m.account.contactsFilters with
  | none =>
      have hnone : notedFilters account m = none := by
        obtain h | h := h
        · rw [h, hf]
        · exact h.1
      simp [ModifyAccount.getMutableContactsFilters, hf, hnone]
  | some filters =>
      rw [hf] at h
      simpa [ModifyAccount.getMutableContactsFilters, hf, Op.namesFilters] using h

theorem FiltersNoted.setFilters (h : FiltersNoted account m) (f : ContactsFilters.Field)
    (v : f.type) : FiltersStep account m (.setFilters f v) (m.setFilters f v) := by
  have hnoted : notedFilters account (m.setFilters f v) =
      (m.setFilters f v).account.contactsFilters := by
    have hcopied := h.copied
    unfold notedFilters ContactsFiltersField.apply
    simp only [ModifyAccount.setFilters, addContactFilterField, Option.getD_some,
      List.isEmpty_iff, List.append_eq_nil_iff, List.cons_ne_nil, and_false, if_false,
      Keyed.copyNamed_concat ContactsFilters.Field.text_injective]
    exact congrArg (fun filters => some (Function.update filters f v)) hcopied
  refine ⟨Or.inl hnoted, iff_of_false ?_ (by simp [Op.namesFilters])⟩
  rintro ⟨hnone, hsome⟩
  rw [hnoted, hsome] at hnone
  cases hnone

/-- What one operation does to the filters -/
theorem filtersNoted_exec (masterId : UInt32) (h : FiltersNoted account m) (op : Op) :
    FiltersStep account m op (m.exec masterId op) := by
  cases op with
  | getMutableContactsFilters => exact h.getMutableContactsFilters
  | setFilters f v => exact h.setFilters f v
  | clearContactsfilters =>
      refine ⟨Or.inl rfl, iff_of_false ?_ (by simp [Op.namesFilters])⟩
      rintro ⟨-, hsome⟩
      cases hsome
  | setField f v => exact h.same rfl rfl (by simp) rfl
  | setDevice k f v =>
      rw [ModifyAccount.exec, ModifyAccount.setDevice]
      split
      · exact h.same rfl rfl (by simp) rfl
      · exact h.same rfl rfl (by simp) rfl
  | createMutableDevice k => exact h.same rfl rfl (by simp) rfl
  | delDevice k =>
      rw [ModifyAccount.exec, ModifyAccount.delDevice]
      split
      · exact h.same rfl rfl (by simp) rfl
      · exact h.same rfl rfl (by simp) rfl
  | delSlaveDevices => exact h.same rfl rfl (by simp) rfl

/-- Filters that are made by asking for a handle are set or cleared afterwards. -/
def FiltersNamed (masterId : UInt32) (account : Account) (ops : List Op) : Prop :=
  ∀ before rest, ops = before ++ .getMutableContactsFilters :: rest →
    (after masterId account before).account.contactsFilters = none →
      ∃ op ∈ rest, op.namesFilters = true

theorem after_concat (masterId : UInt32) (account : Account) (ops : List Op) (op : Op) :
    after masterId account (ops ++ [op]) = (after masterId account ops).exec masterId op := by
  rw [after, List.foldl_append]
  rfl

theorem filtersNamed_concat {ops : List Op} {op : Op} :
    ¬ FiltersNamed masterId account (ops ++ [op]) ↔
      ((after masterId account ops).account.contactsFilters = none ∧
          op = .getMutableContactsFilters) ∨
        (¬ FiltersNamed masterId account ops ∧ op.namesFilters = false) := by
  simp only [FiltersNamed, not_forall, not_exists, not_and, Bool.not_eq_true, exists_prop]
  constructor
  · rintro ⟨before, rest, heq, hnone, hrest⟩
    obtain rfl | ⟨rest, last, rfl⟩ := List.eq_nil_or_concat' rest
    · obtain ⟨rfl, hop⟩ := List.append_inj' heq rfl
      exact Or.inl ⟨hnone, List.singleton_injective hop⟩
    · rw [← List.cons_append, ← List.append_assoc] at heq
      obtain ⟨rfl, hop⟩ := List.append_inj' heq rfl
      rw [List.singleton_injective hop]
      refine Or.inr ⟨⟨before, rest, rfl, hnone, fun op hop => hrest op (by simp [hop])⟩, ?_⟩
      exact hrest last (by simp)
  · rintro (⟨hnone, rfl⟩ | ⟨⟨before, rest, rfl, hnone, hrest⟩, hop⟩)
    · exact ⟨ops, [], rfl, hnone, by simp⟩
    · refine ⟨before, rest ++ [op], by simp, hnone, fun op' hmem => ?_⟩
      obtain hmem | hmem := List.mem_append.mp hmem
      · exact hrest op' hmem
      · rw [List.mem_singleton.mp hmem, hop]

/-- The filters after a run: they are noted, unless a handle that made them was not used. -/
theorem filtersNoted_after (masterId : UInt32) (account : Account) (ops : List Op) :
    FiltersNoted account (after masterId account ops) ∧
      (Pending account (after masterId account ops) ↔ ¬ FiltersNamed masterId account ops) := by
  induction ops using List.reverseRecOn with
  | nil =>
      have hnoted : notedFilters account (after masterId account []) =
          account.contactsFilters := rfl
      refine ⟨Or.inl hnoted, iff_of_false ?_ ?_⟩
      · rintro ⟨hnone, hsome⟩
        exact absurd (hsome.symm.trans (hnoted.symm.trans hnone)) (by simp)
      · rw [not_not]
        intro before rest heq
        simp at heq
  | append_singleton ops op ih =>
      obtain ⟨hnoted, hpending⟩ := filtersNoted_exec masterId ih.1 op
      rw [after_concat]
      exact ⟨hnoted, by rw [hpending, filtersNamed_concat, ih.2]⟩

/-! ## When the changes that are noted are those that were made -/

/-- The noted changes make the edited account of the original one, with one entry for each
device and none that is erased and created, if no device is erased that has an entry, none is
created again that was erased, and the filters are not left as a handle made them. -/
theorem faithful_iff (masterId : UInt32) (account : Account) (ops : List Op) :
    Faithful account (after masterId account ops) ↔
      (machine masterId).Meets (Allowed masterId) { account := account } ops ∧
        FiltersNamed masterId account ops := by
  have hrun : (machine masterId).run { account := account } ops =
      some (after masterId account ops) := run_eq masterId _ ops
  obtain ⟨hnoted, hpending⟩ := filtersNoted_after masterId account ops
  constructor
  · intro h
    refine ⟨?_, ?_⟩
    · by_contra hno
      refine (machine masterId).run_broken (fun _ => True) (fun m => ¬ m.Consistent)
        (fun _ _ _ _ _ => trivial) ?_ ?_ trivial hrun hno h.consistent
      · rintro m op _ hm ⟨⟩ h'
        exact hm (h'.of_grows (grows_exec masterId m op))
      · rintro m op _ - hno ⟨⟩
        exact not_consistent hno
    · -- filters that nothing is noted of do not come back
      by_contra hno
      obtain ⟨hnone, hsome⟩ := hpending.mpr hno
      have happlied := congrArg Account.contactsFilters h.applied
      rw [notedFilters_eq, hnone, hsome] at happlied
      cases happlied
  · rintro ⟨hmeets, hnamed⟩
    have hdevices : DevicesNoted account (after masterId account ops) := by
      refine (machine masterId).run_invariant (DevicesNoted account) ?_ ?_ hmeets hrun
      · rintro m op _ hm hok ⟨⟩
        exact hm.exec hok
      · exact ⟨List.nodup_nil, by simp, rfl⟩
    have hvalues : ValuesNoted account (after masterId account ops) := by
      refine (machine masterId).run_invariant (ValuesNoted account) ?_ (fun _ _ => rfl) hmeets hrun
      rintro m op _ hm - ⟨⟩
      exact hm.exec op
    refine ⟨hdevices.consistent, Account.ext ?_ hdevices.applied ?_⟩
    · funext f
      by_cases hf : f.text ∈ (after masterId account ops).field.modifyfields
      · exact if_pos hf
      · exact (if_neg hf).trans (hvalues f hf).symm
    · rw [notedFilters_eq]
      exact hnoted.resolve_right fun hp => hpending.mp hp hnamed

/-- A device is renamed and then deleted: there are two entries for it. -/
theorem renamed_then_deleted :
    ¬ ∀ (masterId : UInt32) (account : Account) (ops : List Op),
      Faithful account (after masterId account ops) := by
  intro h
  have hnodup := (h 1 { devices := [Device.fresh 2] }
    [Op.setDeviceName 2 [], .delDevice 2]).consistent.nodup
  change ([2, 2] : List UInt32).Nodup at hnodup
  simp at hnodup

end ModifyAccount

end BcmServer.Store
