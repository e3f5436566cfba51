import BcmServer.Auth.Authenticator
import BcmServer.Util.Keyed

/-!
# BcmServer.Store.Account — accounts and the changes of them that are written

An account is read from the store as a whole, changed in memory, and written back
together with an `AccountField` that names what was changed. The store copies the
fields that are named, and creates and erases devices (`AccountField.apply`).

The fields of the messages are values by name: of an account those that
`ModifyAccount` can set, with the devices and the contacts filters; of a device all but
the number.
-/

namespace BcmServer.Store

open Util

/-- `SignedPreKey` -/
structure SignedPreKey where
  keyid : UInt32 := 0
  publickey : Bytes := []
  signature : Bytes := []
deriving DecidableEq, Repr

/-- `Account::Privacy` -/
structure Privacy where
  acceptstrangermsg : Bool := false
deriving DecidableEq, Repr

/-! ## Devices -/

namespace Device

/-- The fields of `Device` -/
inductive Field where
  | name | authToken | salt | signalingKey
  | gcmId | umengId | apnId | voipApnId | apnType
  | fetchesMessages | registrationId | version | signedPreKey | lastSeenTime | createTime
  | supportVoice | supportVideo | userAgent | clientVersion | state | features
  | publicKey | accountSignature
deriving DecidableEq, Repr

namespace Field

/-- What a field holds -/
def type : Field → Type
  | name | authToken | salt | signalingKey | gcmId | umengId | apnId | voipApnId | apnType
  | userAgent | features | publicKey | accountSignature => Bytes
  | fetchesMessages | supportVoice | supportVideo => Bool
  | registrationId | version => UInt32
  | lastSeenTime | createTime => UInt64
  | signedPreKey => Option SignedPreKey
  | clientVersion => Option Auth.ClientVersion
  | state => Auth.DeviceState

/-- What a field of a new message holds -/
def default : (f : Field) → f.type
  | name | authToken | salt | signalingKey | gcmId | umengId | apnId | voipApnId | apnType
  | userAgent | features | publicKey | accountSignature => ([] : Bytes)
  | fetchesMessages | supportVoice | supportVideo => false
  | registrationId | version => (0 : UInt32)
  | lastSeenTime | createTime => (0 : UInt64)
  | signedPreKey => (none : Option SignedPreKey)
  | clientVersion => (none : Option Auth.ClientVersion)
  | state => Auth.DeviceState.normal

/-- The name under which a change of the field is noted -/
def text : Field → String
  | name => "name"
  | authToken => "authToken"
  | salt => "salt"
  | signalingKey => "signalingKey"
  | gcmId => "gcmId"
  | umengId => "umengId"
  | apnId => "apnId"
  | voipApnId => "voipApnId"
  | apnType => "apnType"
  | fetchesMessages => "fetchesMessages"
  | registrationId => "registrationId"
  | version => "version"
  | signedPreKey => "signedPreKey"
  | lastSeenTime => "lastSeenTime"
  | createTime => "createTime"
  | supportVoice => "supportVoice"
  | supportVideo => "supportVideo"
  | userAgent => "userAgent"
  | clientVersion => "clientVersion"
  | state => "state"
  | features => "features"
  | publicKey => "publicKey"
  | accountSignature => "accountSignature"

/-- All fields -/
def all : List Field :=
  [name, authToken, salt, signalingKey, gcmId, umengId, apnId, voipApnId, apnType,
    fetchesMessages, registrationId, version, signedPreKey, lastSeenTime, createTime,
    supportVoice, supportVideo, userAgent, clientVersion, state, features, publicKey,
    accountSignature]

/-- No two fields have the same name. -/
theorem text_injective : Function.Injective text := by
  have hall : ∀ f : Field, f ∈ all := fun f => by cases f <;> decide
  have hinj : ∀ f ∈ all, ∀ g ∈ all, text f = text g → f = g := by decide
  exact fun f g h => hinj f (hall f) g (hall g) h

end Field

end Device

/-- `Device` -/
structure Device where
  id : UInt32
  values : (f : Device.Field) → f.type

namespace Device

/-- `Device{}` with a number -/
def fresh (id : UInt32) : Device := ⟨id, Field.default⟩

/-- A field is set. -/
def set (f : Field) (v : f.type) (d : Device) : Device :=
  { d with values := Function.update d.values f v }

end Device

/-! ## Contacts filters -/

namespace ContactsFilters

/-- The fields of `ContactsFilters` -/
inductive Field where
  | algo | content | version
deriving DecidableEq, Repr

namespace Field

def type : Field → Type
  | algo => UInt32
  | content | version => Bytes

def default : (f : Field) → f.type
  | algo => (0 : UInt32)
  | content | version => ([] : Bytes)

def text : Field → String
  | algo => "algo"
  | content => "content"
  | version => "version"

def all : List Field := [algo, content, version]

theorem text_injective : Function.Injective text := by
  have hall : ∀ f : Field, f ∈ all := fun f => by cases f <;> decide
  have hinj : ∀ f ∈ all, ∀ g ∈ all, text f = text g → f = g := by decide
  exact fun f g h => hinj f (hall f) g (hall g) h

end Field

end ContactsFilters

/-- `ContactsFilters` -/
abbrev ContactsFilters := (f : ContactsFilters.Field) → f.type

/-- `ContactsFilters{}` -/
def ContactsFilters.fresh : ContactsFilters := ContactsFilters.Field.default

/-! ## Accounts -/

namespace Account

/-- The fields of `Account` that can be changed -/
inductive Field where
  | identityKey | name | avater | state | privacy | nickname | slaveDeviceNum
  | ldAvatar | hdAvatar | profileKeys
deriving DecidableEq, Repr

namespace Field

def type : Field → Type
  | identityKey | name | avater | nickname | ldAvatar | hdAvatar | profileKeys => Bytes
  | state => Auth.AccountState
  | privacy => Option Privacy
  | slaveDeviceNum => UInt32

def default : (f : Field) → f.type
  | identityKey | name | avater | nickname | ldAvatar | hdAvatar | profileKeys => ([] : Bytes)
  | state => Auth.AccountState.normal
  | privacy => (none : Option Privacy)
  | slaveDeviceNum => (0 : UInt32)

/-- `ACCOUNTS_FIELD_IDENTITYKEY` and the constants after it -/
def text : Field → String
  | identityKey => "identityKey"
  | name => "name"
  | avater => "avater"
  | state => "state"
  | privacy => "privacy"
  | nickname => "nickname"
  | slaveDeviceNum => "slaveDeviceNum"
  | ldAvatar => "ldAvatar"
  | hdAvatar => "hdAvatar"
  | profileKeys => "profileKeys"

def all : List Field :=
  [identityKey, name, avater, state, privacy, nickname, slaveDeviceNum, ldAvatar, hdAvatar,
    profileKeys]

theorem text_injective : Function.Injective text := by
  have hall : ∀ f : Field, f ∈ all := fun f => by cases f <;> decide
  have hinj : ∀ f ∈ all, ∀ g ∈ all, text f = text g → f = g := by decide
  exact fun f g h => hinj f (hall f) g (hall g) h

end Field

end Account

/-- `Account` -/
@[ext] structure Account where
  values : (f : Account.Field) → f.type := Account.Field.default
  devices : List Device := []
  contactsFilters : Option ContactsFilters := none

namespace Account

def set (f : Field) (v : f.type) (account : Account) : Account :=
  { account with values := Function.update account.values f v }

/-- `AccountsManager::getDevice` -/
def getDevice (account : Account) (deviceId : UInt32) : Option Device :=
  Keyed.find Device.id deviceId account.devices

end Account

/-! ## What is written -/

/-- `DeviceField` -/
structure DeviceField where
  id : UInt32
  iscreate : Bool := false
  iserase : Bool := false
  modifyfields : List String := []
deriving DecidableEq, Repr

/-- `ContactsFiltersField` -/
structure ContactsFiltersField where
  isclear : Bool := false
  modifyfields : List String := []
deriving DecidableEq, Repr

/-- `AccountField` -/
structure AccountField where
  modifyfields : List String := []
  devices : List DeviceField := []
  modifyfilters : Option ContactsFiltersField := none
deriving DecidableEq, Repr

namespace DeviceField

/-- The fields that are named are copied from the device in `account`, if there is one. -/
def copyFrom (field : DeviceField) (account : Account) (d : Device) : Device :=
  match account.getDevice field.id with
  | none => d
  | some src =>
      { d with values := Keyed.copyNamed Device.Field.text field.modifyfields src.values d.values }

/-- The device is erased. -/
def eraseFrom (field : DeviceField) (devices : List Device) : List Device :=
  if field.iserase then Keyed.erase Device.id field.id devices else devices

/-- The device is created. -/
def createIn (field : DeviceField) (devices : List Device) : List Device :=
  if field.iscreate then Keyed.put Device.id field.id (Device.fresh field.id) devices else devices

/-- A device is erased, then created, then the fields that are named are copied. -/
def apply (field : DeviceField) (account : Account) (devices : List Device) : List Device :=
  Keyed.update Device.id field.id (field.copyFrom account)
    (field.createIn (field.eraseFrom devices))

/-- The entries one after the other -/
def applyAll (fields : List DeviceField) (account : Account) (devices : List Device) :
    List Device :=
  fields.foldl (fun devices field => field.apply account devices) devices

end DeviceField

/-- The filters are cleared, then the fields that are named are copied. -/
def ContactsFiltersField.apply (field : ContactsFiltersField) (account : Account)
    (filters : Option ContactsFilters) : Option ContactsFilters :=
  let filters := if field.isclear then none else filters
  if field.modifyfields.isEmpty then filters
  else
    let src := account.contactsFilters.getD ContactsFilters.fresh
    some (Keyed.copyNamed ContactsFilters.Field.text field.modifyfields src
      (filters.getD ContactsFilters.fresh))

namespace AccountField

/-- What the store makes of the stored account when `account` is written with this field. -/
def apply (field : AccountField) (account stored : Account) : Account :=
  { values := Keyed.copyNamed Account.Field.text field.modifyfields account.values stored.values
    devices := DeviceField.applyAll field.devices account stored.devices
    contactsFilters :=
      match field.modifyfilters with
      | none => stored.contactsFilters
      | some f => f.apply account stored.contactsFilters }

end AccountField

/-! ## An entry is about one device -/

namespace DeviceField

variable {field : DeviceField} {account account' : Account} {k : UInt32} {f : Device → Device}

theorem copyFrom_id (field : DeviceField) (account : Account) (d : Device) :
    (field.copyFrom account d).id = d.id := by
  unfold copyFrom
  cases account.getDevice field.id <;> rfl

theorem copyFrom_of_some (field : DeviceField) {src : Device}
    (h : account.getDevice field.id = some src) (d : Device) :
    field.copyFrom account d =
      { d with
        values := Keyed.copyNamed Device.Field.text field.modifyfields src.values d.values } := by
  unfold copyFrom
  rw [h]

theorem copyFrom_of_nil (h : field.modifyfields = []) (account : Account) :
    field.copyFrom account = fun d => d := by
  funext d
  unfold copyFrom
  rw [h]
  cases account.getDevice field.id with
  | none => rfl
  | some src => simp only [Keyed.copyNamed_nil]

theorem apply_congr (h : account.getDevice field.id = account'.getDevice field.id) :
    field.apply account = field.apply account' := by
  funext devices
  unfold apply copyFrom
  rw [h]

theorem find_eraseFrom_ne (hk : k ≠ field.id) (devices : List Device) :
    Keyed.find Device.id k (field.eraseFrom devices) = Keyed.find Device.id k devices := by
  unfold eraseFrom
  split
  · exact Keyed.find_erase_ne hk devices
  · rfl

theorem find_createIn_ne (hk : k ≠ field.id) (devices : List Device) :
    Keyed.find Device.id k (field.createIn devices) = Keyed.find Device.id k devices := by
  have hfresh : (Device.fresh field.id).id = field.id := rfl
  unfold createIn
  split
  · exact Keyed.find_put_ne hfresh hk devices
  · rfl

theorem find_apply_ne (hk : k ≠ field.id) (devices : List Device) :
    Keyed.find Device.id k (field.apply account devices) = Keyed.find Device.id k devices := by
  rw [apply, Keyed.find_update_ne (copyFrom_id field account) hk, find_createIn_ne hk,
    find_eraseFrom_ne hk]

theorem eraseFrom_update (hf : ∀ d, (f d).id = d.id) (hk : field.id ≠ k) (devices : List Device) :
    field.eraseFrom (Keyed.update Device.id k f devices) =
      Keyed.update Device.id k f (field.eraseFrom devices) := by
  unfold eraseFrom
  split
  · exact Keyed.erase_update hf hk devices
  · rfl

theorem createIn_update (hf : ∀ d, (f d).id = d.id) (hk : field.id ≠ k) (devices : List Device) :
    field.createIn (Keyed.update Device.id k f devices) =
      Keyed.update Device.id k f (field.createIn devices) := by
  have hfresh : (Device.fresh field.id).id = field.id := rfl
  unfold createIn
  split
  · exact Keyed.put_update hf hfresh hk devices
  · rfl

theorem apply_update (hf : ∀ d, (f d).id = d.id) (hk : field.id ≠ k) (devices : List Device) :
    field.apply account (Keyed.update Device.id k f devices) =
      Keyed.update Device.id k f (field.apply account devices) := by
  rw [apply, apply, eraseFrom_update hf hk, createIn_update hf hk,
    Keyed.update_comm hf (copyFrom_id field account) hk]

/-! ## Many entries -/

theorem applyAll_append (fields fields' : List DeviceField) (account : Account)
    (devices : List Device) :
    applyAll (fields ++ fields') account devices =
      applyAll fields' account (applyAll fields account devices) :=
  List.foldl_append

theorem applyAll_congr {fields : List DeviceField}
    (h : ∀ field ∈ fields, account.getDevice field.id = account'.getDevice field.id) :
    applyAll fields account = applyAll fields account' := by
  funext devices
  induction fields generalizing devices with
  | nil => rfl
  | cons field fields ih =>
      rw [List.forall_mem_cons] at h
      have happly := congrFun (apply_congr h.1) devices
      rw [applyAll, applyAll, List.foldl_cons, List.foldl_cons, happly]
      exact ih h.2 _

theorem find_applyAll_ne {fields : List DeviceField} (hk : k ∉ fields.map DeviceField.id)
    (devices : List Device) :
    Keyed.find Device.id k (applyAll fields account devices) = Keyed.find Device.id k devices := by
  induction fields generalizing devices with
  | nil => rfl
  | cons field fields ih =>
      rw [List.map_cons, List.mem_cons, not_or] at hk
      exact (ih hk.2 _).trans (find_apply_ne hk.1 devices)

theorem applyAll_update {fields : List DeviceField} (hf : ∀ d, (f d).id = d.id)
    (hk : k ∉ fields.map DeviceField.id) (devices : List Device) :
    applyAll fields account (Keyed.update Device.id k f devices) =
      Keyed.update Device.id k f (applyAll fields account devices) := by
  induction fields generalizing devices with
  | nil => rfl
  | cons field fields ih =>
      rw [List.map_cons, List.mem_cons, not_or] at hk
      rw [applyAll, List.foldl_cons, apply_update hf (Ne.symm hk.1)]
      exact ih hk.2 _

/-- An entry that changes a device of its own: the change can be made at the end. -/
theorem applyAll_change {before rest : List DeviceField} {field field' : DeviceField}
    {devices : List Device} (hf : ∀ d, (f d).id = d.id)
    (hbefore : field.id ∉ before.map DeviceField.id)
    (hrest : field.id ∉ rest.map DeviceField.id)
    (hother : ∀ k, k ≠ field.id → account'.getDevice k = account.getDevice k)
    (hchange : ∀ ds, Keyed.find Device.id field.id ds = Keyed.find Device.id field.id devices →
      field'.apply account' ds = Keyed.update Device.id field.id f (field.apply account ds)) :
    applyAll (before ++ field' :: rest) account' devices =
      Keyed.update Device.id field.id f (applyAll (before ++ field :: rest) account devices) := by
  have hcongr : ∀ {fields : List DeviceField}, field.id ∉ fields.map DeviceField.id →
      applyAll fields account' = applyAll fields account := by
    intro fields hnot
    refine applyAll_congr fun e he => hother e.id fun heq => hnot ?_
    rw [← heq]
    exact List.mem_map_of_mem he
  have hfind : Keyed.find Device.id field.id (applyAll before account devices) =
      Keyed.find Device.id field.id devices := find_applyAll_ne hbefore devices
  rw [applyAll_append, applyAll_append, hcongr hbefore]
  generalize applyAll before account devices = ds at hfind ⊢
  have hcons : ∀ (e : DeviceField) (a : Account),
      applyAll (e :: rest) a ds = applyAll rest a (e.apply a ds) := fun _ _ => rfl
  rw [hcons, hcons, hcongr hrest, hchange ds hfind, applyAll_update hf hrest]

end DeviceField

end BcmServer.Store
