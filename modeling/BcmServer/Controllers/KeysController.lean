import BcmServer.Store.FieldPairs
import Mathlib.Data.List.Count
import Mathlib.Data.List.Dedup

/-!
# BcmServer.Controllers.KeysController — the keys to start a session with

Who wants to write to a device needs its identity key, its signed key and one of the
one-time keys that it has uploaded. The one-time keys are in a store of their own, which is
not a part of the repository; what is relied on is that it deletes what it gives away
(`OnetimeKeys.Lawful`).

`count_response`: no one-time key is in a response more often than in what the store gave,
for an account whose devices have different numbers.
-/

namespace BcmServer.Controllers

open Util Store

/-! ## The store of one-time keys -/

/-- `PreKey` -/
structure PreKey where
  keyid : UInt64
  publickey : Bytes
deriving DecidableEq, Repr

/-- `OnetimeKey` of one account -/
structure OnetimeKey where
  deviceid : UInt32
  keyid : UInt64
  publickey : Bytes
deriving DecidableEq, Repr

/-- `dao::OnetimeKeys` for one account: the keys that `get` gives, for a device or all, and what is
left of the stored ones; and what is stored after `set` and `clear` -/
structure OnetimeKeys where
  get : Option UInt32 → List OnetimeKey → List OnetimeKey × List OnetimeKey
  set : UInt32 → List OnetimeKey → List OnetimeKey → List OnetimeKey
  clear : UInt32 → List OnetimeKey → List OnetimeKey

/-- What is relied on: keys are deleted when they are given away, and none come from nowhere. -/
structure OnetimeKeys.Lawful (dao : OnetimeKeys) : Prop where
  get : ∀ deviceId stored, ((dao.get deviceId stored).1 ++ (dao.get deviceId stored).2).Perm stored
  set : ∀ deviceId keys stored, (dao.set deviceId keys stored).Subperm (keys ++ stored)
  clear : ∀ deviceId stored, (dao.clear deviceId stored).Subperm stored

namespace OnetimeKeys

/-- The key with the smaller number -/
def smaller (a b : OnetimeKey) : OnetimeKey := if b.keyid < a.keyid then b else a

/-- The first key of a device, by number -/
def first (stored : List OnetimeKey) (deviceId : UInt32) : Option OnetimeKey :=
  match stored.filter fun k => k.deviceid = deviceId with
  | [] => none
  | k :: ks => some (ks.foldl smaller k)

/-- The first key of a device is given away. -/
def take (deviceId : UInt32) (stored : List OnetimeKey) : List OnetimeKey × List OnetimeKey :=
  match first stored deviceId with
  | none => ([], stored)
  | some k => ([k], stored.erase k)

/-- The first key of each device is given away. -/
def takeAll : List UInt32 → List OnetimeKey → List OnetimeKey × List OnetimeKey
  | [], stored => ([], stored)
  | deviceId :: ids, stored =>
      let taken := take deviceId stored
      let rest := takeAll ids taken.2
      (taken.1 ++ rest.1, rest.2)

/-- The store as `dao/onetime_keys.h` describes it -/
def sorted : OnetimeKeys where
  get
    | some deviceId, stored => take deviceId stored
    | none, stored => takeAll ((stored.map OnetimeKey.deviceid).dedup) stored
  set deviceId keys stored := keys ++ stored.filter fun k => k.deviceid ≠ deviceId
  clear deviceId stored := stored.filter fun k => k.deviceid ≠ deviceId

theorem foldl_smaller_mem (ks : List OnetimeKey) (k : OnetimeKey) :
    ks.foldl smaller k ∈ k :: ks := by
  induction ks generalizing k with
  | nil => exact List.mem_cons_self
  | cons a ks ih =>
      have hmem := ih (smaller k a)
      rw [List.foldl_cons]
      rcases List.mem_cons.mp hmem with heq | hmem
      · rw [heq, smaller]
        split
        · simp
        · simp
      · exact List.mem_cons_of_mem k (List.mem_cons_of_mem a hmem)

theorem first_mem {stored : List OnetimeKey} {deviceId : UInt32} {k : OnetimeKey}
    (h : first stored deviceId = some k) : k ∈ stored := by
  unfold first at h
  split at h
  · cases h
  · rename_i a ks heq
    cases h
    have hmem : ks.foldl smaller a ∈ stored.filter fun k => k.deviceid = deviceId :=
      heq ▸ foldl_smaller_mem ks a
    exact List.mem_of_mem_filter hmem

theorem take_perm (deviceId : UInt32) (stored : List OnetimeKey) :
    ((take deviceId stored).1 ++ (take deviceId stored).2).Perm stored := by
  unfold take
  cases h : first stored deviceId with
  | none => exact List.Perm.refl _
  | some k => exact (List.perm_cons_erase (first_mem h)).symm

theorem takeAll_perm (ids : List UInt32) (stored : List OnetimeKey) :
    ((takeAll ids stored).1 ++ (takeAll ids stored).2).Perm stored := by
  induction ids generalizing stored with
  | nil => exact List.Perm.refl _
  | cons deviceId ids ih =>
      show ((take deviceId stored).1 ++ (takeAll ids (take deviceId stored).2).1 ++
        (takeAll ids (take deviceId stored).2).2).Perm stored
      rw [List.append_assoc]
      exact ((ih (take deviceId stored).2).append_left _).trans (take_perm deviceId stored)

theorem lawful_sorted : sorted.Lawful where
  get deviceId stored := by
    cases deviceId with
    | none => exact takeAll_perm _ stored
    | some deviceId => exact take_perm deviceId stored
  set deviceId keys stored := (List.filter_sublist.append_left keys).subperm
  clear deviceId stored := List.filter_sublist.subperm

end OnetimeKeys

/-! ## Uploads and responses -/

/-- `PreKeyState` -/
structure PreKeyState where
  preKeys : List PreKey
  signedPreKey : SignedPreKey
deriving DecidableEq, Repr

/-- The one-time keys of a device that are to be stored -/
structure KeyUpload where
  deviceId : UInt32
  keys : List OnetimeKey
deriving DecidableEq, Repr

/-- The one-time keys that a device uploads, if there are any -/
def PreKeyState.upload (keyState : PreKeyState) (deviceId : UInt32) : Option KeyUpload :=
  let keys := keyState.preKeys.map fun preKey =>
    { deviceid := deviceId
      keyid := preKey.keyid
      publickey := preKey.publickey : OnetimeKey }
  if keys.isEmpty then none
  else
    some
      { deviceId := deviceId
        keys := keys }

/-- `PreKeyResponseItem` -/
structure PreKeyResponseItem where
  deviceId : UInt32
  registrationId : UInt32
  deviceIdentityKey : Bytes
  accountSignature : Bytes
  signedPreKey : Option SignedPreKey
  preKey : Option PreKey
deriving DecidableEq, Repr

/-- `PreKeyResponse` -/
structure PreKeyResponse where
  identityKey : Bytes
  devices : List PreKeyResponseItem
deriving DecidableEq, Repr

/-- 30 days, and 365 days -/
def kDeviceExpired : Int64 := 30 * 24 * 60 * 60 * 1000
def kAccountExpired : Int64 := 365 * 24 * 60 * 60 * 1000

section

variable (masterId : UInt32) (nowInMilli : Int64)

/-- `AccountsManager::isDeviceActive` -/
def isDeviceActive (d : Device) : Bool :=
  let fetchesmessages : Bool := d.values .fetchesMessages
  let apnid : Bytes := d.values .apnId
  let umengid : Bytes := d.values .umengId
  let gcmid : Bytes := d.values .gcmId
  let signedprekey : Option SignedPreKey := d.values .signedPreKey
  let lastseentime : UInt64 := d.values .lastSeenTime
  let hasChannel := fetchesmessages || !apnid.isEmpty || !umengid.isEmpty || !gcmid.isEmpty
  d.id == masterId && hasChannel && signedprekey.isSome ||
    d.id != masterId && hasChannel && signedprekey.isSome &&
      lastseentime.toInt64 > nowInMilli - kDeviceExpired

/-- `AccountsManager::getAccountLastSeen` -/
def getAccountLastSeen (account : Account) : Int64 :=
  (account.devices.foldl (fun (lastSeen : UInt64) (d : Device) =>
    let lastseentime : UInt64 := d.values .lastSeenTime
    if lastseentime > lastSeen then lastseentime else lastSeen) 0).toInt64

/-- `AccountsManager::isAccountActive` -/
def isAccountActive (account : Account) : Bool :=
  let state : Auth.AccountState := account.values .state
  match account.getDevice masterId with
  | none => false
  | some masterDevice => state = .normal && isDeviceActive masterId nowInMilli masterDevice &&
      getAccountLastSeen account > nowInMilli - kAccountExpired

/-- The devices that are asked for: all, or the one with the number, which `std::stoul` reads and
which is cut to 32 bits -/
def readSelector (selector : Bytes) : Option (Option UInt32) :=
  if selector = ascii "*".toList then some none
  else (stoull selector).map fun n => some n.toUInt32

/-- `KeysController::getAccount`, for an account that was read: the devices that are asked for, if
the account is active and has them -/
def getAccount (account : Account) (selector : Bytes) : Option (Option UInt32) :=
  if !isAccountActive masterId nowInMilli account then none
  else
    match readSelector selector with
    | none => none
    | some none => some none
    | some (some deviceId) =>
        if (account.getDevice deviceId).isSome then some (some deviceId) else none

/-- The item of a device in the response, with the first of the keys that is for it -/
def responseItem (identitykey : Bytes) (targetKeys : List OnetimeKey) (d : Device) :
    PreKeyResponseItem :=
  let publickey : Bytes := d.values .publicKey
  { deviceId := d.id
    registrationId := d.values .registrationId
    -- to be compatible with old data
    deviceIdentityKey := if d.id = masterId && publickey.isEmpty then identitykey else publickey
    accountSignature := d.values .accountSignature
    signedPreKey := d.values .signedPreKey
    preKey := (targetKeys.find? fun k => k.deviceid = d.id).map fun k =>
      { keyid := k.keyid
        publickey := k.publickey } }

/-- `KeysController::getDeviceKeys` after the one-time keys were read; without a value where no
device is left -/
def getDeviceKeys (target : Account) (deviceId : Option UInt32) (targetKeys : List OnetimeKey) :
    Option PreKeyResponse :=
  let identitykey : Bytes := target.values .identityKey
  let devices := target.devices.filter fun d => isDeviceActive masterId nowInMilli d &&
    deviceId.all fun id => d.id = id
  let items := devices.map (responseItem masterId identitykey targetKeys)
  let items := items.filter fun item => item.signedPreKey.isSome || item.preKey.isSome
  if items.isEmpty then none
  else
    some
      { identityKey := identitykey
        devices := items }

end

/-- The one-time key of an item -/
def PreKeyResponseItem.onetimeKey (item : PreKeyResponseItem) : Option OnetimeKey :=
  item.preKey.map fun k =>
    { deviceid := item.deviceId
      keyid := k.keyid
      publickey := k.publickey }

/-- The one-time keys that a response gives away -/
def PreKeyResponse.onetimeKeys (r : PreKeyResponse) : List OnetimeKey :=
  r.devices.filterMap PreKeyResponseItem.onetimeKey

/-! ## What a response gives away -/

variable {masterId : UInt32} {nowInMilli : Int64}

theorem onetimeKey_responseItem (identitykey : Bytes) (targetKeys : List OnetimeKey) (d : Device) :
    (responseItem masterId identitykey targetKeys d).onetimeKey =
      targetKeys.find? fun k => k.deviceid = d.id := by
  unfold PreKeyResponseItem.onetimeKey responseItem
  cases hfind : targetKeys.find? fun k => k.deviceid = d.id with
  | none => simp
  | some k =>
      have hid : k.deviceid = d.id := by simpa using List.find?_some hfind
      simp [← hid]

/-- The key of a device is its own one, or the identity key for the master device. -/
theorem deviceIdentityKey_responseItem (identitykey : Bytes) (targetKeys : List OnetimeKey)
    (d : Device) :
    let item := responseItem masterId identitykey targetKeys d
    item.deviceIdentityKey = d.values .publicKey ∨
      d.id = masterId ∧ item.deviceIdentityKey = identitykey := by
  let publickey : Bytes := d.values .publicKey
  show (if (d.id = masterId && publickey.isEmpty) = true then identitykey else publickey) =
      publickey ∨
    d.id = masterId ∧
      (if (d.id = masterId && publickey.isEmpty) = true then identitykey else publickey) = identitykey
  by_cases hmaster : (d.id = masterId && publickey.isEmpty) = true
  · rw [if_pos hmaster]
    rw [Bool.and_eq_true, decide_eq_true_eq] at hmaster
    exact Or.inr ⟨hmaster.1, rfl⟩
  · rw [if_neg hmaster]
    exact Or.inl rfl

/-- The items of a response are those of devices of the account. -/
theorem getDeviceKeys_cases {target : Account} {deviceId : Option UInt32}
    {targetKeys : List OnetimeKey} {response : PreKeyResponse}
    (h : getDeviceKeys masterId nowInMilli target deviceId targetKeys = some response) :
    response.identityKey = target.values .identityKey ∧
      ∃ devices : List Device, devices.Sublist target.devices ∧
        (∀ d ∈ devices, isDeviceActive masterId nowInMilli d = true) ∧
        response.devices.Sublist
          (devices.map (responseItem masterId (target.values .identityKey) targetKeys)) := by
  simp only [getDeviceKeys] at h
  split at h
  · cases h
  · cases h
    refine ⟨rfl, _, List.filter_sublist, ?_, List.filter_sublist⟩
    intro d hd
    have hactive := (List.mem_filter.mp hd).2
    rw [Bool.and_eq_true] at hactive
    exact hactive.1

/-- An active device has a signed key. -/
theorem signedPreKey_of_active {d : Device} (h : isDeviceActive masterId nowInMilli d = true) :
    (d.values .signedPreKey : Option SignedPreKey).isSome := by
  simp only [isDeviceActive, Bool.or_eq_true, Bool.and_eq_true] at h
  rcases h with h | h
  · exact h.2
  · exact h.1.2

/-- Keys that are found for different numbers are different keys. -/
theorem count_find_le (targetKeys : List OnetimeKey) {devices : List Device}
    (hnodup : (devices.map Device.id).Nodup) (k : OnetimeKey) :
    (devices.filterMap fun d => targetKeys.find? fun k => k.deviceid = d.id).count k ≤
      targetKeys.count k := by
  by_cases hmem : k ∈ devices.filterMap fun d => targetKeys.find? fun k => k.deviceid = d.id
  swap
  · rw [List.count_eq_zero_of_not_mem hmem]
    exact Nat.zero_le _
  have hone : (devices.filterMap fun d =>
      targetKeys.find? fun k => k.deviceid = d.id).count k ≤ 1 := by
    refine List.nodup_iff_count_le_one.mp ?_ k
    rw [List.Nodup, List.pairwise_filterMap]
    refine (List.pairwise_map.mp hnodup).imp ?_
    intro d d' hne a ha b hb hab
    have had : a.deviceid = d.id := by simpa using List.find?_some ha
    have hbd : b.deviceid = d'.id := by simpa using List.find?_some hb
    exact hne (had.symm.trans (hab ▸ hbd))
  have hstored : k ∈ targetKeys := by
    rcases List.mem_filterMap.mp hmem with ⟨d, -, hfind⟩
    exact List.mem_of_find?_eq_some hfind
  exact hone.trans (List.count_pos_iff.mpr hstored)

/-- No one-time key is given away more often than the store gave it. -/
theorem count_response {target : Account} {deviceId : Option UInt32}
    {targetKeys : List OnetimeKey} {response : PreKeyResponse}
    (hnodup : (target.devices.map Device.id).Nodup)
    (h : getDeviceKeys masterId nowInMilli target deviceId targetKeys = some response)
    (k : OnetimeKey) : response.onetimeKeys.count k ≤ targetKeys.count k := by
  obtain ⟨-, devices, hdevices, -, hitems⟩ := getDeviceKeys_cases h
  have hsub : response.onetimeKeys.Sublist
      (devices.filterMap fun d => targetKeys.find? fun k => k.deviceid = d.id) := by
    have hitem : PreKeyResponseItem.onetimeKey ∘
        responseItem masterId (target.values .identityKey) targetKeys =
          fun d => targetKeys.find? fun k => k.deviceid = d.id :=
      funext fun d => onetimeKey_responseItem _ targetKeys d
    have hfilter := hitems.filterMap PreKeyResponseItem.onetimeKey
    rw [List.filterMap_map, hitem] at hfilter
    exact hfilter
  exact (hsub.count_le k).trans
    (count_find_le targetKeys (hnodup.sublist (hdevices.map Device.id)) k)

end BcmServer.Controllers
