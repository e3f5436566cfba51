import BcmServer.Store.ModifyAccount

/-!
# BcmServer.Store.AccountsDao — writing accounts

`AccountsManager::updateAccount` hands the edited account and the `AccountField` to the
store, which is not a part of the repository. What is relied on is that named fields
are copied and that devices come and go by their marks only (`Lawful`); the copying of
`AccountField.apply` is lawful.
-/

namespace BcmServer.Store

open Util

/-- `dao::Accounts::updateAccount`: the stored account as a write leaves it -/
abbrev UpdateAccount := AccountField → Account → Account → Account

/-- What is relied on -/
structure UpdateAccount.Lawful (update : UpdateAccount) : Prop where
  /-- the filters get the fields that are named and keep the others -/
  filters : ∀ (field : AccountField) (account stored : Account) (mf : ContactsFiltersField),
    field.modifyfilters = some mf → mf.isclear = false → mf.modifyfields ≠ [] →
      (update field account stored).contactsFilters =
        some (Keyed.copyNamed ContactsFilters.Field.text mf.modifyfields
          (account.contactsFilters.getD ContactsFilters.fresh)
          (stored.contactsFilters.getD ContactsFilters.fresh))
  /-- a device that is not erased stays -/
  kept : ∀ (field : AccountField) (account stored : Account) (id : UInt32),
    (∀ d ∈ field.devices, d.id = id → d.iserase = false) → (stored.getDevice id).isSome →
      ((update field account stored).getDevice id).isSome
  /-- a device that is created, and not erased, is there -/
  created : ∀ (field : AccountField) (account stored : Account) (id : UInt32),
    (∀ d ∈ field.devices, d.id = id → d.iserase = false) →
      (∃ d ∈ field.devices, d.id = id ∧ d.iscreate = true) →
      ((update field account stored).getDevice id).isSome

namespace DeviceField

variable {account : Account}

/-- An entry that does not erase a device keeps it. -/
theorem isSome_apply {field : DeviceField} {id : UInt32}
    (hno : field.id = id → field.iserase = false)
    {devices : List Device} (h : (Keyed.find Device.id id devices).isSome) :
    (Keyed.find Device.id id (field.apply account devices)).isSome := by
  by_cases hid : id = field.id
  · subst hid
    have hfresh : (Device.fresh field.id).id = field.id := rfl
    rw [apply, Keyed.find_update_self (copyFrom_id field account), Option.isSome_map, createIn,
      eraseFrom, hno rfl, if_neg Bool.false_ne_true]
    split
    · rw [Keyed.find_put_self hfresh, Option.isSome_some]
    · exact h
  · rw [find_apply_ne hid]
    exact h

theorem isSome_apply_of_create {field : DeviceField} (hcreate : field.iscreate = true)
    (devices : List Device) :
    (Keyed.find Device.id field.id (field.apply account devices)).isSome := by
  have hfresh : (Device.fresh field.id).id = field.id := rfl
  rw [apply, Keyed.find_update_self (copyFrom_id field account), Option.isSome_map, createIn,
    if_pos hcreate, Keyed.find_put_self hfresh, Option.isSome_some]

theorem isSome_applyAll {fields : List DeviceField} {id : UInt32}
    (hno : ∀ d ∈ fields, d.id = id → d.iserase = false) {devices : List Device}
    (h : (Keyed.find Device.id id devices).isSome ∨ ∃ d ∈ fields, d.id = id ∧ d.iscreate = true) :
    (Keyed.find Device.id id (applyAll fields account devices)).isSome := by
  induction fields generalizing devices with
  | nil =>
      obtain h | ⟨d, hd, -⟩ := h
      · exact h
      · simp at hd
  | cons field fields ih =>
      rw [List.forall_mem_cons] at hno
      refine ih hno.2 ?_
      obtain h | ⟨d, hd, hid, hcreate⟩ := h
      · exact Or.inl (isSome_apply hno.1 h)
      · obtain rfl | hd := List.mem_cons.mp hd
        · rw [← hid]
          exact Or.inl (isSome_apply_of_create hcreate devices)
        · exact Or.inr ⟨d, hd, hid, hcreate⟩

end DeviceField

theorem AccountField.lawful_apply : UpdateAccount.Lawful AccountField.apply := by
  refine ⟨fun field account stored mf hmf hclear hnames => ?_,
    fun field account stored id hno h => DeviceField.isSome_applyAll hno (Or.inl h),
    fun field account stored id hno h => DeviceField.isSome_applyAll hno (Or.inr h)⟩
  have hempty : mf.modifyfields.isEmpty = false := by simpa using hnames
  simp [AccountField.apply, hmf, ContactsFiltersField.apply, hclear, hempty]

/-- How a write ends: it is made and reported, made and not reported, or not made. -/
inductive WriteResult where
  | done | lost | failed
deriving DecidableEq, Repr

/-- Something was changed. -/
def ModifyAccount.isModified (m : ModifyAccount) : Bool :=
  !m.field.modifyfields.isEmpty || m.field.modifyfilters.isSome || !m.field.devices.isEmpty

/-- `AccountsManager::updateAccount`: whether it succeeds, and the stored account afterwards -/
def ModifyAccount.updateAccount (update : UpdateAccount) (m : ModifyAccount) (stored : Account) :
    WriteResult → Bool × Account
  | .done => if m.isModified then (true, update m.field m.account stored) else (false, stored)
  | .lost => (false, if m.isModified then update m.field m.account stored else stored)
  | .failed => (false, stored)

end BcmServer.Store
