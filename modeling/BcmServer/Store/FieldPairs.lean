import BcmServer.Store.AccountsDao

/-!
# BcmServer.Store.FieldPairs — fields that are set together

The token of a device means nothing without its salt, and the signature of its key nothing
without the key. Requests run at the same time and each writes the fields that it names
into whatever is stored by then, so what holds of two such fields in every copy of the
account holds in the store only because they are always named together.

* `FieldPair.Kept`: what holds of an edited account and of what was noted of it.
* `FieldPair.kept_after`: operations that set the fields together keep it.
* `AccountsDao.Lawful`: what is relied on of the store. A device is a stored or a new one
  into which fields were copied that entries for it name.
* `FieldPair.Kept.of_updateAccount`: a write of such an account into such a store.
-/

namespace BcmServer.Store

open Util

/-! ## Pairs of fields -/

/-- Two fields of a device, and what holds of the device with a number and these values. It
holds of a new device. -/
structure FieldPair where
  first : Device.Field
  second : Device.Field
  Holds : UInt32 → first.type → second.type → Prop
  fresh : ∀ id, Holds id first.default second.default

namespace FieldPair

variable (p : FieldPair)

/-- It holds of a device. -/
def Of (d : Device) : Prop := p.Holds d.id (d.values p.first) (d.values p.second)

/-- The fields are named together. -/
def Named (names : List String) : Prop := p.first.text ∈ names ↔ p.second.text ∈ names

/-- The operation sets neither field. -/
def Apart : ModifyAccount.Op → Prop
  | .setDevice _ f _ => f ≠ p.first ∧ f ≠ p.second
  | _ => True

/-- The fields are set one after the other, to values of which it holds. -/
inductive Together : List ModifyAccount.Op → Prop where
  | nil : Together []
  | other {op : ModifyAccount.Op} {ops : List ModifyAccount.Op} :
      p.Apart op → Together ops → Together (op :: ops)
  | pair {id : UInt32} {v : p.first.type} {w : p.second.type} {ops : List ModifyAccount.Op} :
      p.Holds id v w → Together ops →
        Together (.setDevice id p.first v :: .setDevice id p.second w :: ops)

/-- It holds of every device of the edited account, and the entries name both fields or none. -/
structure Kept (m : ModifyAccount) : Prop where
  devices : ∀ d ∈ m.account.devices, p.Of d
  entries : ∀ e ∈ m.field.devices, p.Named e.modifyfields

variable {p}

/-! ## Operations that set the fields together -/

theorem of_fresh (id : UInt32) : p.Of (Device.fresh id) := p.fresh id

theorem named_nil : p.Named [] := by simp [Named]

/-- A field that is not one of the two is set. -/
theorem Of.set {d : Device} (h : p.Of d) {f : Device.Field} (hf : f ≠ p.first ∧ f ≠ p.second)
    (v : f.type) : p.Of (d.set f v) := by
  show p.Holds d.id (Function.update d.values f v p.first) (Function.update d.values f v p.second)
  rw [Function.update_of_ne hf.1.symm, Function.update_of_ne hf.2.symm]
  exact h

/-- Both fields are set. -/
theorem of_set_set {d : Device} {v : p.first.type} {w : p.second.type} (hne : p.first ≠ p.second)
    (h : p.Holds d.id v w) : p.Of ((d.set p.first v).set p.second w) := by
  show p.Holds d.id (Function.update (Function.update d.values p.first v) p.second w p.first)
    (Function.update (Function.update d.values p.first v) p.second w p.second)
  rw [Function.update_self, Function.update_of_ne hne, Function.update_self]
  exact h

theorem Named.concat {names : List String} (h : p.Named names) {f : Device.Field}
    (hf : f ≠ p.first ∧ f ≠ p.second) : p.Named (names ++ [f.text]) := by
  have hfirst : p.first.text ≠ f.text := fun h => hf.1 (Device.Field.text_injective h).symm
  have hsecond : p.second.text ≠ f.text := fun h => hf.2 (Device.Field.text_injective h).symm
  simpa [Named, hfirst, hsecond] using h

theorem named_both (names : List String) :
    p.Named (names ++ [p.first.text] ++ [p.second.text]) := by
  simp [Named]

/-- The entry of a device is changed. -/
theorem entries_changeEntry {m : ModifyAccount} {id : UInt32} {f : DeviceField → DeviceField}
    {added : DeviceField} (h : ∀ e ∈ m.field.devices, p.Named e.modifyfields)
    (hf : ∀ e, p.Named e.modifyfields → p.Named (f e).modifyfields)
    (hadded : p.Named added.modifyfields) :
    ∀ e ∈ (m.changeEntry id f added).field.devices, p.Named e.modifyfields := by
  intro e he
  simp only [ModifyAccount.changeEntry] at he
  split at he
  · rcases Keyed.mem_update_key he with he | ⟨e', he', -, rfl⟩
    · exact h e he
    · exact hf e' (h e' he')
  · rcases List.mem_append.mp he with he | he
    · exact h e he
    · rw [List.mem_singleton.mp he]
      exact hadded

theorem Kept.setDevice {m : ModifyAccount} (h : p.Kept m) (id : UInt32) {f : Device.Field}
    (hf : f ≠ p.first ∧ f ≠ p.second) (v : f.type) : p.Kept (m.setDevice id f v) := by
  unfold ModifyAccount.setDevice
  split
  · constructor
    · intro d hd
      rcases Keyed.mem_update_key hd with hd | ⟨d', hd', -, rfl⟩
      · exact h.devices d hd
      · exact (h.devices d' hd').set hf v
    · exact entries_changeEntry h.entries (fun e he => he.concat hf) (named_nil.concat hf)
  · exact h

theorem Kept.exec {m : ModifyAccount} (h : p.Kept m) (masterId : UInt32) {op : ModifyAccount.Op}
    (hop : p.Apart op) : p.Kept (m.exec masterId op) := by
  have herased : ∀ id, p.Named (ModifyAccount.erasedEntry id).modifyfields := fun id => named_nil
  cases op with
  | setField f v => exact ⟨h.devices, h.entries⟩
  | setDevice id f v => exact h.setDevice id hop v
  | createMutableDevice devId =>
      constructor
      · intro d hd
        rcases Keyed.mem_put hd with hd | rfl
        · exact h.devices d hd
        · exact of_fresh devId
      · exact entries_changeEntry h.entries (fun e _ => named_nil) named_nil
  | delDevice devId =>
      show p.Kept (m.delDevice masterId devId)
      unfold ModifyAccount.delDevice
      split
      · constructor
        · intro d hd
          exact h.devices d (Keyed.mem_of_mem_erase hd)
        · intro e he
          rcases List.mem_append.mp he with he | he
          · exact h.entries e he
          · rw [List.mem_singleton.mp he]
            exact herased devId
      · exact h
  | delSlaveDevices =>
      constructor
      · intro d hd
        exact h.devices d (List.mem_filter.mp hd).1
      · intro e he
        rcases List.mem_append.mp he with he | he
        · exact h.entries e he
        · rcases List.mem_map.mp he with ⟨id, -, rfl⟩
          exact herased id
  | getMutableContactsFilters => exact ⟨h.devices, h.entries⟩
  | setFilters f v => exact ⟨h.devices, h.entries⟩
  | clearContactsfilters => exact ⟨h.devices, h.entries⟩

/-- The devices and the entries after a field of a device was set -/
theorem devices_setDevice {m : ModifyAccount} {id : UInt32} (f : Device.Field) (v : f.type)
    (h : (m.account.getDevice id).isSome) :
    (m.setDevice id f v).account.devices =
        Keyed.update Device.id id (Device.set f v) m.account.devices ∧
      (m.setDevice id f v).field.devices =
        (m.changeEntry id (DeviceField.addName f.text)
          { id := id
            modifyfields := [f.text] }).field.devices := by
  rw [ModifyAccount.setDevice, if_pos h]
  exact ⟨rfl, rfl⟩

theorem getDevice_setDevice {m : ModifyAccount} {id : UInt32} (f : Device.Field) (v : f.type)
    (h : (m.account.getDevice id).isSome) :
    ((m.setDevice id f v).account.getDevice id).isSome := by
  have hset : ∀ d, (Device.set f v d).id = d.id := fun d => rfl
  rw [Account.getDevice, (devices_setDevice f v h).1, Keyed.find_update_self hset,
    Option.isSome_map]
  exact h

/-- A field is named in the entry of a device, or in one that is added. -/
def nameIn (id : UInt32) (name : String) (entries : List DeviceField) : List DeviceField :=
  if (Keyed.find DeviceField.id id entries).isSome then
    Keyed.update DeviceField.id id (DeviceField.addName name) entries
  else entries ++ [{ id := id, modifyfields := [name] }]

/-- Two fields are named one after the other, in the same entry. -/
theorem named_nameIn {entries : List DeviceField} (h : ∀ e ∈ entries, p.Named e.modifyfields)
    (id : UInt32) : ∀ e ∈ nameIn id p.second.text (nameIn id p.first.text entries),
      p.Named e.modifyfields := by
  intro e he
  have hid : ∀ name e, (DeviceField.addName name e).id = e.id := fun name e => rfl
  by_cases hentry : (Keyed.find DeviceField.id id entries).isSome = true
  · simp only [nameIn, hentry, if_true, Keyed.find_update_self (hid p.first.text),
      Option.isSome_map, Keyed.update_update (hid p.first.text)] at he
    rcases Keyed.mem_update_key he with he | ⟨e, -, -, rfl⟩
    · exact h e he
    · exact named_both e.modifyfields
  · have hnone : Keyed.find DeviceField.id id entries = none := by simpa using hentry
    let added : DeviceField := { id := id, modifyfields := [p.first.text] }
    have hkey : added.id = id := rfl
    have hadded : Keyed.find DeviceField.id id (entries ++ [added]) = some added := by
      rw [Keyed.find_append, hnone, Option.none_or, Keyed.find_cons_self hkey]
    have hnames : nameIn id p.second.text (nameIn id p.first.text entries) =
        entries ++ [added.addName p.second.text] := by
      have hfirst : nameIn id p.first.text entries = entries ++ [added] := if_neg hentry
      rw [hfirst, nameIn, hadded, Option.isSome_some, if_pos rfl,
        Keyed.update_append_of_none hnone, Keyed.update_cons_self hkey]
    rw [hnames] at he
    rcases List.mem_append.mp he with he | he
    · exact h e he
    · rw [List.mem_singleton.mp he]
      exact named_both []

/-- Both fields of a device are set. -/
theorem Kept.set_set {m : ModifyAccount} (h : p.Kept m) (hne : p.first ≠ p.second) {id : UInt32}
    {v : p.first.type} {w : p.second.type} (hvw : p.Holds id v w) :
    p.Kept ((m.setDevice id p.first v).setDevice id p.second w) := by
  by_cases hd : (m.account.getDevice id).isSome = true
  swap
  · have hsame : m.setDevice id p.first v = m := if_neg hd
    rw [hsame, ModifyAccount.setDevice, if_neg hd]
    exact h
  obtain ⟨hdevices, hentries⟩ := devices_setDevice p.first v hd
  obtain ⟨hdevices', hentries'⟩ := devices_setDevice p.second w (getDevice_setDevice p.first v hd)
  have hset : ∀ d, (Device.set p.first v d).id = d.id := fun d => rfl
  constructor
  · rw [hdevices', hdevices, Keyed.update_update hset]
    intro d hmem
    rcases Keyed.mem_update_key hmem with hmem | ⟨d, -, hid, rfl⟩
    · exact h.devices d hmem
    · exact of_set_set hne (hid ▸ hvw)
  · rw [hentries', ModifyAccount.changeEntry, hentries, ModifyAccount.changeEntry]
    exact named_nameIn h.entries id

/-- Operations that set the fields together keep what holds of them. -/
theorem Together.kept {ops : List ModifyAccount.Op} (hops : p.Together ops)
    (hne : p.first ≠ p.second) (masterId : UInt32) {m : ModifyAccount} (h : p.Kept m) :
    p.Kept (ops.foldl (ModifyAccount.exec masterId) m) := by
  induction hops generalizing m with
  | nil => exact h
  | other hop _ ih => exact ih (h.exec masterId hop)
  | pair hvw _ ih => exact ih (h.set_set hne hvw)

theorem kept_after {ops : List ModifyAccount.Op} (hops : p.Together ops)
    (hne : p.first ≠ p.second) (masterId : UInt32) {account : Account}
    (h : ∀ d ∈ account.devices, p.Of d) : p.Kept (ModifyAccount.after masterId account ops) :=
  hops.kept hne masterId ⟨h, by simp⟩

theorem Together.append {ops ops' : List ModifyAccount.Op} (h : p.Together ops)
    (h' : p.Together ops') : p.Together (ops ++ ops') := by
  induction h with
  | nil => exact h'
  | other hop _ ih => exact .other hop ih
  | pair hvw _ ih => exact .pair hvw ih

theorem together_of_apart {ops : List ModifyAccount.Op} (h : ∀ op ∈ ops, p.Apart op) :
    p.Together ops := by
  induction ops with
  | nil => exact .nil
  | cons op ops ih =>
      rw [List.forall_mem_cons] at h
      exact .other h.1 (ih h.2)

theorem together_flatMap {α : Type} {l : List α} {f : α → List ModifyAccount.Op}
    (h : ∀ a ∈ l, p.Together (f a)) : p.Together (l.flatMap f) := by
  induction l with
  | nil => exact .nil
  | cons a l ih =>
      rw [List.forall_mem_cons] at h
      rw [List.flatMap_cons]
      exact h.1.append (ih h.2)

end FieldPair

/-! ## The store -/

/-- A device that was stored or is new, after the fields were copied that some entries for it
name -/
def Copied (entries : List DeviceField) (account : Account) (stored : List Device) (d : Device) :
    Prop :=
  ∃ (base : Device) (copied : List DeviceField), (base ∈ stored ∨ base = Device.fresh base.id) ∧
    (∀ e ∈ copied, e ∈ entries ∧ e.id = base.id) ∧
      d = copied.foldl (fun d e => e.copyFrom account d) base

/-- `dao::Accounts`: what it makes of the stored account, where it makes something -/
structure AccountsDao where
  updateAccount : UpdateAccount
  updateDevice : DeviceField → Account → Account → Account

/-- What is relied on -/
structure AccountsDao.Lawful (dao : AccountsDao) : Prop where
  values : ∀ (field : AccountField) (account stored : Account) (f : Account.Field),
    (dao.updateAccount field account stored).values f =
      if f.text ∈ field.modifyfields then account.values f else stored.values f
  devices : ∀ (field : AccountField) (account stored : Account),
    ∀ d ∈ (dao.updateAccount field account stored).devices,
      Copied field.devices account stored.devices d
  deviceValues : ∀ (field : DeviceField) (account stored : Account),
    (dao.updateDevice field account stored).values = stored.values
  device : ∀ (field : DeviceField) (account stored : Account),
    ∀ d ∈ (dao.updateDevice field account stored).devices,
      Copied [field] account stored.devices d

/-- What is relied on besides: devices keep different numbers. -/
structure AccountsDao.Numbered (dao : AccountsDao) : Prop where
  updateAccount : ∀ (field : AccountField) (account stored : Account),
    (stored.devices.map Device.id).Nodup →
      ((dao.updateAccount field account stored).devices.map Device.id).Nodup
  updateDevice : ∀ (field : DeviceField) (account stored : Account),
    (stored.devices.map Device.id).Nodup →
      ((dao.updateDevice field account stored).devices.map Device.id).Nodup

/-- A store that copies what is named -/
def AccountsDao.copying : AccountsDao where
  updateAccount := AccountField.apply
  updateDevice field account stored :=
    { stored with devices := field.apply account stored.devices }

namespace DeviceField

theorem foldl_copyFrom_id (copied : List DeviceField) (account : Account) (base : Device) :
    (copied.foldl (fun d e => e.copyFrom account d) base).id = base.id := by
  induction copied generalizing base with
  | nil => rfl
  | cons e copied ih => exact (ih (e.copyFrom account base)).trans (e.copyFrom_id account base)

theorem copied_apply {field : DeviceField} {entries : List DeviceField} {account : Account}
    {devices stored : List Device} (hfield : field ∈ entries)
    (h : ∀ d ∈ devices, Copied entries account stored d) :
    ∀ d ∈ field.apply account devices, Copied entries account stored d := by
  have herase : ∀ d ∈ field.eraseFrom devices, Copied entries account stored d := by
    intro d hd
    unfold eraseFrom at hd
    split at hd
    · exact h d (Keyed.mem_of_mem_erase hd)
    · exact h d hd
  have hcreate : ∀ d ∈ field.createIn (field.eraseFrom devices),
      Copied entries account stored d := by
    intro d hd
    unfold createIn at hd
    split at hd
    · rcases Keyed.mem_put hd with hd | rfl
      · exact herase d hd
      · exact ⟨Device.fresh field.id, [], Or.inr rfl, by simp, rfl⟩
    · exact herase d hd
  intro d hd
  rcases Keyed.mem_update_key hd with hd | ⟨b, hb, hid, rfl⟩
  · exact hcreate d hd
  · rcases hcreate b hb with ⟨base, copied, hbase, hcopied, rfl⟩
    refine ⟨base, copied ++ [field], hbase, ?_, by rw [List.foldl_append]; rfl⟩
    intro e he
    rcases List.mem_append.mp he with he | he
    · exact hcopied e he
    · rw [List.mem_singleton.mp he]
      exact ⟨hfield, hid.symm.trans (foldl_copyFrom_id copied account base)⟩

theorem copied_applyAll {fields entries : List DeviceField} {account : Account}
    {devices stored : List Device} (hfields : ∀ e ∈ fields, e ∈ entries)
    (h : ∀ d ∈ devices, Copied entries account stored d) :
    ∀ d ∈ applyAll fields account devices, Copied entries account stored d := by
  induction fields generalizing devices with
  | nil => exact h
  | cons field fields ih =>
      rw [List.forall_mem_cons] at hfields
      exact ih hfields.2 (copied_apply hfields.1 h)

theorem nodup_apply (field : DeviceField) (account : Account) {devices : List Device}
    (h : (devices.map Device.id).Nodup) :
    ((field.apply account devices).map Device.id).Nodup := by
  have herase : ((field.eraseFrom devices).map Device.id).Nodup := by
    unfold eraseFrom
    split
    · exact h.sublist (List.eraseP_sublist.map Device.id)
    · exact h
  have hcreate : ((field.createIn (field.eraseFrom devices)).map Device.id).Nodup := by
    unfold createIn
    split
    · have hfresh : (Device.fresh field.id).id = field.id := rfl
      exact Keyed.nodup_put hfresh herase
    · exact herase
  rw [apply, Keyed.map_key_update (field.copyFrom_id account)]
  exact hcreate

theorem nodup_applyAll (fields : List DeviceField) (account : Account) {devices : List Device}
    (h : (devices.map Device.id).Nodup) :
    ((applyAll fields account devices).map Device.id).Nodup := by
  induction fields generalizing devices with
  | nil => exact h
  | cons field fields ih => exact ih (nodup_apply field account h)

end DeviceField

namespace AccountsDao

/-- A stored device, as it is -/
theorem copied_of_mem {entries : List DeviceField} {account : Account} {stored : List Device}
    {d : Device} (h : d ∈ stored) : Copied entries account stored d :=
  ⟨d, [], Or.inl h, by simp, rfl⟩

theorem lawful_copying : copying.Lawful where
  values _ _ _ _ := rfl
  devices _ _ _ := DeviceField.copied_applyAll (fun _ he => he) fun _ hd => copied_of_mem hd
  deviceValues _ _ _ := rfl
  device field _ _ :=
    DeviceField.copied_apply (List.mem_singleton_self field) fun _ hd => copied_of_mem hd

theorem numbered_copying : copying.Numbered where
  updateAccount field account _ h := DeviceField.nodup_applyAll field.devices account h
  updateDevice field account _ h := DeviceField.nodup_apply field account h

end AccountsDao

namespace FieldPair

variable {p : FieldPair}

/-- One entry copies both fields or none. -/
theorem Of.copyFrom {account : Account} (haccount : ∀ d ∈ account.devices, p.Of d)
    {e : DeviceField} (he : p.Named e.modifyfields) {d : Device} (hid : e.id = d.id)
    (hd : p.Of d) : p.Of (e.copyFrom account d) := by
  cases hsrc : account.getDevice e.id with
  | none =>
      unfold DeviceField.copyFrom
      rw [hsrc]
      exact hd
  | some src =>
      have hkey : src.id = d.id := (Keyed.find_key hsrc).trans hid
      have hof : p.Of src := haccount src (List.mem_of_find?_eq_some hsrc)
      rw [e.copyFrom_of_some hsrc d]
      show p.Holds d.id (if p.first.text ∈ e.modifyfields then src.values p.first else
          d.values p.first)
        (if p.second.text ∈ e.modifyfields then src.values p.second else d.values p.second)
      by_cases hnamed : p.first.text ∈ e.modifyfields
      · rw [if_pos hnamed, if_pos (he.mp hnamed)]
        exact hkey ▸ hof
      · rw [if_neg hnamed, if_neg fun h => hnamed (he.mpr h)]
        exact hd

theorem of_copied {entries : List DeviceField} {account : Account} {stored : List Device}
    (haccount : ∀ d ∈ account.devices, p.Of d) (hstored : ∀ d ∈ stored, p.Of d)
    (hentries : ∀ e ∈ entries, p.Named e.modifyfields) {d : Device}
    (h : Copied entries account stored d) : p.Of d := by
  obtain ⟨base, copied, hbase, hcopied, rfl⟩ := h
  have hof : p.Of base := by
    rcases hbase with hbase | hbase
    · exact hstored base hbase
    · rw [hbase]
      exact of_fresh base.id
  clear hbase
  induction copied generalizing base with
  | nil => exact hof
  | cons e copied ih =>
      rw [List.forall_mem_cons] at hcopied
      obtain ⟨⟨he, hid⟩, hrest⟩ := hcopied
      have hkey : (e.copyFrom account base).id = base.id := e.copyFrom_id account base
      exact ih (e.copyFrom account base) (fun e' he' => by rw [hkey]; exact hrest e' he')
        (hof.copyFrom haccount (hentries e he) hid)

/-- An edited account is written into a store in which it holds of every device. -/
theorem Kept.of_updateAccount {dao : AccountsDao} (hdao : dao.Lawful) {m : ModifyAccount}
    (h : p.Kept m) {stored : Account} (hstored : ∀ d ∈ stored.devices, p.Of d) :
    ∀ d ∈ (dao.updateAccount m.field m.account stored).devices, p.Of d := fun d hd =>
  of_copied h.devices hstored h.entries (hdao.devices m.field m.account stored d hd)

theorem Kept.of_updateDevice {dao : AccountsDao} (hdao : dao.Lawful) {m : ModifyAccount}
    (h : p.Kept m) {e : DeviceField} (he : e ∈ m.field.devices) {stored : Account}
    (hstored : ∀ d ∈ stored.devices, p.Of d) :
    ∀ d ∈ (dao.updateDevice e m.account stored).devices, p.Of d := by
  intro d hd
  refine of_copied h.devices hstored ?_ (hdao.device e m.account stored d hd)
  intro e' he'
  rw [List.mem_singleton.mp he']
  exact h.entries e he

end FieldPair

end BcmServer.Store
