import BcmServer.Util.Text
import Mathlib.Order.Defs.Unbundled

/-!
# BcmServer.Dispatcher.Address — dispatch addresses

A device of a user is addressed by the user's uid and the device id. Its text
form names the redis channel the device's messages are published on, and
`operator<` compares addresses by it, so two addresses with one text would
share a channel and a map entry: `getSerialized_injective` rules that out. The
address is read back from its text if the uid has no colon.

`addresses_ordered`: the text form is faithful, and `operator<` is a strict total order.
-/

namespace BcmServer.Dispatcher

open BcmServer.Util

/-- A `DispatchAddress`. -/
structure DispatchAddress where
  uid : Bytes
  deviceid : UInt32
deriving DecidableEq, Repr

/-- The redis channel of an address: `uid:deviceid`. -/
def DispatchAddress.getSerialized (a : DispatchAddress) : Bytes :=
  a.uid ++ colon :: decimal a.deviceid.toNat

/-- Different addresses have different channels: the device id has no
separator in it, so the last one splits the text. -/
theorem getSerialized_injective : Function.Injective DispatchAddress.getSerialized := by
  rintro ⟨uid, dev⟩ ⟨uid', dev'⟩ h
  have hsplit : uid = uid' ∧ decimal dev.toNat = decimal dev'.toNat :=
    append_separator_inj (colon_notMem_decimal _) (colon_notMem_decimal _) h
  have hdev : dev = dev' := UInt32.toNat_inj.mp (decimal_injective hsplit.2)
  rw [hsplit.1, hdev]

/-- `DispatchAddress::deserialize` -/
def DispatchAddress.deserialize (serialized : Bytes) : Option DispatchAddress :=
  match serialized.splitOn colon with
  | uid :: deviceid :: _ => (stoull deviceid).map fun n => ⟨uid, n.toUInt32⟩
  | _ => none

theorem deserialize_getSerialized {a : DispatchAddress} (h : colon ∉ a.uid) :
    DispatchAddress.deserialize a.getSerialized = some a := by
  have hsplit : a.getSerialized.splitOn colon = [a.uid, decimal a.deviceid.toNat] := by
    have hparts : ([colon].intercalate [a.uid, decimal a.deviceid.toNat]).splitOn colon =
        [a.uid, decimal a.deviceid.toNat] :=
      List.splitOn_intercalate colon (by simpa using ⟨h, colon_notMem_decimal _⟩) (by simp)
    simpa [DispatchAddress.getSerialized, List.intercalate] using hparts
  have hnumber : stoull (decimal a.deviceid.toNat) = some a.deviceid.toUInt64 := by
    simpa [padded] using stoull_padded 0 a.deviceid.toUInt64
  rw [DispatchAddress.deserialize, hsplit]
  simp [hnumber]

/-! ## The order -/

/-- `operator<` -/
instance : LT DispatchAddress := ⟨fun lhs rhs => lexLt lhs.getSerialized rhs.getSerialized⟩

theorem lt_def {a b : DispatchAddress} :
    a < b ↔ lexLt a.getSerialized b.getSerialized = true := Iff.rfl

instance : DecidableLT DispatchAddress := fun a b =>
  inferInstanceAs (Decidable (lexLt a.getSerialized b.getSerialized = true))

/-- Addresses of which neither comes first share an entry of a map. -/
theorem eq_of_not_lt {a b : DispatchAddress} (hab : ¬ a < b) (hba : ¬ b < a) : a = b := by
  rw [lt_def, Bool.not_eq_true] at hab hba
  exact getSerialized_injective (lexLt_connex hab hba)

instance : IsStrictTotalOrder DispatchAddress (· < ·) where
  irrefl a h := by
    rw [lt_def, lexLt_irrefl] at h
    cases h
  trans _ _ _ hab hbc := lexLt_trans hab hbc
  trichotomous _ _ hab hba := eq_of_not_lt hab hba

/-- An address is told by its text, `operator<` is a strict total order in which no two addresses
are taken for one, and the text of an address is read back if its uid has no colon. -/
theorem addresses_ordered :
    (∀ a b : DispatchAddress, a.getSerialized = b.getSerialized →
      a.uid = b.uid ∧ a.deviceid = b.deviceid) ∧
    IsStrictTotalOrder DispatchAddress (· < ·) ∧
    (∀ a b : DispatchAddress, ¬ a < b → ¬ b < a → a = b) ∧
    ∀ a : DispatchAddress, colon ∉ a.uid →
      DispatchAddress.deserialize a.getSerialized = some a := by
  refine ⟨fun a b h => ?_, inferInstance, fun a b => eq_of_not_lt, fun a => deserialize_getSerialized⟩
  rw [getSerialized_injective h]
  exact ⟨rfl, rfl⟩

end BcmServer.Dispatcher
