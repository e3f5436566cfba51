import BcmServer.Util.Bits
import BcmServer.Util.Table

/-!
# BcmServer.Bloom.BloomFilters — the bits of the contacts filters

The contacts filters of an account are one byte string, of which clients set single
bits. The bits of a request are put in a map first, so the last value for a position
counts, and are then set in the order of the positions. What comes out is the same as
setting them one after the other as the request lists them (`update_insertAll`).

The bytes alone are looked at here; `BcmServer.Bloom.Membership` is about the keys that are
hashed into them.
-/

namespace BcmServer.Bloom

open Util

/-- `BloomFilters`, the bytes of the filters -/
structure BloomFilters where
  filters : Bytes
deriving DecidableEq, Repr

namespace BloomFilters

/-- The `uint32_t` keys of a `std::map` with their values, in ascending order -/
def ascending (values : Table UInt32 Bool) : List (UInt32 × Bool) :=
  (values.entries.map fun e => (e.1, e.2)).mergeSort fun e e' => e.1 ≤ e'.1

/-- One round of the loop in `BloomFilters::update` -/
def updateOne (filters : Bytes) (m : UInt32 × Bool) : Bytes :=
  if m.1.toNat < filters.length * 8 then
    filters.modify (m.1.toNat >>> 3) fun b =>
      if m.2 then b ||| UInt8.ofNat (1 <<< (7 &&& m.1.toNat))
      else b &&& ~~~UInt8.ofNat (1 <<< (7 &&& m.1.toNat))
  else filters

/-- `BloomFilters::update` -/
def update (f : BloomFilters) (values : Table UInt32 Bool) : BloomFilters :=
  { filters := (ascending values).foldl updateOne f.filters }

/-- `BloomFilters::getFiltersContent` -/
def getFiltersContent (f : BloomFilters) : Bytes := f.filters

/-- The bit that an entry sets -/
def bit (m : UInt32 × Bool) : ℕ × Bool := (m.1.toNat, m.2)

theorem updateOne_eq (filters : Bytes) (m : UInt32 × Bool) :
    updateOne filters m = setBit filters m.1.toNat m.2 := by
  have hmod : 7 &&& m.1.toNat = m.1.toNat % 8 := by
    rw [Nat.and_comm]
    exact Nat.and_two_pow_sub_one_eq_mod m.1.toNat 3
  have hdiv : m.1.toNat >>> 3 = m.1.toNat / 8 := Nat.shiftRight_eq_div_pow m.1.toNat 3
  unfold updateOne
  by_cases h : m.1.toNat < filters.length * 8
  · rw [if_pos h, hmod, hdiv]
    rfl
  · rw [if_neg h, setBit_of_le (by omega)]

theorem foldl_updateOne (filters : Bytes) (ms : List (UInt32 × Bool)) :
    ms.foldl updateOne filters = setBits filters (ms.map bit) := by
  induction ms generalizing filters with
  | nil => rfl
  | cons m ms ih =>
      rw [List.foldl_cons, ih, updateOne_eq]
      rfl

/-- In the order of the positions every position has its value. -/
theorem lastValue_ascending (values : Table UInt32 Bool) (p : UInt32) :
    lastValue ((ascending values).map bit) p.toNat = values.lookup p := by
  have hperm : (ascending values).Perm (values.entries.map fun e => (e.1, e.2)) :=
    List.mergeSort_perm _ _
  have hnodup : (((ascending values).map bit).map Prod.fst).Nodup := by
    have hkeys : (values.entries.map Sigma.fst).Nodup := values.nodupKeys
    have hinj : Function.Injective UInt32.toNat := fun _ _ h => UInt32.toNat_inj.mp h
    have hmap := hkeys.map hinj
    refine (((hperm.map bit).map Prod.fst).nodup_iff).mpr ?_
    simpa [List.map_map, Function.comp_def, bit] using hmap
  ext v
  rw [lastValue_eq_some_iff hnodup, Option.mem_def.symm, AList.mem_lookup_iff]
  constructor
  · intro h
    obtain ⟨⟨q, w⟩, hm, heq⟩ := List.mem_map.mp h
    obtain ⟨e, he, hqw⟩ := List.mem_map.mp (hperm.mem_iff.mp hm)
    cases hqw
    obtain ⟨hq, rfl⟩ := Prod.mk.inj heq
    rw [← UInt32.toNat_inj.mp hq]
    exact he
  · intro h
    exact List.mem_map.mpr ⟨(p, v), hperm.mem_iff.mpr (List.mem_map.mpr ⟨⟨p, v⟩, h, rfl⟩), rfl⟩

/-- In the order of a list the last value counts, as in a map. -/
theorem lastValue_insertAll (ms : List (UInt32 × Bool)) (p : UInt32) :
    lastValue (ms.map bit) p.toNat = (Table.insertAll (∅ : Table UInt32 Bool) ms).lookup p := by
  induction ms using List.reverseRecOn with
  | nil => rfl
  | append_singleton ms m ih =>
      have hlast : Table.insertAll (∅ : Table UInt32 Bool) (ms ++ [m]) =
          (Table.insertAll ∅ ms).insert m.1 m.2 := by
        simp [Table.insertAll]
      rw [hlast, List.map_append, lastValue, List.reverse_append, List.map_singleton,
        List.reverse_singleton, List.singleton_append, List.find?_cons]
      by_cases h : m.1 = p
      · subst h
        simp [bit]
      · have hne : m.1.toNat ≠ p.toNat := fun heq => h (UInt32.toNat_inj.mp heq)
        rw [AList.lookup_insert_ne (Ne.symm h), ← ih]
        simp [bit, hne, lastValue]

/-- No bit beyond the positions of a list is set by it. -/
theorem lastValue_eq_none {ms : List (UInt32 × Bool)} {q : ℕ} (h : 2 ^ 32 ≤ q) :
    lastValue (ms.map bit) q = none := by
  rw [lastValue, Option.map_eq_none_iff, List.find?_eq_none]
  intro e he
  obtain ⟨m, -, rfl⟩ := List.mem_map.mp (List.mem_reverse.mp he)
  have hlt : m.1.toNat < 2 ^ 32 := m.1.toNat_lt
  rw [decide_eq_true_eq]
  change m.1.toNat ≠ q
  omega

/-- The bits of a map are those of the list it was made of. -/
theorem update_insertAll (f : BloomFilters) (ms : List (UInt32 × Bool)) :
    (f.update (Table.insertAll ∅ ms)).filters = setBits f.filters (ms.map bit) := by
  refine (foldl_updateOne f.filters _).trans (setBits_congr f.filters fun q => ?_)
  obtain hq | hq := Nat.lt_or_ge q (2 ^ 32)
  · have hp : (UInt32.ofNat q).toNat = q := UInt32.toNat_ofNat_of_lt' hq
    rw [← hp, lastValue_ascending, lastValue_insertAll]
  · rw [lastValue_eq_none hq, lastValue_eq_none hq]

end BloomFilters

end BcmServer.Bloom
