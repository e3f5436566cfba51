import Mathlib.Data.Finset.Basic

/-!
# BcmServer.Util.SetMap — maps from keys to sets

A map from keys to sets of elements in which a key may have no entry. Inserting
makes the entry, removing the last element takes it away again: the idiom of an
index that is asked whether it has an entry for a key. `Mem` is what the map
says about an element; `Compact` says that no entry is empty, so that a key has
an entry exactly when some element is in its set.
-/

namespace BcmServer.Util

/-- A set of `α` for some of the keys `κ`. -/
def SetMap (κ α : Type*) := κ → Option (Finset α)

namespace SetMap

variable {κ α : Type*} [DecidableEq κ] [DecidableEq α]

def empty : SetMap κ α := fun _ => none

/-- The key has an entry. -/
def has (m : SetMap κ α) (k : κ) : Bool := (m k).isSome

/-- The element is in the set of the key. -/
def Mem (m : SetMap κ α) (k : κ) (a : α) : Prop := ∃ s, m k = some s ∧ a ∈ s

instance (m : SetMap κ α) (k : κ) (a : α) : Decidable (m.Mem k a) :=
  match h : m k with
  | none => isFalse (by rintro ⟨s, hs, -⟩; rw [h] at hs; cases hs)
  | some s => decidable_of_iff (a ∈ s) (by simp [Mem, h])

/-- `m[k].insert(a)` -/
def insert (m : SetMap κ α) (k : κ) (a : α) : SetMap κ α :=
  fun k' => if k' = k then some (Insert.insert a ((m k).getD ∅)) else m k'

/-- `a` is erased from the set of `k`, and the entry with its last element. -/
def remove (m : SetMap κ α) (k : κ) (a : α) : SetMap κ α :=
  match m k with
  | none => m
  | some s => fun k' =>
      if k' = k then if s.erase a = ∅ then none else some (s.erase a) else m k'

/-- `m.erase(k)` -/
def erase (m : SetMap κ α) (k : κ) : SetMap κ α := fun k' => if k' = k then none else m k'

/-- No entry is empty. -/
def Compact (m : SetMap κ α) : Prop := ∀ k, m k ≠ some ∅

variable {m : SetMap κ α} {k k' : κ} {a b : α}

omit [DecidableEq κ] [DecidableEq α] in
theorem has_of_mem (h : m.Mem k a) : m.has k = true := by
  obtain ⟨s, hs, -⟩ := h
  simp [has, hs]

omit [DecidableEq κ] [DecidableEq α] in
/-- Without empty entries an entry has an element. -/
theorem Compact.has_iff (hm : m.Compact) : m.has k = true ↔ ∃ a, m.Mem k a := by
  constructor
  · intro h
    obtain ⟨s, hs⟩ := Option.isSome_iff_exists.mp h
    have hne : s ≠ ∅ := fun he => hm k (he ▸ hs)
    obtain ⟨a, ha⟩ := Finset.nonempty_iff_ne_empty.mpr hne
    exact ⟨a, s, hs, ha⟩
  · rintro ⟨a, ha⟩
    exact has_of_mem ha

omit [DecidableEq κ] [DecidableEq α] in
@[simp] theorem not_mem_empty : ¬ (empty : SetMap κ α).Mem k a := by
  rintro ⟨s, hs, -⟩
  cases hs

@[simp] theorem mem_insert : (m.insert k a).Mem k' b ↔ (k' = k ∧ b = a) ∨ m.Mem k' b := by
  by_cases hk : k' = k
  · subst hk
    cases hm : m k' <;> simp [Mem, insert, hm]
  · simp [Mem, insert, hk]

@[simp] theorem mem_remove : (m.remove k a).Mem k' b ↔ m.Mem k' b ∧ ¬ (k' = k ∧ b = a) := by
  by_cases hk : k' = k
  · subst hk
    cases hm : m k' with
    | none => simp [Mem, remove, hm]
    | some s =>
        by_cases he : s.erase a = ∅
        · -- the last element goes with the entry
          have hall : ∀ b ∈ s, b = a := by
            intro b hb
            by_contra hne
            have hmem : b ∈ s.erase a := Finset.mem_erase.mpr ⟨hne, hb⟩
            rw [he] at hmem
            exact absurd hmem (Finset.notMem_empty b)
          simp only [Mem, remove, hm, he, if_true]
          constructor
          · rintro ⟨_, h, -⟩
            cases h
          · rintro ⟨⟨t, ht, hb⟩, hne⟩
            cases ht
            exact absurd ⟨trivial, hall b hb⟩ hne
        · simp [Mem, remove, hm, he, and_comm]
  · cases hm : m k <;> simp [Mem, remove, hm, hk]

omit [DecidableEq α] in
@[simp] theorem mem_erase : (m.erase k).Mem k' b ↔ k' ≠ k ∧ m.Mem k' b := by
  by_cases hk : k' = k
  · simp [Mem, erase, hk]
  · simp [Mem, erase, hk]

omit [DecidableEq κ] [DecidableEq α] in
theorem compact_empty : (empty : SetMap κ α).Compact := by
  intro k h
  cases h

theorem Compact.insert (hm : m.Compact) : (m.insert k a).Compact := by
  intro k'
  by_cases hk : k' = k
  · simp [SetMap.insert, hk]
  · simpa [SetMap.insert, hk] using hm k'

theorem Compact.remove (hm : m.Compact) : (m.remove k a).Compact := by
  intro k'
  unfold SetMap.remove
  cases hk : m k with
  | none => exact hm k'
  | some s =>
      by_cases hk' : k' = k
      · subst hk'
        by_cases he : s.erase a = ∅
        · simp [he]
        · simp [he]
      · simpa [hk'] using hm k'

omit [DecidableEq α] in
theorem Compact.erase (hm : m.Compact) : (m.erase k).Compact := by
  intro k'
  by_cases hk : k' = k
  · simp [SetMap.erase, hk]
  · simpa [SetMap.erase, hk] using hm k'

end SetMap

end BcmServer.Util
