import BcmServer.Util.Bytes
import BcmServer.Util.Table
import Mathlib.Data.List.Sort
import Mathlib.Data.List.Lex

/-!
# BcmServer.Util.Ordered — the order in which sets and maps are gone through

A `std::set` or `std::map` of strings is gone through in the order of the strings.
Sets and tables are unordered here; `inOrder` and `rowsInOrder` give their elements
in that order.
-/

namespace BcmServer.Util

/-- `<=` of strings -/
def bytesLe (s t : Bytes) : Prop := s.map UInt8.toNat ≤ t.map UInt8.toNat

instance : DecidableRel bytesLe := fun s t =>
  inferInstanceAs (Decidable (s.map UInt8.toNat ≤ t.map UInt8.toNat))

instance : IsTrans Bytes bytesLe := ⟨fun _ _ _ h h' => le_trans (α := List ℕ) h h'⟩

instance : Std.Total bytesLe := ⟨fun _ _ => le_total (α := List ℕ) _ _⟩

instance : Std.Antisymm bytesLe :=
  ⟨fun _ _ h h' => List.map_injective_iff.mpr (fun _ _ heq => UInt8.toNat_inj.mp heq)
    (le_antisymm (α := List ℕ) h h')⟩

/-- The elements of a `std::set` -/
def inOrder (s : Finset Bytes) : List Bytes :=
  s.val.liftOn (List.insertionSort bytesLe) fun l l' h => by
    have hperm : (l.insertionSort bytesLe).Perm (l'.insertionSort bytesLe) :=
      (List.perm_insertionSort bytesLe l).trans (h.trans (List.perm_insertionSort bytesLe l').symm)
    exact hperm.eq_of_pairwise' (List.pairwise_insertionSort bytesLe l)
      (List.pairwise_insertionSort bytesLe l')

theorem coe_inOrder (s : Finset Bytes) : (inOrder s : Multiset Bytes) = s.val := by
  rcases s with ⟨v, hv⟩
  induction v using Quotient.inductionOn with
  | h l => exact Quotient.sound (List.perm_insertionSort bytesLe l)

@[simp] theorem mem_inOrder {s : Finset Bytes} {b : Bytes} : b ∈ inOrder s ↔ b ∈ s := by
  rw [← Multiset.mem_coe, coe_inOrder, Finset.mem_val]

theorem nodup_inOrder (s : Finset Bytes) : (inOrder s).Nodup := by
  rw [← Multiset.coe_nodup, coe_inOrder]
  exact s.nodup

/-- The keys of what a filter keeps, if it keeps them as they are -/
theorem sublist_map_filterMap {α β γ : Type} {f : α → Option β} {k : α → γ} {k' : β → γ}
    (h : ∀ a b, f a = some b → k' b = k a) (l : List α) :
    ((l.filterMap f).map k').Sublist (l.map k) := by
  induction l with
  | nil => exact List.Sublist.refl _
  | cons a l ih =>
      rw [List.filterMap_cons, List.map_cons]
      cases hf : f a with
      | none => exact ih.cons (k a)
      | some b =>
          dsimp only
          rw [List.map_cons, h a b hf]
          exact ih.cons_cons (k a)

/-- What fewer than `n` elements of an ordered list come after is not among those that are taken
to leave `n`. -/
theorem notMem_take_of_countP_lt {l : List Bytes} {a : Bytes} {n : ℕ} (hsorted : l.Pairwise bytesLe)
    (hnodup : l.Nodup) (hfew : (l.countP fun b => ¬ bytesLe b a) < n) :
    a ∉ l.take (l.length - n) := by
  intro ha
  have hpos : 0 < l.length - n := by
    have hlen := List.length_pos_of_mem ha
    rw [List.length_take] at hlen
    omega
  -- all that is left would come after `a`
  have hafter : ∀ b ∈ l.drop (l.length - n), ¬ bytesLe b a := by
    intro b hb hle
    rw [← List.take_append_drop (l.length - n) l] at hsorted hnodup
    have hab : bytesLe a b := (List.pairwise_append.mp hsorted).2.2 a ha b hb
    have hne : a ≠ b := (List.pairwise_append.mp hnodup).2.2 a ha b hb
    exact hne (antisymm hab hle)
  have hall : (l.drop (l.length - n)).countP (fun b => ¬ bytesLe b a) = n := by
    rw [List.countP_eq_length.mpr (by simpa using hafter), List.length_drop]
    omega
  have hle : (l.drop (l.length - n)).countP (fun b => ¬ bytesLe b a) ≤
      l.countP fun b => ¬ bytesLe b a := (List.drop_sublist (l.length - n) l).countP_le
  rw [hall] at hle
  exact Nat.not_lt.mpr hle hfew

namespace Table

variable {V : Type} {t : Table Bytes V}

/-- The entries of a `std::map` -/
def rowsInOrder (t : Table Bytes V) : List (Bytes × V) :=
  (inOrder t.keys.toFinset).filterMap fun k => (t.lookup k).map fun v => (k, v)

@[simp] theorem mem_rowsInOrder {k : Bytes} {v : V} :
    (k, v) ∈ t.rowsInOrder ↔ t.lookup k = some v := by
  simp only [rowsInOrder, List.mem_filterMap, mem_inOrder, List.mem_toFinset,
    Option.map_eq_some_iff, Prod.mk.injEq]
  constructor
  · rintro ⟨_, -, _, hlookup, rfl, rfl⟩
    exact hlookup
  · intro hlookup
    have hkey : k ∈ t := AList.lookup_isSome.mp (by rw [hlookup]; rfl)
    exact ⟨k, AList.mem_keys.mp hkey, v, hlookup, rfl, rfl⟩

theorem nodup_keys_rowsInOrder (t : Table Bytes V) : (t.rowsInOrder.map Prod.fst).Nodup := by
  have hsub : (t.rowsInOrder.map Prod.fst).Sublist ((inOrder t.keys.toFinset).map id) := by
    refine sublist_map_filterMap (fun k e h => ?_) _
    obtain ⟨v, -, rfl⟩ := Option.map_eq_some_iff.mp h
    rfl
  rw [List.map_id] at hsub
  exact (nodup_inOrder _).sublist hsub

end Table

end BcmServer.Util
