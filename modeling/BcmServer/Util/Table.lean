import Mathlib.Data.Finset.Card
import Mathlib.Data.List.AList

/-!
# BcmServer.Util.Table — tables with a key, and how many rows count

A table holds at most one row for each key. `count p` is the number of rows that
satisfy `p`, as a query over the table gives it. Rows are deleted and replaced
one by one and in batches; the lemmas say what that does to a look-up and to the
count. In a batch a key may be named more than once: it is the number of
*different* keys that goes into the count.
-/

namespace BcmServer.Util

/-- At most one row of type `V` for each key. -/
abbrev Table (K V : Type) := AList (fun _ : K => V)

namespace Table

variable {K V : Type} [DecidableEq K]

/-- The number of rows that satisfy `p`. -/
def count (p : V → Bool) (t : Table K V) : ℕ := t.entries.countP fun e => p e.2

/-- The rows with one of the keys are deleted. -/
def eraseAll (t : Table K V) (ks : List K) : Table K V := ks.foldl (fun t k => t.erase k) t

/-- Rows are inserted one after the other, each replacing the one with its key. -/
def insertAll (t : Table K V) (rows : List (K × V)) : Table K V :=
  rows.foldl (fun t r => t.insert r.1 r.2) t

/-! ## Look-up -/

theorem lookup_eraseAll (t : Table K V) (ks : List K) (k : K) :
    (t.eraseAll ks).lookup k = if k ∈ ks then none else t.lookup k := by
  induction ks generalizing t with
  | nil => simp [eraseAll]
  | cons a ks ih =>
      have hfold : t.eraseAll (a :: ks) = eraseAll (t.erase a) ks := rfl
      rw [hfold, ih]
      by_cases hk : k = a
      · subst hk
        simp
      · simp [hk, AList.lookup_erase_ne hk]

/-- A key that no row of the batch has keeps its row. -/
theorem lookup_insertAll_of_notMem (t : Table K V) (rows : List (K × V)) {k : K}
    (h : k ∉ rows.map Prod.fst) : (t.insertAll rows).lookup k = t.lookup k := by
  induction rows generalizing t with
  | nil => rfl
  | cons r rows ih =>
      rw [List.map_cons, List.mem_cons, not_or] at h
      have hfold : t.insertAll (r :: rows) = insertAll (t.insert r.1 r.2) rows := rfl
      rw [hfold, ih _ h.2, AList.lookup_insert_ne h.1]

/-- A key of the batch has a row of the batch. -/
theorem lookup_insertAll_of_mem (t : Table K V) (rows : List (K × V)) {k : K}
    (h : k ∈ rows.map Prod.fst) : ∃ v, (k, v) ∈ rows ∧ (t.insertAll rows).lookup k = some v := by
  induction rows generalizing t with
  | nil => exact absurd h List.not_mem_nil
  | cons r rows ih =>
      have hfold : t.insertAll (r :: rows) = insertAll (t.insert r.1 r.2) rows := rfl
      by_cases hmem : k ∈ rows.map Prod.fst
      · obtain ⟨v, hv, hlook⟩ := ih (t.insert r.1 r.2) hmem
        exact ⟨v, List.mem_cons_of_mem r hv, hfold ▸ hlook⟩
      · have hk : k = r.1 := by
          rw [List.map_cons, List.mem_cons] at h
          exact h.resolve_right hmem
        refine ⟨r.2, ?_, ?_⟩
        · rw [hk]
          exact List.mem_cons_self
        · rw [hfold, lookup_insertAll_of_notMem _ rows hmem, hk, AList.lookup_insert]

/-- The row of a key after a batch: the one before, or one of the batch. -/
theorem lookup_insertAll (t : Table K V) (rows : List (K × V)) (k : K) :
    (t.insertAll rows).lookup k = t.lookup k ∨
      ∃ v, (k, v) ∈ rows ∧ (t.insertAll rows).lookup k = some v := by
  by_cases h : k ∈ rows.map Prod.fst
  · exact Or.inr (lookup_insertAll_of_mem t rows h)
  · exact Or.inl (lookup_insertAll_of_notMem t rows h)

/-! ## The count -/

section Count

variable (p : V → Bool)

/-- The keys whose rows satisfy `p`. -/
def counted (t : Table K V) : Finset K :=
  ((t.entries.filter fun e => p e.2).map Sigma.fst).toFinset

theorem mem_counted {t : Table K V} {k : K} : k ∈ counted p t ↔ (t.lookup k).any p = true := by
  unfold counted
  rw [List.mem_toFinset, List.mem_map, Option.any_eq_true]
  constructor
  · rintro ⟨⟨a, v⟩, hmem, rfl⟩
    obtain ⟨hmem, hv⟩ := List.mem_filter.mp hmem
    exact ⟨v, List.mem_dlookup t.nodupKeys hmem, hv⟩
  · rintro ⟨v, hlook, hv⟩
    exact ⟨⟨k, v⟩, List.mem_filter.mpr ⟨List.of_mem_dlookup hlook, hv⟩, rfl⟩

theorem count_eq_card (t : Table K V) : count p t = (counted p t).card := by
  have hnodup : ((t.entries.filter fun e => p e.2).map Sigma.fst).Nodup :=
    t.nodupKeys.sublist List.filter_sublist
  unfold counted
  rw [List.toFinset_card_of_nodup hnodup, List.length_map]
  exact List.countP_eq_length_filter

theorem count_pos_iff (t : Table K V) : 0 < count p t ↔ ∃ k, (t.lookup k).any p = true := by
  rw [count_eq_card, Finset.card_pos]
  constructor
  · rintro ⟨k, hk⟩
    exact ⟨k, (mem_counted p).mp hk⟩
  · rintro ⟨k, hk⟩
    exact ⟨k, (mem_counted p).mpr hk⟩

theorem counted_eraseAll (t : Table K V) (ks : List K) :
    counted p (t.eraseAll ks) = counted p t \ ks.toFinset := by
  ext k
  rw [Finset.mem_sdiff, mem_counted, mem_counted, lookup_eraseAll, List.mem_toFinset]
  by_cases hk : k ∈ ks <;> simp [hk]

/-- Deleting a batch takes away each different key whose row counts. -/
theorem count_eraseAll (t : Table K V) (ks : List K) :
    count p (t.eraseAll ks) + (counted p t ∩ ks.toFinset).card = count p t := by
  rw [count_eq_card, count_eq_card, counted_eraseAll]
  exact Finset.card_sdiff_add_card_inter _ _

/-- Deleting the row of one key. -/
theorem count_erase (t : Table K V) (k : K) :
    count p (t.erase k) + (if (t.lookup k).any p then 1 else 0) = count p t := by
  have hbatch := count_eraseAll p t [k]
  have herase : t.eraseAll [k] = t.erase k := rfl
  rw [herase, List.toFinset_cons, List.toFinset_nil, LawfulSingleton.insert_empty_eq,
    Finset.inter_singleton] at hbatch
  simp only [mem_counted] at hbatch
  split at hbatch <;> simp_all

theorem counted_insertAll (t : Table K V) (rows : List (K × V))
    (hrows : ∀ r ∈ rows, p r.2 = true) :
    counted p (t.insertAll rows) = counted p t ∪ (rows.map Prod.fst).toFinset := by
  ext k
  rw [Finset.mem_union, mem_counted, mem_counted, List.mem_toFinset]
  by_cases hk : k ∈ rows.map Prod.fst
  · obtain ⟨v, hv, hlook⟩ := lookup_insertAll_of_mem t rows hk
    simp [hlook, hrows (k, v) hv, hk]
  · rw [lookup_insertAll_of_notMem t rows hk]
    simp [hk]

/-- Inserting a batch of rows that count, none of whose keys has a row that
counts, adds each different key. -/
theorem count_insertAll (t : Table K V) (rows : List (K × V))
    (hrows : ∀ r ∈ rows, p r.2 = true) (hnew : ∀ r ∈ rows, (t.lookup r.1).any p = false) :
    count p (t.insertAll rows) = count p t + (rows.map Prod.fst).toFinset.card := by
  rw [count_eq_card, count_eq_card, counted_insertAll p t rows hrows]
  apply Finset.card_union_of_disjoint
  rw [Finset.disjoint_left]
  intro k hk hmem
  obtain ⟨r, hr, rfl⟩ := List.mem_map.mp (List.mem_toFinset.mp hmem)
  rw [mem_counted, hnew r hr] at hk
  exact Bool.noConfusion hk

/-- Inserting a row that counts in the place of another. -/
theorem count_insert_of_mem (t : Table K V) {k : K} {v : V} (hv : p v = true)
    (hk : (t.lookup k).any p = true) : count p (t.insert k v) = count p t := by
  have hbatch : t.insert k v = t.insertAll [(k, v)] := rfl
  rw [hbatch, count_eq_card, count_eq_card, counted_insertAll p t _ (by simpa using hv)]
  congr 1
  apply Finset.union_eq_left.mpr
  intro a ha
  simp only [List.map_cons, List.map_nil, List.toFinset_cons, List.toFinset_nil,
    LawfulSingleton.insert_empty_eq, Finset.mem_singleton] at ha
  rw [ha, mem_counted]
  exact hk

end Count

end Table

end BcmServer.Util
