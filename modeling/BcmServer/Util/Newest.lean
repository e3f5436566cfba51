import BcmServer.Util.Table

/-!
# BcmServer.Util.Newest — tables that keep the newest row

Rows come from several places, some of them more than once, and for each key the
one with the highest version is kept; of two with the same version it is the one
that was there. If rows of one key and version are equal, what is kept does not
depend on the order they come in (`IsNewest.unique`).
-/

namespace BcmServer.Util

/-- The value is one of those that satisfy `P` with the highest version, or there
are none. -/
def IsNewest {V : Type} (version : V → ℕ) (P : V → Prop) : Option V → Prop
  | none => ∀ v, ¬ P v
  | some v => P v ∧ ∀ w, P w → version w ≤ version v

namespace IsNewest

variable {V : Type} {version : V → ℕ} {P Q : V → Prop} {o o' : Option V}

theorem congr (h : IsNewest version P o) (hPQ : ∀ v, P v ↔ Q v) : IsNewest version Q o := by
  obtain rfl : P = Q := funext fun v => propext (hPQ v)
  exact h

/-- Without ties there is one. -/
theorem unique (h : IsNewest version P o) (h' : IsNewest version P o')
    (hties : ∀ v w, P v → P w → version v = version w → v = w) : o = o' := by
  cases o with
  | none =>
      cases o' with
      | none => rfl
      | some w => exact absurd h'.1 (h w)
  | some v =>
      cases o' with
      | none => exact absurd h.1 (h' v)
      | some w =>
          have heq : version v = version w := Nat.le_antisymm (h'.2 v h.1) (h.2 w h'.1)
          rw [hties v w h.1 h'.1 heq]

end IsNewest

namespace Table

variable {K V : Type} [DecidableEq K] (version : V → ℕ)

/-- A row is put into the table if it is newer than the one with its key. -/
def keepNewest (t : Table K V) (k : K) (v : V) : Table K V :=
  match t.lookup k with
  | some old => if version v ≤ version old then t else t.insert k v
  | none => t.insert k v

variable {version} {t : Table K V} {P : K → V → Prop}

theorem lookup_keepNewest_self (t : Table K V) (k : K) (v : V) :
    (t.keepNewest version k v).lookup k =
      match t.lookup k with
      | some old => if version v ≤ version old then some old else some v
      | none => some v := by
  unfold keepNewest
  cases hlookup : t.lookup k with
  | none => exact AList.lookup_insert t
  | some old =>
      dsimp only
      split
      · exact hlookup
      · exact AList.lookup_insert t

theorem lookup_keepNewest_ne (t : Table K V) {k k' : K} (h : k' ≠ k) (v : V) :
    (t.keepNewest version k v).lookup k' = t.lookup k' := by
  unfold keepNewest
  split
  · split
    · rfl
    · exact AList.lookup_insert_ne h
  · exact AList.lookup_insert_ne h

theorem isNewest_keepNewest (h : ∀ k, IsNewest version (P k) (t.lookup k)) (k : K) (v : V)
    (k' : K) : IsNewest version (fun w => P k' w ∨ (k' = k ∧ w = v))
      ((t.keepNewest version k v).lookup k') := by
  by_cases hk : k' = k
  · subst hk
    have hold := h k'
    rw [lookup_keepNewest_self]
    cases hlookup : t.lookup k' with
    | none =>
        rw [hlookup] at hold
        refine ⟨Or.inr ⟨rfl, rfl⟩, ?_⟩
        rintro w (hw | ⟨-, rfl⟩)
        · exact absurd hw (hold w)
        · exact Nat.le_refl _
    | some old =>
        rw [hlookup] at hold
        dsimp only
        split
        · next hle =>
          refine ⟨Or.inl hold.1, ?_⟩
          rintro w (hw | ⟨-, rfl⟩)
          · exact hold.2 w hw
          · exact hle
        · next hlt =>
          refine ⟨Or.inr ⟨rfl, rfl⟩, ?_⟩
          rintro w (hw | ⟨-, rfl⟩)
          · have hle := hold.2 w hw
            omega
          · exact Nat.le_refl _
  · rw [lookup_keepNewest_ne t hk]
    exact (h k').congr fun w => by simp [hk]

end Table

/-! ## The first of each run -/

section Unique

variable {α κ : Type} [DecidableEq κ] (key : α → κ)

/-- `std::unique` from an element on -/
def uniqueFrom (a : α) : List α → List α
  | [] => [a]
  | b :: l => if key a = key b then uniqueFrom a l else a :: uniqueFrom b l

/-- `std::unique`: the first of each run of elements with the same key -/
def unique : List α → List α
  | [] => []
  | a :: l => uniqueFrom key a l

theorem uniqueFrom_sublist (a : α) (l : List α) : (uniqueFrom key a l).Sublist (a :: l) := by
  induction l generalizing a with
  | nil => exact List.Sublist.refl _
  | cons b l ih =>
      rw [uniqueFrom]
      split_ifs
      · exact (ih a).trans ((List.sublist_cons_self b l).cons_cons a)
      · exact (ih b).cons_cons a

theorem unique_sublist (l : List α) : (unique key l).Sublist l := by
  cases l with
  | nil => exact List.Sublist.refl _
  | cons a l => exact uniqueFrom_sublist key a l

end Unique

section NewestFirst

variable {α : Type} {key version : α → ℕ}

/-- The elements of a key are together, the newest first. -/
def NewestFirst (key version : α → ℕ) (a b : α) : Prop :=
  key a < key b ∨ key a = key b ∧ version b ≤ version a

instance (a b : α) : Decidable (NewestFirst key version a b) :=
  inferInstanceAs (Decidable (key a < key b ∨ key a = key b ∧ version b ≤ version a))

instance : Std.Total (NewestFirst key version) where
  total a b := by
    unfold NewestFirst
    omega

instance : IsTrans α (NewestFirst key version) where
  trans a b c := by
    unfold NewestFirst
    omega

/-- Of each key one element is left. -/
theorem pairwise_unique {l : List α} (h : l.Pairwise (NewestFirst key version)) :
    (unique key l).Pairwise fun a b => key a < key b := by
  have hfrom : ∀ (l : List α) (a : α), (a :: l).Pairwise (NewestFirst key version) →
      (uniqueFrom key a l).Pairwise fun a b => key a < key b := by
    intro l
    induction l with
    | nil => exact fun a _ => List.pairwise_singleton _ _
    | cons b l ih =>
        intro a hl
        rw [uniqueFrom]
        split_ifs with heq
        · exact ih a (hl.sublist ((List.sublist_cons_self b l).cons_cons a))
        · rw [List.pairwise_cons] at hl
          rw [List.pairwise_cons]
          refine ⟨?_, ih b hl.2⟩
          -- what is left comes after `b`, or is `b`
          intro c hc
          have hab : key a < key b := by
            rcases hl.1 b List.mem_cons_self with hlt | ⟨hkey, -⟩
            · exact hlt
            · exact absurd hkey heq
          rcases List.mem_cons.mp ((uniqueFrom_sublist key b l).subset hc) with rfl | hc
          · exact hab
          · rcases (List.pairwise_cons.mp hl.2).1 c hc with hlt | ⟨hkey, -⟩
            · exact hab.trans hlt
            · exact hkey ▸ hab
  cases l with
  | nil => exact List.Pairwise.nil
  | cons a l => exact hfrom l a h

/-- The one that is left is the newest. -/
theorem exists_unique_newest {l : List α} (h : l.Pairwise (NewestFirst key version)) {c : α}
    (hc : c ∈ l) : ∃ a ∈ unique key l, key a = key c ∧ version c ≤ version a := by
  have hfrom : ∀ (l : List α) (a : α), (a :: l).Pairwise (NewestFirst key version) →
      ∀ c ∈ a :: l, ∃ b ∈ uniqueFrom key a l, key b = key c ∧ version c ≤ version b := by
    intro l
    induction l with
    | nil =>
        intro a _ c hc
        rw [List.mem_singleton.mp hc]
        exact ⟨a, List.mem_singleton_self a, rfl, Nat.le_refl _⟩
    | cons b l ih =>
        intro a hl c hc
        have hskip := ih a (hl.sublist ((List.sublist_cons_self b l).cons_cons a))
        rw [List.pairwise_cons] at hl
        rw [uniqueFrom]
        split_ifs with heq
        · rcases List.mem_cons.mp hc with rfl | hc
          · exact hskip c List.mem_cons_self
          rcases List.mem_cons.mp hc with rfl | hc
          · -- `b` is in the run of `a`
            rcases hskip a List.mem_cons_self with ⟨d, hd, hkey, hversion⟩
            rcases hl.1 c List.mem_cons_self with hlt | ⟨-, hle⟩
            · omega
            · exact ⟨d, hd, by omega, by omega⟩
          · exact hskip c (List.mem_cons_of_mem _ hc)
        · rcases List.mem_cons.mp hc with rfl | hc
          · exact ⟨c, List.mem_cons_self, rfl, Nat.le_refl _⟩
          · rcases ih b hl.2 c hc with ⟨d, hd, hkey⟩
            exact ⟨d, List.mem_cons_of_mem _ hd, hkey⟩
  cases l with
  | nil => cases hc
  | cons a l => exact hfrom l a h c hc

end NewestFirst

end BcmServer.Util
