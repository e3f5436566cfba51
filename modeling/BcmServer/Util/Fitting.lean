import Mathlib.Algebra.GroupWithZero.Nat
import Mathlib.Data.List.Infix
import Mathlib.Tactic.Common

/-!
# BcmServer.Util.Fitting — the longest end of a list that fits

Every element has a size. `fitting limit l` drops elements from the front until the
sizes of the others do not exceed `limit`. It is the longest suffix that fits, so a
list that is cut each time an element is appended is what the whole list would have
been cut to (`fitting_concat`, `fitting_fitting`).
-/

namespace BcmServer.Util

variable {α : Type*} (size : α → ℕ)

/-- The sizes together -/
def total (l : List α) : ℕ := (l.map size).sum

/-- What is left when elements are dropped from the front until the others fit -/
def fitting (limit : ℕ) : List α → List α
  | [] => []
  | a :: l => if total size (a :: l) ≤ limit then a :: l else fitting limit l

variable {size} {limit limit' : ℕ} {a : α} {l s : List α}

@[simp] theorem total_nil : total size [] = 0 := rfl

@[simp] theorem total_cons : total size (a :: l) = size a + total size l := rfl

@[simp] theorem total_append (l m : List α) :
    total size (l ++ m) = total size l + total size m := by
  simp [total]

@[simp] theorem fitting_nil (limit : ℕ) : fitting size limit [] = [] := rfl

theorem fitting_of_le (h : total size l ≤ limit) : fitting size limit l = l := by
  cases l with
  | nil => rfl
  | cons a l => exact if_pos h

theorem fitting_cons_of_lt (h : limit < total size (a :: l)) :
    fitting size limit (a :: l) = fitting size limit l :=
  if_neg (Nat.not_le.mpr h)

theorem fitting_suffix (size : α → ℕ) (limit : ℕ) (l : List α) : fitting size limit l <:+ l := by
  induction l with
  | nil => exact List.suffix_rfl
  | cons a l ih =>
      rcases Nat.lt_or_ge limit (total size (a :: l)) with h | h
      · rw [fitting_cons_of_lt h]
        exact ih.trans (List.suffix_cons a l)
      · rw [fitting_of_le h]

theorem total_fitting_le (size : α → ℕ) (limit : ℕ) (l : List α) :
    total size (fitting size limit l) ≤ limit := by
  induction l with
  | nil => exact Nat.zero_le _
  | cons a l ih =>
      rcases Nat.lt_or_ge limit (total size (a :: l)) with h | h
      · rwa [fitting_cons_of_lt h]
      · rwa [fitting_of_le h]

/-- No longer suffix fits. -/
theorem suffix_fitting (hs : s <:+ l) (hle : total size s ≤ limit) :
    s <:+ fitting size limit l := by
  induction l with
  | nil => exact hs
  | cons a l ih =>
      rcases Nat.lt_or_ge limit (total size (a :: l)) with h | h
      · rw [fitting_cons_of_lt h]
        rcases List.suffix_cons_iff.mp hs with rfl | hs
        · omega
        · exact ih hs
      · rwa [fitting_of_le h]

/-- Cutting further is cutting at once. -/
theorem fitting_fitting (h : limit ≤ limit') (l : List α) :
    fitting size limit (fitting size limit' l) = fitting size limit l := by
  induction l with
  | nil => rfl
  | cons a l ih =>
      rcases Nat.lt_or_ge limit' (total size (a :: l)) with hlt | hle
      · rw [fitting_cons_of_lt hlt, ih, fitting_cons_of_lt (Nat.lt_of_le_of_lt h hlt)]
      · rw [fitting_of_le hle]

/-- An element that fits keeps its place at the end; the others share what it leaves. -/
theorem fitting_concat (h : size a ≤ limit) (l : List α) :
    fitting size limit (l ++ [a]) = fitting size (limit - size a) l ++ [a] := by
  induction l with
  | nil => exact fitting_of_le (by simpa using h)
  | cons b l ih =>
      have htotal : total size (b :: l ++ [a]) = total size (b :: l) + size a := by
        simp [Nat.add_assoc]
      rcases Nat.lt_or_ge (limit - size a) (total size (b :: l)) with hlt | hle
      · rw [fitting_cons_of_lt hlt, ← ih]
        exact fitting_cons_of_lt (a := b) (l := l ++ [a]) (by rw [← List.cons_append]; omega)
      · rw [fitting_of_le hle, fitting_of_le (by omega)]

end BcmServer.Util
