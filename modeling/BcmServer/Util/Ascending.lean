import Mathlib.Data.List.Basic
import Mathlib.Logic.Function.Basic
import Mathlib.Order.Basic

/-!
# BcmServer.Util.Ascending — registers that are written without a look

A register has a version for each key, and a writer who has computed writes some
time ago puts them there one after the other, whatever the register holds by then.
The versions never go back if the writes that are still to come are `Ascending`:
none is below the register, nor below an earlier one of its key. Another writer may
come between if it does not overtake them (`Ascending.between`).
-/

namespace BcmServer.Util

variable {K : Type} [DecidableEq K]

/-- One write after the other -/
def writeAll (v : K → ℕ) (ws : List (K × ℕ)) : K → ℕ :=
  ws.foldl (fun v w => Function.update v w.1 w.2) v

/-- Writes that a register takes without going back -/
structure Ascending (v : K → ℕ) (ws : List (K × ℕ)) : Prop where
  le : ∀ w ∈ ws, v w.1 ≤ w.2
  ordered : ws.Pairwise fun a b => a.1 = b.1 → a.2 ≤ b.2

namespace Ascending

variable {v : K → ℕ} {w : K × ℕ} {ws ws' : List (K × ℕ)}

/-- A write that no pending one of its key is below -/
theorem between (h : Ascending v ws) {k : K} {n : ℕ} (hn : ∀ w ∈ ws, w.1 = k → n ≤ w.2) :
    Ascending (Function.update v k n) ws := by
  refine ⟨fun w hw => ?_, h.ordered⟩
  by_cases hk : w.1 = k
  · rw [hk, Function.update_self]
    exact hn w hw hk
  · rw [Function.update_of_ne hk]
    exact h.le w hw

theorem tail (h : Ascending v (w :: ws)) : Ascending (Function.update v w.1 w.2) ws := by
  obtain ⟨hfirst, hrest⟩ := List.pairwise_cons.mp h.ordered
  have hws : Ascending v ws := ⟨fun w' hw' => h.le w' (List.mem_cons_of_mem w hw'), hrest⟩
  exact hws.between fun w' hw' hk => hfirst w' hw' hk.symm

theorem le_update {k : K} {n : ℕ} (h : v k ≤ n) : v ≤ Function.update v k n := by
  intro k'
  by_cases hk : k' = k
  · rw [hk, Function.update_self]
    exact h
  · exact Nat.le_of_eq (Function.update_of_ne hk n v).symm

/-- Some of the writes: the register goes up, to what was written at least, and the
others remain ascending. -/
theorem writeAll (h : Ascending v (ws ++ ws')) :
    v ≤ Util.writeAll v ws ∧ (∀ w ∈ ws, w.2 ≤ Util.writeAll v ws w.1) ∧
      Ascending (Util.writeAll v ws) ws' := by
  induction ws generalizing v with
  | nil => exact ⟨fun _ => Nat.le_refl _, fun _ hw => absurd hw List.not_mem_nil, h⟩
  | cons w ws ih =>
      obtain ⟨hup, hwritten, hrest⟩ := ih h.tail
      have hfirst : v ≤ Function.update v w.1 w.2 := le_update (h.le w List.mem_cons_self)
      refine ⟨fun k => Nat.le_trans (hfirst k) (hup k), fun w' hw' => ?_, hrest⟩
      rcases List.mem_cons.mp hw' with rfl | hw'
      · have hle := hup w'.1
        rwa [Function.update_self] at hle
      · exact hwritten w' hw'

end Ascending

end BcmServer.Util
