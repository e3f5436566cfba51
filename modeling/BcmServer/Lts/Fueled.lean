import Mathlib.Tactic.Common

/-!
# BcmServer.Lts.Fueled — code that may fail, or not return

Code with a state that gets so much fuel: it returns a value, it fails with an error, or
it is out of fuel. How code returns is a matter of *all* its fuel: `Ends` says that a
family of programs, one for each amount of fuel, returns with enough of it.

* `Grows` says that more fuel changes no result. `ends_bind` puts programs together that
  return with different amounts of fuel.
* `Calls` is code around a call that it makes so many times at most. It ends if the call
  does (`Calls.ends`), and costs no more than these calls (`Calls.within`).
-/

namespace BcmServer.Lts

/-- Code on a state, that fails with an `ε` or is out of fuel (`none`) -/
def Fueled (ε σ α : Type) : Type := σ → Option (Except ε α × σ)

namespace Fueled

variable {ε σ α β : Type}

/-- One program after the other -/
def bind (x : Fueled ε σ α) (k : α → Fueled ε σ β) : Fueled ε σ β := fun s =>
  match x s with
  | none => none
  | some (.error e, t) => some (.error e, t)
  | some (.ok a, t) => k a t

instance : Monad (Fueled ε σ) where
  pure a := fun s => some (.ok a, s)
  bind := bind

/-- Code that is out of fuel -/
def exhausted : Fueled ε σ α := fun _ => none

def throw (e : ε) : Fueled ε σ α := fun s => some (.error e, s)

def get : Fueled ε σ σ := fun s => some (.ok s, s)

def modify (f : σ → σ) : Fueled ε σ Unit := fun s => some (.ok (), f s)

/-! ## Results -/

section Results

variable {x : Fueled ε σ α} {k : α → Fueled ε σ β} {s t : σ} {a : α} {e : ε}

@[simp] theorem pure_apply (a : α) (s : σ) : (pure a : Fueled ε σ α) s = some (.ok a, s) := rfl

@[simp] theorem throw_apply (e : ε) (s : σ) : (throw e : Fueled ε σ α) s = some (.error e, s) :=
  rfl

theorem bind_ok (h : x s = some (.ok a, t)) : (x >>= k) s = k a t := by
  show bind x k s = k a t
  rw [bind, h]

theorem bind_error (h : x s = some (.error e, t)) : (x >>= k) s = some (.error e, t) := by
  show bind x k s = _
  rw [bind, h]

theorem bind_none (h : x s = none) : (x >>= k) s = none := by
  show bind x k s = none
  rw [bind, h]

@[simp] theorem pure_bind_apply (a : α) (k : α → Fueled ε σ β) (s : σ) :
    (pure a >>= k) s = k a s := rfl

@[simp] theorem get_bind_apply (k : σ → Fueled ε σ β) (s : σ) : (get >>= k) s = k s s := rfl

/-- What two programs return -/
theorem bind_eq_some {r : Except ε β × σ} : (x >>= k) s = some r ↔
    (∃ e t, x s = some (.error e, t) ∧ r = (.error e, t)) ∨
      ∃ a t, x s = some (.ok a, t) ∧ k a t = some r := by
  cases hx : x s with
  | none => simp [bind_none hx]
  | some u =>
      obtain ⟨_ | a, t⟩ := u
      · rw [bind_error hx]
        simp [eq_comm]
      · rw [bind_ok hx]
        simp

end Results

/-! ## Fuel -/

/-- What `x` returns, `y` returns. -/
def Le (x y : Fueled ε σ α) : Prop := ∀ s r, x s = some r → y s = some r

theorem le_refl (x : Fueled ε σ α) : x.Le x := fun _ _ h => h

theorem Le.bind {x y : Fueled ε σ α} {k l : α → Fueled ε σ β} (h : x.Le y)
    (hk : ∀ a, (k a).Le (l a)) : (x >>= k).Le (y >>= l) := by
  intro s r hr
  obtain ⟨e, t, hx, rfl⟩ | ⟨a, t, hx, hka⟩ := bind_eq_some.mp hr
  · exact bind_error (h _ _ hx)
  · rw [bind_ok (h _ _ hx)]
    exact hk a _ _ hka

/-- More fuel changes no result. -/
def Grows (x : ℕ → Fueled ε σ α) : Prop := ∀ m n, m ≤ n → (x m).Le (x n)

theorem grows_of_succ {x : ℕ → Fueled ε σ α} (h : ∀ n, (x n).Le (x (n + 1))) : Grows x := by
  intro m n hmn
  induction hmn with
  | refl => exact le_refl _
  | step _ ih => exact fun s r hr => h _ s r (ih s r hr)

/-- Enough fuel gives a result. -/
def Ends (x : ℕ → Fueled ε σ α) (s : σ) : Prop := ∃ n r, x n s = some r

/-- Programs that end, one after the other -/
theorem ends_bind {x : ℕ → Fueled ε σ α} {k : ℕ → α → Fueled ε σ β} {s : σ} (hx : Grows x)
    (hk : ∀ a, Grows fun n => k n a) (h : Ends x s)
    (hnext : ∀ n a t, x n s = some (.ok a, t) → Ends (fun n => k n a) t) :
    Ends (fun n => x n >>= k n) s := by
  obtain ⟨m, ⟨_ | a, t⟩, hm⟩ := h
  · exact ⟨m, _, bind_error hm⟩
  · obtain ⟨n, r, hn⟩ := hnext m a t hm
    refine ⟨max m n, r, ?_⟩
    show (x (max m n) >>= k (max m n)) s = some r
    rw [bind_ok (hx m _ (Nat.le_max_left m n) _ _ hm)]
    exact hk a n _ (Nat.le_max_right m n) _ _ hn

/-! ## Code around a call -/

section Calls

variable {ρ : Type} (cost : σ → ℕ)

/-- The code returns at no cost. -/
def Quiet (x : Fueled ε σ α) : Prop := ∀ s, ∃ r t, x s = some (r, t) ∧ cost t = cost s

/-- The code returns at so much cost at most. -/
def Within (n : ℕ) (x : Fueled ε σ α) : Prop :=
  ∀ s, ∃ r t, x s = some (r, t) ∧ cost t ≤ cost s + n

/-- Code that makes a call `n` times at most, and otherwise returns at no cost -/
inductive Calls : ℕ → {α : Type} → (Fueled ε σ ρ → Fueled ε σ α) → Prop where
  | quiet {α : Type} {x : Fueled ε σ α} (h : Quiet cost x) : Calls 0 fun _ => x
  | call : Calls 1 fun r => r
  | bind {α β : Type} {m n : ℕ} {x : Fueled ε σ ρ → Fueled ε σ α}
      {k : Fueled ε σ ρ → α → Fueled ε σ β} (hx : Calls m x)
      (hk : ∀ a, Calls n fun r => k r a) : Calls (m + n) fun r => x r >>= k r
  | mono {α : Type} {m n : ℕ} {x : Fueled ε σ ρ → Fueled ε σ α} (hx : Calls m x) (h : m ≤ n) :
      Calls n x

variable {cost} {n : ℕ} {x : Fueled ε σ ρ → Fueled ε σ α}

theorem quiet_pure (a : α) : Quiet cost (pure a : Fueled ε σ α) := fun s => ⟨_, s, rfl, rfl⟩

theorem quiet_throw (e : ε) : Quiet cost (throw e : Fueled ε σ α) := fun s => ⟨_, s, rfl, rfl⟩

theorem quiet_get : Quiet cost (get : Fueled ε σ σ) := fun s => ⟨_, s, rfl, rfl⟩

theorem Quiet.bind {y : Fueled ε σ α} {k : α → Fueled ε σ β} (hy : Quiet cost y)
    (hk : ∀ a, Quiet cost (k a)) : Quiet cost (y >>= k) := by
  intro s
  obtain ⟨_ | a, t, ht, hcost⟩ := hy s
  · exact ⟨_, t, bind_error ht, hcost⟩
  · obtain ⟨r, u, hu, hcost'⟩ := hk a t
    exact ⟨r, u, (bind_ok ht).trans hu, hcost'.trans hcost⟩

theorem Quiet.ite {p : Prop} [Decidable p] {y z : Fueled ε σ α} (hy : Quiet cost y)
    (hz : Quiet cost z) : Quiet cost (if p then y else z) := by
  by_cases hp : p
  · rwa [if_pos hp]
  · rwa [if_neg hp]

theorem calls_pure (a : α) : Calls cost 0 fun _ : Fueled ε σ ρ => (pure a : Fueled ε σ α) :=
  .quiet (quiet_pure a)

theorem Calls.ite {p : Prop} [Decidable p] {y : Fueled ε σ ρ → Fueled ε σ α}
    (hx : Calls cost n x) (hy : Calls cost n y) :
    Calls cost n fun r => if p then x r else y r := by
  by_cases hp : p
  · simpa only [if_pos hp] using hx
  · simpa only [if_neg hp] using hy

/-- The call comes only if there is something left to do. -/
theorem Calls.ite_pure {p : Prop} [Decidable p] {a : α} (hx : Calls cost n x) :
    Calls cost n fun r => if p then pure a else x r :=
  .ite (.mono (calls_pure a) (Nat.zero_le n)) hx

theorem Calls.bind_quiet {k : α → Fueled ε σ β} (hx : Calls cost n x)
    (hk : ∀ a, Quiet cost (k a)) : Calls cost n fun r => x r >>= k :=
  .bind (k := fun _ => k) hx fun a => .quiet (hk a)

theorem calls_bind_quiet {k : ρ → Fueled ε σ β} (hk : ∀ a, Quiet cost (k a)) :
    Calls cost 1 fun r => r >>= k := Calls.call.bind_quiet hk

theorem Quiet.bind_calls {y : Fueled ε σ α} {k : Fueled ε σ ρ → α → Fueled ε σ β}
    (hy : Quiet cost y) (hk : ∀ a, Calls cost n fun r => k r a) :
    Calls cost n fun r => y >>= k r :=
  .mono (.bind (.quiet hy) hk) (Nat.le_of_eq (Nat.zero_add n))

theorem Calls.map (hx : Calls cost n x) (f : α → β) : Calls cost n fun r => f <$> x r :=
  .bind hx fun a => calls_pure (f a)

theorem Calls.le (h : Calls cost n x) {r r' : Fueled ε σ ρ} (hr : r.Le r') : (x r).Le (x r') := by
  induction h with
  | quiet _ => exact le_refl _
  | call => exact hr
  | bind _ _ ihx ihk => exact ihx.bind ihk
  | mono _ _ ih => exact ih

theorem Calls.grows (h : Calls cost n x) {r : ℕ → Fueled ε σ ρ} (hr : Grows r) :
    Grows fun i => x (r i) := fun i j hij => h.le (hr i j hij)

/-- It ends if the call always does. -/
theorem Calls.ends (h : Calls cost n x) {r : ℕ → Fueled ε σ ρ} (hr : Grows r)
    (hends : ∀ s, Ends r s) (s : σ) : Ends (fun i => x (r i)) s := by
  induction h generalizing s with
  | quiet hx =>
      obtain ⟨r, t, ht, _⟩ := hx s
      exact ⟨0, _, ht⟩
  | call => exact hends s
  | bind hx hk ihx ihk =>
      exact ends_bind (hx.grows hr) (fun a => (hk a).grows hr) (ihx s) fun _ a t _ => ihk a t
  | mono _ _ ih => exact ih s

/-- It costs as much as the calls. -/
theorem Calls.within (h : Calls cost n x) {r : Fueled ε σ ρ} {m : ℕ} (hr : Within cost m r) :
    Within cost (n * m) (x r) := by
  induction h with
  | quiet hx =>
      intro s
      obtain ⟨r, t, ht, hcost⟩ := hx s
      exact ⟨r, t, ht, by omega⟩
  | call => rwa [Nat.one_mul]
  | bind _ _ ihx ihk =>
      intro s
      obtain ⟨_ | a, t, ht, hcost⟩ := ihx s
      · exact ⟨_, t, bind_error ht, by rw [Nat.add_mul]; omega⟩
      · obtain ⟨r, u, hu, hcost'⟩ := ihk a t
        exact ⟨r, u, (bind_ok ht).trans hu, by rw [Nat.add_mul]; omega⟩
  | mono _ hle ih =>
      intro s
      obtain ⟨r, t, ht, hcost⟩ := ih s
      exact ⟨r, t, ht, Nat.le_trans hcost (Nat.add_le_add_left (Nat.mul_le_mul_right m hle) _)⟩

end Calls

end Fueled

end BcmServer.Lts
