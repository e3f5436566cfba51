import Mathlib.Algebra.Order.Ring.Int
import Mathlib.Logic.Function.Basic
import Mathlib.Tactic.Common

/-!
# BcmServer.Util.Expiring — counters that expire

A store of counters as redis keeps them: INCR creates a counter or adds one to
it and leaves its time to live alone, SET overwrites it and makes it permanent,
EXPIRE gives it a time to live. A counter is gone when its time has passed.

`counter` is the value a reader finds, zero if there is none. While a counter
lasts (`LastsUntil`) the commands do to it what their names say, and time does
nothing to it.
-/

namespace BcmServer.Util

/-- A value and the time at which it is gone. -/
structure Expiring where
  value : ℤ
  expireAt : Option ℤ
deriving DecidableEq, Repr

namespace Expiring

variable {K : Type*} {s : K → Option Expiring} {now now' t : ℤ} {k j : K}

/-- The entry of a key that has not expired. -/
def live (s : K → Option Expiring) (now : ℤ) (k : K) : Option Expiring :=
  (s k).filter fun e => e.expireAt.all fun x => decide (now < x)

/-- The value of a counter, zero where there is none. -/
def counter (s : K → Option Expiring) (now : ℤ) (k : K) : ℤ :=
  (live s now k).elim 0 Expiring.value

/-- The counter does not expire before `t`. -/
def LastsUntil (s : K → Option Expiring) (k : K) (t : ℤ) : Prop :=
  ∀ e x, s k = some e → e.expireAt = some x → t ≤ x

theorem lasts_of_none (h : s k = none) : LastsUntil s k t := by
  intro e x he
  rw [h] at he
  cases he

/-- While it lasts, a counter is what was written. -/
theorem live_of_lasts (h : LastsUntil s k t) (hnow : now < t) : live s now k = s k := by
  unfold live
  cases hk : s k with
  | none => rfl
  | some e =>
      cases hx : e.expireAt with
      | none => simp [hx]
      | some x =>
          have hlt : now < x := lt_of_lt_of_le hnow (h e x hk hx)
          simp [hx, hlt]

theorem counter_of_lasts (h : LastsUntil s k t) (hnow : now < t) :
    counter s now k = (s k).elim 0 Expiring.value := by
  unfold counter
  rw [live_of_lasts h hnow]

/-- Time does nothing to a counter that lasts. -/
theorem counter_tick (h : LastsUntil s k t) (hnow : now < t) (hnow' : now' < t) :
    counter s now' k = counter s now k := by
  rw [counter_of_lasts h hnow, counter_of_lasts h hnow']

/-! ## Commands -/

variable [DecidableEq K]

/-- INCR -/
def incr (s : K → Option Expiring) (now : ℤ) (k : K) : K → Option Expiring :=
  Function.update s k (some ⟨counter s now k + 1, (live s now k).bind Expiring.expireAt⟩)

/-- SET -/
def set (s : K → Option Expiring) (k : K) (v : ℤ) : K → Option Expiring :=
  Function.update s k (some ⟨v, none⟩)

/-- EXPIRE, the time to live in the unit of the clock -/
def expire (s : K → Option Expiring) (now : ℤ) (k : K) (ttl : ℤ) : K → Option Expiring :=
  match live s now k with
  | none => s
  | some e => Function.update s k (some ⟨e.value, some (now + ttl)⟩)

omit [DecidableEq K] in
/-- A counter that is not written keeps what it has. -/
theorem keeps_of_eq {s' : K → Option Expiring} (h : s' j = s j) (now t : ℤ) :
    counter s' now j = counter s now j ∧ (LastsUntil s j t → LastsUntil s' j t) := by
  refine ⟨?_, ?_⟩
  · unfold counter live
    rw [h]
  · intro hs e x he
    exact hs e x (h ▸ he)

theorem incr_ne (h : j ≠ k) : incr s now k j = s j := Function.update_of_ne h _ _

theorem set_ne (v : ℤ) (h : j ≠ k) : set s k v j = s j := Function.update_of_ne h _ _

theorem expire_ne (ttl : ℤ) (h : j ≠ k) : expire s now k ttl j = s j := by
  unfold expire
  cases live s now k with
  | none => rfl
  | some e => exact Function.update_of_ne h _ _

theorem lasts_incr (h : LastsUntil s k t) (hnow : now < t) : LastsUntil (incr s now k) k t := by
  intro e x he hx
  rw [incr, Function.update_self, Option.some.injEq] at he
  rw [← he, live_of_lasts h hnow] at hx
  obtain ⟨e', he', hx'⟩ := Option.bind_eq_some_iff.mp hx
  exact h e' x he' hx'

theorem counter_incr (h : LastsUntil s k t) (hnow : now < t) :
    counter (incr s now k) now k = counter s now k + 1 := by
  rw [counter_of_lasts (lasts_incr h hnow) hnow, incr, Function.update_self]
  rfl

theorem lasts_set (v : ℤ) : LastsUntil (set s k v) k t := by
  intro e x he hx
  rw [set, Function.update_self, Option.some.injEq] at he
  rw [← he] at hx
  cases hx

theorem counter_set (v : ℤ) : counter (set s k v) now k = v := by
  rw [counter_of_lasts (lasts_set v) (lt_add_one now), set, Function.update_self]
  rfl

/-- A time to live that takes effect has to reach `t`. -/
theorem lasts_expire {ttl : ℤ} (h : LastsUntil s k t)
    (httl : (live s now k).isSome → t ≤ now + ttl) :
    LastsUntil (expire s now k ttl) k t := by
  intro e x he hx
  unfold expire at he
  cases hlive : live s now k with
  | none =>
      rw [hlive] at he
      exact h e x he hx
  | some e' =>
      simp only [hlive, Function.update_self, Option.some.injEq] at he
      rw [← he, Option.some.injEq] at hx
      rw [← hx]
      exact httl (by rw [hlive]; rfl)

theorem counter_expire {ttl : ℤ} (h : LastsUntil s k t) (hnow : now < t)
    (httl : (live s now k).isSome → t ≤ now + ttl) :
    counter (expire s now k ttl) now k = counter s now k := by
  rw [counter_of_lasts (lasts_expire h httl) hnow, counter_of_lasts h hnow]
  unfold expire
  rw [live_of_lasts h hnow]
  cases hk : s k with
  | none => simp [hk]
  | some e => simp

end Expiring

end BcmServer.Util
