import BcmServer.Util.Cells
import Mathlib.Algebra.Order.Group.Defs
import Mathlib.Algebra.Order.Ring.Int
import Mathlib.Tactic.Linarith

/-!
# BcmServer.Util.Window — counting requests in fixed windows

The plain rate limiter. The first request, and the first one that comes a period
or more after the start of the window, opens a window and is granted whatever
the quota; the others are counted in the window and granted while the count is
within the quota.

* `granted_window`: a window grants no more than its quota, and one request if
  the quota is less than one.
* `granted_interval`: two windows at most meet an interval shorter than the
  period, so it sees no more than twice as many.

Times are taken from any ordered group.
-/

namespace BcmServer.Util

/-- An open window: its start and the number of requests in it. -/
structure Window (T : Type*) where
  start : T
  counter : ℤ

/-- What the limiter did with a request. -/
structure Hit (T : Type*) where
  time : T
  opens : Bool
  granted : Bool

namespace Window

open Cells

/-- Windows count from one. -/
def Counted {T : Type*} (w : Option (Window T)) : Prop := ∀ v, w = some v → 0 ≤ v.counter

theorem counted_none {T : Type*} : Counted (none : Option (Window T)) := by
  intro v hv
  cases hv

section Granted

variable {T : Type*} [LinearOrder T]

/-- The requests granted between `a` and `b`. -/
def grantedIn (a b : T) (es : List (Hit T)) : ℕ :=
  es.countP fun e => e.granted && decide (a ≤ e.time) && decide (e.time ≤ b)

theorem grantedIn_cons (a b : T) (e : Hit T) (es : List (Hit T)) :
    grantedIn a b (e :: es) =
      grantedIn a b es + if e.granted = true ∧ a ≤ e.time ∧ e.time ≤ b then 1 else 0 := by
  simp [grantedIn, List.countP_cons, and_assoc]

end Granted

variable {T : Type*} [AddCommGroup T] [LinearOrder T] (period : T) (count : ℤ)

/-- One request at time `now`. -/
def hit (w : Option (Window T)) (now : T) : Option (Window T) × Hit T :=
  match w with
  | none => (some ⟨now, 1⟩, ⟨now, true, true⟩)
  | some w =>
      if w.start + period ≤ now then (some ⟨now, 1⟩, ⟨now, true, true⟩)
      else (some ⟨w.start, w.counter + 1⟩, ⟨now, false, decide (w.counter + 1 ≤ count)⟩)

/-- What the limiter does with requests at the times `ts`. -/
def hits (w : Option (Window T)) (ts : List T) : List (Hit T) := answers (hit period count) w ts

@[simp] theorem hits_nil (w : Option (Window T)) : hits period count w [] = [] := rfl

@[simp] theorem hits_cons (w : Option (Window T)) (t : T) (ts : List T) :
    hits period count w (t :: ts) =
      (hit period count w t).2 :: hits period count (hit period count w t).1 ts := rfl

theorem hit_open {w : Window T} {now : T} (h : w.start + period ≤ now) :
    hit period count (some w) now = (some ⟨now, 1⟩, ⟨now, true, true⟩) := by
  simp [hit, h]

theorem hit_counted {w : Window T} {now : T} (h : ¬ w.start + period ≤ now) :
    hit period count (some w) now =
      (some ⟨w.start, w.counter + 1⟩, ⟨now, false, decide (w.counter + 1 ≤ count)⟩) := by
  simp [hit, h]

@[simp] theorem hit_time (w : Option (Window T)) (now : T) : (hit period count w now).2.time = now := by
  cases w with
  | none => rfl
  | some w =>
      by_cases hw : w.start + period ≤ now
      · rw [hit_open period count hw]
      · rw [hit_counted period count hw]

/-- A request that opens a window is granted and leaves the window with it alone. -/
theorem hit_of_opens {w : Option (Window T)} {now : T} (h : (hit period count w now).2.opens = true) :
    hit period count w now = (some ⟨now, 1⟩, ⟨now, true, true⟩) := by
  cases w with
  | none => rfl
  | some w =>
      by_cases hw : w.start + period ≤ now
      · exact hit_open period count hw
      · rw [hit_counted period count hw] at h
        cases h

/-- What is left of the quota. -/
def room (counter : ℤ) : ℤ := max (count - counter) 0

/-- A counted request takes from the quota what it is granted. -/
theorem room_counted (counter : ℤ) :
    (if counter + 1 ≤ count then 1 else 0) + room count (counter + 1) ≤ room count counter := by
  unfold room
  split <;> omega

/-- The opener of a window and what it leaves. -/
theorem room_opened : 1 + room count 1 = max count 1 := by
  unfold room
  omega

theorem room_le {counter : ℤ} (h : 0 ≤ counter) : room count counter ≤ max count 1 := by
  unfold room
  omega

/-! ## One window -/

/-- Requests that open no window take what is left of the quota. -/
theorem granted_of_not_opens {w : Window T} {ts : List T}
    (h : ∀ e ∈ hits period count (some w) ts, e.opens = false) :
    ((hits period count (some w) ts).countP (·.granted) : ℤ) ≤ room count w.counter := by
  induction ts generalizing w with
  | nil => simp [room]
  | cons t ts ih =>
      have hnot : ¬ w.start + period ≤ t := by
        intro hle
        have hopens := h (hit period count (some w) t).2 (by simp)
        rw [hit_open period count hle] at hopens
        cases hopens
      have hrest : ∀ e ∈ hits period count (some ⟨w.start, w.counter + 1⟩) ts,
          e.opens = false := by
        intro e he
        refine h e ?_
        rw [hits_cons, hit_counted period count hnot]
        exact List.mem_cons_of_mem _ he
      have hroom := room_counted count w.counter
      have hih : _ ≤ room count (w.counter + 1) := ih hrest
      rw [hits_cons, hit_counted period count hnot, List.countP_cons]
      simp only [decide_eq_true_eq]
      push_cast
      omega

/-- A window grants no more than its quota, or one request. -/
theorem granted_window {w : Option (Window T)} {ts : List T} {pre mid post : List (Hit T)}
    {e : Hit T} (h : hits period count w ts = pre ++ e :: (mid ++ post)) (he : e.opens = true)
    (hmid : ∀ d ∈ mid, d.opens = false) :
    (((e :: mid).countP (·.granted) : ℕ) : ℤ) ≤ max count 1 := by
  obtain ⟨ts₁, ts₂, -, -, h₂⟩ := answers_eq_append _ h
  cases ts₂ with
  | nil => simp at h₂
  | cons t ts₂ =>
      rw [answers_cons, List.cons.injEq] at h₂
      obtain ⟨rfl, h₂⟩ := h₂
      have hopen := hit_of_opens period count he
      rw [hopen] at h₂ ⊢
      obtain ⟨ts₃, ts₄, -, rfl, -⟩ := answers_eq_append _ h₂
      have hgranted : ((answers (hit period count) (some ⟨t, 1⟩) ts₃).countP (·.granted) : ℤ) ≤
          room count 1 := granted_of_not_opens period count hmid
      have hroom := room_opened count
      rw [List.countP_cons]
      simp only [if_true]
      push_cast
      omega

/-! ## An interval -/

/-- Nothing is granted in an interval before the first request. -/
theorem grantedIn_eq_zero {a b : T} {w : Option (Window T)} {ts : List T} (h : ∀ t ∈ ts, b < t) :
    grantedIn a b (hits period count w ts) = 0 := by
  induction ts generalizing w with
  | nil => rfl
  | cons t ts ih =>
      have ht : b < t := h t List.mem_cons_self
      rw [hits_cons, grantedIn_cons, hit_time, ih fun s hs => h s (List.mem_cons_of_mem t hs)]
      simp [not_le.mpr ht]

/-- Up to the end of the window no more is granted than what is left of the quota. -/
theorem grantedIn_window {a b : T} {w : Window T} {ts : List T} (hts : ts.Pairwise (· ≤ ·))
    (hb : b < w.start + period) :
    (grantedIn a b (hits period count (some w) ts) : ℤ) ≤ room count w.counter := by
  induction ts generalizing w with
  | nil => simp [grantedIn, room]
  | cons t ts ih =>
      rw [List.pairwise_cons] at hts
      by_cases ht : w.start + period ≤ t
      · -- the times have left the window, and the interval with it
        have hall : ∀ s ∈ t :: ts, b < s := by
          intro s hs
          rcases List.mem_cons.mp hs with rfl | hs
          · exact lt_of_lt_of_le hb ht
          · exact lt_of_lt_of_le hb (ht.trans (hts.1 s hs))
        rw [grantedIn_eq_zero period count hall]
        simp [room]
      · have hroom := room_counted count w.counter
        have hih : _ ≤ room count (w.counter + 1) := ih (w := ⟨w.start, w.counter + 1⟩) hts.2 hb
        rw [hits_cons, hit_counted period count ht, grantedIn_cons]
        simp only [decide_eq_true_eq]
        push_cast
        split <;> split at hroom <;> omega

theorem counted_hit {w : Option (Window T)} (h : Counted w) (now : T) :
    Counted (hit period count w now).1 := by
  have hone : Counted (some (⟨now, 1⟩ : Window T)) := by
    rintro v ⟨⟩
    exact zero_le_one
  cases w with
  | none => exact hone
  | some w =>
      by_cases hw : w.start + period ≤ now
      · rw [hit_open period count hw]
        exact hone
      · rw [hit_counted period count hw]
        rintro v ⟨⟩
        have hcounter := h w rfl
        show 0 ≤ w.counter + 1
        omega

section Interval

variable [IsOrderedAddMonoid T]

/-- From a time on, an interval shorter than the period sees what is left of the
window and one more window. -/
theorem grantedIn_from {a b : T} (hab : b < a + period) {w : Window T} {ts : List T}
    (hts : ts.Pairwise (· ≤ ·)) (ha : ∀ t ∈ ts, a ≤ t) :
    (grantedIn a b (hits period count (some w) ts) : ℤ) ≤ room count w.counter + max count 1 := by
  induction ts generalizing w with
  | nil =>
      simp only [hits_nil, grantedIn, List.countP_nil, room]
      omega
  | cons t ts ih =>
      rw [List.pairwise_cons] at hts
      have hrest : ∀ s ∈ ts, a ≤ s := fun s hs => ha s (List.mem_cons_of_mem t hs)
      have hle : a ≤ t := ha t List.mem_cons_self
      by_cases ht : w.start + period ≤ t
      · have hb : b < t + period := lt_of_lt_of_le hab (by gcongr)
        have hwindow : _ ≤ room count 1 :=
          grantedIn_window period count (a := a) (w := ⟨t, 1⟩) hts.2 hb
        have hopened := room_opened count
        rw [hits_cons, hit_open period count ht, grantedIn_cons]
        have hroom : 0 ≤ room count w.counter := le_max_right _ _
        push_cast
        split <;> omega
      · have hroom := room_counted count w.counter
        have hih : _ ≤ room count (w.counter + 1) + _ :=
          ih (w := ⟨w.start, w.counter + 1⟩) hts.2 hrest
        rw [hits_cons, hit_counted period count ht, grantedIn_cons]
        simp only [decide_eq_true_eq]
        push_cast
        split <;> split at hroom <;> omega

/-- An interval shorter than the period sees at most two windows. -/
theorem granted_interval {a b : T} (hab : b < a + period) {w : Option (Window T)} (hw : Counted w)
    {ts : List T} (hts : ts.Pairwise (· ≤ ·)) :
    (grantedIn a b (hits period count w ts) : ℤ) ≤ 2 * max count 1 := by
  induction ts generalizing w with
  | nil =>
      simp only [hits_nil, grantedIn, List.countP_nil]
      omega
  | cons t ts ih =>
      have hsorted := List.pairwise_cons.mp hts
      by_cases ht : t < a
      · -- the interval has not begun
        rw [hits_cons, grantedIn_cons, hit_time]
        simp only [not_le.mpr ht, false_and, and_false, if_false, add_zero]
        exact ih (counted_hit period count hw t) hsorted.2
      · have ha : ∀ s ∈ t :: ts, a ≤ s := by
          intro s hs
          rcases List.mem_cons.mp hs with rfl | hs
          · exact not_lt.mp ht
          · exact (not_lt.mp ht).trans (hsorted.1 s hs)
        cases w with
        | some w =>
            have hfrom := grantedIn_from period count hab (w := w) hts ha
            have hroom := room_le count (hw w rfl)
            omega
        | none =>
            -- the first window ever opens inside the interval
            have hb : b < t + period := lt_of_lt_of_le hab (by gcongr; exact not_lt.mp ht)
            have hwindow : _ ≤ room count 1 :=
              grantedIn_window period count (a := a) (w := ⟨t, 1⟩) hsorted.2 hb
            have hopened := room_opened count
            have hcons : hits period count none (t :: ts) =
                ⟨t, true, true⟩ :: hits period count (some ⟨t, 1⟩) ts := rfl
            rw [hcons, grantedIn_cons]
            push_cast
            split <;> omega

end Interval

end Window

end BcmServer.Util
