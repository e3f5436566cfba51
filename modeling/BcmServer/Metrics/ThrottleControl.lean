import BcmServer.Lts.Run
import Mathlib.Algebra.Order.Ring.Int

/-!
# BcmServer.Metrics.ThrottleControl — quotas for reads and writes

A request takes its size from a quota. If nothing is left of the quota, the request waits
until it is woken and takes its size once more. Every minute the quotas are filled up and
everybody is woken; a thread may also wake up for no reason.

`fair_of_room`: requests are admitted that fit with those admitted since the quotas were
filled, and no others, in every run in which the failed attempts have left room for what
fits. What a failed attempt takes is not given back, so a large request that waits keeps
out small ones (`not_fair`).

The lock makes an attempt one step. Requests before `start` are left out.
-/

namespace BcmServer.Metrics

open Lts

/-- A quota, with the sizes that were taken from it since it was filled -/
structure Quota where
  threshold : Int64
  quota : Int64
  admitted : List UInt32 := []
  failed : List UInt32 := []
deriving DecidableEq, Repr

/-- The sizes together -/
def total (sizes : List UInt32) : ℕ := (sizes.map UInt32.toNat).sum

namespace Quota

def filled (threshold : Int64) : Quota where
  threshold := threshold
  quota := threshold

/-- An attempt: a round of the loop of `checkReadQuota` and of `checkWriteQuota` -/
def take (q : Quota) (n : UInt32) : Bool × Quota :=
  let quota := q.quota - .ofNat n.toNat
  if 0 ≤ quota then (true, { q with quota, admitted := n :: q.admitted })
  else (false, { q with quota, failed := n :: q.failed })

/-- A size fits with what was admitted. -/
def Fits (q : Quota) (n : UInt32) : Prop := (total q.admitted + n.toNat : ℤ) ≤ q.threshold.toInt

instance (q : Quota) (n : UInt32) : Decidable (q.Fits n) := inferInstanceAs (Decidable (_ ≤ _))

/-- What fits also fits with what has failed, and nothing overflows. -/
def Room (q : Quota) (n : UInt32) : Prop :=
  (q.Fits n → (total q.admitted + total q.failed + n.toNat : ℤ) ≤ q.threshold.toInt) ∧
    -2 ^ 63 ≤ q.quota.toInt - n.toNat

instance (q : Quota) (n : UInt32) : Decidable (q.Room n) := inferInstanceAs (Decidable (_ ∧ _))

/-- The sizes of the admitted requests add up to the threshold at most. -/
def Within (q : Quota) : Prop := q.admitted ≠ [] → (total q.admitted : ℤ) ≤ q.threshold.toInt

/-- What was taken is missing, and was not too much. -/
structure Balanced (q : Quota) : Prop where
  quota_eq : q.quota.toInt = q.threshold.toInt - total q.admitted - total q.failed
  within : q.Within

end Quota

/-- What a request is for -/
inductive Side where
  | read | write
deriving DecidableEq, Repr

/-- `ThrottleControl`, with the requests that wait -/
structure ThrottleControl where
  readQuota : Quota
  writeQuota : Quota
  waiting : List (Side × UInt32) := []
deriving DecidableEq, Repr

namespace ThrottleControl

/-- After `start` -/
def start (readThreshold writeThreshold : Int64) : ThrottleControl where
  readQuota := .filled readThreshold
  writeQuota := .filled writeThreshold

variable (s : ThrottleControl)

def quota : Side → Quota
  | .read => s.readQuota
  | .write => s.writeQuota

def setQuota (q : Quota) : Side → ThrottleControl
  | .read => { s with readQuota := q }
  | .write => { s with writeQuota := q }

/-- An attempt of a request -/
def attempt (side : Side) (n : UInt32) : Bool × ThrottleControl :=
  let (admitted, q) := (s.quota side).take n
  (admitted, s.setQuota q side)

/-- `checkReadQuota` and `checkWriteQuota`, up to the first `wait` -/
def check (side : Side) (n : UInt32) : ThrottleControl :=
  let (admitted, s) := s.attempt side n
  if admitted then s else { s with waiting := s.waiting ++ [(side, n)] }

def checkReadQuota (n : UInt32) : ThrottleControl := s.check .read n

def checkWriteQuota (n : UInt32) : ThrottleControl := s.check .write n

/-- A request that waits wakes up. -/
def wake (i : ℕ) : Option ThrottleControl :=
  s.waiting[i]?.map fun (side, n) =>
    let (admitted, s) := s.attempt side n
    if admitted then { s with waiting := s.waiting.eraseIdx i } else s

/-- A round of the thread that `start` runs -/
def refill : ThrottleControl :=
  { s with
    readQuota := .filled s.readQuota.threshold
    writeQuota := .filled s.writeQuota.threshold }

/-- What happens to the quotas -/
inductive Step where
  | checkReadQuota (n : UInt32)
  | checkWriteQuota (n : UInt32)
  | wake (i : ℕ)
  | refill
deriving DecidableEq, Repr

def step (s : ThrottleControl) : Step → Option ThrottleControl
  | .checkReadQuota n => some (s.checkReadQuota n)
  | .checkWriteQuota n => some (s.checkWriteQuota n)
  | .wake i => s.wake i
  | .refill => some s.refill

def machine : Machine ThrottleControl Step := ⟨step⟩

/-- The request that makes an attempt in a step -/
def asks : Step → Option (Side × UInt32)
  | .checkReadQuota n => some (.read, n)
  | .checkWriteQuota n => some (.write, n)
  | .wake i => s.waiting[i]?
  | .refill => none

/-- The request is admitted if and only if it fits with what was admitted. -/
def Fair (a : Step) : Prop :=
  ∀ r ∈ s.asks a, (s.attempt r.1 r.2).1 = true ↔ (s.quota r.1).Fits r.2

/-- There is room for the request if it fits. -/
def Room (a : Step) : Prop := ∀ r ∈ s.asks a, (s.quota r.1).Room r.2

instance (a : Step) : Decidable (s.Room a) :=
  inferInstanceAs (Decidable (∀ r ∈ s.asks a, (s.quota r.1).Room r.2))

end ThrottleControl

/-! ## An attempt -/

namespace Quota

variable {q : Quota} {n : UInt32}

@[simp] theorem total_cons (n : UInt32) (sizes : List UInt32) :
    total (n :: sizes) = n.toNat + total sizes := by
  simp [total]

theorem balanced_filled (threshold : Int64) : (filled threshold).Balanced where
  quota_eq := by simp [filled, total]
  within h := absurd rfl h

/-- What an attempt leaves, if nothing overflows -/
theorem toInt_sub_size (h : -2 ^ 63 ≤ q.quota.toInt - n.toNat) :
    (q.quota - .ofNat n.toNat).toInt = q.quota.toInt - n.toNat := by
  have hn := n.toNat_lt
  have hlt := q.quota.toInt_lt
  rw [Int64.toInt_sub, Int64.toInt_ofNat_of_lt (by omega)]
  exact Int.bmod_eq_of_le (by omega) (by omega)

/-- An attempt succeeds if its size fits with all that was taken. -/
theorem take_iff (hq : q.Balanced) (h : -2 ^ 63 ≤ q.quota.toInt - n.toNat) :
    (q.take n).1 = true ↔
      (total q.admitted + total q.failed + n.toNat : ℤ) ≤ q.threshold.toInt := by
  have hquota := hq.quota_eq
  have hle : 0 ≤ q.quota - .ofNat n.toNat ↔ 0 ≤ q.quota.toInt - n.toNat := by
    rw [Int64.le_iff_toInt_le, toInt_sub_size h]
    rfl
  unfold take
  by_cases hpos : 0 ≤ q.quota - .ofNat n.toNat
  · rw [if_pos hpos]
    have := hle.mp hpos
    simp only [true_iff]
    omega
  · rw [if_neg hpos]
    have := mt hle.mpr hpos
    simp only [Bool.false_eq_true, false_iff]
    omega

theorem Balanced.take (hq : q.Balanced) (h : -2 ^ 63 ≤ q.quota.toInt - n.toNat) :
    (q.take n).2.Balanced := by
  have hquota := hq.quota_eq
  have hiff := take_iff hq h
  unfold Quota.take at hiff ⊢
  by_cases hpos : 0 ≤ q.quota - .ofNat n.toNat
  · rw [if_pos hpos] at hiff ⊢
    have hfits := hiff.mp rfl
    constructor
    · simp only [toInt_sub_size h, total_cons]
      omega
    · intro _
      simp only [total_cons]
      omega
  · rw [if_neg hpos]
    constructor
    · simp only [toInt_sub_size h, total_cons]
      omega
    · exact hq.within

/-- With nothing overflowing, the right requests are admitted exactly if there is room. -/
theorem take_fair_iff (hq : q.Balanced) (h : -2 ^ 63 ≤ q.quota.toInt - n.toNat) :
    ((q.take n).1 = true ↔ q.Fits n) ↔ q.Room n := by
  rw [take_iff hq h, Room, Fits]
  constructor
  · exact fun hiff => ⟨hiff.mpr, h⟩
  · exact fun hroom => ⟨fun hle => by omega, hroom.1⟩

end Quota

namespace ThrottleControl

variable {s t : ThrottleControl}

/-- Both quotas are balanced. -/
def Balanced (s : ThrottleControl) : Prop := ∀ side, (s.quota side).Balanced

theorem balanced_start (readThreshold writeThreshold : Int64) :
    (start readThreshold writeThreshold).Balanced := by
  intro side
  cases side <;> exact Quota.balanced_filled _

theorem balanced_refill (s : ThrottleControl) : s.refill.Balanced := by
  intro side
  cases side <;> exact Quota.balanced_filled _

theorem Balanced.attempt (h : s.Balanced) {side : Side} {n : UInt32}
    (hroom : (s.quota side).Room n) : (s.attempt side n).2.Balanced := by
  intro side'
  cases side <;> cases side'
  · exact (h .read).take hroom.2
  · exact h .write
  · exact h .read
  · exact (h .write).take hroom.2

theorem Balanced.waiting (h : s.Balanced) (waiting : List (Side × UInt32)) :
    Balanced { s with waiting } := h

theorem Balanced.check (h : s.Balanced) {side : Side} {n : UInt32}
    (hroom : (s.quota side).Room n) : (s.check side n).Balanced := by
  have hattempt := h.attempt hroom
  unfold ThrottleControl.check
  cases hadmitted : (s.attempt side n).1 with
  | true => simpa [hadmitted] using hattempt
  | false => simpa [hadmitted] using hattempt.waiting _

theorem Balanced.step (h : s.Balanced) {a : Step} (hroom : s.Room a)
    (hstep : machine.step s a = some t) : t.Balanced := by
  cases a with
  | checkReadQuota n =>
      obtain rfl := Option.some.inj hstep
      exact h.check (hroom (.read, n) rfl)
  | checkWriteQuota n =>
      obtain rfl := Option.some.inj hstep
      exact h.check (hroom (.write, n) rfl)
  | wake i =>
      obtain ⟨r, hr, rfl⟩ := Option.map_eq_some_iff.mp hstep
      have hattempt := h.attempt (hroom r hr)
      cases hadmitted : (s.attempt r.1 r.2).1 with
      | true => simpa [hadmitted] using hattempt.waiting _
      | false => simpa [hadmitted] using hattempt
  | refill =>
      obtain rfl := Option.some.inj hstep
      exact balanced_refill s

theorem Balanced.fair (h : s.Balanced) {a : Step} (hroom : s.Room a) : s.Fair a :=
  fun r hr => (Quota.take_fair_iff (h r.1) (hroom r hr).2).mpr (hroom r hr)

theorem fair_of_balanced (h : s.Balanced) {steps : List Step}
    (hroom : machine.Meets Room s steps) : machine.Meets Fair s steps := by
  induction steps generalizing s with
  | nil => trivial
  | cons a steps ih =>
      refine ⟨h.fair hroom.1, ?_⟩
      have hrest := hroom.2
      cases hstep : machine.step s a with
      | none => trivial
      | some t =>
          rw [hstep] at hrest
          exact ih (h.step hroom.1 hstep) hrest

/-- In a run with room for what fits, the sizes that are admitted before the next refill add up to
the threshold at most, and what fits is admitted at once. -/
theorem fair_of_room {readThreshold writeThreshold : Int64} {steps : List Step}
    (hrun : machine.run (start readThreshold writeThreshold) steps = some t)
    (hroom : machine.Meets Room (start readThreshold writeThreshold) steps) :
    machine.Meets Fair (start readThreshold writeThreshold) steps ∧
      ∀ side, (t.quota side).Within := by
  have hstart := balanced_start readThreshold writeThreshold
  refine ⟨fair_of_balanced hstart hroom, fun side => ?_⟩
  have hbalanced := machine.run_invariant Balanced (fun _ _ _ h hok hstep => h.step hok hstep)
    hstart hroom hrun
  exact (hbalanced side).within

theorem fair_of_room_waiting : ∃ t,
    machine.run (start 10 5) [.checkReadQuota 4, .checkReadQuota 6, .checkReadQuota 7, .wake 0,
      .refill, .wake 0, .checkWriteQuota 5] = some t ∧
    machine.Meets Fair (start 10 5) [.checkReadQuota 4, .checkReadQuota 6, .checkReadQuota 7,
      .wake 0, .refill, .wake 0, .checkWriteQuota 5] ∧ ∀ side, (t.quota side).Within :=
  ⟨_, rfl, fair_of_room rfl (by decide)⟩

/-- A read of 11 waits, and a read of 5 waits although all of the quota is left. -/
theorem not_fair : ¬ ∀ (readThreshold writeThreshold : Int64) (steps : List Step)
    (t : ThrottleControl), machine.run (start readThreshold writeThreshold) steps = some t →
    machine.Meets Fair (start readThreshold writeThreshold) steps ∧
      ∀ side, (t.quota side).Within := by
  intro h
  have hfair := (h 10 10 [.checkReadQuota 11, .checkReadQuota 5] _ rfl).1.2.1
  have hread := (hfair (.read, 5) rfl).mpr (by decide)
  exact absurd hread (by decide)

end ThrottleControl

end BcmServer.Metrics
