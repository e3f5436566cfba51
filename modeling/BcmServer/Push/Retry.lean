import BcmServer.Lts.Loop
import Mathlib.Algebra.Order.Ring.Int
import Mathlib.Data.List.Range

/-!
# BcmServer.Push.Retry — attempts with growing delays

What was not sent is sent again, after a delay that grows and is blurred, until an attempt
ends without an error that is worth another one, the attempts are used up, or the delays
add up to too much. The attempts of a notification for one device and of a broadcast go
round the same loop.

* `contextAt_delayMillis_lt`: the delays do not overflow.
* `retry_exits`: the loop is left, after the attempts that the answers and the delays
  decide beforehand (`Tried`).

That the service is stopped is left out: nothing sets `m_stop`.
-/

namespace BcmServer.Push

open Lts

/-- `error_code`, by its value -/
abbrev ErrorCode := Int32

/-- `error_code::operator bool` -/
def failed (ec : ErrorCode) : Bool := ec ≠ 0

/-! ## Delays -/

/-- `RetryContext` -/
structure RetryContext where
  maxDelayMillis : ℕ
  maxRetries : ℕ
  delayMillis : ℕ := 0
  retries : ℕ := 0
deriving DecidableEq, Repr

namespace RetryContext

def willRetry (c : RetryContext) : Bool :=
  if c.maxDelayMillis = 0 ∧ c.delayMillis = 0 then false
  else if 0 < c.maxDelayMillis ∧ c.maxDelayMillis ≤ c.delayMillis then false
  else if 0 < c.maxRetries ∧ c.maxRetries ≤ c.retries then false
  else true

def increaseRetryCount (c : RetryContext) : RetryContext := { c with retries := c.retries + 1 }

def addDelayMillis (c : RetryContext) (delayMillis : ℕ) : RetryContext :=
  { c with delayMillis := c.delayMillis + delayMillis }

theorem willRetry_iff {c : RetryContext} (hdelay : 0 < c.maxDelayMillis)
    (hretries : 0 < c.maxRetries) :
    c.willRetry = true ↔ c.delayMillis < c.maxDelayMillis ∧ c.retries < c.maxRetries := by
  have h : ¬ (c.maxDelayMillis = 0 ∧ c.delayMillis = 0) := fun hz => hdelay.ne' hz.1
  rw [willRetry, if_neg h]
  simp [hdelay, hretries]

end RetryContext

/-- `kDefaultRandomRangeMillis` -/
def kDefaultRandomRangeMillis : ℕ := 100

/-- What a random number adds to a delay, after rounding -/
def Jitter : Type := { k : ℤ // k.natAbs ≤ kDefaultRandomRangeMillis }

/-- `ServiceImpl`: the settings of its retries. Delays add up to what an `int32_t` holds. -/
structure ServiceImpl where
  initialDelayMillis : ℕ := 100
  multiplier : ℕ := 2
  maxDelayMillis : ℕ := 4000
  maxRetries : ℕ := 10
  multiplier_pos : 0 < multiplier := by decide
  maxDelayMillis_pos : 0 < maxDelayMillis := by decide
  maxRetries_pos : 0 < maxRetries := by decide
  fits : maxRetries * (initialDelayMillis * multiplier ^ maxRetries + kDefaultRandomRangeMillis) <
    2 ^ 31 := by decide

/-- The loop of the attempts, with what they did in order -/
structure Retrying (E : Type) where
  context : RetryContext
  ec : ErrorCode
  attempts : ℕ := 0
  log : List E := []

namespace ServiceImpl

variable (service : ServiceImpl) (jitters : ℕ → Jitter)

/-- `ExponentialDelayBackoff::delayMillis` -/
def exponentialDelay (context : RetryContext) : ℕ :=
  service.initialDelayMillis * service.multiplier ^ (context.retries - 1)

/-- `UniformRandomBackoff::delayMillis` -/
def delayMillis (context : RetryContext) (jitter : Jitter) : ℕ :=
  (max (service.exponentialDelay context + jitter.val) 0).toNat

/-- The context before attempt `i`, if every attempt before it has failed -/
def contextAt : ℕ → RetryContext
  | 0 => { maxDelayMillis := service.maxDelayMillis, maxRetries := service.maxRetries }
  | i + 1 =>
      let context := (contextAt i).increaseRetryCount
      context.addDelayMillis (service.delayMillis context (jitters i))

@[simp] theorem contextAt_retries (i : ℕ) : (service.contextAt jitters i).retries = i := by
  induction i with
  | zero => rfl
  | succ i ih => simp [contextAt, RetryContext.increaseRetryCount, RetryContext.addDelayMillis, ih]

@[simp] theorem contextAt_maxRetries (i : ℕ) :
    (service.contextAt jitters i).maxRetries = service.maxRetries := by
  induction i with
  | zero => rfl
  | succ i ih => exact ih

@[simp] theorem contextAt_maxDelayMillis (i : ℕ) :
    (service.contextAt jitters i).maxDelayMillis = service.maxDelayMillis := by
  induction i with
  | zero => rfl
  | succ i ih => exact ih

theorem delayMillis_le {i : ℕ} (hi : i < service.maxRetries) :
    service.delayMillis (service.contextAt jitters i).increaseRetryCount (jitters i) ≤
      service.initialDelayMillis * service.multiplier ^ service.maxRetries +
        kDefaultRandomRangeMillis := by
  have hpow : service.multiplier ^ i ≤ service.multiplier ^ service.maxRetries :=
    Nat.pow_le_pow_right service.multiplier_pos hi.le
  have hexp := Nat.mul_le_mul_left service.initialDelayMillis hpow
  have hjitter := (jitters i).property
  simp only [delayMillis, exponentialDelay, RetryContext.increaseRetryCount, contextAt_retries,
    Nat.add_sub_cancel]
  omega

/-- No delay overflows. -/
theorem contextAt_delayMillis_lt {i : ℕ} (hi : i ≤ service.maxRetries) :
    (service.contextAt jitters i).delayMillis < 2 ^ 31 := by
  have hsum : (service.contextAt jitters i).delayMillis ≤
      i * (service.initialDelayMillis * service.multiplier ^ service.maxRetries +
        kDefaultRandomRangeMillis) := by
    induction i with
    | zero => exact Nat.zero_le _
    | succ i ih =>
        rw [Nat.succ_mul]
        exact Nat.add_le_add (ih (Nat.le_of_succ_le hi)) (service.delayMillis_le jitters hi)
  exact lt_of_le_of_lt (hsum.trans (Nat.mul_le_mul_right _ hi)) service.fits

theorem willRetry_contextAt_iff {i : ℕ} : (service.contextAt jitters i).willRetry = true ↔
    (service.contextAt jitters i).delayMillis < service.maxDelayMillis ∧ i < service.maxRetries := by
  have h := RetryContext.willRetry_iff (c := service.contextAt jitters i)
    (by rw [contextAt_maxDelayMillis]; exact service.maxDelayMillis_pos)
    (by rw [contextAt_maxRetries]; exact service.maxRetries_pos)
  rwa [contextAt_maxDelayMillis, contextAt_maxRetries, contextAt_retries] at h

/-! ## The loop -/

/-- Attempt `i` is made if every attempt before it is to be made again: the waiting is not over. -/
def Tried (again : ℕ → Bool) (i : ℕ) : Prop :=
  (∀ j ≤ i, (service.contextAt jitters j).willRetry = true) ∧ ∀ j < i, again j = true

instance (again : ℕ → Bool) : DecidablePred (service.Tried jitters again) := fun i =>
  inferInstanceAs (Decidable ((∀ j ≤ i, (service.contextAt jitters j).willRetry = true) ∧
    ∀ j < i, again j = true))

variable {E : Type} (attempt : ℕ → ErrorCode × List E) (again : ErrorCode → Bool)

/-- A round of `sendNotificationWithRetry` and of `broadcastNotificationWithRetry` -/
def retryRound (r : Retrying E) : Bool × Retrying E :=
  if r.context.willRetry then
    let (ec, events) := attempt r.attempts
    let log := r.log ++ events
    if again ec then
      let context := r.context.increaseRetryCount
      let millis := service.delayMillis context (jitters r.attempts)
      (false, ⟨context.addDelayMillis millis, ec, r.attempts + 1, log⟩)
    else (true, { r with ec, attempts := r.attempts + 1, log })
  else (true, r)

/-- Before the first attempt; the error is what the caller has in it. -/
def begin (ec : ErrorCode) : Retrying E where
  context := service.contextAt jitters 0
  ec := ec

/-- The loop before attempt `i` -/
structure Before (i : ℕ) (r : Retrying E) : Prop where
  context_eq : r.context = service.contextAt jitters i
  attempts_eq : r.attempts = i
  log_eq : r.log = (List.range i).flatMap fun j => (attempt j).2
  tried : ∀ j < i, service.Tried jitters (fun j => again (attempt j).1) j ∧
    again (attempt j).1 = true
  ec_eq : ∀ j, i = j + 1 → r.ec = (attempt j).1

/-- The loop after `n` attempts that are made and no others -/
structure After (n : ℕ) (r : Retrying E) : Prop where
  pos : 0 < n
  le : n ≤ service.maxRetries
  attempts_eq : r.attempts = n
  log_eq : r.log = (List.range n).flatMap fun j => (attempt j).2
  tried_iff : ∀ i, service.Tried jitters (fun j => again (attempt j).1) i ↔ i < n
  ec_eq : ∀ j, n = j + 1 → r.ec = (attempt j).1

variable {service jitters attempt again} {i n : ℕ} {r : Retrying E}

theorem retryRound_over (h : r.context.willRetry = false) :
    service.retryRound jitters attempt again r = (true, r) := by
  simp [retryRound, h]

theorem retryRound_last (h : r.context.willRetry = true)
    (hagain : again (attempt r.attempts).1 = false) :
    service.retryRound jitters attempt again r =
      (true, ⟨r.context, (attempt r.attempts).1, r.attempts + 1,
        r.log ++ (attempt r.attempts).2⟩) := by
  simp [retryRound, h, hagain]

theorem retryRound_again (h : r.context.willRetry = true)
    (hagain : again (attempt r.attempts).1 = true) :
    service.retryRound jitters attempt again r =
      (false, ⟨r.context.increaseRetryCount.addDelayMillis
        (service.delayMillis r.context.increaseRetryCount (jitters r.attempts)),
        (attempt r.attempts).1, r.attempts + 1, r.log ++ (attempt r.attempts).2⟩) := by
  simp [retryRound, h, hagain]

theorem before_begin (ec : ErrorCode) :
    service.Before jitters attempt again 0 (service.begin jitters ec) where
  context_eq := rfl
  attempts_eq := rfl
  log_eq := rfl
  tried j hj := absurd hj (Nat.not_lt_zero j)
  ec_eq _ hj := nomatch hj

/-- Before an attempt it is made if the waiting is not over. -/
theorem Before.tried_self (h : service.Before jitters attempt again i r)
    (hwill : r.context.willRetry = true) :
    service.Tried jitters (fun j => again (attempt j).1) i := by
  constructor
  · intro j hj
    obtain hlt | rfl := Nat.lt_or_eq_of_le hj
    · exact (h.tried j hlt).1.1 j le_rfl
    · rwa [h.context_eq] at hwill
  · exact fun j hj => (h.tried j hj).2

theorem log_append (h : r.log = (List.range i).flatMap fun j => (attempt j).2) :
    r.log ++ (attempt i).2 = (List.range (i + 1)).flatMap fun j => (attempt j).2 := by
  rw [h, List.range_succ, List.flatMap_append, List.flatMap_singleton]

/-- A round that stays in the loop -/
theorem Before.next (h : service.Before jitters attempt again i r)
    (hleft : (service.retryRound jitters attempt again r).1 = false) :
    service.Before jitters attempt again (i + 1) (service.retryRound jitters attempt again r).2 := by
  obtain ⟨hcontext, rfl, hlog, htried, -⟩ := id h
  cases hwill : r.context.willRetry with
  | false =>
      rw [retryRound_over hwill] at hleft
      cases hleft
  | true =>
      cases hagain : again (attempt r.attempts).1 with
      | false =>
          rw [retryRound_last hwill hagain] at hleft
          cases hleft
      | true =>
          rw [retryRound_again hwill hagain, hcontext]
          refine ⟨rfl, rfl, log_append hlog, fun j hj => ?_, fun j hj => ?_⟩
          · obtain hlt | rfl := Nat.lt_succ_iff_lt_or_eq.mp hj
            · exact htried j hlt
            · exact ⟨h.tried_self hwill, hagain⟩
          · rw [Nat.succ.inj hj]

/-- The attempts that are made are the first ones. -/
theorem tried_of_le {again : ℕ → Bool} {i j : ℕ} (h : service.Tried jitters again i) (hj : j ≤ i) :
    service.Tried jitters again j :=
  ⟨fun k hk => h.1 k (hk.trans hj), fun k hk => h.2 k (hk.trans_le hj)⟩

theorem tried_lt {again : ℕ → Bool} {i : ℕ} (h : service.Tried jitters again i) :
    i < service.maxRetries :=
  ((service.willRetry_contextAt_iff jitters).mp (h.1 i le_rfl)).2

theorem tried_zero (again : ℕ → Bool) : service.Tried jitters again 0 := by
  constructor
  · intro j hj
    obtain rfl := Nat.le_zero.mp hj
    exact (service.willRetry_contextAt_iff jitters).mpr
      ⟨service.maxDelayMillis_pos, service.maxRetries_pos⟩
  · exact fun j hj => absurd hj (Nat.not_lt_zero j)

/-- If attempt `n` is not made, and those before it are, there are `n`. -/
theorem tried_iff_lt {again : ℕ → Bool} (hn : ¬ service.Tried jitters again n)
    (h : ∀ j < n, service.Tried jitters again j) (i : ℕ) :
    service.Tried jitters again i ↔ i < n :=
  ⟨fun hi => not_le.mp fun hle => hn (tried_of_le hi hle), h i⟩

/-- The round that leaves the loop -/
theorem Before.left (h : service.Before jitters attempt again i r)
    (hleft : (service.retryRound jitters attempt again r).1 = true) :
    ∃ n, service.After jitters attempt again n (service.retryRound jitters attempt again r).2 := by
  obtain ⟨hcontext, rfl, hlog, htried, hec⟩ := id h
  cases hwill : r.context.willRetry with
  | false =>
      -- no attempt: the retries are used up, or the waiting is over
      have hnot : ¬ service.Tried jitters (fun j => again (attempt j).1) r.attempts := by
        intro hself
        have hwill' := hself.1 r.attempts le_rfl
        rw [← hcontext, hwill] at hwill'
        cases hwill'
      have hiff := tried_iff_lt hnot fun j hj => (htried j hj).1
      have hpos : 0 < r.attempts := (hiff 0).mp (tried_zero _)
      have hlast := tried_lt ((hiff (r.attempts - 1)).mpr (by omega))
      rw [retryRound_over hwill]
      exact ⟨r.attempts, hpos, by omega, rfl, hlog, hiff, hec⟩
  | true =>
      cases hagain : again (attempt r.attempts).1 with
      | true =>
          rw [retryRound_again hwill hagain] at hleft
          cases hleft
      | false =>
          have hself := h.tried_self hwill
          have hnot : ¬ service.Tried jitters (fun j => again (attempt j).1) (r.attempts + 1) :=
            fun hnext => Bool.false_ne_true
              (hagain.symm.trans (hnext.2 r.attempts (Nat.lt_succ_self r.attempts)))
          rw [retryRound_last hwill hagain]
          refine ⟨r.attempts + 1, Nat.succ_pos _, tried_lt hself, rfl, log_append hlog,
            tried_iff_lt hnot fun j hj => tried_of_le hself (Nat.lt_succ_iff.mp hj), fun j hj => ?_⟩
          rw [Nat.succ.inj hj]

/-- The loop is left after some attempts, those that are to be made. -/
theorem retry_exits (service : ServiceImpl) (jitters : ℕ → Jitter)
    (attempt : ℕ → ErrorCode × List E) (again : ErrorCode → Bool) (ec : ErrorCode) :
    ∃ n r, Exits (service.retryRound jitters attempt again) (service.begin jitters ec) r ∧
      service.After jitters attempt again n r := by
  obtain ⟨r, hr⟩ := ends_of_rank (fun r => ∃ i, service.Before jitters attempt again i r)
    (fun r => service.maxRetries - r.attempts) (fun r ⟨i, h⟩ hleft => by
      have hnext := h.next hleft
      have hlt := tried_lt (hnext.tried i (Nat.lt_succ_self i)).1
      refine ⟨⟨i + 1, hnext⟩, ?_⟩
      rw [hnext.attempts_eq, h.attempts_eq]
      omega) ⟨0, before_begin ec⟩
  obtain ⟨n, hn⟩ := exits_post (fun r => ∃ i, service.Before jitters attempt again i r)
    (fun r => ∃ n, service.After jitters attempt again n r)
    (fun r ⟨i, h⟩ hleft => ⟨i + 1, h.next hleft⟩) (fun r ⟨i, h⟩ hleft => h.left hleft)
    ⟨0, before_begin ec⟩ hr
  exact ⟨n, r, hr, hn⟩

end ServiceImpl

end BcmServer.Push
