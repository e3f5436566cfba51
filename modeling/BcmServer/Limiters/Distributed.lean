import BcmServer.Limiters.Qps
import BcmServer.Lts.Pool
import BcmServer.Util.Expiring

/-!
# BcmServer.Limiters.Distributed — the limiter that counts in redis

`DistributedLimiter` cuts time into slots and counts the requests of a user in a
slot by INCR of a redis key that all servers share. A server keeps in `Item` the
last count that it saw and rejects without asking redis once that is over the
limit.

A call is a few atomic steps (`Phase`): the look at the item, INCR, and what
follows from its result. The `switch` in `incr` has no `break`, so the branches
of a failed INCR run into the ones below: the counter is SET to 1, given a time
to live, and the count of the call is 0.

* `acquireAccess_refines`: a call that runs alone does what the function
  `acquireAccess` does.
* `distributed_bound`: in a run within one slot no more than the limit are
  granted, provided that no SET overwrites a counter above 1 and no EXPIRE ends
  a counter before its slot.
* `bound_broken`: a run in which one INCR is refused and its SET overwrites the
  counter. `bound_broken_early`: one whose counter ends before the slot.
-/

namespace BcmServer.Limiters

open Util Lts

/-- `DistributedLimiter::Item` -/
structure Item where
  timeSlot : ℤ := 0
  count : ℤ := 0
deriving DecidableEq, Repr

/-- `DistributedLimiter` -/
structure DistributedLimiter where
  identity : Bytes
  configKey : Bytes
  defaultRule : LimitRule
  rule : LimitRule
  status : Bytes → Option Item

namespace DistributedLimiter

/-- The slot of a time; a quotient of `int64_t` -/
def timeSlot (rule : LimitRule) (now : ℤ) : ℤ := now.tdiv rule.period

/-- The item says that the slot is used up. -/
def full (rule : LimitRule) (slot : ℤ) (item : Option Item) : Bool :=
  item.any fun s => slot == s.timeSlot && decide (s.count > rule.count)

/-- The level for a count -/
def level (rule : LimitRule) (count : ℤ) : LimitLevel :=
  if count > rule.count then .limited else .good

/-- `DistributedLimiter::limited` -/
def limited (l : DistributedLimiter) (id : Bytes) (now : ℤ) : LimitLevel :=
  if full l.rule (timeSlot l.rule now) (l.status id) then .limited else .good

/-- The key of a user in a slot -/
def keyId (identity uid : Bytes) (slot : ℤ) : Bytes :=
  identity ++ ascii ['_'] ++ uid ++ ascii ['_'] ++ intDecimal slot

/-- The time to live of a counter, in seconds; converted to `uint32_t` -/
def ttl (rule : LimitRule) : ℤ := (rule.period.tdiv 1000) % 2 ^ 32

/-- `DistributedLimiter::acquireAccess` without other calls in between; `count`
is what `incr` leaves in it, 0 after an INCR that failed. -/
def acquireAccess (l : DistributedLimiter) (id : Bytes) (now count : ℤ) :
    DistributedLimiter × LimitLevel :=
  let slot := timeSlot l.rule now
  let item := (l.status id).getD {}
  if full l.rule slot (l.status id) then
    ({ l with status := Function.update l.status id (some ⟨item.timeSlot, item.count + 1⟩) },
      .limited)
  else ({ l with status := Function.update l.status id (some ⟨slot, count⟩) }, level l.rule count)

/-! ## The calls of all servers -/

/-- Where a call of `acquireAccess` stands. -/
inductive Phase where
  /-- before the look at the item -/
  | check
  /-- the item was full and is to be incremented -/
  | reject
  | incr
  /-- `invalidKeyTypeHandler`, after an INCR that failed -/
  | set
  | expire
  /-- `normalReplyHandler` for the value 1 -/
  | expireNew
  /-- the count is to be written to the item; whether INCR succeeded -/
  | record (count : ℤ) (counted : Bool)
deriving DecidableEq, Repr

/-- A call of `acquireAccess` on one of the servers. -/
structure Acquire where
  server : ℕ
  uid : Bytes
  slot : ℤ
  phase : Phase
deriving DecidableEq, Repr

/-- What becomes of a redis command: it is executed and answered; executed but
its answer is lost, so that it is sent again; answered by an error; or not
answered at all. -/
inductive Outcome where
  | done | lost | refused | failed
deriving DecidableEq, Repr

/-- A call that has returned, and whether its INCR succeeded. -/
structure Returned where
  uid : Bytes
  counted : Bool
  level : LimitLevel
deriving DecidableEq, Repr

/-- The servers and the redis they share. The clock is in milliseconds. -/
structure Cluster where
  now : ℤ
  redis : Bytes → Option Expiring
  items : ℕ → Bytes → Option Item
  log : List Returned

/-- What happens around the calls: time passes, a server is called. -/
inductive Around where
  | tick (now : ℤ)
  | call (server : ℕ) (uid : Bytes)
deriving DecidableEq, Repr

section Steps

variable (identity : Bytes) (rule : LimitRule)

namespace Cluster

/-- The item of a user on a server is written. -/
def setItem (s : Cluster) (server : ℕ) (uid : Bytes) (item : Item) : Cluster :=
  { s with items := fun n u => if n = server ∧ u = uid then some item else s.items n u }

end Cluster

/-- A redis command takes effect if it is executed. -/
def Outcome.executed : Outcome → Bool
  | .done | .lost => true
  | .refused | .failed => false

/-- The redis after a command that may have been executed. -/
def Cluster.command (s : Cluster) (e : Outcome) (redis : Bytes → Option Expiring) : Cluster :=
  if e.executed then { s with redis := redis } else s

/-- A command whose answer is lost is sent again. -/
def Acquire.after (c : Acquire) (e : Outcome) (phase : Phase) : List Acquire :=
  [if e = .lost then c else { c with phase := phase }]

/-- The branches of the `switch` in `incr` by the result of INCR. -/
def afterIncr (value : ℤ) : Outcome → Phase
  | .refused | .failed => .set
  | .done | .lost => if value = 1 then .expireNew else .record value true

/-- One atomic step of `DistributedLimiter::acquireAccess`. -/
def next (s : Cluster) (c : Acquire) (e : Outcome) : Option (Cluster × List Acquire) :=
  let key := keyId identity c.uid c.slot
  match c.phase with
  | .check =>
      if full rule c.slot (s.items c.server c.uid) then some (s, [{ c with phase := .reject }])
      else
        some (s.setItem c.server c.uid ((s.items c.server c.uid).getD {}),
          [{ c with phase := .incr }])
  | .reject =>
      let item := (s.items c.server c.uid).getD {}
      let s' := s.setItem c.server c.uid ⟨item.timeSlot, item.count + 1⟩
      some ({ s' with log := ⟨c.uid, false, .limited⟩ :: s'.log }, [])
  | .incr =>
      let value := Expiring.counter s.redis s.now key + 1
      some (s.command e (Expiring.incr s.redis s.now key),
        c.after e (afterIncr value e))
  | .set => some (s.command e (Expiring.set s.redis key 1), c.after e .expire)
  | .expire =>
      -- `count = new_value` at the end of the fall-through, where `new_value` is 0
      some (s.command e (Expiring.expire s.redis s.now key (1000 * ttl rule)),
        c.after e (.record 0 false))
  | .expireNew =>
      some (s.command e (Expiring.expire s.redis s.now key (1000 * ttl rule)),
        c.after e (.record 1 true))
  | .record count counted =>
      let s' := s.setItem c.server c.uid ⟨c.slot, count⟩
      some ({ s' with log := ⟨c.uid, counted, level rule count⟩ :: s'.log }, [])

/-- Time does not run backwards; a call computes its slot when it starts. -/
def env (p : Pool Cluster Acquire) : Around → Option (Cluster × List Acquire)
  | .tick t => if p.shared.now ≤ t then some ({ p.shared with now := t }, []) else none
  | .call server uid => some (p.shared, [⟨server, uid, timeSlot rule p.shared.now, .check⟩])

/-- The servers with their calls -/
def system : CallSystem Cluster Acquire Outcome Around := ⟨next identity rule, env rule⟩

end Steps

/-! ## A call alone -/

@[simp] theorem command_now (s : Cluster) (e : Outcome) (redis : Bytes → Option Expiring) :
    (s.command e redis).now = s.now := by
  unfold Cluster.command
  split <;> rfl

@[simp] theorem command_log (s : Cluster) (e : Outcome) (redis : Bytes → Option Expiring) :
    (s.command e redis).log = s.log := by
  unfold Cluster.command
  split <;> rfl

section Alone

variable {identity : Bytes} {rule : LimitRule}

/-- The step of the only call. -/
theorem step_alone {s : Cluster} {c : Acquire} {e : Outcome} {q : Pool Cluster Acquire}
    (h : (system identity rule).machine.step ⟨s, [c]⟩ (.call 0 e) = some q) :
    next identity rule s c e = some (q.shared, q.calls) := by
  obtain ⟨r, hr, rfl⟩ := Option.map_eq_some_iff.mp
    (show (next identity rule s c e).map _ = some q from h)
  simpa using hr

/-- The phases in which a call waits for its count. -/
def Phase.counting : Phase → Bool
  | .check | .reject => false
  | .incr | .set | .expire | .expireNew | .record _ _ => true

/-- A step of a call that waits for its count: it goes on, and has touched redis
alone, or it writes the count and returns. -/
theorem next_counting {s s' : Cluster} {c : Acquire} {e : Outcome} {ks : List Acquire}
    (hphase : c.phase.counting = true) (h : next identity rule s c e = some (s', ks)) :
    (∃ phase, phase.counting = true ∧ ks = [{ c with phase := phase }] ∧ s'.items = s.items ∧
      s'.log = s.log) ∨
    ∃ n b, ks = [] ∧ s'.items = (s.setItem c.server c.uid ⟨c.slot, n⟩).items ∧
      s'.log = ⟨c.uid, b, level rule n⟩ :: s.log := by
  have hafter : ∀ {phase : Phase} {redis : Bytes → Option Expiring}, phase.counting = true →
      some (s.command e redis, c.after e phase) = some (s', ks) →
      ∃ phase, phase.counting = true ∧ ks = [{ c with phase := phase }] ∧ s'.items = s.items ∧
        s'.log = s.log := by
    intro phase redis hcounting heq
    obtain ⟨rfl, rfl⟩ := Prod.mk.inj (Option.some.inj heq)
    have hitems : (s.command e redis).items = s.items := by
      unfold Cluster.command
      split <;> rfl
    by_cases he : e = .lost
    · exact ⟨c.phase, hphase, by simp [Acquire.after, he], hitems, command_log _ _ _⟩
    · exact ⟨phase, hcounting, by simp [Acquire.after, he], hitems, command_log _ _ _⟩
  unfold next at h
  cases hc : c.phase with
  | check => simp [hc, Phase.counting] at hphase
  | reject => simp [hc, Phase.counting] at hphase
  | incr =>
      simp only [hc] at h
      refine Or.inl (hafter ?_ h)
      cases e <;> simp only [afterIncr] <;> first | rfl | (split <;> rfl)
  | set =>
      simp only [hc] at h
      exact Or.inl (hafter rfl h)
  | expire =>
      simp only [hc] at h
      exact Or.inl (hafter rfl h)
  | expireNew =>
      simp only [hc] at h
      exact Or.inl (hafter rfl h)
  | record count counted =>
      simp only [hc] at h
      obtain ⟨rfl, rfl⟩ := Prod.mk.inj (Option.some.inj h)
      exact Or.inr ⟨count, counted, rfl, rfl, rfl⟩

/-- When the call has returned nothing is left to run. -/
theorem run_returned {u q : Pool Cluster Acquire} {es : List Outcome} (hu : u.calls = [])
    (h : (system identity rule).machine.run u (es.map (.call 0)) = some q) : q = u := by
  cases es with
  | nil =>
      cases h
      rfl
  | cons e es =>
      obtain ⟨u', hstep, -⟩ := (Machine.run_cons_eq_some _).mp h
      have hnone : (system identity rule).step u (.call 0 e) = none := by
        simp [CallSystem.step, hu]
      exact absurd (hnone.symm.trans hstep) (by simp)

/-- A call that waits for its count writes one and returns its level. -/
theorem run_counting {s : Cluster} {c : Acquire} {es : List Outcome} {q : Pool Cluster Acquire}
    (hphase : c.phase.counting = true)
    (hrun : (system identity rule).machine.run ⟨s, [c]⟩ (es.map (.call 0)) = some q)
    (hdone : q.calls = []) : ∃ n b,
      q.shared.items = (s.setItem c.server c.uid ⟨c.slot, n⟩).items ∧
      q.shared.log = ⟨c.uid, b, level rule n⟩ :: s.log := by
  induction es generalizing s c with
  | nil =>
      cases hrun
      cases hdone
  | cons e es ih =>
      obtain ⟨u, hstep, hrest⟩ := (Machine.run_cons_eq_some _).mp hrun
      have hnext := step_alone hstep
      obtain ⟨phase, hcounting, hks, hitems, hlog⟩ | ⟨n, b, hks, hitems, hlog⟩ :=
        next_counting hphase hnext
      · obtain ⟨n, b, hitems', hlog'⟩ := ih (s := u.shared) hcounting (by rw [← hks]; exact hrest)
        refine ⟨n, b, ?_, ?_⟩
        · rw [hitems']
          simp [Cluster.setItem, hitems]
        · rw [hlog', hlog]
      · rw [run_returned hks hrest]
        exact ⟨n, b, hitems, hlog⟩

/-- A call that runs alone does what `acquireAccess` does, for some count. -/
theorem acquireAccess_refines (l : DistributedLimiter) {s : Cluster} {server : ℕ} {uid : Bytes}
    {es : List Outcome} {q : Pool Cluster Acquire} (hitems : s.items server = l.status)
    (hrun : (system l.identity l.rule).machine.run
      ⟨s, [⟨server, uid, timeSlot l.rule s.now, .check⟩]⟩ (es.map (.call 0)) = some q)
    (hdone : q.calls = []) : ∃ count counted,
      q.shared.items server = (l.acquireAccess uid s.now count).1.status ∧
      q.shared.log = ⟨uid, counted, (l.acquireAccess uid s.now count).2⟩ :: s.log := by
  cases es with
  | nil =>
      cases hrun
      cases hdone
  | cons e es =>
      obtain ⟨u, hstep, hrest⟩ := (Machine.run_cons_eq_some _).mp hrun
      have hnext := step_alone hstep
      unfold next at hnext
      by_cases hfull : full l.rule (timeSlot l.rule s.now) (l.status uid)
      · -- the item is full, and the next step rejects
        simp only [hitems, hfull, if_true] at hnext
        obtain ⟨hs, hks⟩ := Prod.mk.inj (Option.some.inj hnext)
        refine ⟨0, false, ?_⟩
        cases es with
        | nil =>
            cases hrest
            rw [← hks] at hdone
            cases hdone
        | cons e' es =>
            obtain ⟨u', hstep', hrest'⟩ := (Machine.run_cons_eq_some _).mp hrest
            have hu : u = ⟨s, [⟨server, uid, timeSlot l.rule s.now, .reject⟩]⟩ := by
              cases u
              simp only [Pool.mk.injEq]
              exact ⟨hs.symm, hks.symm⟩
            rw [hu] at hstep'
            have hnext' := step_alone hstep'
            obtain ⟨hs', hks'⟩ := Prod.mk.inj (Option.some.inj hnext')
            rw [run_returned hks'.symm hrest', ← hs']
            refine ⟨?_, ?_⟩
            · funext j
              by_cases hj : j = uid <;>
                simp [Cluster.setItem, acquireAccess, hfull, hitems, hj]
            · simp [Cluster.setItem, acquireAccess, hfull]
      · simp only [hitems, hfull] at hnext
        obtain ⟨hs, hks⟩ := Prod.mk.inj (Option.some.inj hnext)
        have hrun' : (system l.identity l.rule).machine.run
            ⟨u.shared, [⟨server, uid, timeSlot l.rule s.now, .incr⟩]⟩ (es.map (.call 0)) =
              some q := by
          rw [hks]
          exact hrest
        obtain ⟨n, b, hitems', hlog'⟩ := run_counting rfl hrun' hdone
        refine ⟨n, b, ?_, ?_⟩
        · rw [hitems', ← hs]
          funext j
          by_cases hj : j = uid <;> simp [Cluster.setItem, acquireAccess, hfull, hitems, hj]
        · rw [hlog', ← hs]
          simp [Cluster.setItem, acquireAccess, hfull]

end Alone

/-! ## One slot -/

/-- The time at which a slot is over -/
def slotEnd (rule : LimitRule) (slot : ℤ) : ℤ := (slot + 1) * rule.period

/-- The beginning of a slot: no call runs and nothing has been counted. -/
structure Begins (identity : Bytes) (rule : LimitRule) (slot : ℤ) (p : Pool Cluster Acquire) :
    Prop where
  start : 0 ≤ slot
  begun : slot * rule.period ≤ p.shared.now
  within : p.shared.now < slotEnd rule slot
  calls : p.calls = []
  log : p.shared.log = []
  redis : ∀ uid, p.shared.redis (keyId identity uid slot) = none

/-- No SET overwrites a counter above 1, and no EXPIRE ends a counter before its
slot. -/
def Safe (identity : Bytes) (rule : LimitRule) (s : Cluster) (c : Acquire) (e : Outcome) : Prop :=
  e.executed = true →
    (c.phase = .set → Expiring.counter s.redis s.now (keyId identity c.uid c.slot) ≤ 1) ∧
    (c.phase = .expire ∨ c.phase = .expireNew →
      (Expiring.live s.redis s.now (keyId identity c.uid c.slot)).isSome →
      slotEnd rule c.slot ≤ s.now + 1000 * ttl rule)

instance (identity : Bytes) (rule : LimitRule) (s : Cluster) (c : Acquire) (e : Outcome) :
    Decidable (Safe identity rule s c e) :=
  inferInstanceAs (Decidable (_ → _ ∧ _))

/-- The clock stays in the slot. -/
def InSlot (rule : LimitRule) (slot : ℤ) (_ : Pool Cluster Acquire) : Around → Prop
  | .tick t => t < slotEnd rule slot
  | .call _ _ => True

instance (rule : LimitRule) (slot : ℤ) (p : Pool Cluster Acquire) :
    ∀ h, Decidable (InSlot rule slot p h)
  | .tick _ => inferInstanceAs (Decidable (_ < _))
  | .call _ _ => inferInstanceAs (Decidable True)

/-- A call that was granted and whose INCR succeeded. -/
def isGranted (uid : Bytes) (r : Returned) : Bool :=
  r.uid = uid && r.counted && r.level = .good

/-- The granted calls of a user whose INCR succeeded. -/
def granted (uid : Bytes) (log : List Returned) : ℕ := log.countP (isGranted uid)

/-- A call that has its count and will be granted. -/
def isDue (rule : LimitRule) (uid : Bytes) (c : Acquire) : Bool :=
  c.uid = uid &&
    match c.phase with
    | .expireNew => level rule 1 = .good
    | .record count counted => counted && level rule count = .good
    | _ => false

/-- What is granted already and what is due. -/
def promised (rule : LimitRule) (uid : Bytes) (log : List Returned) (calls : List Acquire) : ℤ :=
  granted uid log + calls.countP (isDue rule uid)

theorem timeSlot_eq {rule : LimitRule} {slot now : ℤ} (hrule : ¬ rule.period < 1000)
    (hslot : 0 ≤ slot) (hbegun : slot * rule.period ≤ now) (hwithin : now < slotEnd rule slot) :
    timeSlot rule now = slot := by
  have hperiod : 0 < rule.period := by omega
  have hnow : 0 ≤ now := le_trans (Int.mul_nonneg hslot hperiod.le) hbegun
  unfold timeSlot
  rw [Int.tdiv_eq_ediv_of_nonneg hnow]
  apply le_antisymm
  · exact Int.lt_add_one_iff.mp ((Int.ediv_lt_iff_lt_mul hperiod).mpr hwithin)
  · exact (Int.le_ediv_iff_mul_le hperiod).mpr hbegun

/-- A time to live of whole seconds reaches the end of the slot. -/
theorem expire_reaches_end {rule : LimitRule} {slot now : ℤ} (hrule : ¬ rule.period < 1000)
    (hwhole : 1000 ∣ rule.period) (hmax : rule.period < 1000 * 2 ^ 32)
    (hbegun : slot * rule.period ≤ now) : slotEnd rule slot ≤ now + 1000 * ttl rule := by
  obtain ⟨n, hn⟩ := hwhole
  have httl : ttl rule = n := by
    unfold ttl
    rw [hn, Int.mul_tdiv_cancel_left n (by decide)]
    exact Int.emod_eq_of_lt (by omega) (by omega)
  unfold slotEnd
  rw [httl, ← hn, add_mul, one_mul]
  omega

/-! ## The bound -/

section Step

variable {identity : Bytes} {rule : LimitRule} {uid : Bytes} {slot : ℤ}

theorem command_of_executed {s : Cluster} {e : Outcome} (h : e.executed = true)
    (redis : Bytes → Option Expiring) : s.command e redis = { s with redis := redis } := by
  simp [Cluster.command, h]

theorem command_of_not_executed {s : Cluster} {e : Outcome} (h : e.executed = false)
    (redis : Bytes → Option Expiring) : s.command e redis = s := by
  simp [Cluster.command, h]

/-- The counter of the slot after a step: it lasts and has not decreased. -/
def Grows (key : Bytes) (t : ℤ) (s s' : Cluster) : Prop :=
  Expiring.LastsUntil s'.redis key t ∧
    Expiring.counter s.redis s.now key ≤ Expiring.counter s'.redis s.now key

theorem grows_of_redis_eq {key : Bytes} {t : ℤ} {s s' : Cluster}
    (h : Expiring.LastsUntil s.redis key t) (heq : s'.redis = s.redis) : Grows key t s s' := by
  unfold Grows
  rw [heq]
  exact ⟨h, le_rfl⟩

/-- A command that leaves the key alone, or keeps its counter. -/
theorem grows_command {key : Bytes} {t : ℤ} {s : Cluster} {e : Outcome} {k : Bytes}
    {redis : Bytes → Option Expiring} (h : Expiring.LastsUntil s.redis key t)
    (hne : key ≠ k → redis key = s.redis key)
    (heq : e.executed = true → key = k → Expiring.LastsUntil redis key t ∧
      Expiring.counter s.redis s.now key ≤ Expiring.counter redis s.now key) :
    Grows key t s (s.command e redis) := by
  cases he : e.executed with
  | false =>
      rw [command_of_not_executed he]
      exact grows_of_redis_eq h rfl
  | true =>
      rw [command_of_executed he]
      by_cases hk : key = k
      · exact heq he hk
      · obtain ⟨hcounter, hlasts⟩ := Expiring.keeps_of_eq (hne hk) s.now t
        exact ⟨hlasts h, hcounter.ge⟩

/-- EXPIRE keeps the counter of the slot if it reaches its end. -/
theorem grows_expire {key : Bytes} {t : ℤ} {s : Cluster} {e : Outcome} {k : Bytes} {n : ℤ}
    (h : Expiring.LastsUntil s.redis key t) (hnow : s.now < t)
    (hn : e.executed = true → (Expiring.live s.redis s.now k).isSome → t ≤ s.now + n) :
    Grows key t s (s.command e (Expiring.expire s.redis s.now k n)) := by
  refine grows_command h (Expiring.expire_ne n) fun he hkey => ?_
  subst hkey
  rw [Expiring.counter_expire h hnow (hn he)]
  exact ⟨Expiring.lasts_expire h (hn he), le_rfl⟩

/-- A step that changes the phase of a call and not whether it is due. -/
theorem promised_after {log : List Returned} {c : Acquire} {e : Outcome} {phase : Phase}
    (h : isDue rule uid { c with phase := phase } = isDue rule uid c) :
    promised rule uid log (c.after e phase) = promised rule uid log [c] := by
  unfold promised Acquire.after
  split
  · rfl
  · simp [List.countP_cons, h]

/-- A call whose INCR gave `value` is due if that is within the limit. -/
theorem isDue_counted (c : Acquire) (value : ℤ) :
    isDue rule uid { c with phase := afterIncr value .done } =
      (decide (c.uid = uid) && decide (value ≤ rule.count)) := by
  have hlevel : decide (level rule value = .good) = decide (value ≤ rule.count) := by
    unfold level
    by_cases h : value ≤ rule.count
    · simp [h, not_lt.mpr h]
    · simp [h, not_le.mp h]
  by_cases h : value = 1
  · subst h
    simp [isDue, afterIncr, hlevel]
  · simp [isDue, afterIncr, h, hlevel]

theorem after_slot {c d : Acquire} {e : Outcome} {phase : Phase} (hd : d ∈ c.after e phase) :
    d.slot = c.slot := by
  unfold Acquire.after at hd
  rw [List.mem_singleton] at hd
  rw [hd]
  split <;> rfl

/-- INCR promises a grant if it succeeds, is for this user and within the limit. -/
theorem promises_incr {s : Cluster} {c : Acquire} {e : Outcome} (hphase : c.phase = .incr)
    (hlasts : Expiring.LastsUntil s.redis (keyId identity uid c.slot) (slotEnd rule c.slot))
    (hnow : s.now < slotEnd rule c.slot) :
    let key := keyId identity c.uid c.slot
    let s' := s.command e (Expiring.incr s.redis s.now key)
    let ks := c.after e (afterIncr (Expiring.counter s.redis s.now key + 1) e)
    promised rule uid s'.log ks = promised rule uid s.log [c] ∨
      promised rule uid s'.log ks = promised rule uid s.log [c] + 1 ∧
        Expiring.counter s.redis s.now (keyId identity uid c.slot) + 1 ≤
          Expiring.counter s'.redis s.now (keyId identity uid c.slot) ∧
        Expiring.counter s.redis s.now (keyId identity uid c.slot) + 1 ≤ rule.count := by
  intro key s' ks
  have hlog : s'.log = s.log := command_log _ _ _
  have hnot : isDue rule uid c = false := by simp [isDue, hphase]
  rw [hlog]
  cases he : e with
  | lost => exact Or.inl (by simp [ks, Acquire.after, he])
  | refused => exact Or.inl (by simp [ks, he, afterIncr, promised_after, isDue, hphase])
  | failed => exact Or.inl (by simp [ks, he, afterIncr, promised_after, isDue, hphase])
  | done =>
      let d : Acquire :=
        { c with phase := afterIncr (Expiring.counter s.redis s.now key + 1) .done }
      have hks : ks = [d] := by
        simp only [ks, he]
        rfl
      have hcount : isDue rule uid d = _ := isDue_counted c _
      have hpromised : promised rule uid s.log ks = promised rule uid s.log [c] +
          if c.uid = uid ∧ Expiring.counter s.redis s.now key + 1 ≤ rule.count then 1 else 0 := by
        rw [hks]
        simp only [promised, List.countP_cons, List.countP_nil, hcount, hnot]
        simp
      by_cases hdue : c.uid = uid ∧ Expiring.counter s.redis s.now key + 1 ≤ rule.count
      · rw [if_pos hdue] at hpromised
        obtain ⟨rfl, hle⟩ := hdue
        refine Or.inr ⟨hpromised, ?_, hle⟩
        have hcommand : s'.redis = Expiring.incr s.redis s.now key := by
          simp only [s', he]
          rfl
        rw [hcommand]
        exact (Expiring.counter_incr hlasts hnow).ge
      · rw [if_neg hdue, add_zero] at hpromised
        exact Or.inl hpromised

/-- The step keeps the counter of the slot. It promises nothing, or it is an
INCR that adds one to the counter and stays within the limit. -/
structure StepSpec (identity : Bytes) (rule : LimitRule) (uid : Bytes) (slot : ℤ) (s : Cluster)
    (c : Acquire) (s' : Cluster) (ks : List Acquire) : Prop where
  now : s'.now = s.now
  slots : ∀ d ∈ ks, d.slot = slot
  grows : Grows (keyId identity uid slot) (slotEnd rule slot) s s'
  promises : promised rule uid s'.log ks = promised rule uid s.log [c] ∨
    promised rule uid s'.log ks = promised rule uid s.log [c] + 1 ∧
      Expiring.counter s.redis s.now (keyId identity uid slot) + 1 ≤
        Expiring.counter s'.redis s.now (keyId identity uid slot) ∧
      Expiring.counter s.redis s.now (keyId identity uid slot) + 1 ≤ rule.count

theorem next_spec {s s' : Cluster} {c : Acquire} {e : Outcome} {ks : List Acquire}
    (hnext : next identity rule s c e = some (s', ks)) (hslot : c.slot = slot)
    (hlasts : Expiring.LastsUntil s.redis (keyId identity uid slot) (slotEnd rule slot))
    (hnow : s.now < slotEnd rule slot) (hsafe : Safe identity rule s c e) :
    StepSpec identity rule uid slot s c s' ks := by
  subst hslot
  unfold next at hnext
  cases hphase : c.phase with
  | check =>
      simp only [hphase] at hnext
      split at hnext
      · obtain ⟨rfl, rfl⟩ := Prod.mk.inj (Option.some.inj hnext)
        refine ⟨rfl, by simp, grows_of_redis_eq hlasts rfl, Or.inl ?_⟩
        simp [promised, isDue, hphase]
      · obtain ⟨rfl, rfl⟩ := Prod.mk.inj (Option.some.inj hnext)
        refine ⟨rfl, by simp, grows_of_redis_eq hlasts rfl, Or.inl ?_⟩
        simp [promised, isDue, hphase, Cluster.setItem]
  | reject =>
      simp only [hphase] at hnext
      obtain ⟨rfl, rfl⟩ := Prod.mk.inj (Option.some.inj hnext)
      refine ⟨rfl, by simp, grows_of_redis_eq hlasts rfl, Or.inl ?_⟩
      simp [promised, isDue, hphase, Cluster.setItem, granted, isGranted]
  | incr =>
      simp only [hphase] at hnext
      obtain ⟨rfl, rfl⟩ := Prod.mk.inj (Option.some.inj hnext)
      refine ⟨command_now _ _ _, fun d hd => after_slot hd, ?_, ?_⟩
      · refine grows_command hlasts Expiring.incr_ne fun he hkey => ?_
        rw [← hkey, Expiring.counter_incr hlasts hnow]
        exact ⟨Expiring.lasts_incr hlasts hnow, by omega⟩
      · exact promises_incr hphase hlasts hnow
  | set =>
      simp only [hphase] at hnext
      obtain ⟨rfl, rfl⟩ := Prod.mk.inj (Option.some.inj hnext)
      refine ⟨command_now _ _ _, fun d hd => after_slot hd, ?_, Or.inl ?_⟩
      · refine grows_command hlasts (Expiring.set_ne 1) fun he hkey => ?_
        rw [hkey, Expiring.counter_set]
        exact ⟨Expiring.lasts_set 1, (hsafe he).1 hphase⟩
      · rw [command_log]
        exact promised_after (by simp [isDue, hphase])
  | expire =>
      simp only [hphase] at hnext
      obtain ⟨rfl, rfl⟩ := Prod.mk.inj (Option.some.inj hnext)
      refine ⟨command_now _ _ _, fun d hd => after_slot hd, ?_, Or.inl ?_⟩
      · exact grows_expire hlasts hnow fun he => (hsafe he).2 (Or.inl hphase)
      · rw [command_log]
        exact promised_after (by simp [isDue, hphase])
  | expireNew =>
      simp only [hphase] at hnext
      obtain ⟨rfl, rfl⟩ := Prod.mk.inj (Option.some.inj hnext)
      refine ⟨command_now _ _ _, fun d hd => after_slot hd, ?_, Or.inl ?_⟩
      · exact grows_expire hlasts hnow fun he => (hsafe he).2 (Or.inr hphase)
      · rw [command_log]
        exact promised_after (by simp [isDue, hphase])
  | record count counted =>
      simp only [hphase] at hnext
      obtain ⟨rfl, rfl⟩ := Prod.mk.inj (Option.some.inj hnext)
      refine ⟨rfl, by simp, grows_of_redis_eq hlasts rfl, Or.inl ?_⟩
      simp only [promised, granted, isDue, isGranted, hphase, Cluster.setItem, List.countP_cons,
        List.countP_nil, Bool.and_assoc]
      push_cast
      omega

/-- What a run within the slot keeps. -/
structure Inv (identity : Bytes) (rule : LimitRule) (uid : Bytes) (slot : ℤ)
    (p : Pool Cluster Acquire) : Prop where
  begun : slot * rule.period ≤ p.shared.now
  within : p.shared.now < slotEnd rule slot
  slots : ∀ c ∈ p.calls, c.slot = slot
  lasts : Expiring.LastsUntil p.shared.redis (keyId identity uid slot) (slotEnd rule slot)
  counted : promised rule uid p.shared.log p.calls ≤
    Expiring.counter p.shared.redis p.shared.now (keyId identity uid slot)
  bound : promised rule uid p.shared.log p.calls ≤ max rule.count 0

/-- The calls of a pool count as the scheduled ones and the others. -/
theorem promised_perm (rule : LimitRule) (uid : Bytes) (log : List Returned)
    {calls ks rest : List Acquire} (h : calls.Perm (ks ++ rest)) :
    promised rule uid log calls = promised rule uid log ks + rest.countP (isDue rule uid) := by
  unfold promised
  rw [h.countP_eq, List.countP_append]
  push_cast
  omega

theorem inv_begins {p : Pool Cluster Acquire} (h : Begins identity rule slot p) :
    Inv identity rule uid slot p where
  begun := h.begun
  within := h.within
  slots := by simp [h.calls]
  lasts := Expiring.lasts_of_none (h.redis uid)
  counted := by
    have hcounter := Expiring.counter_of_lasts (Expiring.lasts_of_none (h.redis uid)) h.within
    rw [hcounter, h.redis, h.calls, h.log]
    exact le_rfl
  bound := by
    rw [h.calls, h.log]
    exact le_max_right _ _

theorem inv_call {p q : Pool Cluster Acquire} {c : Acquire} {rest ks : List Acquire} {e : Outcome}
    {s : Cluster} (hinv : Inv identity rule uid slot p) (hperm : p.calls.Perm (c :: rest))
    (hsafe : Safe identity rule p.shared c e)
    (hnext : next identity rule p.shared c e = some (s, ks)) (hs : q.shared = s)
    (hks : q.calls.Perm (ks ++ rest)) : Inv identity rule uid slot q := by
  have hslot : c.slot = slot := hinv.slots c (hperm.mem_iff.mpr List.mem_cons_self)
  obtain ⟨hnow, hslots, ⟨hlasts, hgrows⟩, hpromises⟩ :=
    next_spec hnext hslot hinv.lasts hinv.within hsafe
  have hbefore : _ = promised rule uid p.shared.log [c] + _ :=
    promised_perm rule uid p.shared.log hperm
  have hafter := promised_perm rule uid s.log hks
  have hcounted := hinv.counted
  have hbound := hinv.bound
  subst hs
  refine ⟨?_, ?_, ?_, hlasts, ?_, ?_⟩
  · rw [hnow]
    exact hinv.begun
  · rw [hnow]
    exact hinv.within
  · intro d hd
    rcases List.mem_append.mp (hks.mem_iff.mp hd) with hd | hd
    · exact hslots d hd
    · exact hinv.slots d (hperm.mem_iff.mpr (List.mem_cons_of_mem c hd))
  · rw [hnow]
    omega
  · omega

theorem inv_env {p : Pool Cluster Acquire} {h : Around} {s : Cluster} {ks : List Acquire}
    (hrule : ¬ rule.period < 1000) (hslot : 0 ≤ slot) (hinv : Inv identity rule uid slot p)
    (hin : InSlot rule slot p h) (henv : env rule p h = some (s, ks)) :
    Inv identity rule uid slot ⟨s, p.calls ++ ks⟩ := by
  cases h with
  | tick t =>
      simp only [env] at henv
      split at henv
      · rename_i ht
        obtain ⟨rfl, rfl⟩ := Prod.mk.inj (Option.some.inj henv)
        have hwithin : t < slotEnd rule slot := hin
        have htick := Expiring.counter_tick hinv.lasts hinv.within hwithin
        rw [List.append_nil]
        refine ⟨hinv.begun.trans ht, hwithin, hinv.slots, hinv.lasts, ?_, hinv.bound⟩
        rw [htick]
        exact hinv.counted
      · cases henv
  | call server u =>
      obtain ⟨rfl, rfl⟩ := Prod.mk.inj (Option.some.inj henv)
      have htime := timeSlot_eq hrule hslot hinv.begun hinv.within
      have hsame : promised rule uid p.shared.log
          (p.calls ++ [⟨server, u, timeSlot rule p.shared.now, .check⟩]) =
            promised rule uid p.shared.log p.calls := by
        simp [promised, isDue]
      refine ⟨hinv.begun, hinv.within, ?_, hinv.lasts, ?_, ?_⟩
      · intro d hd
        rcases List.mem_append.mp hd with hd | hd
        · exact hinv.slots d hd
        · rw [List.mem_singleton] at hd
          rw [hd]
          exact htime
      · show promised rule uid p.shared.log _ ≤ _
        rw [hsame]
        exact hinv.counted
      · show promised rule uid p.shared.log _ ≤ _
        rw [hsame]
        exact hinv.bound

end Step

/-- Within one slot no more than the limit are granted of the calls whose INCR
succeeded, in every run whose steps are safe. -/
theorem distributed_bound (identity : Bytes) (rule : LimitRule) (hrule : ¬ rule.period < 1000)
    (slot : ℤ) {p q : Pool Cluster Acquire} {ls : List (Sched Outcome Around)}
    (hp : Begins identity rule slot p)
    (hok : (system identity rule).machine.Meets
      (CallSystem.allow (fun p => Safe identity rule p.shared) (InSlot rule slot)) p ls)
    (hrun : (system identity rule).machine.run p ls = some q) (uid : Bytes) :
    (granted uid q.shared.log : ℤ) ≤ max rule.count 0 := by
  have hinv : Inv identity rule uid slot q := by
    refine (system identity rule).run_invariant (Inv identity rule uid slot) ?_ ?_
      (inv_begins hp) hok hrun
    · intro p q c rest e s ks hinv hperm hsafe hnext hs hks
      exact inv_call hinv hperm hsafe hnext hs hks
    · intro p h s ks hinv hin henv
      exact inv_env hrule hp.start hinv hin henv
  have hbound := hinv.bound
  unfold promised at hbound
  omega

/-! ## A refused INCR -/

/-- Two requests in ten seconds -/
def twoRule : LimitRule := ⟨10000, 2⟩

def userU : Bytes := ascii ['u']

/-- The servers in slot 0, before any call -/
def quietCluster : Pool Cluster Acquire := ⟨⟨5, fun _ => none, fun _ _ => none, []⟩, []⟩

theorem quietCluster_begins : Begins (ascii ['g']) twoRule 0 quietCluster :=
  ⟨le_rfl, by decide, by decide, rfl, rfl, fun _ => rfl⟩

/-- Two calls on two servers, one after the other: both are counted. -/
def twoCalls : List (Sched Outcome Around) :=
  [.env (.call 0 userU), .call 0 .done, .call 0 .done, .call 0 .done, .call 0 .done,
    .env (.call 1 userU), .call 0 .done, .call 0 .done, .call 0 .done]

/-- A call on a third server whose INCR is refused, and one more on the second. -/
def refusedCall : List (Sched Outcome Around) :=
  [.env (.call 2 userU), .call 0 .done, .call 0 .refused, .call 0 .done, .call 0 .done,
    .call 0 .done, .env (.call 1 userU), .call 0 .done, .call 0 .done, .call 0 .done]

theorem distributed_bound_two : ∃ q, (system (ascii ['g']) twoRule).machine.run quietCluster
    twoCalls = some q ∧ (granted userU q.shared.log : ℤ) ≤ max 2 0 := by
  have hview : ((system (ascii ['g']) twoRule).machine.run quietCluster twoCalls).map
      (fun q => q.shared.now) = some 5 := by decide
  obtain ⟨q, hq, -⟩ := Option.map_eq_some_iff.mp hview
  exact ⟨q, hq, distributed_bound (ascii ['g']) twoRule (by decide) 0 quietCluster_begins
    (by decide) hq userU⟩

/-- The SET after a refused INCR lets a third call through. -/
theorem bound_broken :
    ¬ ∀ (identity : Bytes) (rule : LimitRule) (slot : ℤ) (p q : Pool Cluster Acquire)
      (ls : List (Sched Outcome Around)), ¬ rule.period < 1000 → Begins identity rule slot p →
      (system identity rule).machine.Meets
        (CallSystem.allow (fun _ _ _ => True) (InSlot rule slot)) p ls →
      (system identity rule).machine.run p ls = some q →
      ∀ uid, (granted uid q.shared.log : ℤ) ≤ max rule.count 0 := by
  intro h
  have hview : ((system (ascii ['g']) twoRule).machine.run quietCluster
      (twoCalls ++ refusedCall)).map (fun q => granted userU q.shared.log) = some 3 := by decide
  obtain ⟨q, hq, hthree⟩ := Option.map_eq_some_iff.mp hview
  have hbound := h (ascii ['g']) twoRule 0 quietCluster q _ (by decide) quietCluster_begins
    (by decide) hq userU
  rw [hthree] at hbound
  revert hbound
  decide

/-- One request in a second and a half -/
def oddRule : LimitRule := ⟨1500, 1⟩

/-- A call, and another one when the first second is over. -/
def lateCall : List (Sched Outcome Around) :=
  [.env (.call 0 userU), .call 0 .done, .call 0 .done, .call 0 .done, .call 0 .done,
    .env (.tick 1010), .env (.call 1 userU), .call 0 .done, .call 0 .done, .call 0 .done,
    .call 0 .done]

/-- A period that is no number of whole seconds outlives its counter. -/
theorem bound_broken_early : ∃ q, (system (ascii ['g']) oddRule).machine.run quietCluster
    lateCall = some q ∧ granted userU q.shared.log = 2 := by
  have hview : ((system (ascii ['g']) oddRule).machine.run quietCluster lateCall).map
      (fun q => granted userU q.shared.log) = some 2 := by decide
  obtain ⟨q, hq, htwo⟩ := Option.map_eq_some_iff.mp hview
  exact ⟨q, hq, htwo⟩

end DistributedLimiter

end BcmServer.Limiters
