import BcmServer.Limiters.Distributed

/-!
# BcmServer.Limiters.DryRun — what `limited` says about `acquireAccess`

`limited` looks at a limiter without counting. It compares the count so far with
the limit, whereas `acquireAccess` counts the request first, so the two differ
at the limit: the request that goes over it is rejected while `limited` still
says that the limiter is good. Dependent limiters are meant to follow only once
a request has been rejected.

* `limited_predicts`: what `limited` rejects `acquireAccess` rejects, and the
  other rejections are those at the limit.
* `limited_at_limit`: the two are not equivalent.
-/

namespace BcmServer.Limiters

open Util Http Lts

/-- The states of a limiter: its rule changes and requests are counted, on a
positive clock. -/
inductive UserQpsLimiter.Reachable : UserQpsLimiter → Prop where
  | new : Reachable {}
  | access {l : UserQpsLimiter} (h : Reachable l) (id : Bytes) {now : ℤ} (hnow : 0 < now) :
      Reachable (l.acquireAccess id now).1
  | update {l : UserQpsLimiter} (h : Reachable l) (rule : LimitRule) :
      Reachable { l with rule := rule }

/-- The states of a limiter: its rules change and requests are counted, on a
positive clock. -/
inductive ApiQpsLimiter.Reachable : ApiQpsLimiter → Prop where
  | new (activeApis : List Api) : Reachable (ApiQpsLimiter.new activeApis)
  | access {l : ApiQpsLimiter} (h : Reachable l) (id : Bytes) {now : ℤ} (hnow : 0 < now) :
      Reachable (l.acquireAccess id now).1
  | update {l : ApiQpsLimiter} (h : Reachable l) (rules : Bytes → Option LimitRule) :
      Reachable { l with rules := rules }

/-- A window is open and its quota is used up exactly. -/
def AtLimit (s : Option Status) (rule : LimitRule) (now : ℤ) : Prop :=
  ∃ st, s = some st ∧ st.closed rule now = false ∧ st.counter = rule.count

/-! ## One status -/

/-- On an open window `limited` is one request behind. -/
theorem Status.access_limited_iff {s : Status} {rule : LimitRule} {now : ℤ}
    (h : s.startTime ≠ 0) : (s.access rule now).2 = .limited ↔
      s.limited rule now = .limited ∨ AtLimit (some s) rule now := by
  have hat : AtLimit (some s) rule now ↔ s.closed rule now = false ∧ s.counter = rule.count := by
    constructor
    · rintro ⟨st, hst, hopen⟩
      cases hst
      exact hopen
    · intro hopen
      exact ⟨s, rfl, hopen⟩
  rw [hat]
  unfold access limited closed
  by_cases hover : now - s.startTime ≥ rule.period
  · have hnot : ¬ now - s.startTime < rule.period := by omega
    simp [hover, hnot]
  · have hin : now - s.startTime < rule.period := by omega
    by_cases hcount : s.counter + 1 ≤ rule.count
    · have hgood : ¬ s.counter > rule.count := by omega
      have hne : ¬ s.counter = rule.count := by omega
      simp [h, hover, hcount, hgood, hne]
    · have hlimit : s.counter > rule.count ∨ s.counter = rule.count := by omega
      simp [h, hover, hcount, hin, hlimit]

/-- Without a window a request is granted. -/
theorem Status.access_new (rule : LimitRule) (now : ℤ) :
    (({} : Status).access rule now).2 = .good := by
  simp [access, closed]

/-- A counted status has a window. -/
theorem Status.access_startTime {s : Status} {rule : LimitRule} {now : ℤ} (hnow : 0 < now)
    (h : s.startTime ≠ 0 ∨ s = {}) : (s.access rule now).1.startTime ≠ 0 := by
  unfold access
  split
  · exact hnow.ne'
  · rename_i hopen
    rcases h with h | rfl
    · exact h
    · exact absurd rfl hopen

/-! ## The limiters -/

theorem UserQpsLimiter.Reachable.startTime {l : UserQpsLimiter} (h : Reachable l) :
    ∀ id s, l.status id = some s → s.startTime ≠ 0 := by
  induction h with
  | new =>
      intro id s hs
      cases hs
  | @access l h id now hnow ih =>
      intro j s hs
      by_cases hj : j = id
      · subst hj
        simp only [acquireAccess, Function.update_self, Option.some.injEq] at hs
        rw [← hs]
        apply Status.access_startTime hnow
        unfold item
        cases hitem : l.status j with
        | none => exact Or.inr rfl
        | some s' => exact Or.inl (ih j s' hitem)
      · simp only [acquireAccess, Function.update_of_ne hj] at hs
        exact ih j s hs
  | update h rule ih => exact ih

theorem ApiQpsLimiter.Reachable.startTime {l : ApiQpsLimiter} (h : Reachable l) :
    ∀ api s, l.status api = some s → s.startTime ≠ 0 ∨ s = {} := by
  induction h with
  | new activeApis =>
      intro api s hs
      right
      simp only [ApiQpsLimiter.new] at hs
      split at hs
      · exact (Option.some.inj hs).symm
      · cases hs
  | @access l h id now hnow ih =>
      intro api s hs
      cases hk : l.key id with
      | none =>
          rw [acquireAccess_of_key_none now hk] at hs
          exact ih api s hs
      | some k =>
          rw [acquireAccess_of_key now hk] at hs
          obtain ⟨rfl, -, s', hs'⟩ := key_eq_some hk
          by_cases hj : api = l.api id
          · subst hj
            simp only [setStatus, Function.update_self, Option.some.injEq] at hs
            rw [← hs, hs']
            exact Or.inl (Status.access_startTime hnow (ih _ s' hs'))
          · simp only [setStatus, Function.update_of_ne hj] at hs
            exact ih api s hs
  | update h rules ih => exact ih

theorem UserQpsLimiter.acquireAccess_limited_iff {l : UserQpsLimiter} (h : Reachable l)
    (id : Bytes) (now : ℤ) : (l.acquireAccess id now).2 = .limited ↔
      l.limited id now = .limited ∨ AtLimit (l.status id) l.rule now := by
  show ((l.item id).access l.rule now).2 = .limited ↔ _
  unfold item limited
  cases hs : l.status id with
  | none =>
      rw [Option.getD_none, Status.access_new]
      simp [AtLimit]
  | some s => exact Status.access_limited_iff (h.startTime id s hs)

theorem ApiQpsLimiter.acquireAccess_limited_iff {l : ApiQpsLimiter} (h : Reachable l)
    {id api : Bytes} (hkey : l.key id = some api) (now : ℤ) :
    (l.acquireAccess id now).2 = .limited ↔
      (l.limited api now = .limited ∧ l.status api ≠ some {}) ∨
        AtLimit (l.status api) (ruleOf l.rules api) now := by
  rw [acquireAccess_of_key now hkey]
  obtain ⟨rfl, -, s, hs⟩ := key_eq_some hkey
  unfold limited
  rw [hs]
  rcases h.startTime _ s hs with hstart | rfl
  · have hne : s ≠ {} := fun heq => hstart (by rw [heq])
    simp only [Option.getD_some, ne_eq, Option.some.injEq, hne, not_false_eq_true, and_true]
    exact Status.access_limited_iff hstart
  · simp [Status.access_new, AtLimit, Status.closed]

/-- What `limited` rejects `acquireAccess` rejects at the same time, except for
an API that was never requested; the other rejections are the requests that go
over the limit: those of a window whose quota is used up exactly, and those for
which the count in redis is over the limit while the item is not. -/
theorem limited_predicts :
    (∀ l : UserQpsLimiter, l.Reachable → ∀ id now, (l.acquireAccess id now).2 = .limited ↔
      l.limited id now = .limited ∨ AtLimit (l.status id) l.rule now) ∧
    (∀ l : ApiQpsLimiter, l.Reachable → ∀ id api now, l.key id = some api →
      ((l.acquireAccess id now).2 = .limited ↔
        (l.limited api now = .limited ∧ l.status api ≠ some {}) ∨
          AtLimit (l.status api) (ApiQpsLimiter.ruleOf l.rules api) now)) ∧
    (∀ (l : DistributedLimiter) id now count, (l.acquireAccess id now count).2 = .limited ↔
      l.limited id now = .limited ∨ l.limited id now = .good ∧ count > l.rule.count) := by
  refine ⟨?_, ?_, ?_⟩
  · intro l h id now
    exact l.acquireAccess_limited_iff h id now
  · intro l h id api now hkey
    exact l.acquireAccess_limited_iff h hkey now
  · intro l id now count
    unfold DistributedLimiter.acquireAccess DistributedLimiter.limited DistributedLimiter.level
    by_cases hfull : DistributedLimiter.full l.rule
        (DistributedLimiter.timeSlot l.rule now) (l.status id)
    · simp [hfull]
    · simp [hfull]

/-- One user who has made the one request of the second -/
def usedUp : UserQpsLimiter :=
  (({ rule := ⟨1000, 1⟩ } : UserQpsLimiter).acquireAccess (ascii ['u']) 5).1

theorem usedUp_reachable : usedUp.Reachable :=
  .access (.update .new ⟨1000, 1⟩) (ascii ['u']) (by decide)

theorem limited_predicts_usedUp : (usedUp.acquireAccess (ascii ['u']) 7).2 = .limited :=
  (limited_predicts.1 usedUp usedUp_reachable (ascii ['u']) 7).mpr
    (Or.inr ⟨⟨5, 1⟩, rfl, rfl, rfl⟩)

/-- At the limit `limited` says that the limiter is good, and the next request
is rejected. -/
theorem limited_at_limit :
    ¬ ∀ l : UserQpsLimiter, l.Reachable → ∀ id now, 0 < now →
      (l.limited id now = .limited ↔ (l.acquireAccess id now).2 = .limited) := by
  intro h
  have hgood : usedUp.limited (ascii ['u']) 7 = .good := by decide
  have hlimited := (h usedUp usedUp_reachable (ascii ['u']) 7 (by decide)).mpr (by decide)
  rw [hgood] at hlimited
  cases hlimited

end BcmServer.Limiters
