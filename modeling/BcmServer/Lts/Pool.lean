import BcmServer.Lts.Run
import Mathlib.Data.List.Perm.Basic

/-!
# BcmServer.Lts.Pool — concurrent calls over a shared state

Most of the server is code that many threads and fibers run at once: a call
performs a few atomic steps (a map update under a mutex, a redis command, a
database read) and other calls run in between. A `CallSystem` gives the atomic
step of one call, `next`, and the steps of the environment, `env`; both may
start further calls. A `Pool` is the shared state with the local states of the
calls that have not returned, and `CallSystem.machine` interleaves their steps
in every order.

A schedule names the running call by its position. `step_cases` forgets the
position: the calls before a step are, up to order, the scheduled one and the
others, and after it its successors and the others. `run_invariant` is the
induction rule in these terms, and `reachable_invariant` the one for runs that
need no condition.
-/

namespace BcmServer.Lts

universe u v w x

/-- The shared state and the calls that have not returned. -/
structure Pool (σ : Type u) (κ : Type v) where
  shared : σ
  calls : List κ
deriving DecidableEq, Repr

/-- A scheduling decision: the `i`-th running call takes its next atomic step
with outcome `e`, or the environment acts. -/
inductive Sched (ε : Type w) (η : Type x) where
  | call (i : ℕ) (e : ε)
  | env (h : η)
deriving DecidableEq, Repr

/-- Calls with local states `κ` over a shared state `σ`. `next` is the atomic
step of a call with its successors (none when it returns), `env` a step of the
environment with the calls it starts. -/
structure CallSystem (σ : Type u) (κ : Type v) (ε : Type w) (η : Type x) where
  next : σ → κ → ε → Option (σ × List κ)
  env : Pool σ κ → η → Option (σ × List κ)

namespace CallSystem

variable {σ : Type u} {κ : Type v} {ε : Type w} {η : Type x} (S : CallSystem σ κ ε η)

/-- One scheduled step. The successors take the place of the call. -/
def step (p : Pool σ κ) : Sched ε η → Option (Pool σ κ)
  | .call i e =>
      match p.calls[i]? with
      | none => none
      | some k => (S.next p.shared k e).map fun r =>
          ⟨r.1, p.calls.take i ++ r.2 ++ p.calls.drop (i + 1)⟩
  | .env h => (S.env p h).map fun r => ⟨r.1, p.calls ++ r.2⟩

/-- The interleavings of the calls with the environment. -/
def machine : Machine (Pool σ κ) (Sched ε η) := ⟨S.step⟩

/-- A condition on schedules, from one on the scheduled call and one on the
environment. -/
def allow (cond : Pool σ κ → κ → ε → Prop) (envCond : Pool σ κ → η → Prop)
    (p : Pool σ κ) : Sched ε η → Prop
  | .call i e =>
      match p.calls[i]? with
      | none => True
      | some k => cond p k e
  | .env h => envCond p h

instance allow.decidable (cond : Pool σ κ → κ → ε → Prop) (envCond : Pool σ κ → η → Prop)
    [∀ p k e, Decidable (cond p k e)] [∀ p h, Decidable (envCond p h)] :
    ∀ (p : Pool σ κ) (l : Sched ε η), Decidable (allow cond envCond p l)
  | p, .call i e =>
    match h : p.calls[i]? with
    | none => isTrue (by simp [allow, h])
    | some k => decidable_of_iff (cond p k e) (by simp [allow, h])
  | p, .env h => inferInstanceAs (Decidable (envCond p h))

theorem allow_and {cond cond' : Pool σ κ → κ → ε → Prop} {envCond envCond' : Pool σ κ → η → Prop}
    {p : Pool σ κ} {l : Sched ε η} (h : allow cond envCond p l)
    (h' : allow cond' envCond' p l) :
    allow (fun p k e => cond p k e ∧ cond' p k e) (fun p e => envCond p e ∧ envCond' p e) p l := by
  cases l with
  | call i e =>
      cases hk : p.calls[i]? with
      | none => simp [allow, hk]
      | some k =>
          simp only [allow, hk] at h h' ⊢
          exact ⟨h, h'⟩
  | env e => exact ⟨h, h'⟩

/-- The calls of a pool, up to order, as the scheduled one and the others. -/
theorem calls_perm {l : List κ} {i : ℕ} {k : κ} (h : l[i]? = some k) :
    l.Perm (k :: (l.take i ++ l.drop (i + 1))) := by
  obtain ⟨hi, hk⟩ := List.getElem?_eq_some_iff.mp h
  calc l = l.take i ++ l.drop i := (List.take_append_drop i l).symm
    _ = l.take i ++ k :: l.drop (i + 1) := by rw [List.drop_eq_getElem_cons hi, hk]
    _ |>.Perm (k :: (l.take i ++ l.drop (i + 1))) := List.perm_middle

/-- What one step does: either a call `k` among the running ones steps and its
successors join the others, or the environment acts and its calls join. -/
theorem step_cases {p q : Pool σ κ} {l : Sched ε η} (h : S.step p l = some q) :
    (∃ i e k rest s ks, l = .call i e ∧ p.calls[i]? = some k ∧ p.calls.Perm (k :: rest) ∧
      S.next p.shared k e = some (s, ks) ∧ q.shared = s ∧ q.calls.Perm (ks ++ rest)) ∨
    (∃ e s ks, l = .env e ∧ S.env p e = some (s, ks) ∧ q = ⟨s, p.calls ++ ks⟩) := by
  cases l with
  | call i e =>
      left
      simp only [step] at h
      split at h
      · cases h
      · rename_i k hk
        obtain ⟨⟨s, ks⟩, hnext, rfl⟩ := Option.map_eq_some_iff.mp h
        refine ⟨i, e, k, _, s, ks, rfl, hk, calls_perm hk, hnext, rfl, ?_⟩
        rw [List.append_assoc]
        exact (List.perm_append_comm_assoc _ _ _)
  | env e =>
      right
      obtain ⟨⟨s, ks⟩, henv, rfl⟩ := Option.map_eq_some_iff.mp h
      exact ⟨e, s, ks, rfl, henv, rfl⟩

/-- Invariant induction for concurrent calls. -/
theorem run_invariant {cond : Pool σ κ → κ → ε → Prop} {envCond : Pool σ κ → η → Prop}
    (inv : Pool σ κ → Prop)
    (hcall : ∀ p q k rest e s ks, inv p → p.calls.Perm (k :: rest) → cond p k e →
      S.next p.shared k e = some (s, ks) → q.shared = s → q.calls.Perm (ks ++ rest) → inv q)
    (henv : ∀ p e s ks, inv p → envCond p e → S.env p e = some (s, ks) →
      inv ⟨s, p.calls ++ ks⟩)
    {p q : Pool σ κ} {ls : List (Sched ε η)} (hp : inv p)
    (hok : S.machine.Meets (allow cond envCond) p ls) (hrun : S.machine.run p ls = some q) :
    inv q := by
  refine S.machine.run_invariant inv ?_ hp hok hrun
  intro p l q hinv hok hstep
  obtain ⟨i, e, k, rest, s, ks, rfl, hk, hperm, hnext, hs, hks⟩ | ⟨e, s, ks, rfl, hnext, rfl⟩ :=
    S.step_cases hstep
  · have hcond : cond p k e := by simpa [allow, hk] using hok
    exact hcall p q k rest e s ks hinv hperm hcond hnext hs hks
  · exact henv p e s ks hinv hok hnext

/-- A bound on the length of runs, for concurrent calls. -/
theorem length_le_rank {cond : Pool σ κ → κ → ε → Prop} {envCond : Pool σ κ → η → Prop}
    (inv : Pool σ κ → Prop) (rank : Pool σ κ → ℕ)
    (hcall : ∀ p q k rest e s ks, inv p → p.calls.Perm (k :: rest) → cond p k e →
      S.next p.shared k e = some (s, ks) → q.shared = s → q.calls.Perm (ks ++ rest) →
      inv q ∧ rank q < rank p)
    (henv : ∀ p e s ks, inv p → envCond p e → S.env p e = some (s, ks) →
      inv ⟨s, p.calls ++ ks⟩ ∧ rank ⟨s, p.calls ++ ks⟩ < rank p)
    {p q : Pool σ κ} {ls : List (Sched ε η)} (hp : inv p)
    (hok : S.machine.Meets (allow cond envCond) p ls) (hrun : S.machine.run p ls = some q) :
    ls.length ≤ rank p := by
  refine S.machine.length_le_rank inv rank ?_ hp hok hrun
  intro p l q hinv hok hstep
  rcases S.step_cases hstep with
    ⟨i, e, k, rest, s, ks, rfl, hk, hperm, hnext, hs, hks⟩ | ⟨e, s, ks, rfl, hnext, rfl⟩
  · have hcond : cond p k e := by simpa [allow, hk] using hok
    exact hcall p q k rest e s ks hinv hperm hcond hnext hs hks
  · exact henv p e s ks hinv hok hnext

/-- Invariant induction over all interleavings. -/
theorem reachable_invariant (inv : Pool σ κ → Prop)
    (hcall : ∀ p q k rest e s ks, inv p → p.calls.Perm (k :: rest) →
      S.next p.shared k e = some (s, ks) → q.shared = s → q.calls.Perm (ks ++ rest) → inv q)
    (henv : ∀ p e s ks, inv p → S.env p e = some (s, ks) → inv ⟨s, p.calls ++ ks⟩)
    {p q : Pool σ κ} {ls : List (Sched ε η)} (hp : inv p) (hrun : S.machine.run p ls = some q) :
    inv q := by
  have hall : ∀ (p : Pool σ κ) (l : Sched ε η),
      allow (fun _ _ _ => True) (fun _ _ => True) p l := by
    intro p l
    cases l with
    | call i e =>
        cases hk : p.calls[i]? <;> simp [allow, hk]
    | env h => trivial
  refine S.run_invariant inv ?_ ?_ hp (S.machine.meets_of_forall hall p ls) hrun
  · intro p q k rest e s ks hinv hperm _ hnext hs hks
    exact hcall p q k rest e s ks hinv hperm hnext hs hks
  · intro p e s ks hinv _ hnext
    exact henv p e s ks hinv hnext

/-! ## Building runs

To show that some schedule leads to a state the position of a call in the pool
does not matter either. -/

/-- A run that meets `ok` leads from `p` to the shared state `s` with the calls
`L`, in some order. -/
def Leads (ok : Pool σ κ → Sched ε η → Prop) (p : Pool σ κ) (s : σ) (L : List κ) : Prop :=
  ∃ ls q, S.machine.run p ls = some q ∧ S.machine.Meets ok p ls ∧ q.shared = s ∧ q.calls.Perm L

theorem leads_refl (ok : Pool σ κ → Sched ε η → Prop) (p : Pool σ κ) :
    S.Leads ok p p.shared p.calls :=
  ⟨[], p, rfl, trivial, rfl, List.Perm.refl _⟩

theorem leads_perm {ok : Pool σ κ → Sched ε η → Prop} {p : Pool σ κ} {s : σ} {L L' : List κ}
    (h : S.Leads ok p s L) (hL : L.Perm L') : S.Leads ok p s L' := by
  obtain ⟨ls, q, hrun, hok, hs, hq⟩ := h
  exact ⟨ls, q, hrun, hok, hs, hq.trans hL⟩

/-- One more step of a call that is running. -/
theorem leads_call {cond : Pool σ κ → κ → ε → Prop} {envCond : Pool σ κ → η → Prop}
    {p : Pool σ κ} {s s' : σ} {k : κ} {L ks : List κ} {e : ε}
    (h : S.Leads (allow cond envCond) p s (k :: L)) (hnext : S.next s k e = some (s', ks))
    (hcond : ∀ q, cond q k e) : S.Leads (allow cond envCond) p s' (ks ++ L) := by
  obtain ⟨ls, q, hrun, hok, rfl, hq⟩ := h
  have hmem : k ∈ q.calls := hq.mem_iff.mpr List.mem_cons_self
  obtain ⟨i, hi⟩ := List.mem_iff_getElem?.mp hmem
  let t : Pool σ κ := ⟨s', q.calls.take i ++ ks ++ q.calls.drop (i + 1)⟩
  have hstep : S.machine.step q (.call i e) = some t := by
    show S.step q (.call i e) = some t
    simp [step, hi, hnext, t]
  have hallow : allow cond envCond q (.call i e) := by simpa [allow, hi] using hcond q
  refine ⟨ls ++ [.call i e], t, S.machine.run_snoc hrun hstep,
    S.machine.meets_snoc hrun hok hallow hstep, rfl, ?_⟩
  -- the others are the same, whatever the position
  have hrest : (q.calls.take i ++ q.calls.drop (i + 1)).Perm L :=
    ((calls_perm hi).symm.trans hq).cons_inv
  show (q.calls.take i ++ ks ++ q.calls.drop (i + 1)).Perm (ks ++ L)
  rw [List.append_assoc]
  exact (List.perm_append_comm_assoc _ _ _).trans (hrest.append_left ks)

end CallSystem

end BcmServer.Lts
