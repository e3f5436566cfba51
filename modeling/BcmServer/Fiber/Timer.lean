import BcmServer.Lts.Pool
import Mathlib.Data.Int.Notation
import Mathlib.Logic.Function.Basic

/-!
# BcmServer.Fiber.Timer — tasks that run later, or again and again

`FiberTimer` has one thread and a fiber for each call of `schedule` and `scheduleOnce`. A
fiber runs its task, which may itself be suspended, and then waits for the next time with
the mutex of the task; the mutex is kept while the task runs. Canceling a task takes the
mutex as well.

* `delayed_runs`: of a task at most one run after a wait is going on, whatever fibers it
  has, and none begins after the task was canceled.
* `tasks_registered`: if a task is never scheduled while it still has a fiber, the list of tasks
  has exactly the tasks of the fibers, so that `clear` cancels each of them.

A wait may end at any time: the time is up, the task was canceled, or for no reason. A run
that is made at once, without a wait, takes no mutex and is made of a canceled task, too.
-/

namespace BcmServer.Fiber

open Lts

/-- What the fibers share: of each task whether it is canceled and whether its mutex is taken,
and `m_tasks`. `begun` are the runs after a wait that have begun. -/
structure TimerState (τ : Type) where
  canceled : τ → Bool := fun _ => false
  locked : τ → Bool := fun _ => false
  tasks : List τ := []
  begun : List τ := []

/-- A fiber of the timer; `once` tells what `scheduleOnce` has started. -/
inductive TimerFiber (τ : Type) where
  | schedule (task : τ) (immediatelyRun : Bool)
  | scheduleOnce (task : τ) (delayInMilli : ℤ)
  /-- in a run that was made at once -/
  | runningNow (task : τ) (once : Bool)
  /-- before the mutex -/
  | locking (task : τ) (once : Bool)
  /-- in `wait_for` -/
  | waiting (task : τ) (once : Bool)
  /-- in a run after a wait, with the mutex -/
  | running (task : τ) (once : Bool)
  | cancel (task : τ)
  | clear
deriving DecidableEq, Repr

/-- What is posted to the thread of the timer -/
inductive TimerRequest (τ : Type) where
  | schedule (task : τ) (immediatelyRun : Bool)
  | scheduleOnce (task : τ) (delayInMilli : ℤ)
  | cancel (task : τ)
  | clear
deriving DecidableEq, Repr

def TimerRequest.fiber {τ : Type} : TimerRequest τ → TimerFiber τ
  | schedule task immediatelyRun => .schedule task immediatelyRun
  | scheduleOnce task delayInMilli => .scheduleOnce task delayInMilli
  | cancel task => .cancel task
  | clear => .clear

namespace TimerFiber

variable {τ : Type}

/-- The task that the fiber is there for -/
def task : TimerFiber τ → Option τ
  | schedule t _ | scheduleOnce t _ | runningNow t _ | locking t _ | waiting t _ | running t _ =>
      some t
  | cancel _ | clear => none

/-- The task that the fiber has put into the list -/
def registered : TimerFiber τ → Option τ
  | runningNow t false | locking t _ | waiting t _ | running t _ => some t
  | _ => none

variable [DecidableEq τ]

/-- The fiber is in a run of the task, with the mutex. -/
def runs (t : τ) : TimerFiber τ → Bool
  | running t' _ => t' = t
  | _ => false

@[simp] theorem runs_running (t t' : τ) (once : Bool) :
    (running t' once).runs t = decide (t' = t) := rfl

@[simp] theorem runs_of_unlocked {t : τ} {f : TimerFiber τ} (h : ∀ t' once, f ≠ running t' once) :
    f.runs t = false := by
  cases f with
  | running t' once => exact absurd rfl (h t' once)
  | _ => rfl

end TimerFiber

namespace FiberTimer

variable {τ : Type} [DecidableEq τ]

/-- `m_tasks.remove` -/
def remove (s : TimerState τ) (t : τ) : TimerState τ :=
  { s with tasks := s.tasks.filter fun t' => t' ≠ t }

/-- A fiber waits, if it gets the mutex. -/
def wait (s : TimerState τ) (t : τ) (once : Bool) : TimerFiber τ :=
  if s.locked t then .locking t once else .waiting t once

/-- The test of the loop in `schedule`, and what comes after it -/
def loop (s : TimerState τ) (t : τ) : TimerState τ × List (TimerFiber τ) :=
  if s.canceled t then (remove s t, []) else (s, [wait s t false])

/-- A fiber up to the next place where it is suspended -/
def next (s : TimerState τ) (f : TimerFiber τ) (_ : Unit) :
    Option (TimerState τ × List (TimerFiber τ)) :=
  match f with
  | .schedule t immediatelyRun =>
      let s := { s with tasks := s.tasks ++ [t] }
      if immediatelyRun then some (s, [.runningNow t false]) else some (loop s t)
  | .scheduleOnce t delayInMilli =>
      if delayInMilli ≤ 0 then some (s, [.runningNow t true])
      else
        let s := { s with tasks := s.tasks ++ [t] }
        some (s, [wait s t true])
  | .runningNow t once => if once then some (s, []) else some (loop s t)
  | .locking t once => if s.locked t then none else some (s, [.waiting t once])
  | .waiting t once =>
      if s.locked t then none
      else if s.canceled t then some (remove s t, [])
      else
        some
          ({ s with locked := Function.update s.locked t true, begun := s.begun ++ [t] },
            [.running t once])
  | .running t once =>
      let s := { s with locked := Function.update s.locked t false }
      if once then some (remove s t, []) else some (loop s t)
  | .cancel t =>
      if s.locked t then none
      else some ({ s with canceled := Function.update s.canceled t true }, [])
  | .clear => some (s, s.tasks.map .cancel)

def system : CallSystem (TimerState τ) (TimerFiber τ) Unit (TimerRequest τ) where
  next := next
  env p req := some (p.shared, [req.fiber])

/-- A timer without tasks -/
def start : Pool (TimerState τ) (TimerFiber τ) := ⟨{}, []⟩

variable {s s' : TimerState τ} {f : TimerFiber τ} {fs : List (TimerFiber τ)} {t : τ}

omit [DecidableEq τ] in
theorem of_some {a : TimerState τ × List (TimerFiber τ)} (h : some a = some (s', fs)) :
    s' = a.1 ∧ fs = a.2 := by
  rw [Option.some.inj h]
  exact ⟨rfl, rfl⟩

/-! ## One run at a time -/

theorem runs_wait (s : TimerState τ) (t t' : τ) (once : Bool) :
    (wait s t' once).runs t = false := by
  unfold wait
  split <;> rfl

theorem countP_loop (s : TimerState τ) (t t' : τ) :
    (loop s t').2.countP (TimerFiber.runs t) = 0 := by
  unfold loop
  split
  · rfl
  · simp [runs_wait]

@[simp] theorem locked_loop (s : TimerState τ) (t : τ) : (loop s t).1.locked = s.locked := by
  unfold loop
  split <;> rfl

@[simp] theorem canceled_loop (s : TimerState τ) (t : τ) : (loop s t).1.canceled = s.canceled := by
  unfold loop
  split <;> rfl

@[simp] theorem begun_loop (s : TimerState τ) (t : τ) : (loop s t).1.begun = s.begun := by
  unfold loop
  split <;> rfl

/-- The mutex is taken by the run that begins and given back by the run that ends. -/
theorem next_runs (h : next s f () = some (s', fs)) (hlocked : f.runs t = true → s.locked t = true) :
    fs.countP (TimerFiber.runs t) + (s.locked t).toNat = (f.runs t).toNat + (s'.locked t).toNat := by
  cases f with
  | schedule t' immediatelyRun =>
      cases immediatelyRun with
      | true =>
          obtain ⟨rfl, rfl⟩ := of_some h
          simp
      | false =>
          obtain ⟨rfl, rfl⟩ := of_some h
          simp [countP_loop]
  | scheduleOnce t' delayInMilli =>
      simp only [next] at h
      split_ifs at h
      · obtain ⟨rfl, rfl⟩ := of_some h
        simp
      · obtain ⟨rfl, rfl⟩ := of_some h
        simp [runs_wait]
  | runningNow t' once =>
      cases once with
      | true =>
          obtain ⟨rfl, rfl⟩ := of_some h
          simp
      | false =>
          obtain ⟨rfl, rfl⟩ := of_some h
          simp [countP_loop]
  | locking t' once =>
      simp only [next] at h
      split_ifs at h
      obtain ⟨rfl, rfl⟩ := of_some h
      simp
  | waiting t' once =>
      simp only [next] at h
      split_ifs at h with hmutex hcanceled
      · obtain ⟨rfl, rfl⟩ := of_some h
        simp [remove]
      · obtain ⟨rfl, rfl⟩ := of_some h
        by_cases ht : t = t'
        · subst ht
          simp [hmutex]
        · simp [ht, Ne.symm ht]
  | running t' once =>
      have hs : s'.locked = Function.update s.locked t' false ∧ fs.countP (TimerFiber.runs t) = 0 := by
        cases once with
        | true =>
            obtain ⟨rfl, rfl⟩ := of_some h
            exact ⟨rfl, rfl⟩
        | false =>
            obtain ⟨rfl, rfl⟩ := of_some h
            exact ⟨locked_loop _ _, countP_loop _ _ _⟩
      by_cases ht : t = t'
      · subst ht
        have hmutex : s.locked t = true := hlocked (by simp)
        simp [hs, hmutex]
      · simp [hs, ht, Ne.symm ht]
  | cancel t' =>
      simp only [next] at h
      split_ifs at h
      obtain ⟨rfl, rfl⟩ := of_some h
      simp
  | clear =>
      obtain ⟨rfl, rfl⟩ := of_some h
      simp

/-- A mutex is taken exactly while a fiber is in a run of the task. -/
def Exclusive (p : Pool (TimerState τ) (TimerFiber τ)) : Prop :=
  ∀ t, p.calls.countP (TimerFiber.runs t) = (p.shared.locked t).toNat

theorem exclusive_run {ls : List (Sched Unit (TimerRequest τ))}
    {p q : Pool (TimerState τ) (TimerFiber τ)} (h : Exclusive p)
    (hrun : system.machine.run p ls = some q) : Exclusive q := by
  refine system.reachable_invariant Exclusive ?_ ?_ h hrun
  · intro p q f rest e s fs hinv hperm hnext hs hcalls t
    have hbefore := hinv t
    rw [hperm.countP_eq, List.countP_cons] at hbefore
    have hlocked : f.runs t = true → p.shared.locked t = true := by
      intro hruns
      by_contra hfree
      simp [hruns, Bool.not_eq_true _ ▸ hfree] at hbefore
    have hstep := next_runs hnext hlocked
    rw [hcalls.countP_eq, List.countP_append, hs]
    cases hruns : f.runs t <;> simp [hruns] at hbefore hstep ⊢ <;> omega
  · intro p req s fs hinv henv t
    cases henv
    have hposted : req.fiber.runs t = false := by cases req <;> rfl
    rw [List.countP_append, hinv t]
    simp [hposted]

/-! ## Canceling is final -/

/-- The only step that begins a run after a wait looks at the mark first. -/
theorem next_canceled (h : next s f () = some (s', fs)) (hcanceled : s.canceled t = true) :
    s'.canceled t = true ∧ s'.begun.count t = s.begun.count t := by
  cases f with
  | schedule t' immediatelyRun | runningNow t' immediatelyRun =>
      cases immediatelyRun <;> obtain ⟨rfl, rfl⟩ := of_some h <;> simp [hcanceled]
  | running t' once =>
      cases once <;> obtain ⟨rfl, rfl⟩ := of_some h <;> simp [remove, hcanceled]
  | scheduleOnce t' delayInMilli =>
      simp only [next] at h
      split_ifs at h <;> obtain ⟨rfl, rfl⟩ := of_some h <;> simp [hcanceled]
  | locking t' once =>
      simp only [next] at h
      split_ifs at h
      obtain ⟨rfl, rfl⟩ := of_some h
      simp [hcanceled]
  | waiting t' once =>
      simp only [next] at h
      split_ifs at h with hmutex hmark
      · obtain ⟨rfl, rfl⟩ := of_some h
        simp [remove, hcanceled]
      · obtain ⟨rfl, rfl⟩ := of_some h
        have ht : t' ≠ t := by
          rintro rfl
          exact hmark hcanceled
        simp [hcanceled, ht]
  | cancel t' =>
      simp only [next] at h
      split_ifs at h
      obtain ⟨rfl, rfl⟩ := of_some h
      by_cases ht : t = t' <;> simp [ht, hcanceled]
  | clear =>
      obtain ⟨rfl, rfl⟩ := of_some h
      exact ⟨hcanceled, rfl⟩

theorem canceled_run {ls : List (Sched Unit (TimerRequest τ))}
    {p q : Pool (TimerState τ) (TimerFiber τ)} (hcanceled : p.shared.canceled t = true)
    (hrun : system.machine.run p ls = some q) :
    q.shared.canceled t = true ∧ q.shared.begun.count t = p.shared.begun.count t := by
  refine system.reachable_invariant
    (fun r => r.shared.canceled t = true ∧ r.shared.begun.count t = p.shared.begun.count t)
    ?_ ?_ ⟨hcanceled, rfl⟩ hrun
  · intro r r' f rest e s fs hinv _ hnext hs _
    have hstep := next_canceled hnext hinv.1
    rw [hs]
    exact ⟨hstep.1, hstep.2.trans hinv.2⟩
  · intro r req s fs hinv henv
    cases henv
    exact hinv

/-- Of a task one run after a wait at most is going on, and none begins once it is canceled. -/
theorem delayed_runs (ls : List (Sched Unit (TimerRequest τ)))
    (p : Pool (TimerState τ) (TimerFiber τ)) (hrun : system.machine.run start ls = some p) (t : τ) :
    p.calls.countP (TimerFiber.runs t) ≤ 1 ∧
      (p.shared.canceled t = true → ∀ ls' q, system.machine.run p ls' = some q →
        q.shared.begun.count t = p.shared.begun.count t) := by
  have hstart : Exclusive (start : Pool (TimerState τ) (TimerFiber τ)) := fun _ => rfl
  have hexclusive : Exclusive p := exclusive_run hstart hrun
  refine ⟨?_, fun hcanceled ls' q hrun' => (canceled_run hcanceled hrun').2⟩
  rw [hexclusive t]
  exact Bool.toNat_le _

/-- A task with two fibers: one is in its run, and the other waits for the mutex. -/
def scheduledTwice : List (Sched Unit (TimerRequest ℕ)) :=
  [.env (.schedule 0 false), .env (.scheduleOnce 0 5), .env (.cancel 0), .call 0 (), .call 1 (),
    .call 0 ()]

theorem delayed_runs_twice :
    ∃ p, system.machine.run start scheduledTwice = some p ∧
      p.calls = [.running 0 false, .waiting 0 true, .cancel 0] ∧
      p.calls.countP (TimerFiber.runs 0) ≤ 1 := by
  refine ⟨_, rfl, rfl, ?_⟩
  exact (delayed_runs scheduledTwice _ rfl 0).1

/-! ## The list of tasks -/

/-- A task is scheduled only while no fiber is there for it. -/
def Fresh (p : Pool (TimerState τ) (TimerFiber τ)) (req : TimerRequest τ) : Prop :=
  ∀ t ∈ req.fiber.task, t ∉ p.calls.filterMap TimerFiber.task

instance (p : Pool (TimerState τ) (TimerFiber τ)) (req : TimerRequest τ) :
    Decidable (Fresh p req) :=
  inferInstanceAs (Decidable (∀ t ∈ req.fiber.task, _))

/-- The tasks in the list are those of the fibers that have put them there, and no two fibers
are there for the same task. -/
structure Listed (p : Pool (TimerState τ) (TimerFiber τ)) : Prop where
  nodup : (p.calls.filterMap TimerFiber.task).Nodup
  tasks : p.shared.tasks.Perm (p.calls.filterMap TimerFiber.registered)

theorem perm_filter_ne {l R : List τ} (h : l.Perm (t :: R)) (hR : t ∉ R) :
    (l.filter fun t' => t' ≠ t).Perm R := by
  have hfilter := h.filter fun t' => decide (t' ≠ t)
  have hrest : R.filter (fun t' => decide (t' ≠ t)) = R := by
    rw [List.filter_eq_self]
    intro t' ht'
    have hne : t' ≠ t := fun heq => hR (heq ▸ ht')
    simpa using hne
  rwa [List.filter_cons_of_neg (by simp), hrest] at hfilter

/-- What becomes of a fiber with a task: its successors are there for the task, or the task is
out of the list. -/
structure Accounted (t : τ) (R : List τ) (s' : TimerState τ) (fs : List (TimerFiber τ)) : Prop where
  tasks : fs.filterMap TimerFiber.task = [t] ∨ fs.filterMap TimerFiber.task = []
  listed : s'.tasks.Perm (fs.filterMap TimerFiber.registered ++ R)

omit [DecidableEq τ] in
theorem accounted_wait {R : List τ} (once : Bool) (h : s.tasks.Perm (t :: R)) :
    Accounted t R s [wait s t once] := by
  unfold wait
  split
  · exact ⟨Or.inl rfl, h⟩
  · exact ⟨Or.inl rfl, h⟩

theorem accounted_remove {R : List τ} (h : s.tasks.Perm (t :: R)) (hR : t ∉ R) :
    Accounted t R (remove s t) [] :=
  ⟨Or.inr rfl, perm_filter_ne h hR⟩

theorem accounted_loop {R : List τ} (h : s.tasks.Perm (t :: R)) (hR : t ∉ R) :
    Accounted t R (loop s t).1 (loop s t).2 := by
  unfold loop
  split
  · exact accounted_remove h hR
  · exact accounted_wait false h

/-- A fiber that is there for a task -/
theorem accounted_next {R : List τ} (h : next s f () = some (s', fs)) (ht : f.task = some t)
    (hlist : s.tasks.Perm (f.registered.toList ++ R)) (hR : t ∉ R) : Accounted t R s' fs := by
  cases f with
  | schedule t' immediatelyRun =>
      cases ht
      have hadded : (s.tasks ++ [t]).Perm (t :: R) :=
        (List.perm_append_singleton t s.tasks).trans (hlist.cons t)
      cases immediatelyRun with
      | true =>
          obtain ⟨rfl, rfl⟩ := of_some h
          exact ⟨Or.inl rfl, hadded⟩
      | false =>
          obtain ⟨rfl, rfl⟩ := of_some h
          exact accounted_loop hadded hR
  | scheduleOnce t' delayInMilli =>
      cases ht
      simp only [next] at h
      split_ifs at h
      · obtain ⟨rfl, rfl⟩ := of_some h
        exact ⟨Or.inl rfl, hlist⟩
      · obtain ⟨rfl, rfl⟩ := of_some h
        exact accounted_wait true ((List.perm_append_singleton t s.tasks).trans (hlist.cons t))
  | runningNow t' once =>
      cases ht
      cases once with
      | true =>
          obtain ⟨rfl, rfl⟩ := of_some h
          exact ⟨Or.inr rfl, hlist⟩
      | false =>
          obtain ⟨rfl, rfl⟩ := of_some h
          exact accounted_loop hlist hR
  | locking t' once =>
      cases ht
      simp only [next] at h
      split_ifs at h
      obtain ⟨rfl, rfl⟩ := of_some h
      exact ⟨Or.inl rfl, hlist⟩
  | waiting t' once =>
      cases ht
      simp only [next] at h
      split_ifs at h
      · obtain ⟨rfl, rfl⟩ := of_some h
        exact accounted_remove hlist hR
      · obtain ⟨rfl, rfl⟩ := of_some h
        exact ⟨Or.inl rfl, hlist⟩
  | running t' once =>
      cases ht
      cases once with
      | true =>
          obtain ⟨rfl, rfl⟩ := of_some h
          exact accounted_remove (s := { s with locked := Function.update s.locked t false }) hlist hR
      | false =>
          obtain ⟨rfl, rfl⟩ := of_some h
          exact accounted_loop (s := { s with locked := Function.update s.locked t false }) hlist hR
  | cancel t' => cases ht
  | clear => cases ht

theorem listed_call {p q : Pool (TimerState τ) (TimerFiber τ)} {rest : List (TimerFiber τ)}
    (h : Listed p) (hperm : p.calls.Perm (f :: rest))
    (hnext : next p.shared f () = some (s', fs)) (hs : q.shared = s')
    (hcalls : q.calls.Perm (fs ++ rest)) : Listed q := by
  have hnodup := h.nodup
  have hlist := h.tasks.trans (hperm.filterMap TimerFiber.registered)
  rw [(hperm.filterMap TimerFiber.task).nodup_iff] at hnodup
  have htasks := hcalls.filterMap TimerFiber.task
  have hregistered := hcalls.filterMap TimerFiber.registered
  rw [List.filterMap_append] at htasks hregistered
  have hcons : (f :: rest).filterMap TimerFiber.registered =
      f.registered.toList ++ rest.filterMap TimerFiber.registered := by
    cases hf : f.registered <;> simp [hf]
  rw [hcons] at hlist
  cases ht : f.task with
  | none =>
      rw [List.filterMap_cons_none ht] at hnodup
      cases f with
      | cancel t' =>
          simp only [next] at hnext
          split_ifs at hnext
          obtain ⟨rfl, rfl⟩ := of_some hnext
          exact ⟨htasks.nodup_iff.mpr hnodup, hs ▸ hlist.trans hregistered.symm⟩
      | clear =>
          obtain ⟨rfl, rfl⟩ := of_some hnext
          have hnone : ∀ g : TimerFiber τ → Option τ, (∀ t', g (.cancel t') = none) →
              (p.shared.tasks.map TimerFiber.cancel).filterMap g = [] := by
            intro g hg
            simp [hg]
          rw [hnone _ fun _ => rfl] at htasks hregistered
          exact ⟨htasks.nodup_iff.mpr hnodup, hs ▸ hlist.trans hregistered.symm⟩
      | _ => cases ht
  | some t' =>
      rw [List.filterMap_cons_some ht, List.nodup_cons] at hnodup
      -- what the other fibers have put into the list are tasks of theirs
      have hother : t' ∉ rest.filterMap TimerFiber.registered := by
        intro hmem
        obtain ⟨g, hg, hgt⟩ := List.mem_filterMap.mp hmem
        refine hnodup.1 (List.mem_filterMap.mpr ⟨g, hg, ?_⟩)
        cases g with
        | runningNow t'' once => cases once <;> simp_all [TimerFiber.registered, TimerFiber.task]
        | _ => simp_all [TimerFiber.registered, TimerFiber.task]
      have hacc := accounted_next hnext ht hlist hother
      refine ⟨htasks.nodup_iff.mpr ?_, hs ▸ hacc.listed.trans hregistered.symm⟩
      rcases hacc.tasks with hsame | hover
      · rw [hsame]
        exact List.nodup_cons.mpr hnodup
      · rw [hover]
        exact hnodup.2

omit [DecidableEq τ] in
theorem listed_env {p : Pool (TimerState τ) (TimerFiber τ)} {req : TimerRequest τ} (h : Listed p)
    (hfresh : Fresh p req) : Listed ⟨p.shared, p.calls ++ [req.fiber]⟩ := by
  have hnone : req.fiber.registered = none := by cases req <;> rfl
  refine ⟨?_, ?_⟩
  · show ((p.calls ++ [req.fiber]).filterMap TimerFiber.task).Nodup
    rw [List.filterMap_append]
    cases ht : req.fiber.task with
    | none => simpa [ht] using h.nodup
    | some t =>
        have hnew : t ∉ p.calls.filterMap TimerFiber.task := hfresh t ht
        rw [List.filterMap_cons_some ht, List.filterMap_nil, List.nodup_append]
        refine ⟨h.nodup, by simp, ?_⟩
        intro a ha b hb hab
        rw [List.mem_singleton] at hb
        exact hnew (hb ▸ hab ▸ ha)
  · show p.shared.tasks.Perm ((p.calls ++ [req.fiber]).filterMap TimerFiber.registered)
    rw [List.filterMap_append]
    simpa [hnone] using h.tasks

/-- The list of tasks has the tasks of the fibers, and what `clear` starts cancels these. -/
theorem tasks_registered (ls : List (Sched Unit (TimerRequest τ)))
    (p : Pool (TimerState τ) (TimerFiber τ))
    (hfresh : system.machine.Meets (CallSystem.allow (fun _ _ _ => True) Fresh) start ls)
    (hrun : system.machine.run start ls = some p) :
    p.shared.tasks.Perm (p.calls.filterMap TimerFiber.registered) ∧
      ∀ i q, p.calls[i]? = some .clear → system.machine.step p (.call i ()) = some q →
        ∃ cancels : List τ,
          q.calls.Perm (cancels.map .cancel ++ (p.calls.take i ++ p.calls.drop (i + 1))) ∧
          cancels.Perm (p.calls.filterMap TimerFiber.registered) := by
  have hstart : Listed (start : Pool (TimerState τ) (TimerFiber τ)) :=
    ⟨List.nodup_nil, List.Perm.refl _⟩
  have hlisted : Listed p := by
    refine system.run_invariant Listed ?_ ?_ hstart hfresh hrun
    · intro p q f rest e s fs hinv hperm _ hnext hs hcalls
      exact listed_call hinv hperm hnext hs hcalls
    · intro p req s fs hinv hok henv
      cases henv
      exact listed_env hinv hok
  refine ⟨hlisted.tasks, fun i q hi hstep => ⟨p.shared.tasks, ?_, hlisted.tasks⟩⟩
  simp only [CallSystem.machine, CallSystem.step, hi] at hstep
  obtain rfl := Option.some.inj hstep
  simp only [List.append_assoc]
  exact List.perm_append_comm_assoc _ _ _

/-- A task that is run at once, one that waits, and a `clear` -/
def cleared : List (Sched Unit (TimerRequest ℕ)) :=
  [.env (.schedule 0 true), .env (.scheduleOnce 1 5), .env .clear, .call 0 (), .call 1 ()]

theorem tasks_registered_cleared :
    ∃ p, system.machine.run start cleared = some p ∧
      p.calls = [.runningNow 0 false, .waiting 1 true, .clear] ∧
      p.shared.tasks.Perm (p.calls.filterMap TimerFiber.registered) := by
  refine ⟨_, rfl, rfl, ?_⟩
  exact (tasks_registered cleared _ (by decide) rfl).1

end FiberTimer

end BcmServer.Fiber
