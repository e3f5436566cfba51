import BcmServer.Lts.Run
import Mathlib.Logic.Function.Basic

/-!
# BcmServer.Lts.Worker — queues of tasks, each with a thread of its own

A thread takes the tasks of its queue one by one. A task may throw; the thread
does not go on then, and what is queued or posted later stays where it is.

* `executed_all_iff`: at rest every task has been executed exactly if none but
  the last one posted throws.
* `executed_at_iff`: at rest a task has been executed exactly if none posted
  before it throws.
-/

namespace BcmServer.Lts

/-- A thread with its queue, and the tasks it has executed. -/
structure Worker (τ : Type*) where
  alive : Bool
  executed : List τ
  queue : List τ
deriving DecidableEq, Repr

/-- A task is posted, or a thread takes its next task. -/
inductive WorkerEvent (ι τ : Type*) where
  | post (i : ι) (t : τ)
  | run (i : ι)
deriving DecidableEq, Repr

namespace Worker

variable {ι τ : Type*} [DecidableEq ι] (throws : τ → Bool)

/-- A thread that has just started. -/
def fresh : Worker τ := ⟨true, [], []⟩

/-- The thread takes its next task. -/
def next (w : Worker τ) : Option (Worker τ) :=
  match w.alive, w.queue with
  | true, t :: queue => some ⟨!throws t, w.executed ++ [t], queue⟩
  | _, _ => none

def step (s : ι → Worker τ) : WorkerEvent ι τ → Option (ι → Worker τ)
  | .post i t => some (Function.update s i { s i with queue := (s i).queue ++ [t] })
  | .run i => ((s i).next throws).map (Function.update s i)

def machine : Machine (ι → Worker τ) (WorkerEvent ι τ) := ⟨step throws⟩

/-- The tasks posted to one of the threads. -/
def posted (i : ι) (es : List (WorkerEvent ι τ)) : List τ :=
  es.filterMap fun e => match e with
    | .post j t => if j = i then some t else none
    | .run _ => none

/-- The thread has ended, or has nothing left to do. -/
def AtRest (w : Worker τ) : Prop := w.alive = false ∨ w.queue = []

instance (w : Worker τ) [DecidableEq τ] : Decidable w.AtRest :=
  inferInstanceAs (Decidable (_ ∨ _))

/-! ## What a thread does with the tasks posted to it -/

/-- The tasks posted are those executed, in order, and those queued; a thread has
ended at the first task that throws. -/
inductive Accounts (l : List τ) (w : Worker τ) : Prop where
  | going (halive : w.alive = true) (hl : l = w.executed ++ w.queue)
      (hgood : ∀ t ∈ w.executed, throws t = false)
  | ended (init : List τ) (last : τ) (halive : w.alive = false)
      (hl : l = w.executed ++ w.queue) (hexecuted : w.executed = init ++ [last])
      (hgood : ∀ t ∈ init, throws t = false) (hlast : throws last = true)

variable {throws}

theorem Accounts.post {l : List τ} {w : Worker τ} (h : Accounts throws l w) (t : τ) :
    Accounts throws (l ++ [t]) { w with queue := w.queue ++ [t] } := by
  cases h with
  | going halive hl hgood =>
      refine .going halive ?_ hgood
      rw [hl, List.append_assoc]
  | ended init last halive hl hexecuted hgood hlast =>
      refine .ended init last halive ?_ hexecuted hgood hlast
      rw [hl, List.append_assoc]

theorem Accounts.next {l : List τ} {w w' : Worker τ} (h : Accounts throws l w)
    (hnext : w.next throws = some w') : Accounts throws l w' := by
  unfold Worker.next at hnext
  split at hnext
  · next t queue halive hqueue =>
    cases hnext
    cases h with
    | going _ hl hgood =>
        have hl' : l = (w.executed ++ [t]) ++ queue := by
          rw [hl, hqueue, List.append_assoc, List.singleton_append]
        cases hthrows : throws t with
        | false =>
            refine .going rfl hl' ?_
            intro t' ht'
            rcases List.mem_append.mp ht' with ht' | ht'
            · exact hgood t' ht'
            · rw [List.mem_singleton.mp ht']
              exact hthrows
        | true => exact .ended w.executed t rfl hl' rfl hgood hthrows
    | ended init last hdead _ _ _ _ => exact Bool.noConfusion (halive.symm.trans hdead)
  · cases hnext

/-- A run adds the tasks it posts. -/
theorem accounts_run {s s' : ι → Worker τ} {es : List (WorkerEvent ι τ)} {i : ι} {l : List τ}
    (h : Accounts throws l (s i)) (hrun : (machine throws).run s es = some s') :
    Accounts throws (l ++ posted i es) (s' i) := by
  induction es generalizing s l with
  | nil =>
      rw [Machine.run_nil, Option.some.injEq] at hrun
      rw [← hrun]
      simpa [posted] using h
  | cons e es ih =>
      obtain ⟨u, hu, hrun'⟩ := (machine throws).run_cons_eq_some.mp hrun
      cases e with
      | post j t =>
          cases hu
          by_cases hj : j = i
          · subst hj
            have hpost := ih (l := l ++ [t]) (by rw [Function.update_self]; exact h.post t) hrun'
            simpa [posted] using hpost
          · have hother := ih (by rw [Function.update_of_ne (Ne.symm hj)]; exact h) hrun'
            simpa [posted, hj] using hother
      | run j =>
          obtain ⟨w, hw, rfl⟩ := Option.map_eq_some_iff.mp hu
          have hkeep : Accounts throws l (Function.update s j w i) := by
            by_cases hj : j = i
            · subst hj
              rw [Function.update_self]
              exact h.next hw
            · rw [Function.update_of_ne (Ne.symm hj)]
              exact h
          simpa [posted] using ih hkeep hrun'

theorem accounts_fresh : Accounts throws [] (fresh : Worker τ) :=
  .going rfl rfl fun _ ht => absurd ht List.not_mem_nil

/-! ## At rest -/

theorem Accounts.executed_all_iff {l : List τ} {w : Worker τ} (h : Accounts throws l w)
    (hrest : w.AtRest) : w.executed = l ↔ ∀ t ∈ l.dropLast, throws t = false := by
  cases h with
  | going halive hl hgood =>
      have hqueue : w.queue = [] := hrest.resolve_left (by simp [halive])
      rw [hqueue, List.append_nil] at hl
      rw [hl]
      exact ⟨fun _ t ht => hgood t (List.dropLast_subset _ ht), fun _ => rfl⟩
  | ended init last _ hl hexecuted hgood hlast =>
      cases hqueue : w.queue with
      | nil =>
          rw [hqueue, List.append_nil] at hl
          rw [hl, hexecuted, List.dropLast_concat]
          exact ⟨fun _ => hgood, fun _ => rfl⟩
      | cons t queue =>
          -- the task that threw is not the last one
          have hmem : last ∈ l.dropLast := by
            rw [hl, hexecuted, hqueue, List.dropLast_append_cons]
            simp
          constructor
          · intro heq
            rw [hl, hqueue] at heq
            simp at heq
          · intro hall
            exact Bool.noConfusion ((hall last hmem).symm.trans hlast)

theorem Accounts.split {l : List τ} {w : Worker τ} (h : Accounts throws l w) :
    l = w.executed ++ w.queue := by
  cases h with
  | going _ hl _ => exact hl
  | ended _ _ _ hl _ _ _ => exact hl

/-- A task has been taken if those executed reach as far as it stands. -/
theorem Accounts.getElem?_iff {pre post : List τ} {t : τ} {w : Worker τ}
    (h : Accounts throws (pre ++ t :: post) w) :
    w.executed[pre.length]? = some t ↔ pre.length < w.executed.length := by
  constructor
  · intro hget
    exact (List.getElem?_eq_some_iff.mp hget).1
  · intro hlt
    rw [← List.getElem?_append_left hlt, ← h.split]
    simp

theorem Accounts.executed_at_iff {pre post : List τ} {t : τ} {w : Worker τ}
    (h : Accounts throws (pre ++ t :: post) w) (hrest : w.AtRest) :
    w.executed[pre.length]? = some t ↔ ∀ t' ∈ pre, throws t' = false := by
  rw [h.getElem?_iff]
  cases h with
  | going halive hl hgood =>
      have hqueue : w.queue = [] := hrest.resolve_left (by simp [halive])
      rw [hqueue, List.append_nil] at hl
      rw [← hl]
      constructor
      · intro _ t' ht'
        exact hgood t' (hl ▸ List.mem_append_left _ ht')
      · intro _
        rw [List.length_append, List.length_cons]
        omega
  | ended init last _ hl hexecuted hgood hlast =>
      have hsplit : pre ++ t :: post = init ++ last :: w.queue := by
        rw [hl, hexecuted, List.append_assoc, List.singleton_append]
      rw [hexecuted, List.length_append, List.length_singleton, Nat.lt_succ_iff]
      constructor
      · intro hle t' ht'
        have hbefore : pre <+: init :=
          List.prefix_of_prefix_length_le ⟨_, hsplit⟩ (List.prefix_append _ _) hle
        exact hgood t' (hbefore.subset ht')
      · intro hall
        by_contra hlt
        -- the task that threw stands before it
        have hwhole : init ++ [last] <+: pre ++ t :: post := by
          rw [hsplit]
          exact ⟨w.queue, by simp⟩
        have hbefore : init ++ [last] <+: pre := by
          refine List.prefix_of_prefix_length_le hwhole (List.prefix_append _ _) ?_
          rw [List.length_append, List.length_singleton]
          omega
        have hmem : last ∈ pre := hbefore.subset (List.mem_append_right _ List.mem_cons_self)
        exact Bool.noConfusion ((hall last hmem).symm.trans hlast)

end Worker

end BcmServer.Lts
