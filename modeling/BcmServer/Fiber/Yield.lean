import BcmServer.Lts.Run

/-!
# BcmServer.Fiber.Yield — asynchronous calls that block a fiber

A fiber starts an asynchronous call with `yield` and waits for its handler. The handler may
be invoked before the fiber waits, while it is about to suspend, or later, and from any
thread; the two meet in a `yield_completion`, under its spinlock. The result and the error
code are stored in the frame of the fiber, and the completion is deleted by whoever drops
the last reference.

* `yield_delivers`: in every interleaving the fiber is woken at most once and only while it
  is suspended, nothing is used after it is gone, and what the fiber returns with is what
  the handler was invoked with; and every run goes on to the end of both.

Suspending releases the lock in one step, as `context::suspend` does.
-/

namespace BcmServer.Fiber

open Lts

/-- `yield_completion::state_t` -/
inductive CompletionState where
  | init | waiting | complete
deriving DecidableEq, Repr

/-- The two that take the lock -/
inductive Side where
  | fiber | handler
deriving DecidableEq, Repr

/-- Where the fiber is: before `wait`, in it with the lock, suspended, scheduled again, behind
`wait`, behind `get`, and out of the frame with the result -/
inductive FiberPc where
  | before | testing | suspended | ready | resumed | returned | left
deriving DecidableEq, Repr

/-- Where the handler is: not invoked, invoked, with the lock before it reads, before it
writes the state, before it writes the error code and before it unlocks, then before it
looks at the state it has read, returned, and destroyed -/
inductive HandlerPc where
  | pending | invoked | reading | marking | storing | unlocking | deciding | finished | gone
deriving DecidableEq, Repr

/-- The handler has the lock. -/
def HandlerPc.inside : HandlerPc → Bool
  | reading | marking | storing | unlocking => true
  | _ => false

/-- The handler has not written the state. -/
def HandlerPc.unmarked : HandlerPc → Bool
  | pending | invoked | reading | marking => true
  | _ => false

/-- How many steps the fiber has left -/
def FiberPc.rest : FiberPc → ℕ
  | .before => 6
  | .testing => 5
  | .suspended => 4
  | .ready => 3
  | .resumed => 2
  | .returned => 1
  | .left => 0

/-- How many steps the handler has left -/
def HandlerPc.rest : HandlerPc → ℕ
  | .pending => 8
  | .invoked => 7
  | .reading => 6
  | .marking => 5
  | .storing => 4
  | .unlocking => 3
  | .deciding => 2
  | .finished => 1
  | .gone => 0

/-- One asynchronous call: the completion, the frame of the fiber, and both sides of it.
`answer` is what the handler was invoked with, `wakeups` how often it scheduled the fiber. -/
structure YieldCall (V E : Type) where
  /-- `state_`, `mtx_` and `use_count_` of the completion -/
  state : CompletionState := .init
  holder : Option Side := none
  useCount : ℕ := 2
  deleted : Bool := false
  /-- `value_`, and what `ec_` of the handler points to -/
  value : Option V := none
  ec : Option E := none
  fiber : FiberPc := .before
  handler : HandlerPc := .pending
  /-- the state that the handler has read -/
  seen : CompletionState := .init
  answer : Option (V × E) := none
  wakeups : ℕ := 0
  result : Option (Except E V) := none
deriving DecidableEq

namespace YieldCall

variable {V E : Type} [DecidableEq E]

/-- `intrusive_ptr_release` -/
def release (c : YieldCall V E) : YieldCall V E :=
  { c with
    useCount := c.useCount - 1
    deleted := c.deleted || c.useCount == 1 }

section Steps

-- the error code that means success, and whether the caller gave a variable for the code
variable (success : E) (bound : Bool)

/-- `async_result::get` behind `wait`: an error that no variable was given for is thrown. -/
def get (c : YieldCall V E) : Option (Except E V) :=
  let ec := c.ec.getD success
  if !bound && ec ≠ success then some (.error ec) else c.value.map .ok

/-- The next step of the fiber -/
def fiberStep (c : YieldCall V E) : Option (YieldCall V E) :=
  match c.fiber with
  | .before =>
      if c.holder = none then some { c with holder := some .fiber, fiber := .testing } else none
  | .testing =>
      if c.state = .complete then some { c with holder := none, fiber := .resumed }
      else some { c with state := .waiting, holder := none, fiber := .suspended }
  | .ready => some { c with fiber := .resumed }
  | .resumed => some { c with fiber := .returned, result := c.get success bound }
  | .returned => some { c.release with fiber := .left }
  | .suspended | .left => none

/-- The next step of the handler, `yield_handler_base::operator()` -/
def handlerStep (c : YieldCall V E) : Option (YieldCall V E) :=
  match c.handler with
  | .invoked =>
      if c.holder = none then some { c with holder := some .handler, handler := .reading } else none
  | .reading => some { c with seen := c.state, handler := .marking }
  | .marking => some { c with state := .complete, handler := .storing }
  | .storing => some { c with ec := c.answer.map Prod.snd, handler := .unlocking }
  | .unlocking => some { c with holder := none, handler := .deciding }
  | .deciding =>
      if c.seen = .waiting then
        some
          { c with
            -- a fiber that is not suspended cannot be linked to the ready queue
            fiber := if c.fiber = .suspended then .ready else c.fiber
            wakeups := c.wakeups + 1
            handler := .finished }
      else some { c with handler := .finished }
  | .finished => some { c.release with handler := .gone }
  | .pending | .gone => none

end Steps

/-- The handler is invoked, or one of the sides goes on. -/
inductive Label (V E : Type) where
  | invoke (value : V) (ec : E)
  | fiber
  | handler
deriving DecidableEq, Repr

/-- `yield_handler::operator()` stores the result before anything else. -/
def step (success : E) (bound : Bool) (c : YieldCall V E) : Label V E → Option (YieldCall V E)
  | .invoke value ec =>
      if c.handler = .pending then
        some { c with value := some value, answer := some (value, ec), handler := .invoked }
      else none
  | .fiber => c.fiberStep success bound
  | .handler => c.handlerStep

def machine (success : E) (bound : Bool) : Machine (YieldCall V E) (Label V E) :=
  ⟨step success bound⟩

/-- Both sides are through. -/
def Finished (c : YieldCall V E) : Prop := c.fiber = .left ∧ c.handler = .gone

/-! ## What the two sides know of each other -/

/-- What `get` has to give for an answer -/
def Answered (success : E) (bound : Bool) (value : V) (ec : E) (r : Option (Except E V)) : Prop :=
  r = if !bound && ec ≠ success then some (.error ec) else some (.ok value)

/-- The state of the completion goes with the place of both sides. -/
structure Inv (success : E) (bound : Bool) (c : YieldCall V E) : Prop where
  fiberHolds : c.holder = some .fiber ↔ c.fiber = .testing
  handlerHolds : c.holder = some .handler ↔ c.handler.inside = true
  /-- before the handler writes the state, the fiber has not passed `wait` -/
  unmarked : c.handler.unmarked = true →
    (c.fiber = .suspended ∧ c.state = .waiting) ∨
      ((c.fiber = .before ∨ c.fiber = .testing) ∧ c.state = .init)
  marked : c.handler.unmarked = false → c.state = .complete
  /-- what the handler has read is still true until it has written the state -/
  read : c.handler = .marking → c.seen = c.state
  /-- with the lock, the handler keeps the fiber from testing -/
  locked : c.handler = .storing ∨ c.handler = .unlocking →
    (c.fiber = .suspended ∧ c.seen = .waiting) ∨ (c.fiber = .before ∧ c.seen = .init)
  deciding : c.handler = .deciding →
    (c.fiber = .suspended ∧ c.seen = .waiting) ∨
      (c.fiber ≠ .suspended ∧ c.fiber ≠ .ready ∧ c.seen = .init)
  ended : c.handler = .finished ∨ c.handler = .gone → c.fiber ≠ .suspended
  wakeups : c.wakeups = if c.handler = .finished ∨ c.handler = .gone then
    (if c.seen = .waiting then 1 else 0) else 0
  answered : c.handler ≠ .pending → ∃ value ec, c.answer = some (value, ec) ∧
    c.value = some value ∧ (c.handler.unmarked = false → c.handler ≠ .storing → c.ec = some ec) ∧
    (c.fiber = .returned ∨ c.fiber = .left → Answered success bound value ec c.result)
  useCount : c.useCount = (if c.fiber = .left then 0 else 1) + if c.handler = .gone then 0 else 1
  deleted : c.deleted = true ↔ c.fiber = .left ∧ c.handler = .gone

variable {success : E} {bound : Bool} {c d : YieldCall V E}

theorem inv_start : Inv success bound ({} : YieldCall V E) := by
  constructor <;> simp [HandlerPc.inside, HandlerPc.unmarked]

/-! ### The fiber -/

/-- The lock is free, so the handler is not inside. -/
theorem inv_before (h : Inv success bound c) (hfiber : c.fiber = .before)
    (hfree : c.holder = none) :
    Inv success bound { c with holder := some .fiber, fiber := .testing } := by
  cases h
  constructor <;> grind -ring -linarith [HandlerPc.inside, HandlerPc.unmarked]

/-- The state is complete: the handler has unlocked and does not wake the fiber. -/
theorem inv_testing_complete (h : Inv success bound c) (hfiber : c.fiber = .testing)
    (hcomplete : c.state = .complete) :
    Inv success bound { c with holder := none, fiber := .resumed } := by
  cases h
  constructor <;> grind -ring -linarith [HandlerPc.inside, HandlerPc.unmarked]

theorem inv_testing_suspend (h : Inv success bound c) (hfiber : c.fiber = .testing)
    (hcomplete : c.state ≠ .complete) :
    Inv success bound { c with state := .waiting, holder := none, fiber := .suspended } := by
  cases h
  constructor <;> grind -ring -linarith [HandlerPc.inside, HandlerPc.unmarked]

theorem inv_ready (h : Inv success bound c) (hfiber : c.fiber = .ready) :
    Inv success bound { c with fiber := .resumed } := by
  cases h
  constructor <;> grind -ring -linarith [HandlerPc.inside, HandlerPc.unmarked]

/-- When the fiber is behind `wait`, the handler has written the state and the error code. -/
theorem stored_of_resumed (h : Inv success bound c)
    (hfiber : c.fiber = .resumed ∨ c.fiber = .returned ∨ c.fiber = .left) :
    c.handler.unmarked = false ∧ c.handler ≠ .storing := by
  constructor
  · by_contra hno
    -- the handler has not written the state, so the fiber is before `wait` or in it
    rcases h.unmarked (by simpa using hno) with ⟨hsuspended, -⟩ | ⟨hearly, -⟩
    · simp [hsuspended] at hfiber
    · rcases hearly with hearly | hearly <;> simp [hearly] at hfiber
  · intro hstoring
    rcases h.locked (Or.inl hstoring) with ⟨hsuspended, -⟩ | ⟨hbefore, -⟩
    · simp [hsuspended] at hfiber
    · simp [hbefore] at hfiber

/-- Behind `wait` the handler has stored what it was invoked with. -/
theorem answered_get (h : Inv success bound c) (hfiber : c.fiber = .resumed) (value : V) (ec : E)
    (hvalue : c.value = some value)
    (hec : c.handler.unmarked = false → c.handler ≠ .storing → c.ec = some ec) :
    Answered success bound value ec (c.get success bound) := by
  rcases stored_of_resumed h (Or.inl hfiber) with ⟨hmarked, hstored⟩
  rw [Answered, get, hec hmarked hstored, hvalue]
  rfl

theorem inv_resumed (h : Inv success bound c) (hfiber : c.fiber = .resumed) :
    Inv success bound { c with fiber := .returned, result := c.get success bound } := by
  have hget := answered_get h hfiber
  cases h
  constructor <;> grind -ring -linarith

theorem inv_returned (h : Inv success bound c) (hfiber : c.fiber = .returned) :
    Inv success bound { c.release with fiber := .left } := by
  cases h
  constructor <;> grind -ring -linarith [HandlerPc.inside, HandlerPc.unmarked, release]

theorem inv_fiberStep (h : Inv success bound c) (hstep : c.fiberStep success bound = some d) :
    Inv success bound d := by
  unfold fiberStep at hstep
  split at hstep
  · next hbefore =>
    split_ifs at hstep with hfree
    cases hstep
    exact inv_before h hbefore hfree
  · next htesting =>
    split_ifs at hstep with hcomplete
    · cases hstep
      exact inv_testing_complete h htesting hcomplete
    · cases hstep
      exact inv_testing_suspend h htesting hcomplete
  · next hready =>
    cases hstep
    exact inv_ready h hready
  · next hresumed =>
    cases hstep
    exact inv_resumed h hresumed
  · next hreturned =>
    cases hstep
    exact inv_returned h hreturned
  · cases hstep
  · cases hstep

/-! ### The handler -/

theorem inv_invoked (h : Inv success bound c) (hhandler : c.handler = .invoked)
    (hfree : c.holder = none) :
    Inv success bound { c with holder := some .handler, handler := .reading } := by
  cases h
  constructor <;> grind -ring -linarith [HandlerPc.inside, HandlerPc.unmarked]

theorem inv_reading (h : Inv success bound c) (hhandler : c.handler = .reading) :
    Inv success bound { c with seen := c.state, handler := .marking } := by
  cases h
  constructor <;> grind -ring -linarith [HandlerPc.inside, HandlerPc.unmarked]

/-- The fiber cannot be testing: it is suspended, or has not begun to wait. -/
theorem inv_marking (h : Inv success bound c) (hhandler : c.handler = .marking) :
    Inv success bound { c with state := .complete, handler := .storing } := by
  cases h
  constructor <;> grind -ring -linarith [HandlerPc.inside, HandlerPc.unmarked]

theorem inv_storing (h : Inv success bound c) (hhandler : c.handler = .storing) :
    Inv success bound { c with ec := c.answer.map Prod.snd, handler := .unlocking } := by
  cases h
  constructor <;> grind -ring -linarith [HandlerPc.inside, HandlerPc.unmarked]

theorem inv_unlocking (h : Inv success bound c) (hhandler : c.handler = .unlocking) :
    Inv success bound { c with holder := none, handler := .deciding } := by
  cases h
  constructor <;> grind -ring -linarith [HandlerPc.inside, HandlerPc.unmarked]

/-- A fiber that the handler has found waiting is still suspended. -/
theorem inv_deciding_wake (h : Inv success bound c) (hhandler : c.handler = .deciding)
    (hseen : c.seen = .waiting) :
    Inv success bound
      { c with
        fiber := if c.fiber = .suspended then .ready else c.fiber
        wakeups := c.wakeups + 1
        handler := .finished } := by
  cases h
  constructor <;> grind -ring -linarith [HandlerPc.inside, HandlerPc.unmarked]

theorem inv_deciding_pass (h : Inv success bound c) (hhandler : c.handler = .deciding)
    (hseen : c.seen ≠ .waiting) : Inv success bound { c with handler := .finished } := by
  cases h
  constructor <;> grind -ring -linarith [HandlerPc.inside, HandlerPc.unmarked]

theorem inv_finished (h : Inv success bound c) (hhandler : c.handler = .finished) :
    Inv success bound { c.release with handler := .gone } := by
  cases h
  constructor <;> grind -ring -linarith [HandlerPc.inside, HandlerPc.unmarked, release]

theorem inv_handlerStep (h : Inv success bound c) (hstep : c.handlerStep = some d) :
    Inv success bound d := by
  unfold handlerStep at hstep
  split at hstep
  · next hinvoked =>
    split_ifs at hstep with hfree
    cases hstep
    exact inv_invoked h hinvoked hfree
  · next hreading =>
    cases hstep
    exact inv_reading h hreading
  · next hmarking =>
    cases hstep
    exact inv_marking h hmarking
  · next hstoring =>
    cases hstep
    exact inv_storing h hstoring
  · next hunlocking =>
    cases hstep
    exact inv_unlocking h hunlocking
  · next hdeciding =>
    by_cases hseen : c.seen = .waiting
    · rw [if_pos hseen] at hstep
      cases hstep
      exact inv_deciding_wake h hdeciding hseen
    · rw [if_neg hseen] at hstep
      cases hstep
      exact inv_deciding_pass h hdeciding hseen
  · next hfinished =>
    cases hstep
    exact inv_finished h hfinished
  · cases hstep
  · cases hstep

theorem inv_step {l : Label V E} (h : Inv success bound c)
    (hstep : step success bound c l = some d) : Inv success bound d := by
  cases l with
  | invoke value ec =>
      cases h
      simp only [step] at hstep
      split_ifs at hstep with hpending
      cases hstep
      constructor <;> grind -ring -linarith [HandlerPc.inside, HandlerPc.unmarked]
  | fiber => exact inv_fiberStep h hstep
  | handler => exact inv_handlerStep h hstep

theorem inv_run {ls : List (Label V E)} (h : Inv success bound c)
    (hrun : (machine success bound).run c ls = some d) : Inv success bound d :=
  (machine success bound).run_invariant (Inv success bound)
    (fun _ _ _ hinv _ hstep => inv_step hinv hstep) h
    ((machine success bound).meets_of_forall (fun _ _ => trivial) c ls) hrun

/-! ## Both come to their end -/

def rank (c : YieldCall V E) : ℕ := c.fiber.rest + c.handler.rest

theorem rank_step {l : Label V E} (hstep : step success bound c l = some d) :
    d.rank < c.rank := by
  cases l with
  | invoke value ec =>
      simp only [step] at hstep
      split_ifs at hstep with hpending
      cases hstep
      simp [rank, hpending, HandlerPc.rest]
  | fiber =>
      simp only [step, fiberStep] at hstep
      split at hstep <;> grind -ring -linarith [rank, FiberPc.rest, release]
  | handler =>
      simp only [step, handlerStep] at hstep
      split at hstep <;> grind -ring -linarith [rank, FiberPc.rest, HandlerPc.rest, release]

/-- Nobody waits for the lock, or for the other side, forever. -/
theorem progress [Inhabited V] (h : Inv success bound c) (hnot : ¬ c.Finished) :
    ∃ l, True ∧ ((machine success bound).step c l).isSome := by
  show ∃ l, True ∧ (step success bound c l).isSome
  by_cases hpending : c.handler = .pending
  · exact ⟨.invoke default success, trivial, by simp [step, hpending]⟩
  by_cases hfree : c.holder = none
  · -- the lock is free: who waits is the fiber, if it is suspended
    by_cases hgone : c.handler = .gone
    · have hsuspended : c.fiber ≠ .suspended := h.ended (Or.inr hgone)
      have hleft : c.fiber ≠ .left := fun hleft => hnot ⟨hleft, hgone⟩
      refine ⟨.fiber, trivial, ?_⟩
      simp only [step, fiberStep]
      cases hf : c.fiber <;> grind -ring -linarith
    · refine ⟨.handler, trivial, ?_⟩
      simp only [step, handlerStep]
      cases hh : c.handler <;> grind -ring -linarith
  · cases hholder : c.holder with
    | none => exact absurd hholder hfree
    | some side =>
        cases side with
        | fiber =>
            have htesting : c.fiber = .testing := h.fiberHolds.mp hholder
            refine ⟨.fiber, trivial, ?_⟩
            simp only [step, fiberStep, htesting]
            split <;> rfl
        | handler =>
            have hinside : c.handler.inside = true := h.handlerHolds.mp hholder
            refine ⟨.handler, trivial, ?_⟩
            simp only [step, handlerStep]
            cases hh : c.handler <;> grind -ring -linarith [HandlerPc.inside]

/-- What is used by a side is there. -/
structure Safe (success : E) (bound : Bool) (c : YieldCall V E) : Prop where
  /-- the fiber is woken once at most, and only while it is suspended -/
  wakeups : c.wakeups ≤ 1
  woken : c.handler = .deciding → c.seen = .waiting → c.fiber = .suspended ∧ c.wakeups = 0
  /-- the completion is there for the fiber until it leaves and for the handler until it goes -/
  completion : c.deleted = true → c.fiber = .left ∧ c.handler = .gone
  /-- the frame is there when the result and the error code are stored in it -/
  frame : c.handler = .storing → c.fiber = .before ∨ c.fiber = .suspended
  /-- the fiber returns with what the handler was invoked with -/
  result : c.fiber = .returned ∨ c.fiber = .left → ∃ value ec, c.answer = some (value, ec) ∧
    Answered success bound value ec c.result ∧ c.ec = some ec

theorem Inv.safe (h : Inv success bound c) : Safe success bound c := by
  refine ⟨?_, ?_, h.deleted.mp, ?_, ?_⟩
  · rw [h.wakeups]
    split_ifs <;> omega
  · intro hdeciding hseen
    rcases h.deciding hdeciding with ⟨hsuspended, -⟩ | ⟨-, -, hinit⟩
    · refine ⟨hsuspended, ?_⟩
      rw [h.wakeups, hdeciding]
      rfl
    · rw [hseen] at hinit
      cases hinit
  · intro hstoring
    rcases h.locked (Or.inl hstoring) with ⟨hsuspended, -⟩ | ⟨hbefore, -⟩
    · exact Or.inr hsuspended
    · exact Or.inl hbefore
  · intro hback
    rcases stored_of_resumed h (Or.inr hback) with ⟨hmarked, hstored⟩
    have hpending : c.handler ≠ .pending := by
      intro heq
      rw [heq] at hmarked
      cases hmarked
    obtain ⟨value, ec, hanswer, -, hec, hresult⟩ := h.answered hpending
    exact ⟨value, ec, hanswer, hresult hback, hec hmarked hstored⟩

/-- No wakeup is lost or made twice, nothing is used after it is gone, and the fiber returns
with the answer. -/
theorem yield_delivers [Inhabited V] (success : E) (bound : Bool) (ls : List (Label V E))
    (c : YieldCall V E) (hrun : (machine success bound).run {} ls = some c) :
    Safe success bound c ∧ ls.length ≤ 14 ∧
      ∃ ls' d, (machine success bound).run c ls' = some d ∧ d.Finished ∧
        Safe success bound d ∧ d.deleted = true := by
  have hall : ∀ (c : YieldCall V E) ls,
      (machine success bound).Meets (fun _ _ => True) c ls := fun c ls =>
    (machine success bound).meets_of_forall (fun _ _ => trivial) c ls
  have hlength : ∀ (ls : List (Label V E)) (c : YieldCall V E),
      (machine success bound).run {} ls = some c → ls.length ≤ 14 := by
    intro ls c hrun
    have hrank := (machine success bound).length_le_rank (fun _ => True) rank
      (fun _ _ _ _ _ hstep => ⟨trivial, rank_step hstep⟩) trivial (hall {} ls) hrun
    exact hrank
  obtain ⟨ls', d, hrun', -, hfinished⟩ :=
    (machine success bound).run_extends Finished
      ⟨14, fun ls c hrun _ => hlength ls c hrun⟩
      (fun _ _ hrun _ hnot => progress (inv_run inv_start hrun) hnot) hrun (hall {} ls)
  have hinv : Inv success bound d := inv_run (inv_run inv_start hrun) hrun'
  exact ⟨(inv_run inv_start hrun).safe, hlength ls c hrun, ls', d, hrun', hfinished, hinv.safe,
    hinv.deleted.mpr hfinished⟩

/-- The handler is invoked while the fiber is suspended. -/
def suspendedFirst : List (Label ℕ ℕ) :=
  [.fiber, .fiber, .invoke 7 0, .handler, .handler, .handler, .handler, .handler, .handler,
    .fiber, .fiber]

theorem yield_delivers_suspended :
    ∃ c, (machine 0 false).run {} suspendedFirst = some c ∧ c.result = some (.ok 7) ∧
      Safe 0 false c := by
  have hrun : ∃ c, (machine 0 false).run {} suspendedFirst = some c ∧ c.result = some (.ok 7) :=
    ⟨_, rfl, rfl⟩
  obtain ⟨c, hrun, hresult⟩ := hrun
  exact ⟨c, hrun, hresult, (yield_delivers 0 false suspendedFirst c hrun).1⟩

end YieldCall

end BcmServer.Fiber
