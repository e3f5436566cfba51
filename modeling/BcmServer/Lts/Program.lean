import Mathlib.Tactic.Common

/-!
# BcmServer.Lts.Program — programs that call a service which may fail

A request handler reads and writes a store through calls that may fail. It is a
*program*: a tree whose nodes are calls and whose branches are their answers.
What the calls mean is not part of it.

* `Effects` gives the calls a meaning on a state. A call may be made to fail with
  a *fault*; the effects say what it answers then.
* `exec` runs a program on a state, with a plan that names the fault of each call
  (`plan 0` is that of the first call, none if it succeeds); `calls` lists the
  calls of that run with their answers.
* `wp` is the weakest precondition of such a run. `wp_bind` is the rule by which a
  program is taken apart, and `exec_of_wp` leads back to the run.
* `Provided` is what holds of a run if its calls are answered well. `provided_bind` takes
  a part off in front, by its weakest precondition.
-/

namespace BcmServer.Lts

/-- A program with calls `o : Op`, answered by `Res o`. -/
inductive Program {Op : Type} (Res : Op → Type) (α : Type) where
  | ret (a : α)
  | call (o : Op) (next : Res o → Program Res α)

/-- The fault of each call, none where it succeeds. -/
abbrev Plan (F : Type) := ℕ → Option F

/-- The plan behind the first call. -/
def Plan.tail {F : Type} (plan : Plan F) : Plan F := fun n => plan (n + 1)

/-- No call fails. -/
def Plan.clean {F : Type} : Plan F := fun _ => none

/-- What the calls do and answer. -/
structure Effects {Op : Type} (Res : Op → Type) (F σ : Type) where
  step : (o : Op) → Option F → σ → Res o × σ

namespace Program

variable {Op : Type} {Res : Op → Type} {F σ : Type} {α β : Type}

/-- One program after the other. -/
def bind : Program Res α → (α → Program Res β) → Program Res β
  | ret a, k => k a
  | call o next, k => call o fun r => (next r).bind k

instance : Monad (Program Res) where
  pure := ret
  bind := bind

/-- The program that makes one call. -/
def perform (o : Op) : Program Res (Res o) := call o ret

/-! ## Runs -/

variable (E : Effects Res F σ)

/-- The value and the state a program ends with. -/
def exec : Program Res α → Plan F → σ → α × σ
  | ret a, _, s => (a, s)
  | call o next, plan, s =>
      exec (next (E.step o (plan 0) s).1) plan.tail (E.step o (plan 0) s).2

/-- The calls of a run, with their answers. -/
def calls : Program Res α → Plan F → σ → List ((o : Op) × Res o)
  | ret _, _, _ => []
  | call o next, plan, s =>
      ⟨o, (E.step o (plan 0) s).1⟩ ::
        calls (next (E.step o (plan 0) s).1) plan.tail (E.step o (plan 0) s).2

/-- The run of a program ends with a value, the plan left and a state that
satisfy `Q`. -/
def wp : Program Res α → (α → Plan F → σ → Prop) → Plan F → σ → Prop
  | ret a, Q, plan, s => Q a plan s
  | call o next, Q, plan, s =>
      wp (next (E.step o (plan 0) s).1) Q plan.tail (E.step o (plan 0) s).2

variable {E} {Q Q' : α → Plan F → σ → Prop} {plan : Plan F} {s : σ}

theorem exec_of_wp {p : Program Res α} {P : α → σ → Prop}
    (h : p.wp E (fun a _ t => P a t) plan s) : P (p.exec E plan s).1 (p.exec E plan s).2 := by
  induction p generalizing plan s with
  | ret a => exact h
  | call o next ih => exact ih _ h

theorem wp_call {o : Op} {next : Res o → Program Res α}
    (h : (next (E.step o (plan 0) s).1).wp E Q plan.tail (E.step o (plan 0) s).2) :
    (call o next).wp E Q plan s := h

/-- The rule of consequence. -/
theorem wp_mono {p : Program Res α} (h : p.wp E Q plan s)
    (himp : ∀ a plan t, Q a plan t → Q' a plan t) : p.wp E Q' plan s := by
  induction p generalizing plan s with
  | ret a => exact himp _ _ _ h
  | call o next ih => exact ih _ h

/-- The rule for two programs one after the other. -/
theorem wp_bind {p : Program Res α} {k : α → Program Res β} {Q : β → Plan F → σ → Prop}
    (h : p.wp E (fun a plan t => (k a).wp E Q plan t) plan s) : (p >>= k).wp E Q plan s := by
  induction p generalizing plan s with
  | ret a => exact h
  | call o next ih => exact ih _ h

/-- A program with nothing behind it -/
theorem bind_pure (p : Program Res α) : p >>= pure = p := by
  induction p with
  | ret a => rfl
  | call o next ih => exact congrArg (call o) (funext fun r => ih r)

/-! ## Runs with good answers -/

section Provided

variable (E) (good : (o : Op) → Res o → Prop)

/-- If all calls of a run are answered well, its value and its state satisfy `P`. -/
def Provided (p : Program Res α) (P : α → σ → Prop) (plan : Plan F) (s : σ) : Prop :=
  (∀ c ∈ p.calls E plan s, good c.1 c.2) → P (p.exec E plan s).1 (p.exec E plan s).2

variable {E good} {P : α → σ → Prop}

theorem provided_ret {a : α} (h : P a s) : (ret a : Program Res α).Provided E good P plan s :=
  fun _ => h

theorem provided_call {o : Op} {next : Res o → Program Res α}
    (h : good o (E.step o (plan 0) s).1 →
      (next (E.step o (plan 0) s).1).Provided E good P plan.tail (E.step o (plan 0) s).2) :
    (call o next).Provided E good P plan s := by
  intro hgood
  have hfirst : good o (E.step o (plan 0) s).1 := hgood _ List.mem_cons_self
  exact h hfirst fun c hc => hgood c (List.mem_cons_of_mem _ hc)

/-- The answers in a part in front are of no interest. -/
theorem provided_bind {p : Program Res α} {k : α → Program Res β} {P : β → σ → Prop}
    (h : p.wp E (fun a plan t => (k a).Provided E good P plan t) plan s) :
    (p >>= k).Provided E good P plan s := by
  induction p generalizing plan s with
  | ret a => exact h
  | call o next ih => exact provided_call fun _ => ih _ h

end Provided

end Program

end BcmServer.Lts
