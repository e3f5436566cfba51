import BcmServer.Lts.Program

/-!
# BcmServer.Lts.Emit — programs that also emit events

A program that calls a service may tell others about it: between its calls it
emits events, which are not answered. `lift` makes such a program of one that
emits nothing, `forget` takes the events out again, and `emitting` gives the calls
their meaning together with the list of what has been emitted.

* `wp_lift`: a part that emits nothing is dealt with on its own.
* `forget_bind`: a program without its events is what its parts are without theirs.
-/

namespace BcmServer.Lts

/-- A call, or an event -/
inductive Emitting (Op V : Type) where
  | call (o : Op)
  | emit (e : V)

/-- An event is not answered. -/
@[reducible] def Emitting.Res {Op V : Type} (Res : Op → Type) : Emitting Op V → Type
  | call o => Res o
  | emit _ => Unit

/-- The state of the service, with what has been emitted. A fault does not stop an event. -/
def Effects.emitting {Op V F σ : Type} {Res : Op → Type} (E : Effects Res F σ) :
    Effects (Emitting.Res (V := V) Res) F (σ × List V) where
  step
    | .call o, fault, s => ((E.step o fault s.1).1, (E.step o fault s.1).2, s.2)
    | .emit e, _, s => ((), s.1, s.2 ++ [e])

namespace Program

variable {Op V F σ : Type} {Res : Op → Type} {α β : Type}

/-- A program that emits nothing -/
def lift : Program Res α → Program (Emitting.Res (V := V) Res) α
  | ret a => ret a
  | call o next => call (.call o) fun r => (next r).lift

/-- One event -/
def emit (e : V) : Program (Emitting.Res (V := V) Res) Unit := call (.emit e) ret

/-- A program without its events -/
def forget : Program (Emitting.Res (V := V) Res) α → Program Res α
  | ret a => ret a
  | call (.call o) next => call o fun r => (next r).forget
  | call (.emit _) next => (next ()).forget

theorem forget_lift (p : Program Res α) : (p.lift (V := V)).forget = p := by
  induction p with
  | ret a => rfl
  | call o next ih => exact congrArg (call o) (funext ih)

theorem forget_bind (p : Program (Emitting.Res (V := V) Res) α)
    (k : α → Program (Emitting.Res Res) β) :
    (p >>= k).forget = p.forget >>= fun a => (k a).forget := by
  induction p with
  | ret a => rfl
  | call o next ih =>
      cases o with
      | call o => exact congrArg (call o) (funext ih)
      | emit e => exact ih ()

variable {E : Effects Res F σ} {plan : Plan F} {s : σ} {events : List V}

theorem wp_lift {p : Program Res α} {Q : α → Plan F → σ × List V → Prop}
    (h : p.wp E (fun a plan t => Q a plan (t, events)) plan s) :
    p.lift.wp E.emitting Q plan (s, events) := by
  induction p generalizing plan s with
  | ret a => exact h
  | call o next ih => exact ih _ h

end Program

end BcmServer.Lts
