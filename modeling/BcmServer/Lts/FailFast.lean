import BcmServer.Lts.Program

/-!
# BcmServer.Lts.FailFast — programs that give up when a call fails

A program *fails fast* if a call that fails makes it give up: it has had no effect
until then, has none afterwards, and ends with an error. That is a property of
the tree alone, of every path at once, and needs no meaning of the calls.

* `Refuses` is what is left to do after the failure: no effects, an error at the
  end.
* `Reckless` is what may follow an effect: no call that could fail in this sense.
* `FailFast` combines the two. `calls_of_failFast` reads it off the calls of a
  run, and the `bind` rules build it up.

Which calls have effects, which answers are failures and which values are errors
are parameters.
-/

namespace BcmServer.Lts

namespace Program

variable {Op : Type} {Res : Op → Type} {α β : Type}

section Defs

variable (effect : Op → Prop) (fails : (o : Op) → Res o → Prop) (error : α → Prop)

/-- The program has no effect and ends with an error. -/
def Refuses : Program Res α → Prop
  | ret a => error a
  | call o next => ¬ effect o ∧ ∀ r, Refuses (next r)

/-- No call of the program fails. -/
def Reckless : Program Res α → Prop
  | ret _ => True
  | call o next => ∀ r, ¬ fails o r ∧ Reckless (next r)

/-- After a call that fails the program refuses, and after an effect none fails. -/
def FailFast : Program Res α → Prop
  | ret _ => True
  | call o next => ∀ r, (fails o r → ¬ effect o ∧ Refuses effect error (next r)) ∧
      (effect o → Reckless fails (next r)) ∧ FailFast (next r)

end Defs

variable {effect : Op → Prop} {fails : (o : Op) → Res o → Prop} {error : α → Prop}

theorem Refuses.mono {error' : α → Prop} {p : Program Res α} (h : p.Refuses effect error)
    (himp : ∀ a, error a → error' a) : p.Refuses effect error' := by
  induction p with
  | ret a => exact himp a h
  | call o next ih => exact ⟨h.1, fun r => ih r (h.2 r)⟩

theorem FailFast.mono {error' : α → Prop} {p : Program Res α}
    (h : p.FailFast effect fails error) (himp : ∀ a, error a → error' a) :
    p.FailFast effect fails error' := by
  induction p with
  | ret a => trivial
  | call o next ih =>
      intro r
      refine ⟨?_, (h r).2.1, ih r (h r).2.2⟩
      intro hfails
      exact ⟨((h r).1 hfails).1, ((h r).1 hfails).2.mono himp⟩

/-! ## Programs one after the other -/

theorem Refuses.bind {error : β → Prop} {p : Program Res α} {k : α → Program Res β}
    (h : p.Refuses effect fun a => (k a).Refuses effect error) :
    (p >>= k).Refuses effect error := by
  induction p with
  | ret a => exact h
  | call o next ih => exact ⟨h.1, fun r => ih r (h.2 r)⟩

theorem Reckless.bind {p : Program Res α} {k : α → Program Res β} (hp : p.Reckless fails)
    (hk : ∀ a, (k a).Reckless fails) : (p >>= k).Reckless fails := by
  induction p with
  | ret a => exact hk a
  | call o next ih =>
      intro r
      exact ⟨(hp r).1, ih r (hp r).2⟩

/-- No call that fails: nothing to give up for. -/
theorem Reckless.failFast {p : Program Res α} (h : p.Reckless fails) :
    p.FailFast effect fails error := by
  induction p with
  | ret a => trivial
  | call o next ih =>
      intro r
      refine ⟨?_, ?_, ih r (h r).2⟩
      · intro hfails
        exact absurd hfails (h r).1
      · intro _
        exact (h r).2

/-- A part without effects after whose failures the rest refuses. -/
theorem FailFast.bind {error : β → Prop} {p : Program Res α} {k : α → Program Res β}
    (hp : p.FailFast effect fails fun a => (k a).Refuses effect error)
    (hquiet : p.Refuses effect fun _ => True) (hk : ∀ a, (k a).FailFast effect fails error) :
    (p >>= k).FailFast effect fails error := by
  induction p with
  | ret a => exact hk a
  | call o next ih =>
      intro r
      refine ⟨?_, ?_, ih r (hp r).2.2 (hquiet.2 r)⟩
      · intro hfails
        exact ⟨hquiet.1, Refuses.bind ((hp r).1 hfails).2⟩
      · intro heffect
        exact absurd heffect hquiet.1

/-! ## Runs -/

section Runs

variable {F σ : Type} {E : Effects Res F σ}

theorem calls_of_refuses {p : Program Res α} (h : p.Refuses effect error) (plan : Plan F)
    (s : σ) : (∀ c ∈ p.calls E plan s, ¬ effect c.1) ∧ error (p.exec E plan s).1 := by
  induction p generalizing plan s with
  | ret a =>
      refine ⟨?_, h⟩
      intro c hc
      exact absurd hc List.not_mem_nil
  | call o next ih =>
      obtain ⟨hrest, herror⟩ :=
        ih (E.step o (plan 0) s).1 (h.2 _) plan.tail (E.step o (plan 0) s).2
      refine ⟨?_, herror⟩
      intro c hc
      rcases List.mem_cons.mp hc with rfl | hc
      · exact h.1
      · exact hrest c hc

theorem calls_of_reckless {p : Program Res α} (h : p.Reckless fails) (plan : Plan F) (s : σ) :
    ∀ c ∈ p.calls E plan s, ¬ fails c.1 c.2 := by
  induction p generalizing plan s with
  | ret a =>
      intro c hc
      exact absurd hc List.not_mem_nil
  | call o next ih =>
      intro c hc
      rcases List.mem_cons.mp hc with rfl | hc
      · exact (h _).1
      · exact ih _ (h _).2 plan.tail _ c hc

/-- A run with a call that fails has no effect and ends with an error. -/
theorem calls_of_failFast {p : Program Res α} (h : p.FailFast effect fails error)
    (plan : Plan F) (s : σ) (hfails : ∃ c ∈ p.calls E plan s, fails c.1 c.2) :
    (∀ c ∈ p.calls E plan s, ¬ effect c.1) ∧ error (p.exec E plan s).1 := by
  induction p generalizing plan s with
  | ret a =>
      obtain ⟨c, hc, -⟩ := hfails
      exact absurd hc List.not_mem_nil
  | call o next ih =>
      obtain ⟨hfail, heffect, hnext⟩ := h (E.step o (plan 0) s).1
      by_cases hnow : fails o (E.step o (plan 0) s).1
      · -- the first call fails
        obtain ⟨hquiet, hrefuses⟩ := hfail hnow
        obtain ⟨hrest, herror⟩ :=
          calls_of_refuses (E := E) hrefuses plan.tail (E.step o (plan 0) s).2
        refine ⟨?_, herror⟩
        intro c hc
        rcases List.mem_cons.mp hc with rfl | hc
        · exact hquiet
        · exact hrest c hc
      · -- a later one does, so the first has no effect
        obtain ⟨c, hc, hfails⟩ := hfails
        rcases List.mem_cons.mp hc with rfl | hc
        · exact absurd hfails hnow
        obtain ⟨hrest, herror⟩ :=
          ih (E.step o (plan 0) s).1 hnext plan.tail (E.step o (plan 0) s).2 ⟨c, hc, hfails⟩
        refine ⟨?_, herror⟩
        intro c' hc'
        rcases List.mem_cons.mp hc' with rfl | hc'
        · intro heff
          exact calls_of_reckless (heffect heff) plan.tail (E.step o (plan 0) s).2 c hc hfails
        · exact hrest c' hc'

end Runs

end Program

end BcmServer.Lts
