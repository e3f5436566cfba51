import Mathlib.Logic.Function.Basic
import Mathlib.Tactic.Common

/-!
# BcmServer.Util.Cells — a state per key

Much of the server keeps one small state for each key (a user, an API, a
channel), and a call names the key it is about. `answers` runs one such state
machine over a list of calls; `serve` runs a family of them. A call reaches the
state of its key and no other, so what the calls on one key are answered is what
they would be answered alone: `serve_at`.
-/

namespace BcmServer.Util.Cells

universe u v w x

section Answers

variable {σ : Type u} {α : Type v} {β : Type w} (f : σ → α → σ × β)

/-- What the calls are answered, from the state `s` on. -/
def answers : σ → List α → List β
  | _, [] => []
  | s, a :: as => (f s a).2 :: answers (f s a).1 as

/-- The state after the calls. -/
def after (s : σ) (as : List α) : σ := as.foldl (fun s a => (f s a).1) s

@[simp] theorem answers_nil (s : σ) : answers f s [] = [] := rfl

@[simp] theorem answers_cons (s : σ) (a : α) (as : List α) :
    answers f s (a :: as) = (f s a).2 :: answers f (f s a).1 as := rfl

@[simp] theorem after_nil (s : σ) : after f s [] = s := rfl

@[simp] theorem after_cons (s : σ) (a : α) (as : List α) :
    after f s (a :: as) = after f (f s a).1 as := rfl

/-- A cut of the answers is a cut of the calls. -/
theorem answers_eq_append {s : σ} {as : List α} {bs bs' : List β}
    (h : answers f s as = bs ++ bs') : ∃ as₁ as₂, as = as₁ ++ as₂ ∧
      answers f s as₁ = bs ∧ answers f (after f s as₁) as₂ = bs' := by
  induction bs generalizing s as with
  | nil => exact ⟨[], as, rfl, rfl, h⟩
  | cons b bs ih =>
      cases as with
      | nil => simp at h
      | cons a as =>
          rw [answers_cons, List.cons_append, List.cons.injEq] at h
          obtain ⟨as₁, as₂, rfl, h₁, h₂⟩ := ih h.2
          refine ⟨a :: as₁, as₂, rfl, ?_, h₂⟩
          rw [answers_cons, h₁, h.1]

/-- A machine that mirrors another, call by call and answer by answer. -/
theorem answers_map {τ : Type*} {α' : Type*} {γ : Type*} {g : τ → α' → τ × γ} (ψ : α → α')
    (φ : β → γ) (ok : α → Prop) (R : σ → τ → Prop)
    (hstep : ∀ s t a, R s t → ok a →
      R (f s a).1 (g t (ψ a)).1 ∧ (g t (ψ a)).2 = φ (f s a).2)
    {s : σ} {t : τ} (h : R s t) {as : List α} (hok : ∀ a ∈ as, ok a) :
    answers g t (as.map ψ) = (answers f s as).map φ := by
  induction as generalizing s t with
  | nil => rfl
  | cons a as ih =>
      obtain ⟨hR, hφ⟩ := hstep s t a h (hok a List.mem_cons_self)
      rw [List.map_cons, answers_cons, answers_cons, List.map_cons, hφ,
        ih hR fun b hb => hok b (List.mem_cons_of_mem a hb)]

end Answers

section Serve

variable {κ : Type u} [DecidableEq κ] {σ : Type v} {α : Type w} {β : Type x}
  (f : κ → σ → α → σ × β)

/-- A call goes to the state of its key. -/
def serveStep (m : κ → σ) (c : κ × α) : (κ → σ) × (κ × β) :=
  (Function.update m c.1 (f c.1 (m c.1) c.2).1, (c.1, (f c.1 (m c.1) c.2).2))

/-- What a family of states answers, each answer with its key. -/
def serve (m : κ → σ) (cs : List (κ × α)) : List (κ × β) := answers (serveStep f) m cs

/-- The calls on one key. -/
def onKey {γ : Type*} (k : κ) (cs : List (κ × γ)) : List γ :=
  (cs.filter fun c => c.1 = k).map Prod.snd

@[simp] theorem onKey_nil {γ : Type*} (k : κ) : onKey k ([] : List (κ × γ)) = [] := rfl

@[simp] theorem onKey_cons_self {γ : Type*} (k : κ) (a : γ) (cs : List (κ × γ)) :
    onKey k ((k, a) :: cs) = a :: onKey k cs := by
  simp [onKey]

@[simp] theorem onKey_cons_ne {γ : Type*} {k j : κ} (h : j ≠ k) (a : γ) (cs : List (κ × γ)) :
    onKey k ((j, a) :: cs) = onKey k cs := by
  simp [onKey, h]

/-- A key is served as if its calls were the only ones. -/
theorem serve_at (m : κ → σ) (cs : List (κ × α)) (k : κ) :
    onKey k (serve f m cs) = answers (f k) (m k) (onKey k cs) := by
  induction cs generalizing m with
  | nil => rfl
  | cons c cs ih =>
      obtain ⟨j, a⟩ := c
      have hstep : serve f m ((j, a) :: cs) =
          (j, (f j (m j) a).2) :: serve f (Function.update m j (f j (m j) a).1) cs := rfl
      rw [hstep]
      by_cases hj : j = k
      · subst hj
        rw [onKey_cons_self, onKey_cons_self, ih, Function.update_self, answers_cons]
      · rw [onKey_cons_ne hj, onKey_cons_ne hj, ih, Function.update_of_ne (Ne.symm hj)]

theorem serve_keys (m : κ → σ) (cs : List (κ × α)) :
    (serve f m cs).map Prod.fst = cs.map Prod.fst := by
  induction cs generalizing m with
  | nil => rfl
  | cons c cs ih =>
      have hstep : serve f m (c :: cs) =
          (c.1, (f c.1 (m c.1) c.2).2) :: serve f (serveStep f m c).1 cs := rfl
      rw [hstep, List.map_cons, List.map_cons, ih]

/-- Calls on the other keys make no difference. -/
theorem onKey_filter {γ : Type*} (k : κ) (cs : List (κ × γ)) :
    onKey k (cs.filter fun c => c.1 = k) = onKey k cs := by
  simp [onKey, List.filter_filter]

end Serve

end BcmServer.Util.Cells
