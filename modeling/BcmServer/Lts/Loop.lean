import Mathlib.Tactic.Common

/-!
# BcmServer.Lts.Loop — loops that need not end

A round of a loop says whether the loop is left, and with which state. `Exits s t`
says that the loop that is entered with `s` is left with `t`.

* `exits_post`: what holds when the loop is left, from an invariant of its rounds.
* `ends_of_rank`: a loop is left if its rounds lower a number.
* `not_ends`: a loop is never left if an invariant forbids it in every round.
-/

namespace BcmServer.Lts

universe u

variable {σ : Type u} (round : σ → Bool × σ)

/-- So many rounds at most -/
def loop : ℕ → σ → Option σ
  | 0, _ => none
  | n + 1, s => if (round s).1 then some (round s).2 else loop n (round s).2

/-- The loop is left with `t`. -/
def Exits (s t : σ) : Prop := ∃ n, loop round n s = some t

/-- The loop is left. -/
def Ends (s : σ) : Prop := ∃ t, Exits round s t

variable {round} {s t u : σ}

theorem exits_of_left (h : (round s).1 = true) : Exits round s (round s).2 :=
  ⟨1, by rw [loop, if_pos h]⟩

theorem exits_next_iff (h : (round s).1 = false) :
    Exits round s t ↔ Exits round (round s).2 t := by
  constructor
  · rintro ⟨n, hn⟩
    cases n with
    | zero => cases hn
    | succ n =>
        rw [loop, h, if_neg Bool.false_ne_true] at hn
        exact ⟨n, hn⟩
  · rintro ⟨n, hn⟩
    exact ⟨n + 1, by rw [loop, h, if_neg Bool.false_ne_true, hn]⟩

theorem ends_of_left (h : (round s).1 = true) : Ends round s := ⟨_, exits_of_left h⟩

theorem ends_next_iff (h : (round s).1 = false) : Ends round s ↔ Ends round (round s).2 :=
  exists_congr fun _ => exits_next_iff h

/-- A loop is left with one state. -/
theorem exits_unique (ht : Exits round s t) (hu : Exits round s u) : t = u := by
  obtain ⟨n, hn⟩ := ht
  induction n generalizing s with
  | zero => cases hn
  | succ n ih =>
      rw [loop] at hn
      cases hleft : (round s).1 with
      | true =>
          obtain ⟨m, hm⟩ := hu
          cases m with
          | zero => cases hm
          | succ m =>
              rw [hleft, if_pos rfl] at hn
              rw [loop, hleft, if_pos rfl] at hm
              rw [← Option.some.inj hn, Option.some.inj hm]
      | false =>
          rw [hleft, if_neg Bool.false_ne_true] at hn
          exact ih ((exits_next_iff hleft).mp hu) hn

/-- What holds at the entry, and is preserved by every round that stays in the loop, holds before
the round that leaves it. -/
theorem exits_post (inv post : σ → Prop)
    (hstep : ∀ s, inv s → (round s).1 = false → inv (round s).2)
    (hpost : ∀ s, inv s → (round s).1 = true → post (round s).2) (hs : inv s)
    (h : Exits round s t) : post t := by
  obtain ⟨n, hn⟩ := h
  induction n generalizing s with
  | zero => cases hn
  | succ n ih =>
      rw [loop] at hn
      cases hleft : (round s).1 with
      | true =>
          rw [hleft, if_pos rfl] at hn
          exact Option.some.inj hn ▸ hpost s hs hleft
      | false =>
          rw [hleft, if_neg Bool.false_ne_true] at hn
          exact ih (hstep s hs hleft) hn

/-- Rounds that stay in the loop lower a number as long as an invariant holds. -/
theorem ends_of_rank (inv : σ → Prop) (rank : σ → ℕ)
    (hstep : ∀ s, inv s → (round s).1 = false → inv (round s).2 ∧ rank (round s).2 < rank s)
    (hs : inv s) : Ends round s := by
  induction hn : rank s using Nat.strongRecOn generalizing s with
  | ind n ih =>
      cases hleft : (round s).1 with
      | true => exact ends_of_left hleft
      | false =>
          obtain ⟨hinv, hlt⟩ := hstep s hs hleft
          exact (ends_next_iff hleft).mpr (ih _ (hn ▸ hlt) hinv rfl)

/-- A loop that no round of an invariant leaves -/
theorem not_ends {inv : σ → Prop} (hstep : ∀ s, inv s → (round s).1 = false ∧ inv (round s).2)
    (hs : inv s) : ¬ Ends round s := by
  rintro ⟨t, n, hn⟩
  induction n generalizing s with
  | zero => cases hn
  | succ n ih =>
      obtain ⟨hleft, hinv⟩ := hstep s hs
      rw [loop, hleft, if_neg Bool.false_ne_true] at hn
      exact ih hinv hn

end BcmServer.Lts
