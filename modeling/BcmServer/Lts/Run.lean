import Mathlib.Tactic.Common

/-!
# BcmServer.Lts.Run — runs of an executable transition system

The specifications of this development are labelled transition systems whose
step is a partial *function*: a label fixes everything that is left open (which
call is scheduled, what the environment answers), so a run is a list of labels
and a concrete run can be evaluated.

* `Machine.run` folds the step over a list of labels; `none` means that some
  label was not enabled.
* `Machine.Meets ok` says that every step of a run is taken in a state in which
  `ok` allows its label. It is how a condition on the schedule or on the
  environment is stated: on the state *before* each step.
* `run_invariant` is the induction rule: an invariant that every allowed step
  preserves holds at the end of every run that meets the condition (and, a
  prefix of a run being a run, at every state of it).
* `run_broken` is its converse: what one forbidden step spoils for good.
* `run_occurs` reads it backwards: what has been lost was lost by a step of the
  kind that can break it (`Occurs`).
* `run_extends` is the progress rule: if the runs that meet the condition are
  bounded and every unfinished state has an allowed step, every such run
  extends to a finished one.
-/

namespace BcmServer.Lts

universe u v

/-- A labelled transition system with a partial, executable step. -/
structure Machine (σ : Type u) (α : Type v) where
  step : σ → α → Option σ

namespace Machine

variable {σ : Type u} {α : Type v} (M : Machine σ α)

/-- The state reached along a list of labels. -/
def run : σ → List α → Option σ
  | s, [] => some s
  | s, a :: as => (M.step s a).bind fun t => run t as

/-- Every step along the labels is taken in a state where `ok` allows it. -/
def Meets (ok : σ → α → Prop) : σ → List α → Prop
  | _, [] => True
  | s, a :: as => ok s a ∧
      match M.step s a with
      | none => True
      | some t => Meets ok t as

instance Meets.decidable (ok : σ → α → Prop) [∀ s a, Decidable (ok s a)] :
    ∀ (s : σ) (as : List α), Decidable (M.Meets ok s as)
  | _, [] => inferInstanceAs (Decidable True)
  | s, a :: as =>
    have : Decidable (match M.step s a with
        | none => True
        | some t => M.Meets ok t as) :=
      match M.step s a with
      | none => inferInstanceAs (Decidable True)
      | some t => Meets.decidable ok t as
    inferInstanceAs (Decidable (_ ∧ _))

@[simp] theorem run_nil (s : σ) : M.run s [] = some s := rfl

theorem run_cons_eq_some {s t : σ} {a : α} {as : List α} :
    M.run s (a :: as) = some t ↔ ∃ u, M.step s a = some u ∧ M.run u as = some t := by
  simp [run, Option.bind_eq_some_iff]

theorem run_append {s t : σ} {as bs : List α} (h : M.run s as = some t) :
    M.run s (as ++ bs) = M.run t bs := by
  induction as generalizing s with
  | nil =>
      rw [run_nil, Option.some.injEq] at h
      rw [h, List.nil_append]
  | cons a as ih =>
      obtain ⟨u, hu, hrun⟩ := M.run_cons_eq_some.mp h
      simp only [List.cons_append, run, hu, Option.bind_some]
      exact ih hrun

@[simp] theorem meets_nil (ok : σ → α → Prop) (s : σ) : M.Meets ok s [] := trivial

theorem meets_cons {ok : σ → α → Prop} {s u : σ} {a : α} {as : List α}
    (hu : M.step s a = some u) :
    M.Meets ok s (a :: as) ↔ ok s a ∧ M.Meets ok u as := by
  simp [Meets, hu]

theorem meets_append {ok : σ → α → Prop} {s t : σ} {as bs : List α}
    (h : M.run s as = some t) :
    M.Meets ok s (as ++ bs) ↔ M.Meets ok s as ∧ M.Meets ok t bs := by
  induction as generalizing s with
  | nil =>
      rw [run_nil, Option.some.injEq] at h
      simp [h]
  | cons a as ih =>
      obtain ⟨u, hu, hrun⟩ := M.run_cons_eq_some.mp h
      rw [List.cons_append, M.meets_cons hu, M.meets_cons hu, ih hrun, and_assoc]

theorem meets_of_forall {ok : σ → α → Prop} (h : ∀ s a, ok s a) (s : σ) (as : List α) :
    M.Meets ok s as := by
  induction as generalizing s with
  | nil => trivial
  | cons a as ih =>
      refine ⟨h s a, ?_⟩
      cases M.step s a with
      | none => trivial
      | some t => exact ih t

/-- A condition on the labels alone. -/
theorem meets_of_mem {P : α → Prop} {as : List α} (h : ∀ a ∈ as, P a) (s : σ) :
    M.Meets (fun _ a => P a) s as := by
  induction as generalizing s with
  | nil => trivial
  | cons a as ih =>
      refine ⟨h a List.mem_cons_self, ?_⟩
      cases M.step s a with
      | none => trivial
      | some t => exact ih (fun b hb => h b (List.mem_cons_of_mem a hb)) t

theorem meets_mono {ok ok' : σ → α → Prop} (h : ∀ s a, ok s a → ok' s a) {s : σ} {as : List α}
    (hok : M.Meets ok s as) : M.Meets ok' s as := by
  induction as generalizing s with
  | nil => trivial
  | cons a as ih =>
      refine ⟨h s a hok.1, ?_⟩
      have hrest := hok.2
      cases hu : M.step s a with
      | none => trivial
      | some t =>
          rw [hu] at hrest
          exact ih hrest

theorem meets_and {ok ok' : σ → α → Prop} {s : σ} {as : List α} (h : M.Meets ok s as)
    (h' : M.Meets ok' s as) : M.Meets (fun s a => ok s a ∧ ok' s a) s as := by
  induction as generalizing s with
  | nil => trivial
  | cons a as ih =>
      refine ⟨⟨h.1, h'.1⟩, ?_⟩
      have hrest := h.2
      have hrest' := h'.2
      cases hu : M.step s a with
      | none => trivial
      | some t =>
          rw [hu] at hrest hrest'
          exact ih hrest hrest'

/-! ## Invariants -/

/-- Invariant induction along a run that meets a condition. -/
theorem run_invariant {ok : σ → α → Prop} (inv : σ → Prop)
    (hstep : ∀ s a t, inv s → ok s a → M.step s a = some t → inv t)
    {s t : σ} {as : List α} (hs : inv s) (hok : M.Meets ok s as)
    (hrun : M.run s as = some t) : inv t := by
  induction as generalizing s with
  | nil =>
      rw [run_nil, Option.some.injEq] at hrun
      rwa [← hrun]
  | cons a as ih =>
      obtain ⟨u, hu, hrun'⟩ := M.run_cons_eq_some.mp hrun
      obtain ⟨hoka, hok'⟩ := (M.meets_cons hu).mp hok
      exact ih (hstep s a u hs hoka hu) hok' hrun'

/-- A run with a step that breaks the condition ends in a bad state, if such a
step leads to one and no step leads out of them. -/
theorem run_broken {ok : σ → α → Prop} (inv bad : σ → Prop)
    (hinv : ∀ s a t, inv s → M.step s a = some t → inv t)
    (hbad : ∀ s a t, bad s → M.step s a = some t → bad t)
    (hbreak : ∀ s a t, inv s → ¬ ok s a → M.step s a = some t → bad t)
    {s t : σ} {as : List α} (hs : inv s) (hrun : M.run s as = some t)
    (hnot : ¬ M.Meets ok s as) : bad t := by
  induction as generalizing s with
  | nil => exact absurd trivial hnot
  | cons a as ih =>
      obtain ⟨u, hu, hrun'⟩ := M.run_cons_eq_some.mp hrun
      by_cases hoka : ok s a
      · refine ih (hinv s a u hs hu) hrun' fun hmeets => hnot ?_
        exact (M.meets_cons hu).mpr ⟨hoka, hmeets⟩
      · refine M.run_invariant bad ?_ (hbreak s a u hs hoka hu)
          (M.meets_of_forall (fun _ _ => trivial) u as) hrun'
        intro s a t hs _ hstep
        exact hbad s a t hs hstep

/-- A run along which `rank` drops at every step is no longer than the rank of
its first state. -/
theorem length_le_rank {ok : σ → α → Prop} (inv : σ → Prop) (rank : σ → ℕ)
    (hstep : ∀ s a t, inv s → ok s a → M.step s a = some t → inv t ∧ rank t < rank s)
    {s t : σ} {as : List α} (hs : inv s) (hok : M.Meets ok s as)
    (hrun : M.run s as = some t) : as.length ≤ rank s := by
  induction as generalizing s with
  | nil => simp
  | cons a as ih =>
      obtain ⟨u, hu, hrun'⟩ := M.run_cons_eq_some.mp hrun
      obtain ⟨hoka, hok'⟩ := (M.meets_cons hu).mp hok
      obtain ⟨hinv, hlt⟩ := hstep s a u hs hoka hu
      have hle : as.length ≤ rank u := ih hinv hok' hrun'
      simp only [List.length_cons]
      omega

/-! ## What must have happened -/

/-- Some step along the labels is taken in a state where `P` holds of it. -/
def Occurs (P : σ → α → Prop) : σ → List α → Prop
  | _, [] => False
  | s, a :: as => P s a ∨
      match M.step s a with
      | none => False
      | some t => Occurs P t as

theorem occurs_cons {P : σ → α → Prop} {s u : σ} {a : α} {as : List α}
    (hu : M.step s a = some u) : M.Occurs P s (a :: as) ↔ P s a ∨ M.Occurs P u as := by
  simp [Occurs, hu]

theorem occurs_mono {P P' : σ → α → Prop} (h : ∀ s a, P s a → P' s a) {s : σ} {as : List α}
    (hP : M.Occurs P s as) : M.Occurs P' s as := by
  induction as generalizing s with
  | nil => exact hP
  | cons a as ih =>
      rcases hP with hP | hrest
      · exact Or.inl (h s a hP)
      · right
        cases hu : M.step s a with
        | none =>
            rw [hu] at hrest
            exact hrest
        | some t =>
            rw [hu] at hrest
            exact ih hrest

/-- What holds at the beginning of a run and not at its end was broken by a step. -/
theorem run_occurs {ok P : σ → α → Prop} (inv : σ → Prop)
    (hstep : ∀ s a t, inv s → ok s a → M.step s a = some t → ¬ P s a → inv t)
    {s t : σ} {as : List α} (hs : inv s) (hok : M.Meets ok s as)
    (hrun : M.run s as = some t) (ht : ¬ inv t) : M.Occurs P s as := by
  induction as generalizing s with
  | nil =>
      rw [run_nil, Option.some.injEq] at hrun
      rw [hrun] at hs
      exact absurd hs ht
  | cons a as ih =>
      obtain ⟨u, hu, hrun'⟩ := M.run_cons_eq_some.mp hrun
      obtain ⟨hoka, hok'⟩ := (M.meets_cons hu).mp hok
      rw [M.occurs_cons hu]
      by_cases hP : P s a
      · exact Or.inl hP
      · exact Or.inr (ih (hstep s a u hs hoka hu hP) hok' hrun')

/-! ## Progress -/

theorem run_snoc {s t u : σ} {as : List α} {a : α} (hrun : M.run s as = some t)
    (hu : M.step t a = some u) : M.run s (as ++ [a]) = some u := by
  rw [M.run_append hrun, M.run_cons_eq_some]
  exact ⟨u, hu, rfl⟩

theorem meets_snoc {ok : σ → α → Prop} {s t u : σ} {as : List α} {a : α}
    (hrun : M.run s as = some t) (hok : M.Meets ok s as) (hoka : ok t a)
    (hu : M.step t a = some u) : M.Meets ok s (as ++ [a]) :=
  (M.meets_append hrun).mpr ⟨hok, (M.meets_cons hu).mpr ⟨hoka, trivial⟩⟩

/-- If the runs from `s` that meet `ok` are bounded in length and every
unfinished state they reach allows another step, each of them extends to a
finished state. -/
theorem run_extends {ok : σ → α → Prop} (finished : σ → Prop) {s : σ}
    (hbound : ∃ n, ∀ as t, M.run s as = some t → M.Meets ok s as → as.length ≤ n)
    (hprogress : ∀ as t, M.run s as = some t → M.Meets ok s as → ¬ finished t →
      ∃ a, ok t a ∧ (M.step t a).isSome)
    {as : List α} {t : σ} (hrun : M.run s as = some t) (hok : M.Meets ok s as) :
    ∃ bs u, M.run t bs = some u ∧ M.Meets ok t bs ∧ finished u := by
  obtain ⟨n, hn⟩ := hbound
  -- induction on the room the bound leaves after `as`
  generalize hk : n - as.length = k
  induction k generalizing as t with
  | zero =>
      by_cases hfin : finished t
      · exact ⟨[], t, rfl, trivial, hfin⟩
      · exfalso
        obtain ⟨a, hoka, hsome⟩ := hprogress as t hrun hok hfin
        obtain ⟨u, hu⟩ := Option.isSome_iff_exists.mp hsome
        have hlen := hn _ _ (M.run_snoc hrun hu) (M.meets_snoc hrun hok hoka hu)
        rw [List.length_append, List.length_singleton] at hlen
        omega
  | succ k ih =>
      by_cases hfin : finished t
      · exact ⟨[], t, rfl, trivial, hfin⟩
      · obtain ⟨a, hoka, hsome⟩ := hprogress as t hrun hok hfin
        obtain ⟨u, hu⟩ := Option.isSome_iff_exists.mp hsome
        have hk' : n - (as ++ [a]).length = k := by
          rw [List.length_append, List.length_singleton]
          omega
        obtain ⟨bs, w, hbs, hmeets, hfin'⟩ :=
          ih (M.run_snoc hrun hu) (M.meets_snoc hrun hok hoka hu) hk'
        refine ⟨a :: bs, w, ?_, ?_, hfin'⟩
        · exact M.run_cons_eq_some.mpr ⟨u, hu, hbs⟩
        · exact (M.meets_cons hu).mpr ⟨hoka, hmeets⟩

end Machine

end BcmServer.Lts
