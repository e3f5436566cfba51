import Mathlib.Data.List.Induction
import Mathlib.Tactic.Common

/-!
# BcmServer.Offline.MemberReplay — following the events of one user

What a cache that follows group events has to get right for a single user of a
single group. The database has an entry for the user or none; every change of it
is followed by an event; the cache handles the events in their order, reading
the database where a handler does, at its *present* state.

* `History b es d`: the changes with the events `es` lead the database from `b`
  to `d`.
* `Settles c es d`: handling `es` from the cached entry `c`, while the database
  stays at `d`, ends with `d`.

`settles_change` is the main rule: a further change keeps a cache settled, for
its event is now one of those to come. `settles_fresh` says that a cache that
has just been read from the database is settled whatever events are still to
come, and `settles_absent` that one without the user is, when the user was
absent before those events.
-/

namespace BcmServer.Offline

/-- What is cached of a user: in which of the two sets, and whether muted. -/
structure Entry where
  subscriber : Bool
  muted : Bool
deriving DecidableEq, Repr

/-- The events that `OfflineServiceImpl::handleEvent` processes. -/
inductive GroupEventType where
  | enter
  | leave
  | mute
  | unmute
deriving DecidableEq, Repr

namespace Entry

/-- A handler run as a whole: an entering user is read again, and a user who is
not cached makes the others reload. -/
def handle (c : Option Entry) (e : GroupEventType) (d : Option Entry) : Option Entry :=
  match e with
  | .enter =>
      match d with
      | none => c
      | some x => some ⟨x.subscriber, x.muted || c.any Entry.muted⟩
  | .leave => if c.isSome then none else d
  | .mute => if c.isSome then c.map fun x => ⟨x.subscriber, true⟩ else d
  | .unmute => if c.isSome then c.map fun x => ⟨x.subscriber, false⟩ else d

/-- The handlers of the events, one after the other. -/
def replay (c : Option Entry) (es : List GroupEventType) (d : Option Entry) : Option Entry :=
  es.foldl (fun c e => handle c e d) c

def Settles (c : Option Entry) (es : List GroupEventType) (d : Option Entry) : Prop :=
  replay c es d = d

/-- What a change of the database may do for its event to say it: a user who
enters is not unmuted by it. -/
def Change (d : Option Entry) (e : GroupEventType) (d' : Option Entry) : Prop :=
  match e with
  | .enter => ∃ x', d' = some x' ∧ ∀ x ∈ d, x.muted = true → x'.muted = true
  | .leave => d.isSome ∧ d' = none
  | .mute => ∃ x, d = some x ∧ d' = some ⟨x.subscriber, true⟩
  | .unmute => ∃ x, d = some x ∧ d' = some ⟨x.subscriber, false⟩

/-- The changes with the events `es` lead from `b` to `d`. -/
def History : Option Entry → List GroupEventType → Option Entry → Prop
  | b, [], d => b = d
  | b, e :: es, d => ∃ b', Change b e b' ∧ History b' es d

variable {b c c' d d' : Option Entry} {e : GroupEventType} {es : List GroupEventType}

theorem replay_snoc : replay c (es ++ [e]) d = handle (replay c es d) e d := by
  simp [replay]

theorem history_snoc : History b (es ++ [e]) d' ↔ ∃ d, History b es d ∧ Change d e d' := by
  induction es generalizing b with
  | nil => simp [History]
  | cons a es ih =>
      simp only [List.cons_append, History, ih]
      constructor
      · rintro ⟨b', hb, d, hes, hch⟩
        exact ⟨d, ⟨b', hb, hes⟩, hch⟩
      · rintro ⟨d, ⟨b', hb, hes⟩, hch⟩
        exact ⟨b', hb, d, hes, hch⟩

/-- Absence is the work of a leave. -/
theorem History.last_of_none (h : History b es none) : es = [] ∨ ∃ es', es = es' ++ [.leave] := by
  rcases List.eq_nil_or_concat es with rfl | ⟨es', e, rfl⟩
  · exact Or.inl rfl
  · right
    rw [List.concat_eq_append] at h ⊢
    obtain ⟨d, -, hch⟩ := history_snoc.mp h
    cases e <;> simp [Change] at hch
    exact ⟨es', rfl⟩

/-! ## Which part of the database a replay depends on -/

/-- The side of the subscribers a replay ends on depends on that of the entries
alone. -/
theorem replay_subscriber (hc : c.map subscriber = c'.map subscriber)
    (hd : d.map subscriber = d'.map subscriber) :
    (replay c es d).map subscriber = (replay c' es d').map subscriber := by
  induction es generalizing c c' with
  | nil => exact hc
  | cons a es ih =>
      refine ih ?_
      cases a <;> cases c <;> cases c' <;> cases d <;> cases d' <;>
        simp_all [handle]

/-- The muted bit a replay ends with depends on those of the entries alone. -/
theorem replay_muted (hc : c.map muted = c'.map muted) (hd : d.map muted = d'.map muted) :
    (replay c es d).map muted = (replay c' es d').map muted := by
  induction es generalizing c c' with
  | nil => exact hc
  | cons a es ih =>
      refine ih ?_
      cases a <;> cases c <;> cases c' <;> cases d <;> cases d' <;>
        simp_all [handle]

/-! ## Settled caches -/

/-- The last event repairs what the earlier ones leave behind. -/
theorem handle_change {x : Option Entry} (hch : Change d e d')
    (hsub : d.map subscriber = d'.map subscriber → x.map subscriber = d.map subscriber)
    (hmuted : d.map muted = d'.map muted → x.map muted = d.map muted)
    (habsent : d = none → x.map muted = none ∨ x.map muted = d'.map muted) :
    handle x e d' = d' := by
  cases e with
  | enter =>
      obtain ⟨x', rfl, hkeep⟩ := hch
      cases d with
      | none =>
          rcases habsent rfl with h | h
          · rw [Option.map_eq_none_iff] at h
            simp [handle, h]
          · cases x <;> simp_all [handle]
      | some y =>
          -- the muted bit may be set by entering, not taken away
          by_cases hm : x'.muted = true
          · simp only [handle, hm, Bool.true_or]
            rw [← hm]
          · have hy : y.muted = x'.muted := by
              rcases hym : y.muted with _ | _
              · simp [Bool.eq_false_iff.mpr hm]
              · exact absurd (hkeep y rfl hym) hm
            have hx := hmuted (by simp [hy])
            have hany : x.any Entry.muted = false := by
              cases x <;> simp_all
            simp [handle, hany]
  | leave =>
      obtain ⟨-, rfl⟩ := hch
      simp [handle]
  | mute =>
      obtain ⟨y, rfl, rfl⟩ := hch
      have hx := hsub rfl
      cases x <;> simp_all [handle]
  | unmute =>
      obtain ⟨y, rfl, rfl⟩ := hch
      have hx := hsub rfl
      cases x <;> simp_all [handle]

/-- After a leave a replay has nothing that the database does not have. -/
theorem replay_of_last_leave (d' : Option Entry) (h : History b es none) :
    replay c es d' = c ∧ es = [] ∨ replay c es d' = none ∨ replay c es d' = d' := by
  rcases h.last_of_none with rfl | ⟨es', rfl⟩
  · exact Or.inl ⟨rfl, rfl⟩
  · right
    rw [replay_snoc]
    unfold handle
    cases (replay c es' d').isSome
    · exact Or.inr rfl
    · exact Or.inl rfl

/-- A change keeps a cache settled: its event is to come. -/
theorem settles_change (h : Settles c es d) (hist : History b es d) (hch : Change d e d') :
    Settles c (es ++ [e]) d' := by
  unfold Settles at h ⊢
  rw [replay_snoc]
  refine handle_change hch ?_ ?_ ?_
  · intro hd
    rw [replay_subscriber rfl hd.symm, h]
  · intro hd
    rw [replay_muted rfl hd.symm, h]
  · -- the user was absent, so a leave came last or nothing is to come
    rintro rfl
    rcases replay_of_last_leave d' hist with ⟨hr, rfl⟩ | hr | hr
    · left
      rw [hr, show c = none from h]
      rfl
    · exact Or.inl (by rw [hr]; rfl)
    · exact Or.inr (by rw [hr])

/-- What has just been read from the database is settled, whichever of the
changes it shows have still to be handled. -/
theorem settles_fresh (hist : History b es d) : Settles d es d := by
  induction es using List.reverseRecOn generalizing d with
  | nil => rfl
  | append_singleton es e ih =>
      obtain ⟨d₀, hist, hch⟩ := history_snoc.mp hist
      have h : replay d₀ es d₀ = d₀ := ih hist
      unfold Settles
      rw [replay_snoc]
      refine handle_change hch ?_ ?_ ?_
      · intro hd
        rw [replay_subscriber hd.symm hd.symm, h]
      · intro hd
        rw [replay_muted hd.symm hd.symm, h]
      · rintro rfl
        rcases replay_of_last_leave d hist with ⟨hr, -⟩ | hr | hr
        · exact Or.inr (by rw [hr])
        · exact Or.inl (by rw [hr]; rfl)
        · exact Or.inr (by rw [hr])

/-- A cache without the user is settled if the user was absent before the
events. -/
theorem settles_absent (hist : History none es d) : Settles none es d := by
  induction es using List.reverseRecOn generalizing d with
  | nil => exact hist
  | append_singleton es e ih =>
      obtain ⟨d₀, hist, hch⟩ := history_snoc.mp hist
      exact settles_change (ih hist) hist hch

/-- While the user is absent nothing puts one into the cache. -/
theorem settles_none : Settles none es none := by
  unfold Settles
  induction es with
  | nil => rfl
  | cons e es ih =>
      have hstep : handle none e none = none := by
        cases e <;> rfl
      show replay (handle none e none) es none = none
      rw [hstep]
      exact ih

end Entry

/-! ## The users of a group -/

section Group

open Entry

variable {υ : Type*} [DecidableEq υ]

/-- The events of a user, in their order. -/
def ofUser (uid : υ) (q : List (υ × GroupEventType)) : List GroupEventType :=
  (q.filter fun x => x.1 = uid).map Prod.snd

/-- The events `q` of a group are still to be handled: for every user they are
what happened in the database, and if the cache is `known` to follow the group
it settles. -/
structure Tracks (q : List (υ × GroupEventType)) (c d : υ → Option Entry) (known : Prop) :
    Prop where
  history : ∀ uid, ∃ b, History b (ofUser uid q) (d uid)
  settled : known → ∀ uid, Settles (c uid) (ofUser uid q) (d uid)

variable {q q' q₁ q₂ : List (υ × GroupEventType)} {c c' d d' : υ → Option Entry}
  {known known' : Prop} {uid u : υ} {e : GroupEventType} {x : Option Entry}

theorem ofUser_append : ofUser u (q ++ q') = ofUser u q ++ ofUser u q' := by
  simp [ofUser]

theorem ofUser_cons :
    ofUser u ((uid, e) :: q) = if uid = u then e :: ofUser u q else ofUser u q := by
  by_cases hu : uid = u <;> simp [ofUser, hu]

theorem ofUser_eq_nil (h : ∀ y ∈ q, y.1 ≠ u) : ofUser u q = [] := by
  simp only [ofUser, List.map_eq_nil_iff, List.filter_eq_nil_iff]
  intro y hy
  simpa using h y hy

/-- An event may come before those of other users. -/
theorem ofUser_middle (h : ∀ y ∈ q₁, y.1 ≠ uid) :
    ofUser u ((uid, e) :: (q₁ ++ q₂)) = ofUser u (q₁ ++ (uid, e) :: q₂) := by
  rw [ofUser_cons, ofUser_append, ofUser_append, ofUser_cons]
  by_cases hu : uid = u
  · subst hu
    rw [ofUser_eq_nil h]
    simp
  · simp [hu]

theorem Tracks.weaken (h : Tracks q c d known) (hk : known' → known) : Tracks q c d known' :=
  ⟨h.history, fun hk' => h.settled (hk hk')⟩

theorem Tracks.congr (h : Tracks q c d known) (hq : ∀ u, ofUser u q' = ofUser u q) :
    Tracks q' c d known where
  history u := by rw [hq u]; exact h.history u
  settled hk u := by rw [hq u]; exact h.settled hk u

theorem Tracks.change (h : Tracks q c d known) (hch : Change (d uid) e x)
    (hd : ∀ u, d' u = if u = uid then x else d u) : Tracks (q ++ [(uid, e)]) c d' known where
  history u := by
    obtain ⟨b, hb⟩ := h.history u
    rw [ofUser_append, ofUser_cons, hd u]
    by_cases hu : u = uid
    · subst hu
      refine ⟨b, ?_⟩
      simp only [if_true]
      exact history_snoc.mpr ⟨d u, hb, hch⟩
    · exact ⟨b, by simpa [Ne.symm hu, hu, ofUser] using hb⟩
  settled hk u := by
    obtain ⟨b, hb⟩ := h.history u
    have hs := h.settled hk u
    rw [ofUser_append, ofUser_cons, hd u]
    by_cases hu : u = uid
    · subst hu
      simp only [if_true]
      exact settles_change hs hb hch
    · simpa [Ne.symm hu, hu, ofUser] using hs

/-- The first event leaves a history behind. -/
theorem Tracks.tail_history (h : Tracks ((uid, e) :: q) c d known) (u : υ) :
    ∃ b, History b (ofUser u q) (d u) := by
  obtain ⟨b, hb⟩ := h.history u
  rw [ofUser_cons] at hb
  split at hb
  · obtain ⟨b', -, hb'⟩ := hb
    exact ⟨b', hb'⟩
  · exact ⟨b, hb⟩

theorem Tracks.handled (h : Tracks ((uid, e) :: q) c d known)
    (hc : ∀ u, c' u = if u = uid then handle (c uid) e (d uid) else c u) : Tracks q c' d known where
  history := h.tail_history
  settled hk u := by
    have hs := h.settled hk u
    rw [ofUser_cons] at hs
    rw [hc u]
    by_cases hu : u = uid
    · subst hu
      simpa [Settles, replay] using hs
    · simpa [Ne.symm hu, hu] using hs

/-- A handler may give up on a user who is neither cached nor there. -/
theorem Tracks.skipped (h : Tracks ((uid, e) :: q) c d known) (hc : c uid = none)
    (he : e = .leave ∨ d uid = none) : Tracks q c d known where
  history := h.tail_history
  settled hk u := by
    by_cases hu : u = uid
    · subst hu
      rw [hc]
      rcases he with rfl | hd
      · obtain ⟨b, hb⟩ := h.history u
        rw [ofUser_cons, if_pos rfl] at hb
        obtain ⟨b', ⟨-, rfl⟩, hb'⟩ := hb
        exact settles_absent hb'
      · rw [hd]
        exact settles_none
    · have hs := h.settled hk u
      rwa [ofUser_cons, if_neg (Ne.symm hu)] at hs

/-- The first event of a user may be dropped while nobody relies on the cache. -/
theorem Tracks.dropped (h : Tracks (q₁ ++ (uid, e) :: q₂) c d known)
    (hfirst : ∀ y ∈ q₁, y.1 ≠ uid) (hk : ¬ known) : Tracks (q₁ ++ q₂) c d known where
  history := (h.congr fun _ => ofUser_middle hfirst).tail_history
  settled hk' := absurd hk' hk

theorem Tracks.dropped_head (h : Tracks ((uid, e) :: q) c d known) (hk : ¬ known) :
    Tracks q c d known := by
  have h' : Tracks ([] ++ (uid, e) :: q) c d known := h
  exact h'.dropped (by simp) hk

/-- What has just been read may be relied on. -/
theorem Tracks.fresh (h : Tracks q c d known) (hc : ∀ u, c' u = d u) : Tracks q c' d known' where
  history := h.history
  settled _ u := by
    obtain ⟨b, hb⟩ := h.history u
    rw [hc u]
    exact settles_fresh hb

/-- When all events are handled the cache shows the database. -/
theorem Tracks.agree (h : Tracks [] c d known) (hk : known) (u : υ) : c u = d u :=
  h.settled hk u

end Group

end BcmServer.Offline
